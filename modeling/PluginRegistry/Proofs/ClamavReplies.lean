import Mathlib.Data.List.DropRight
import PluginRegistry.Proofs.PushBuilds
import PluginRegistry.Services.Clamav

namespace PluginRegistry
open Lib

theorem toList_strip (s : String) :
    (strip s).toList = (s.toList.dropWhile isSpace).rdropWhile isSpace := by
  simp [strip, stripBy, rstripBy, lstripBy, List.rdropWhile]

/-- Characters that begin with no blank, if they begin at all. -/
theorem head_rdropWhile_dropWhile (p : Char → Bool) (chars : List Char) {c : Char} {rest : List Char}
    (h : (chars.dropWhile p).rdropWhile p = c :: rest) : p c = false := by
  obtain ⟨suffix, hsuffix⟩ := List.rdropWhile_prefix p (l := chars.dropWhile p)
  rw [h, List.cons_append] at hsuffix
  have hhead := List.head?_dropWhile_not p chars
  rw [← hsuffix] at hhead
  simpa using hhead

theorem strip_head {s : String} {c : Char} {rest : List Char}
    (h : (strip s).toList = c :: rest) : isSpace c = false :=
  head_rdropWhile_dropWhile isSpace s.toList (toList_strip s ▸ h)

theorem strip_strip (s : String) : strip (strip s) = strip s := by
  apply String.toList_inj.mp
  rw [toList_strip (strip s)]
  have hdrop : (strip s).toList.dropWhile isSpace = (strip s).toList := by
    cases hs : (strip s).toList with
    | nil => rfl
    | cons c rest => rw [List.dropWhile_cons, strip_head hs, if_neg Bool.false_ne_true]
  rw [hdrop, toList_strip, List.rdropWhile_idempotent]

theorem afterLastFrom_append {separator before after found : List Char}
    (h : afterLastFrom separator after = some found) :
    afterLastFrom separator (before ++ after) = some found := by
  induction before with
  | nil => exact h
  | cons c before ih =>
    rw [List.cons_append, afterLastFrom, ih]
    rfl

/-- Whatever stands in front of a text without the separator, and without a blank at
its head, the text stays whole. -/
theorem afterLastFrom_none {before after : List Char} {c : Char} {rest : List Char}
    (hafter : after = c :: rest) (hc : isSpace c = false)
    (h : afterLastFrom [':', ' '] after = none) {found : List Char}
    (hfound : afterLastFrom [':', ' '] (before ++ after) = some found) : after <:+ found := by
  induction before with
  | nil =>
    rw [List.nil_append, h] at hfound
    cases hfound
  | cons b before ih =>
    rw [List.cons_append, afterLastFrom] at hfound
    cases hrest : afterLastFrom [':', ' '] (before ++ after) with
    | some t =>
      rw [hrest] at hfound
      cases hfound
      exact ih hrest
    | none =>
      rw [hrest, Option.none_or] at hfound
      split at hfound
      · rename_i hprefix
        cases hfound
        cases before with
        | nil =>
          subst hafter
          have hblank : c = ' ' := by
            have hcons := List.isPrefixOf_iff_prefix.mp hprefix
            simp only [List.nil_append, List.cons_prefix_cons] at hcons
            exact hcons.2.1.symm
          rw [hblank] at hc
          cases hc
        | cons d before => exact List.suffix_append ..
      · cases hfound

theorem removeSuffix_toList (ending s : String) :
    (removeSuffix ending s).toList =
      if ending.toList <:+ s.toList then s.toList.take (s.toList.length - ending.toList.length)
      else s.toList := by
  unfold removeSuffix endsWith
  by_cases h : ending.toList <:+ s.toList
  · rw [if_pos (List.isSuffixOf_iff_suffix.mpr h), if_pos h, String.toList_ofList]
  · rw [if_neg (mt List.isSuffixOf_iff_suffix.mp h), if_neg h]

theorem removeSuffix_append {ending s s' : String} {before : List Char}
    (h : s'.toList = before ++ s.toList) (hle : ending.toList.length ≤ s.toList.length) :
    (removeSuffix ending s').toList = before ++ (removeSuffix ending s).toList := by
  have hsame : ending.toList <:+ s'.toList ↔ ending.toList <:+ s.toList := by
    rw [h]
    constructor
    · intro hend
      exact List.suffix_of_suffix_length_le hend (List.suffix_append ..) hle
    · intro hend
      exact hend.trans (List.suffix_append ..)
  rw [removeSuffix_toList, removeSuffix_toList]
  by_cases hend : ending.toList <:+ s.toList
  · rw [if_pos hend, if_pos (hsame.mpr hend), h, List.take_append, List.length_append]
    have hlen : before.length + s.toList.length - ending.toList.length - before.length =
        s.toList.length - ending.toList.length := by omega
    rw [List.take_of_length_le (by omega), hlen]
  · rw [if_neg hend, if_neg (mt hsame.mp hend), h]

theorem length_le_of_textContains {needle s : String} (h : textContains needle s = true) :
    needle.toList.length ≤ s.toList.length := by
  obtain ⟨tail, htail, hprefix⟩ := List.any_eq_true.mp h
  have hfirst := (List.isPrefixOf_iff_prefix.mp hprefix).length_le
  have hlast := ((List.mem_tails ..).mp htail).length_le
  omega

structure Found (reply : String) : Prop where
  trimmed : strip reply = reply
  found : textContains " FOUND" reply = true

theorem Found.removed {reply : String} (h : Found reply) :
    ∃ c rest, (removeSuffix " FOUND" reply).toList = c :: rest ∧ isSpace c = false := by
  have hlen := length_le_of_textContains h.found
  have hhead : ∀ c rest, reply.toList = c :: rest → isSpace c = false :=
    fun c rest hc => strip_head (h.trimmed.symm ▸ hc)
  rw [removeSuffix_toList]
  split
  · rename_i hend
    obtain ⟨front, hfront⟩ := hend
    have htake : reply.toList.take (reply.toList.length - " FOUND".toList.length) = front := by
      rw [← hfront, List.length_append, Nat.add_sub_cancel, List.take_left]
    rw [htake]
    cases front with
    | nil =>
      have hblank := hhead ' ' _ hfront.symm
      cases hblank
    | cons c rest => exact ⟨c, rest, rfl, hhead c _ hfront.symm⟩
  · cases hs : reply.toList with
    | nil =>
      rw [hs] at hlen
      cases hlen
    | cons c rest => exact ⟨c, rest, rfl, hhead c rest hs⟩

theorem isEmpty_toList (s : String) : s.isEmpty = s.toList.isEmpty := by
  by_cases h : s = ""
  · rw [h]
    rfl
  · rw [Bool.eq_false_iff.mpr fun hc => h (String.isEmpty_iff.mp hc), Eq.comm,
      List.isEmpty_eq_false_iff]
    exact fun hc => h (String.toList_eq_nil_iff.mp hc)

theorem clamavFoundSignature_eq {reply : String} {chars : List Char}
    (h : (removeSuffix " FOUND" reply).toList = chars) :
    (clamavFoundSignature reply).toList =
      let signature := (afterLastFrom [':', ' '] chars).getD chars
      if signature.isEmpty then "unknown".toList else signature := by
  have hsep : (": " : String).toList = [':', ' '] := rfl
  unfold clamavFoundSignature afterLast
  dsimp only
  rw [h, hsep]
  cases afterLastFrom [':', ' '] chars with
  | none =>
    rw [Option.map_none, Option.getD_none, Option.getD_none, ← h, isEmpty_toList]
    split <;> rfl
  | some found =>
    rw [Option.map_some, Option.getD_some, Option.getD_some, isEmpty_toList,
      String.toList_ofList]
    split <;> simp

/-- A reply that goes on in front has no shorter signature. -/
theorem Found.signature_le {reply reply' : String} {before : List Char} (h : Found reply)
    (hfront : reply'.toList = before ++ reply.toList) :
    (clamavFoundSignature reply).toList.length ≤ (clamavFoundSignature reply').toList.length := by
  obtain ⟨c, rest, hremoved, hc⟩ := h.removed
  have hremoved' := removeSuffix_append hfront (length_le_of_textContains h.found)
  rw [hremoved] at hremoved'
  rw [clamavFoundSignature_eq hremoved, clamavFoundSignature_eq hremoved']
  cases hlast : afterLastFrom [':', ' '] (c :: rest) with
  | some found =>
    rw [afterLastFrom_append hlast]
    exact le_refl _
  | none =>
    cases hlast' : afterLastFrom [':', ' '] (before ++ c :: rest) with
    | none => simp
    | some found =>
      have hsuffix := (afterLastFrom_none rfl hc hlast hlast').length_le
      cases found with
      | nil => cases hsuffix
      | cons d found => simpa using hsuffix

def detailsHead (fileSize : Option Nat) : String :=
  match fileSize with
  | none => "protocol=INSTREAM" ++ "; "
  | some size => "protocol=INSTREAM" ++ "; " ++ ("artifact_size=" ++ humanBytes size ++ "; ")

theorem clamavMessageDetails_eq (reply : String) (fileSize : Option Nat) :
    clamavMessageDetails reply fileSize =
      detailsHead fileSize ++ ("clamd_reply=\"" ++ reply ++ "\"") := by
  cases fileSize with
  | none =>
    change String.intercalate "; " ["protocol=INSTREAM", "clamd_reply=\"" ++ reply ++ "\""] = _
    rw [String.intercalate_cons_cons, String.intercalate_singleton]
    rfl
  | some size =>
    change String.intercalate "; " ["protocol=INSTREAM", "artifact_size=" ++ humanBytes size,
      "clamd_reply=\"" ++ reply ++ "\""] = _
    rw [String.intercalate_cons_cons, String.intercalate_cons_cons, String.intercalate_singleton,
      ← String.append_assoc]
    rfl

theorem details_inj {reply reply' : String} {fileSize : Option Nat}
    (h : clamavMessageDetails reply fileSize = clamavMessageDetails reply' fileSize) :
    reply = reply' := by
  rw [clamavMessageDetails_eq, clamavMessageDetails_eq, String.append_right_inj,
    String.append_left_inj, String.append_right_inj] at h
  exact h

/-- The message of a signature tells its reply. -/
theorem found_inj {reply reply' : String} {fileSize : Option Nat} (h : Found reply)
    (h' : Found reply')
    (hmessage : clamavFoundSignature reply ++ " (" ++ clamavMessageDetails reply fileSize =
      clamavFoundSignature reply' ++ " (" ++ clamavMessageDetails reply' fileSize) :
    reply = reply' := by
  rw [clamavMessageDetails_eq, clamavMessageDetails_eq] at hmessage
  simp only [← String.append_assoc, String.append_left_inj] at hmessage
  have hchars := congrArg String.toList hmessage
  simp only [String.toList_append, List.append_assoc] at hchars
  generalize detailsHead fileSize = head at hchars
  have hlen := congrArg List.length hchars
  simp only [List.length_append] at hlen
  have hends : ∀ {front : List Char} {r : String}, r.toList <:+
      (front ++ (" (".toList ++ (head.toList ++ ("clamd_reply=\"".toList ++ r.toList)))) := by
    intro front r
    exact ⟨front ++ (" (".toList ++ (head.toList ++ "clamd_reply=\"".toList)), by simp⟩
  -- The reply that is longer in front has a signature that is no shorter.
  have hwhole : ∀ {before : List Char} {r r' : String}, before ++ r.toList = r'.toList →
      r'.toList.length ≤ r.toList.length → r = r' := by
    intro before r r' hfront hle
    have hcount := congrArg List.length hfront
    rw [List.length_append] at hcount
    have hnil : before = [] := List.eq_nil_of_length_eq_zero (by omega)
    rw [hnil, List.nil_append] at hfront
    exact String.toList_inj.mp hfront
  rcases List.suffix_or_suffix_of_suffix hends (hchars ▸ hends) with ⟨before, hb⟩ | ⟨before, hb⟩
  · have hle := h'.signature_le hb.symm
    exact (hwhole hb (by omega)).symm
  · have hle := h.signature_le hb.symm
    exact hwhole hb (by omega)

inductive FailureText (fileSize : Option Nat) : String → String → Prop
  | empty : FailureText fileSize "" "empty response"
  | error (reply : String) : FailureText fileSize reply (clamavMessageDetails reply fileSize)
  | unexpected (reply : String) :
    FailureText fileSize reply
      ("unexpected response (" ++ clamavMessageDetails reply fileSize ++ ")")

theorem head_append {s : String} {c : Char} (h : s.toList.head? = some c) (t : String) :
    (s ++ t).toList.head? = some c := by
  rw [String.toList_append, List.head?_append, h]
  rfl

theorem details_head (reply : String) (fileSize : Option Nat) :
    (clamavMessageDetails reply fileSize).toList.head? = some 'p' := by
  have hfirst : ("protocol=INSTREAM" ++ "; ").toList.head? = some 'p' := head_append (by decide) _
  rw [clamavMessageDetails_eq]
  apply head_append
  cases fileSize with
  | none => exact hfirst
  | some size => exact head_append hfirst _

/-- A failure text determines the reply that it quotes. -/
theorem FailureText.inj {fileSize : Option Nat} {reply reply' text : String}
    (h : FailureText fileSize reply text) (h' : FailureText fileSize reply' text) :
    reply = reply' := by
  have hempty : ("empty response" : String).toList.head? = some 'e' := by decide
  have hunexpected : ∀ t : String, ("unexpected response (" ++ t ++ ")").toList.head? = some 'u' :=
    fun t => head_append (head_append (by decide) t) ")"
  cases h with
  | empty =>
    generalize htext : ("empty response" : String) = text at h'
    cases h' with
    | empty => rfl
    | error =>
      rw [htext, details_head] at hempty
      cases hempty
    | unexpected =>
      rw [htext, hunexpected] at hempty
      cases hempty
  | error =>
    have hp := details_head reply fileSize
    generalize htext : clamavMessageDetails reply fileSize = text at h' hp
    cases h' with
    | empty =>
      rw [hempty] at hp
      cases hp
    | error => exact details_inj htext
    | unexpected =>
      rw [hunexpected] at hp
      cases hp
  | unexpected =>
    have hu := hunexpected (clamavMessageDetails reply fileSize)
    generalize htext : "unexpected response (" ++ clamavMessageDetails reply fileSize ++ ")" = text
      at h' hu
    cases h' with
    | empty =>
      rw [hempty] at hu
      cases hu
    | error =>
      rw [details_head] at hu
      cases hu
    | unexpected =>
      rw [String.append_left_inj, String.append_right_inj] at htext
      exact details_inj htext

inductive ReplyVerdict (fileSize : Option Nat) (reply : String) : ScanOutcome → Prop
  | passed : ReplyVerdict fileSize reply
      { passed := some true
        message := "ClamAV passed: no signature match (" ++ clamavMessageDetails reply fileSize ++ ")"
        mode := .real }
  | found (h : Found reply) : ReplyVerdict fileSize reply
      { passed := some false
        message := "ClamAV detected malware signature: " ++ clamavFoundSignature reply ++
          " (" ++ clamavMessageDetails reply fileSize ++ ")"
        mode := .real }
  | failed (text : String) (h : FailureText fileSize reply text) : ReplyVerdict fileSize reply
      { passed := some false, message := "ClamAV scan failed: " ++ text, mode := .error }

/-- Every reply, stripped, gets the verdict of its kind. -/
theorem formatClamavReply_verdict (reply : String) (fileSize : Option Nat) :
    ReplyVerdict fileSize (strip reply) (formatClamavReply reply fileSize) := by
  have htrimmed := strip_strip reply
  unfold formatClamavReply
  generalize strip reply = normalized at htrimmed
  dsimp only
  split
  · rename_i hempty
    rw [String.isEmpty_iff] at hempty
    subst hempty
    exact .failed _ .empty
  · split
    · exact .passed
    · split
      · rename_i hfound
        exact .found ⟨htrimmed, hfound⟩
      · split
        · exact .failed _ (.error normalized)
        · have htext : "ClamAV scan failed: unexpected response (" ++
              clamavMessageDetails normalized fileSize ++ ")" = "ClamAV scan failed: " ++
                ("unexpected response (" ++ clamavMessageDetails normalized fileSize ++ ")") := by
            simp only [← String.append_assoc]
            rfl
          rw [htext]
          exact .failed _ (.unexpected normalized)

/-- No two replies get one outcome, for each message quotes its reply. -/
theorem ReplyVerdict.inj {fileSize : Option Nat} {reply reply' : String} {outcome : ScanOutcome}
    (h : ReplyVerdict fileSize reply outcome) (h' : ReplyVerdict fileSize reply' outcome) :
    reply = reply' := by
  cases h with
  | passed =>
    generalize hmessage : "ClamAV passed: no signature match (" ++
      clamavMessageDetails reply fileSize ++ ")" = message at h'
    cases h'
    rw [String.append_left_inj, String.append_right_inj] at hmessage
    exact details_inj hmessage
  | found h =>
    generalize hmessage : "ClamAV detected malware signature: " ++ clamavFoundSignature reply ++
      " (" ++ clamavMessageDetails reply fileSize ++ ")" = message at h'
    cases h' with
    | found h' =>
      simp only [String.append_assoc, String.append_right_inj] at hmessage
      simp only [← String.append_assoc, String.append_left_inj] at hmessage
      exact found_inj h h' hmessage
  | failed text h =>
    generalize hmessage : "ClamAV scan failed: " ++ text = message at h'
    cases h' with
    | failed text' h' =>
      rw [String.append_right_inj] at hmessage
      subst hmessage
      exact h.inj h'

/-- Two replies have one outcome only if they are one text. -/
theorem formatClamavReply_eq_iff {reply reply' : String} (fileSize : Option Nat) :
    formatClamavReply reply fileSize = formatClamavReply reply' fileSize ↔
      strip reply = strip reply' := by
  constructor
  · intro h
    have hverdict := formatClamavReply_verdict reply fileSize
    rw [h] at hverdict
    exact hverdict.inj (formatClamavReply_verdict reply' fileSize)
  · intro h
    unfold formatClamavReply
    rw [h]

def wholeOutcome (config : ClamavConfig) (fileSize : Nat) (segments : List (List UInt8)) :
    Except PyErr ScanOutcome :=
  scanClamav config fileSize (.ok (replyText segments.flatten))

def marks (data : List UInt8) : List Char :=
  (decodeAfter 0 data).filter (· ≠ '\x00')

structure Trims (chars core : List Char) : Prop where
  split : ∃ front back, chars = front ++ (core ++ back) ∧ (∀ c ∈ front, isSpace c = true) ∧
    ∀ c ∈ back, isSpace c = true
  first : ∀ c ∈ core.head?, isSpace c = false
  last : ∀ c ∈ core.getLast?, isSpace c = false

theorem removeFrom_single (c : Char) (chars : List Char) :
    removeFrom [c] 0 chars = chars.filter (· ≠ c) := by
  induction chars with
  | nil => rfl
  | cons d chars ih =>
    rw [removeFrom, List.filter_cons]
    by_cases hd : c = d
    · subst hd
      simpa using ih
    · simpa [hd, Ne.symm hd] using ih

theorem toList_replyText (data : List UInt8) :
    (replyText data).toList = ((marks data).dropWhile isSpace).rdropWhile isSpace := by
  have hnul : ("\x00" : String).toList = ['\x00'] := rfl
  rw [replyText, toList_strip, removeText, String.toList_ofList, hnul, removeFrom_single,
    decodeReplace, String.toList_ofList]
  rfl

theorem Trims.eq {chars core : List Char} (h : Trims chars core) :
    (chars.dropWhile isSpace).rdropWhile isSpace = core := by
  obtain ⟨front, back, rfl, hfront, hback⟩ := h.split
  rw [List.dropWhile_append_of_pos hfront]
  have hrev : ∀ c ∈ back.reverse, isSpace c = true := fun c hc => hback c (List.mem_reverse.mp hc)
  cases hcore : core with
  | nil => rw [List.nil_append, List.dropWhile_eq_nil_iff.mpr hback, List.rdropWhile_nil]
  | cons c rest =>
    have hfirst := h.first c (by simp [hcore])
    rw [List.cons_append, List.dropWhile_cons_of_neg (by simp [hfirst]), ← List.cons_append, ← hcore,
      List.rdropWhile, List.reverse_append, List.dropWhile_append_of_pos hrev]
    cases hlast : core.reverse with
    | nil =>
      rw [List.reverse_eq_nil_iff.mp hlast]
      rfl
    | cons d rest' =>
      have hd := h.last d (by rw [List.getLast?_eq_head?_reverse, hlast]; rfl)
      rw [List.dropWhile_cons_of_neg (by simp [hd]), ← hlast, List.reverse_reverse]

theorem trims_strip (chars : List Char) :
    Trims chars ((chars.dropWhile isSpace).rdropWhile isSpace) where
  split := by
    refine ⟨chars.takeWhile isSpace,
      ((chars.dropWhile isSpace).reverse.takeWhile isSpace).reverse, ?_, ?_, ?_⟩
    · rw [List.rdropWhile, ← List.reverse_append, List.takeWhile_append_dropWhile,
        List.reverse_reverse, List.takeWhile_append_dropWhile]
    · exact fun c hc => List.mem_takeWhile_imp hc
    · exact fun c hc => List.mem_takeWhile_imp (List.mem_reverse.mp hc)
  first := by
    intro c hc
    obtain ⟨rest, hrest⟩ := List.head?_eq_some_iff.mp hc
    exact head_rdropWhile_dropWhile isSpace chars hrest
  last := by
    intro c hc
    rw [List.getLast?_eq_head?_reverse, List.rdropWhile, List.reverse_reverse] at hc
    have hhead := List.head?_dropWhile_not isSpace (chars.dropWhile isSpace).reverse
    rw [hc] at hhead
    simpa using hhead

/-- However a reply is split, the outcome is that of the whole reply exactly if the
first segment that is not empty, or its first 4096 bytes, decodes to the text of the
whole, blanks and NULs apart; a file beyond the limit is not sent at all. -/
theorem split_reply_iff (config : ClamavConfig) (fileSize : Nat) (segments : List (List UInt8)) :
    scanClamav config fileSize (clamavInstream (.ok segments)) =
        wholeOutcome config fileSize segments ↔
      config.streamLimit < fileSize ∨
        ∃ core, Trims (marks (streamRead 4096 segments)) core ∧
          Trims (marks segments.flatten) core := by
  unfold wholeOutcome scanClamav
  by_cases hlimit : config.streamLimit < fileSize
  · rw [if_pos hlimit, if_pos hlimit]
    exact iff_of_true rfl (Or.inl hlimit)
  · have hstrip : ∀ data, strip (replyText data) = replyText data := fun data => strip_strip _
    rw [if_neg hlimit, if_neg hlimit, or_iff_right hlimit]
    change Except.ok (formatClamavReply (replyText (streamRead 4096 segments)) _) = _ ↔ _
    rw [Except.ok.injEq, formatClamavReply_eq_iff, hstrip, hstrip, ← String.toList_inj,
      toList_replyText, toList_replyText]
    constructor
    · intro h
      exact ⟨_, trims_strip _, h ▸ trims_strip _⟩
    · rintro ⟨core, hread, hwhole⟩
      exact hread.eq.trans hwhole.eq.symm

def passes (outcome : Except PyErr ScanOutcome) : Option Bool :=
  outcome.toOption.bind (·.passed)

/-- A clean reply in two segments fails, and a signature in two segments passes. -/
theorem split_reply_misread :
    (passes (wholeOutcome RuntimeConfig.default.clamav 0 [utf8 "stream: O", utf8 "K\x00"]) =
        some true ∧
      passes (scanClamav RuntimeConfig.default.clamav 0
        (clamavInstream (.ok [utf8 "stream: O", utf8 "K\x00"]))) = some false) ∧
    passes (wholeOutcome RuntimeConfig.default.clamav 0
        [utf8 "stream: A OK", utf8 " FOUND\x00"]) = some false ∧
      passes (scanClamav RuntimeConfig.default.clamav 0
        (clamavInstream (.ok [utf8 "stream: A OK", utf8 " FOUND\x00"]))) = some true := by
  decide +kernel

end PluginRegistry
