import PluginRegistry.Clients.ConfigFile
import PluginRegistry.Proofs.PluginKeys

namespace PluginRegistry
open Acprctl

theorem toList_stripBy (p : Char → Bool) (s : String) :
    (stripBy p s).toList = (s.toList.dropWhile p).rdropWhile p := by
  simp [stripBy, rstripBy, lstripBy, List.rdropWhile]

theorem rdropWhile_append_cons {p : Char → Bool} {c : Char} (h : p c = false)
    (front back : List Char) :
    (front ++ c :: back).rdropWhile p = front ++ c :: back.rdropWhile p := by
  have hc : ¬ p c = true := by simp [h]
  simp only [List.rdropWhile, List.reverse_append, List.reverse_cons, List.append_assoc,
    List.singleton_append, List.dropWhile_append, List.dropWhile_cons_of_neg hc]
  split
  · rename_i hback
    rw [List.isEmpty_iff.mp hback]
    simp
  · simp

/-- Either side may be trimmed first. -/
theorem rdropWhile_dropWhile (p : Char → Bool) (chars : List Char) :
    (chars.dropWhile p).rdropWhile p = (chars.rdropWhile p).dropWhile p := by
  induction chars with
  | nil => rfl
  | cons c chars ih =>
    cases hc : p c with
    | false =>
      have hcons := rdropWhile_append_cons hc [] chars
      rw [List.nil_append, List.nil_append] at hcons
      rw [List.dropWhile_cons_of_neg (by simp [hc]), hcons,
        List.dropWhile_cons_of_neg (by simp [hc])]
    | true =>
      rw [List.dropWhile_cons_of_pos hc, ih]
      by_cases hall : ∀ d ∈ chars, p d = true
      · have hwhole : ∀ d ∈ c :: chars, p d = true := List.forall_mem_cons.mpr ⟨hc, hall⟩
        rw [List.rdropWhile_eq_nil_iff.mpr hall, List.rdropWhile_eq_nil_iff.mpr hwhole]
      · have hne : (c :: chars).rdropWhile p = c :: chars.rdropWhile p := by
          have hrest : ¬ (chars.reverse.dropWhile p).isEmpty = true := by
            rw [List.isEmpty_iff, List.dropWhile_eq_nil_iff]
            simpa using hall
          simp only [List.rdropWhile, List.reverse_cons, List.dropWhile_append]
          rw [if_neg hrest]
          simp
        rw [hne, List.dropWhile_cons_of_pos hc]

def Edge (c : Char) (chars : List Char) : Prop :=
  chars.head? = some c ∨ chars.getLast? = some c

theorem stripBy_within (p : Char → Bool) (s : String) : (stripBy p s).toList <:+: s.toList := by
  rw [toList_stripBy]
  exact (List.rdropWhile_prefix p _).isInfix.trans (List.dropWhile_suffix p).isInfix

theorem stripBy_eq_self_iff {p : Char → Bool} {s : String} :
    stripBy p s = s ↔ ∀ c, Edge c s.toList → p c = false := by
  rw [← String.toList_inj, toList_stripBy]
  generalize s.toList = chars
  constructor
  · intro h c hc
    have hdrop : chars.dropWhile p = chars := by
      apply (List.dropWhile_suffix p).eq_of_length_le
      have hle := (List.rdropWhile_prefix p (l := chars.dropWhile p)).length_le
      rwa [h] at hle
    rw [hdrop] at h
    rcases hc with hc | hc
    · have hhead := List.head?_dropWhile_not p chars
      rw [hdrop, hc] at hhead
      simpa using hhead
    · have hlast := List.rdropWhile_eq_self_iff.mp h
      have hne : chars ≠ [] := by
        rintro rfl
        cases hc
      have hno := hlast hne
      rw [(List.getLast_eq_iff_getLast?_eq_some hne).mpr hc] at hno
      simpa using hno
  · intro h
    have hdrop : chars.dropWhile p = chars := by
      cases chars with
      | nil => rfl
      | cons c rest => exact List.dropWhile_cons_of_neg (by simp [h c (Or.inl rfl)])
    rw [hdrop, List.rdropWhile_eq_self_iff]
    intro hne
    simp [h _ (Or.inr (List.getLast?_eq_some_getLast hne))]

/-- A text that two trimmings leave as it was is left so by each. -/
theorem stripBy_stripBy_eq_iff {p q : Char → Bool} {s : String} :
    stripBy q (stripBy p s) = s ↔ stripBy p s = s ∧ stripBy q s = s := by
  constructor
  · intro h
    have hinner : stripBy p s = s := by
      apply String.toList_inj.mp
      apply (stripBy_within p s).eq_of_length_le
      have hle := (stripBy_within q (stripBy p s)).length_le
      rwa [h] at hle
    rw [hinner] at h
    exact ⟨hinner, h⟩
  · rintro ⟨hp, hq⟩
    rw [hp, hq]

/-- What is trimmed off consists of trimmed characters. -/
theorem stripBy_split (p : Char → Bool) (s : String) :
    ∃ front back, s.toList = front ++ (stripBy p s).toList ++ back ∧
      ∀ c ∈ front ++ back, p c = true := by
  refine ⟨s.toList.takeWhile p, (s.toList.dropWhile p).rtakeWhile p, ?_, ?_⟩
  · rw [toList_stripBy, List.append_assoc, List.rdropWhile_append_rtakeWhile,
      List.takeWhile_append_dropWhile]
  · intro c hc
    rcases List.mem_append.mp hc with hc | hc
    · exact List.mem_takeWhile_imp hc
    · exact List.mem_rtakeWhile_imp hc

def readBack (value : String) : String :=
  stripBy isQuote (trimSpace (yamlScalar value))

theorem trimSpace_removeSuffix (text : String) :
    trimSpace (removeSuffix "\r" text) = trimSpace text := by
  unfold removeSuffix endsWith
  split
  · rename_i hends
    obtain ⟨front, hfront⟩ := List.isSuffixOf_iff_suffix.mp hends
    have hreturn : "\r".toList = ['\r'] := rfl
    rw [hreturn] at hfront
    apply String.toList_inj.mp
    unfold trimSpace
    have hend : Acprctl.isSpace '\r' = true := by decide
    rw [toList_stripBy, toList_stripBy, rdropWhile_dropWhile, rdropWhile_dropWhile, ← hfront,
      List.rdropWhile_concat_pos _ _ _ hend, String.toList_ofList, hreturn, List.length_append,
      List.length_singleton, Nat.add_sub_cancel, List.take_left]
  · rfl

/-- What the keys of the configuration are made of. -/
theorem configKeys_plain {key : String} (h : key ∈ configKeys) :
    key ≠ "" ∧ ∀ c ∈ key.toList,
      Acprctl.isSpace c = false ∧ c ≠ ':' ∧ c ≠ '#' ∧ c ≠ '\n' := by
  have hall : (configKeys.all fun key => key ≠ "" && key.toList.all fun c =>
      !Acprctl.isSpace c && c ≠ ':' && c ≠ '#' && c ≠ '\n') = true := by
    decide
  have hkey := List.all_eq_true.mp hall key h
  simpa [and_assoc] using hkey

theorem trimSpace_line {key : String} (h : key ∈ configKeys) (value : String) :
    trimSpace (configLine key value) =
      key ++ ":" ++ String.ofList ((' ' :: (yamlScalar value).toList).rdropWhile Acprctl.isSpace) := by
  obtain ⟨hne, hplain⟩ := configKeys_plain h
  have hcolon : (":" : String).toList = [':'] := rfl
  have hblank : (": " : String).toList = [':', ' '] := rfl
  apply String.toList_inj.mp
  unfold trimSpace configLine
  rw [toList_stripBy, String.toList_append, String.toList_append, String.toList_append,
    String.toList_append, hcolon, hblank, String.toList_ofList, List.append_assoc, List.append_assoc]
  cases hkey : key.toList with
  | nil => exact absurd (String.toList_inj.mp hkey) hne
  | cons c rest =>
    have hc := (hplain c (by simp [hkey])).1
    rw [List.cons_append, List.dropWhile_cons_of_neg (by simp [hc]), ← List.cons_append]
    exact rdropWhile_append_cons (by decide) (c :: rest) (' ' :: (yamlScalar value).toList)

/-- A written line is read back as its key with the value as the quotes leave it, unless it
is too long for the scanner. -/
theorem readLine_configLine {key : String} (h : key ∈ configKeys) (values : ConfigValues)
    (value : String) :
    readLine values (configLine key value) =
      if maxScanTokenSize ≤ (configLine key value).utf8ByteSize then
        .error "failed to read config file: bufio.Scanner: token too long"
      else .ok (Function.update values key (some (readBack value))) := by
  obtain ⟨hne, hplain⟩ := configKeys_plain h
  unfold readLine
  split
  · rfl
  have htrim : trimSpace key = key := by
    apply stripBy_eq_self_iff.mpr
    intro c hc
    have hmem : c ∈ key.toList := by
      rcases hc with hc | hc
      · exact List.mem_of_mem_head? hc
      · exact List.mem_of_getLast? hc
    exact (hplain c hmem).1
  have hcolon : ':' ∉ key.toList := by
    intro hmem
    exact (hplain ':' hmem).2.1 rfl
  have hvalue : trimSpace
      (String.ofList ((' ' :: (yamlScalar value).toList).rdropWhile Acprctl.isSpace)) =
        trimSpace (yamlScalar value) := by
    have hblank : Acprctl.isSpace ' ' = true := by decide
    apply String.toList_inj.mp
    unfold trimSpace
    rw [toList_stripBy, toList_stripBy, String.toList_ofList, rdropWhile_dropWhile,
      List.rdropWhile_idempotent, ← rdropWhile_dropWhile, List.dropWhile_cons_of_pos hblank]
  have hcomment : startsWith "#" (trimSpace (configLine key value)) = false := by
    rw [trimSpace_line h]
    cases hkey : key.toList with
    | nil => exact absurd (String.toList_inj.mp hkey) hne
    | cons c rest =>
      have hc := (hplain c (by simp [hkey])).2.2.1
      have hsharp : ("#" : String).toList = ['#'] := rfl
      simp [startsWith, hkey, hsharp, List.isPrefixOf, Ne.symm hc]
  have hempty : trimSpace (configLine key value) ≠ "" := by
    rw [trimSpace_line h]
    simp [hne]
  rw [trimSpace_removeSuffix]
  dsimp only
  rw [hcomment, decide_eq_false hempty, trimSpace_line h, splitOnce_append rfl hcolon]
  dsimp only
  rw [htrim, hvalue, if_pos hne]
  rfl

structure Survives (key value : String) : Prop where
  newline : '\n' ∉ value.toList
  size : key.utf8ByteSize + 2 + value.utf8ByteSize + (if needsQuotes value then 2 else 0) <
    maxScanTokenSize
  quotes : ∀ c, Edge c value.toList → isQuote c = false
  inside : if needsQuotes value then '"' ∉ value.toList
    else ∀ c, Edge c value.toList → Acprctl.isSpace c = false

def escapeQuotes (chars : List Char) : List Char :=
  chars.flatMap fun c => if c = '"' then ['\\', '"'] else [c]

theorem escapeQuotes_length (chars : List Char) :
    (escapeQuotes chars).length = chars.length + chars.count '"' := by
  induction chars with
  | nil => rfl
  | cons c chars ih =>
    unfold escapeQuotes at ih ⊢
    rw [List.flatMap_cons, List.length_append, ih, List.length_cons, List.count_cons]
    by_cases hc : c = '"'
    · subst hc
      simp
      omega
    · simp [hc]
      omega

theorem escapeQuotes_count {quote : Char} (h : isQuote quote = true) (chars : List Char) :
    (escapeQuotes chars).count quote = chars.count quote := by
  have hslash : quote ≠ '\\' := by
    rintro rfl
    cases h
  induction chars with
  | nil => rfl
  | cons c chars ih =>
    unfold escapeQuotes at ih ⊢
    rw [List.flatMap_cons, List.count_append, ih, List.count_cons]
    by_cases hc : c = '"'
    · subst hc
      simp [List.count_cons, Ne.symm hslash]
      omega
    · simp [hc, List.count_cons]
      omega

theorem escapeQuotes_plain {chars : List Char} (h : '"' ∉ chars) : escapeQuotes chars = chars := by
  induction chars with
  | nil => rfl
  | cons c chars ih =>
    obtain ⟨hc, hchars⟩ := not_or.mp (List.mem_cons.not.mp h)
    unfold escapeQuotes at ih ⊢
    rw [List.flatMap_cons, ih hchars, if_neg (Ne.symm hc)]
    rfl

/-- Trimming cannot undo the escapes: it would have to take quotes away. -/
theorem stripBy_escapeQuotes_iff {value : String} :
    stripBy isQuote (String.ofList (escapeQuotes value.toList)) = value ↔
      '"' ∉ value.toList ∧ ∀ c, Edge c value.toList → isQuote c = false := by
  constructor
  · intro h
    obtain ⟨front, back, hsplit, hquotes⟩ :=
      stripBy_split isQuote (String.ofList (escapeQuotes value.toList))
    rw [h, String.toList_ofList] at hsplit
    have hnone : ∀ c ∈ front ++ back, False := by
      intro c hc
      have hquote := hquotes c hc
      have hcount := escapeQuotes_count hquote value.toList
      have hpos := List.count_pos_iff.mpr hc
      rw [hsplit, List.count_append, List.count_append] at hcount
      rw [List.count_append] at hpos
      omega
    have hempty : front ++ back = [] := List.eq_nil_iff_forall_not_mem.mpr hnone
    obtain ⟨rfl, rfl⟩ := List.append_eq_nil_iff.mp hempty
    rw [List.nil_append, List.append_nil] at hsplit
    refine ⟨?_, ?_⟩
    · have hlength := escapeQuotes_length value.toList
      rw [hsplit] at hlength
      exact List.count_eq_zero.mp (by omega)
    · rw [hsplit, String.ofList_toList] at h
      exact stripBy_eq_self_iff.mp h
  · rintro ⟨hplain, hedges⟩
    rw [escapeQuotes_plain hplain, String.ofList_toList]
    exact stripBy_eq_self_iff.mpr hedges

theorem stripBy_quoted (inner : String) :
    stripBy isQuote (trimSpace ("\"" ++ inner ++ "\"")) = stripBy isQuote inner := by
  have hquote : ("\"" : String).toList = ['"'] := rfl
  have htrim : trimSpace ("\"" ++ inner ++ "\"") = "\"" ++ inner ++ "\"" := by
    apply stripBy_eq_self_iff.mpr
    intro c hc
    rw [String.toList_append, String.toList_append, hquote] at hc
    have hc : c = '"' := by
      rcases hc with hc | hc
      · simpa using hc.symm
      · rw [List.getLast?_concat] at hc
        exact (Option.some.inj hc).symm
    subst hc
    decide
  rw [htrim]
  apply String.toList_inj.mp
  have hpos : isQuote '"' = true := by decide
  rw [toList_stripBy, toList_stripBy, String.toList_append, String.toList_append, hquote,
    List.append_assoc, List.singleton_append, List.dropWhile_cons_of_pos hpos, rdropWhile_dropWhile,
    List.rdropWhile_concat_pos _ _ _ hpos, ← rdropWhile_dropWhile]

theorem readBack_eq_iff {value : String} :
    readBack value = value ↔
      (∀ c, Edge c value.toList → isQuote c = false) ∧
        if needsQuotes value then '"' ∉ value.toList
        else ∀ c, Edge c value.toList → Acprctl.isSpace c = false := by
  unfold readBack yamlScalar
  by_cases hempty : value = ""
  · subst hempty
    have hno : ∀ c, ¬ Edge c ("" : String).toList := by
      rintro c (hc | hc)
      · cases hc
      · cases hc
    exact iff_of_true (by decide) ⟨fun c hc => absurd hc (hno c), fun c hc => absurd hc (hno c)⟩
  rw [if_neg hempty]
  by_cases hquotes : needsQuotes value = true
  · rw [if_pos hquotes, if_pos hquotes]
    dsimp only
    rw [stripBy_quoted, and_comm]
    exact stripBy_escapeQuotes_iff
  · rw [if_neg hquotes, if_neg hquotes]
    unfold trimSpace
    rw [stripBy_stripBy_eq_iff, stripBy_eq_self_iff, stripBy_eq_self_iff, and_comm]

theorem configLine_newline {key value : String} (h : key ∈ configKeys)
    (hvalue : '\n' ∉ value.toList) : '\n' ∉ (configLine key value).toList := by
  have hscalar : '\n' ∉ (yamlScalar value).toList := by
    unfold yamlScalar
    split
    · decide
    split
    · intro hmem
      have hquote : ("\"" : String).toList = ['"'] := rfl
      simp only [String.toList_append, String.toList_ofList, hquote, List.mem_append,
        List.mem_flatMap, List.mem_singleton] at hmem
      rcases hmem with (hmem | ⟨c, hc, hmem⟩) | hmem
      · cases hmem
      · split at hmem
        · simp at hmem
        · rw [List.mem_singleton] at hmem
          exact hvalue (hmem ▸ hc)
      · cases hmem
    · exact hvalue
  have hkey : '\n' ∉ key.toList := fun hmem => ((configKeys_plain h).2 '\n' hmem).2.2.2 rfl
  have hblank : (": " : String).toList = [':', ' '] := rfl
  unfold configLine
  simp [hblank, hkey, hscalar]

/-- The line of a value is as long as `Survives` counts it. -/
theorem configLine_size {key value : String} (h : key ∈ configKeys)
    (hquotes : needsQuotes value = true → '"' ∉ value.toList) :
    maxScanTokenSize ≤ (configLine key value).utf8ByteSize ↔
      maxScanTokenSize ≤
        key.utf8ByteSize + 2 + value.utf8ByteSize + (if needsQuotes value then 2 else 0) := by
  unfold configLine yamlScalar
  split
  · rename_i hempty
    subst hempty
    have hall : (configKeys.all fun key => decide (key.utf8ByteSize < 20)) = true := by decide
    have hkey := of_decide_eq_true (List.all_eq_true.mp hall key h)
    have hsizes : (": " : String).utf8ByteSize = 2 ∧ ("\"\"" : String).utf8ByteSize = 2 ∧
        ("" : String).utf8ByteSize = 0 ∧ maxScanTokenSize = 65536 := by decide
    rw [String.utf8ByteSize_append, String.utf8ByteSize_append]
    split <;> omega
  split
  · rename_i hneeds
    have hplain := escapeQuotes_plain (hquotes hneeds)
    unfold escapeQuotes at hplain
    have hsizes : (": " : String).utf8ByteSize = 2 ∧ ("\"" : String).utf8ByteSize = 1 := by decide
    simp only [String.utf8ByteSize_append, hplain, String.ofList_toList, hsizes.1, hsizes.2]
    omega
  · have hsize : (": " : String).utf8ByteSize = 2 := by decide
    simp only [String.utf8ByteSize_append, hsize]
    omega

def configLines (values : ConfigValues) (keys : List String) : List String :=
  keys.filterMap fun key => (values key).map (configLine key)

theorem mem_configLines {values : ConfigValues} {keys : List String} {line : String} :
    line ∈ configLines values keys ↔
      ∃ key ∈ keys, ∃ value, values key = some value ∧ configLine key value = line := by
  simp [configLines]

theorem scanLines_join {lines : List String} (h : ∀ line ∈ lines, '\n' ∉ line.toList) :
    scanLines (String.join (lines.map (· ++ "\n"))) = lines := by
  have hsplit : splitText '\n' (String.join (lines.map (· ++ "\n"))) = lines ++ [""] := by
    induction lines with
    | nil => rfl
    | cons line lines ih =>
      obtain ⟨hline, hlines⟩ := List.forall_mem_cons.mp h
      have hnewline : ("\n" : String).toList = ['\n'] := rfl
      have hrest := ih hlines
      unfold splitText at hrest ⊢
      rw [List.map_cons, String.join_cons, String.toList_append, String.toList_append, hnewline,
        List.append_assoc, List.singleton_append, List.splitOn_append_cons_self,
        List.splitOn_eq_singleton hline, List.map_append, hrest]
      simp
  unfold scanLines
  rw [hsplit]
  simp

theorem mem_removeSuffix {ending s : String} {c : Char} (h : c ∈ (removeSuffix ending s).toList) :
    c ∈ s.toList := by
  unfold removeSuffix at h
  split at h
  · rw [String.toList_ofList] at h
    exact List.mem_of_mem_take h
  · exact h

theorem scanLines_newline {text line : String} (h : line ∈ scanLines text) :
    '\n' ∉ line.toList := by
  have hpart : line ∈ splitText '\n' text := by
    unfold scanLines at h
    dsimp only at h
    split at h
    · exact List.mem_of_mem_dropLast h
    · exact h
  obtain ⟨part, hmem, rfl⟩ := List.mem_map.mp hpart
  rw [String.toList_ofList]
  exact not_mem_of_mem_splitOn hmem

/-- A line without newlines gives no value with a newline. -/
theorem readLine_newline {values read : ConfigValues} {text : String}
    (hvalues : ∀ key value, values key = some value → '\n' ∉ value.toList)
    (htext : '\n' ∉ text.toList) (h : readLine values text = .ok read) :
    ∀ key value, read key = some value → '\n' ∉ value.toList := by
  unfold readLine at h
  split at h
  · cases h
  dsimp only at h
  have hline : '\n' ∉ (trimSpace (removeSuffix "\r" text)).toList := by
    intro hmem
    exact htext (mem_removeSuffix ((stripBy_within _ _).mem hmem))
  generalize trimSpace (removeSuffix "\r" text) = line at h hline
  split at h
  · obtain rfl := Except.ok.inj h
    exact hvalues
  have hcolon : (":" : String).toList = [':'] := rfl
  rcases splitOnce_cases hcolon line with ⟨_, hnone⟩ | ⟨front, rest, hsplit, _, hsome⟩
  · rw [hnone] at h
    cases h
  · rw [hsome] at h
    dsimp only at h
    obtain rfl := Except.ok.inj h
    have hrest : '\n' ∉ (stripBy isQuote (trimSpace rest)).toList := by
      intro hmem
      apply hline
      rw [hsplit, String.toList_append]
      exact List.mem_append_right _ ((stripBy_within _ _).mem ((stripBy_within _ _).mem hmem))
    intro key value hvalue
    split at hvalue
    · by_cases hkey : key = trimSpace front
      · rw [hkey, Function.update_self] at hvalue
        rwa [← Option.some.inj hvalue]
      · rw [Function.update_of_ne hkey] at hvalue
        exact hvalues key value hvalue
    · exact hvalues key value hvalue

/-- Reading the lines of distinct keys gives each key what its line says. -/
theorem readLines {values acc read : ConfigValues} {keys : List String}
    (hkeys : keys ⊆ configKeys) (hnodup : keys.Nodup)
    (h : (configLines values keys).foldlM readLine acc = .ok read) :
    (∀ key ∈ keys, ∀ value, values key = some value → read key = some (readBack value)) ∧
      ∀ key ∉ keys, read key = acc key := by
  induction keys generalizing acc with
  | nil =>
    cases h
    exact ⟨by simp, fun _ _ => rfl⟩
  | cons key keys ih =>
    obtain ⟨hkey, hkeys⟩ := List.cons_subset.mp hkeys
    obtain ⟨hfresh, hnodup⟩ := List.nodup_cons.mp hnodup
    cases hvalue : values key with
    | none =>
      have hlines : configLines values (key :: keys) = configLines values keys := by
        simp [configLines, hvalue]
      rw [hlines] at h
      obtain ⟨hread, hothers⟩ := ih hkeys hnodup h
      refine ⟨?_, fun other hother => hothers other (List.not_mem_of_not_mem_cons hother)⟩
      intro other hother value hsome
      rcases List.mem_cons.mp hother with rfl | hother
      · rw [hvalue] at hsome
        cases hsome
      · exact hread other hother value hsome
    | some value =>
      have hlines : configLines values (key :: keys) =
          configLine key value :: configLines values keys := by
        simp [configLines, hvalue]
      rw [hlines] at h
      obtain ⟨next, hstep, hrest⟩ := Lib.foldlM_cons_ok h
      rw [readLine_configLine hkey] at hstep
      split at hstep
      · cases hstep
      cases hstep
      obtain ⟨hread, hothers⟩ := ih hkeys hnodup hrest
      constructor
      · intro other hother text hsome
        rcases List.mem_cons.mp hother with rfl | hother
        · rw [hvalue] at hsome
          cases hsome
          rw [hothers other hfresh, Function.update_self]
        · exact hread other hother text hsome
      · intro other hother
        obtain ⟨hne, hother⟩ := not_or.mp (List.mem_cons.not.mp hother)
        rw [hothers other hother, Function.update_of_ne hne]

/-- The configuration is read back as it was written exactly if every value survives. -/
theorem config_read_back_iff (values : ConfigValues) :
    (∃ read, readConfig (some (writeConfig values)) = .ok (read, true) ∧
        ∀ key ∈ configKeys, ∀ value, values key = some value → read key = some value) ↔
      ∀ key ∈ configKeys, ∀ value, values key = some value → Survives key value := by
  have hnodup : configKeys.Nodup := by decide
  have hwritten : writeConfig values =
      String.join ((configLines values configKeys).map (· ++ "\n")) := rfl
  have hread : ∀ read, readConfig (some (writeConfig values)) = .ok (read, true) ↔
      (scanLines (writeConfig values)).foldlM readLine (fun _ => none) = .ok read := by
    intro read
    unfold readConfig
    dsimp only
    cases (scanLines (writeConfig values)).foldlM readLine fun _ => none with
    | error e => simp [Except.map]
    | ok read' => simp [Except.map]
  constructor
  · rintro ⟨read, hok, hkept⟩
    rw [hread] at hok
    have hvalues : ∀ key value, read key = some value → '\n' ∉ value.toList := by
      refine Lib.foldlM_keeps (fun _ _ => ()) (fun read _ => ∀ key value,
        read key = some value → '\n' ∉ value.toList) ?_ (g := ()) (by simp) hok
      intro line hline values _ read hbefore hstep
      exact readLine_newline hbefore (scanLines_newline hline) hstep
    have hnewline : ∀ line ∈ configLines values configKeys, '\n' ∉ line.toList := by
      intro line hline
      obtain ⟨key, hkey, value, hvalue, rfl⟩ := mem_configLines.mp hline
      exact configLine_newline hkey (hvalues key value (hkept key hkey value hvalue))
    rw [hwritten, scanLines_join hnewline] at hok
    have hlines := (readLines (fun _ hkey => hkey) hnodup hok).1
    intro key hkey value hvalue
    have hback : readBack value = value := by
      have hboth := hlines key hkey value hvalue
      rw [hkept key hkey value hvalue] at hboth
      exact (Option.some.inj hboth).symm
    obtain ⟨hquotes, hinside⟩ := readBack_eq_iff.mp hback
    refine ⟨hvalues key value (hkept key hkey value hvalue), ?_, hquotes, hinside⟩
    have hmem := mem_configLines.mpr ⟨key, hkey, value, hvalue, rfl⟩
    obtain ⟨before, after, hstep⟩ := Lib.foldlM_steps hok hmem
    rw [readLine_configLine hkey] at hstep
    split at hstep
    · cases hstep
    · rename_i hsize
      rw [configLine_size hkey, not_le] at hsize
      · exact hsize
      · intro hneeds
        rwa [if_pos hneeds] at hinside
  · intro h
    have hnewline : ∀ line ∈ configLines values configKeys, '\n' ∉ line.toList := by
      intro line hline
      obtain ⟨key, hkey, value, hvalue, rfl⟩ := mem_configLines.mp hline
      exact configLine_newline hkey (h key hkey value hvalue).newline
    have hends : ∃ read, (configLines values configKeys).foldlM readLine (fun _ => none) =
        .ok read := by
      apply Lib.foldlM_ends
      intro line hline acc
      obtain ⟨key, hkey, value, hvalue, rfl⟩ := mem_configLines.mp hline
      have hsurvives := h key hkey value hvalue
      have hshort : ¬ maxScanTokenSize ≤ (configLine key value).utf8ByteSize := by
        rw [configLine_size hkey, not_le]
        · exact hsurvives.size
        · intro hneeds
          have hinside := hsurvives.inside
          rwa [if_pos hneeds] at hinside
      rw [readLine_configLine hkey, if_neg hshort]
      exact ⟨_, rfl⟩
    obtain ⟨read, hok⟩ := hends
    have hlines := (readLines (fun _ hkey => hkey) hnodup hok).1
    refine ⟨read, ?_, ?_⟩
    · rw [hread, hwritten, scanLines_join hnewline]
      exact hok
    · intro key hkey value hvalue
      have hsurvives := h key hkey value hvalue
      rw [hlines key hkey value hvalue, readBack_eq_iff.mpr ⟨hsurvives.quotes, hsurvives.inside⟩]

/-- A password in quotes comes back without them. -/
theorem quoted_password_lost :
    ∃ values read : ConfigValues,
      values "password" = some "\"secret\"" ∧
        readConfig (some (writeConfig values)) = .ok (read, true) ∧
        read "password" = some "secret" :=
  ⟨fun key => if key = "password" then some "\"secret\"" else none, _, rfl, rfl, rfl⟩

end PluginRegistry
