import PluginRegistry.Proofs.ArtifactView
import PluginRegistry.Services.LlmContext

namespace PluginRegistry
open Lib

theorem textContains_iff {needle s : String} :
    textContains needle s = true ↔ needle.toList <:+: s.toList := by
  simp only [textContains, List.any_eq_true, List.mem_tails, List.isPrefixOf_iff_prefix,
    List.infix_iff_prefix_suffix, and_comm]

theorem textContains_trans {a b c : String} (hab : textContains a b = true)
    (hbc : textContains b c = true) : textContains a c = true :=
  textContains_iff.mpr ((textContains_iff.mp hab).trans (textContains_iff.mp hbc))

theorem textContains_intercalate {joint part : String} {parts : List String} (h : part ∈ parts) :
    textContains part (String.intercalate joint parts) = true := by
  rw [textContains_iff]
  induction parts with
  | nil => cases h
  | cons first rest ih =>
    by_cases hrest : rest = []
    · subst hrest
      rw [List.mem_singleton.mp h, String.intercalate_singleton]
    · rw [String.intercalate_cons_of_ne_nil hrest, String.toList_append, String.toList_append]
      rcases List.mem_cons.mp h with rfl | h
      · exact ⟨[], joint.toList ++ (String.intercalate joint rest).toList, by simp⟩
      · exact (ih h).trans (List.suffix_append _ _).isInfix

theorem length_textPrefix (n : Nat) (s : String) : (textPrefix n s).length ≤ n := by
  simp [textPrefix]

/-- A count that a string can have takes at most nineteen digits. -/
theorem length_toString_nat {n : Nat} (h : n ≤ maxSize) : (toString n).length ≤ 19 := by
  have hlist : (toString n).toList = Nat.toDigits 10 n := Nat.toList_repr
  rw [← String.length_toList, hlist, Nat.length_toDigits_le_iff (by omega) (by omega)]
  exact Nat.lt_of_le_of_lt h (by decide)

theorem joinText_ok {joint joined : String} {parts : List String}
    (h : joinText joint parts = .ok joined) :
    joined = String.intercalate joint parts ∧ joined.length ≤ maxSize := by
  simp only [joinText] at h
  split at h
  · cases h
  · rename_i hlength
    have heq := Except.ok.inj h
    subst heq
    exact ⟨rfl, by omega⟩

def ZipInfo.readText (info : ZipInfo) : Option String :=
  match info.data with
  | .ok raw => some (decodeReplace raw)
  | .error _ => none

def ZipInfo.reviewed (text : PyText) (info : ZipInfo) : Option (String × String) :=
  if shouldInclude text info.filename then info.readText.map (info.filename, ·) else none

def ZipInfo.snippet (text : PyText) (info : ZipInfo) : Option String :=
  if llmRelevantSuffixes.contains (text.lower (posixSuffix info.filename)) then
    (info.readText.filter (isSuspicious text)).map fun content =>
      "File: " ++ info.filename ++ "\n" ++
        String.intercalate "\n" ((matchedLines text (splitlines content)).take 8)
  else none

def ZipArchive.files (archive : ZipArchive) : List ZipInfo :=
  archive.infolist.filter fun info => !info.isDir

def ZipArchive.reviewed (archive : ZipArchive) (text : PyText) : List (String × String) :=
  archive.files.filterMap (ZipInfo.reviewed text)

/-- The review text of an archive: its counts, the first four thousand
characters of each reviewed file, and at most twenty snippets. -/
def ZipArchive.reviewText (archive : ZipArchive) (text : PyText) (archiveName : String) : String :=
  let reviewed := archive.reviewed text
  let snippets := (archive.files.filterMap (ZipInfo.snippet text)).take 20
  String.intercalate "\n\n" (["Archive: " ++ archiveName,
    "Total files: " ++ toString archive.files.length,
    "Included files: " ++ toString reviewed.length ++ "; skipped binary/irrelevant files: " ++
      toString (archive.files.length - reviewed.length)] ++
    reviewed.map (fun file => formatLlmFileSection file.1 file.2) ++
    if snippets.isEmpty then [] else "Suspicious snippets:" :: snippets)

theorem LlmSections.addFile_ok {text : PyText} {s t : LlmSections} {info : ZipInfo}
    (h : s.addFile text info = .ok t) :
    t = ((info.reviewed text).elim { s with skippedFiles := s.skippedFiles + 1 } fun file =>
      { s with
        includedFiles := s.includedFiles + 1
        sections := s.sections ++ [formatLlmFileSection file.1 file.2] }) := by
  rw [addFile] at h
  cases hselected : shouldInclude text info.filename with
  | false =>
    rw [if_pos (by simp [hselected])] at h
    rw [← Except.ok.inj h, ZipInfo.reviewed, if_neg (by simp [hselected])]
    rfl
  | true =>
    rw [if_neg (by simp [hselected])] at h
    rw [ZipInfo.reviewed, if_pos hselected, ZipInfo.readText]
    cases hdata : info.data with
    | ok raw =>
      rw [hdata] at h
      rw [← Except.ok.inj h]
      rfl
    | error e =>
      rw [hdata] at h
      dsimp only at h
      split at h
      · rw [← Except.ok.inj h]
        rfl
      · cases h

theorem LlmSections.addFile_run {text : PyText} {infos : List ZipInfo} {s t : LlmSections}
    (h : infos.foldlM (LlmSections.addFile text) s = .ok t) :
    t.sections = s.sections ++ (infos.filterMap (ZipInfo.reviewed text)).map
        (fun file => formatLlmFileSection file.1 file.2) ∧
      t.includedFiles = s.includedFiles + (infos.filterMap (ZipInfo.reviewed text)).length ∧
      t.includedFiles + t.skippedFiles = s.includedFiles + s.skippedFiles + infos.length := by
  induction infos generalizing s with
  | nil =>
    rw [← Except.ok.inj h]
    simp
  | cons info infos ih =>
    obtain ⟨s', hfirst, hrest⟩ := foldlM_cons_ok h
    obtain ⟨hsections, hincluded, htotal⟩ := ih hrest
    have hs' := addFile_ok hfirst
    cases hreviewed : info.reviewed text with
    | none =>
      rw [hreviewed, Option.elim_none] at hs'
      subst hs'
      rw [List.filterMap_cons_none hreviewed, List.length_cons]
      dsimp only at htotal
      exact ⟨hsections, hincluded, by omega⟩
    | some file =>
      rw [hreviewed, Option.elim_some] at hs'
      subst hs'
      rw [List.filterMap_cons_some hreviewed, List.length_cons, List.length_cons, List.map_cons]
      dsimp only at hsections hincluded htotal
      refine ⟨?_, by omega, by omega⟩
      rw [hsections, List.append_assoc, List.singleton_append]

theorem collectSuspiciousSnippets_ok {text : PyText} {infos : List ZipInfo}
    {snippets found : List String} (hroom : snippets.length ≤ 20)
    (h : collectSuspiciousSnippets text infos snippets = .ok found) :
    found = (snippets ++ infos.filterMap (ZipInfo.snippet text)).take 20 := by
  induction infos generalizing snippets with
  | nil =>
    rw [collectSuspiciousSnippets] at h
    rw [← Except.ok.inj h, List.filterMap_nil, List.append_nil, List.take_of_length_le hroom]
  | cons info infos ih =>
    rw [collectSuspiciousSnippets] at h
    by_cases hfull : 20 ≤ snippets.length
    · rw [if_pos hfull] at h
      rw [← Except.ok.inj h, List.take_append_of_le_length hfull, List.take_of_length_le hroom]
    · rw [if_neg hfull] at h
      cases hsuffix : llmRelevantSuffixes.contains (text.lower (posixSuffix info.filename)) with
      | false =>
        have hnone : info.snippet text = none := by
          rw [ZipInfo.snippet, if_neg (by simp only [hsuffix]; exact Bool.false_ne_true)]
        rw [if_pos (by simp only [hsuffix]; rfl)] at h
        rw [List.filterMap_cons_none hnone]
        exact ih hroom h
      | true =>
        rw [if_neg (by simp only [hsuffix]; exact Bool.false_ne_true)] at h
        cases hdata : info.data with
        | error e =>
          have hnone : info.snippet text = none := by
            rw [ZipInfo.snippet, if_pos hsuffix, ZipInfo.readText, hdata]
            rfl
          rw [hdata] at h
          dsimp only at h
          split at h
          · rw [List.filterMap_cons_none hnone]
            exact ih hroom h
          · cases h
        | ok raw =>
          rw [hdata] at h
          dsimp only at h
          cases hterm : isSuspicious text (decodeReplace raw) with
          | false =>
            have hnone : info.snippet text = none := by
              rw [ZipInfo.snippet, if_pos hsuffix, ZipInfo.readText, hdata, Option.filter_some,
                if_neg (by simp [hterm])]
              rfl
            rw [if_pos (by simp [hterm])] at h
            rw [List.filterMap_cons_none hnone]
            exact ih hroom h
          | true =>
            have hsome : info.snippet text = some ("File: " ++ info.filename ++ "\n" ++
                String.intercalate "\n"
                  ((matchedLines text (splitlines (decodeReplace raw))).take 8)) := by
              rw [ZipInfo.snippet, if_pos hsuffix, ZipInfo.readText, hdata, Option.filter_some,
                if_pos hterm]
              rfl
            rw [if_neg (by simp [hterm])] at h
            rw [List.filterMap_cons_some hsome, ← List.singleton_append, ← List.append_assoc]
            exact ih (by rw [List.length_append, List.length_singleton]; omega) h

/-- The sections that are joined make up the review text. -/
theorem llmSections_text {text : PyText} {archiveName : String} {archive : ZipArchive}
    {sections : List String} (h : llmSections text archiveName archive = .ok sections) :
    String.intercalate "\n\n" sections = archive.reviewText text archiveName := by
  simp only [llmSections] at h
  obtain ⟨files, hfiles, h⟩ := except_bind_ok h
  obtain ⟨suspicious, hsuspicious, h⟩ := except_bind_ok h
  obtain ⟨hsections, hincluded, htotal⟩ := LlmSections.addFile_run hfiles
  have hsnippets := collectSuspiciousSnippets_ok (Nat.zero_le _) hsuspicious
  rw [List.nil_append] at hsnippets
  have hcounts : files.skippedFiles = archive.files.length - (archive.reviewed text).length := by
    dsimp only at hincluded htotal
    rw [ZipArchive.reviewed, ZipArchive.files]
    omega
  rw [← Except.ok.inj h, ZipArchive.reviewText, hsections, hincluded, hcounts, hsnippets]
  simp [ZipArchive.files, ZipArchive.reviewed]

theorem length_truncationNotice (maxChars : Int) {length : Nat} (hpos : 0 ≤ maxChars)
    (hmax : maxChars ≤ length) (hsize : length ≤ maxSize) :
    (truncationNotice maxChars length).length ≤ 200 := by
  obtain ⟨n, rfl⟩ := Int.eq_ofNat_of_zero_le hpos
  have htext : toString (n : Int) = toString n := rfl
  have hn := length_toString_nat (n := n) (by omega)
  have hlength := length_toString_nat hsize
  have hfirst : "[Context truncated to ".length = 22 := by decide
  have hsecond : " characters from ".length = 17 := by decide
  have hthird : " characters. ".length = 13 := by decide
  have hlast : "Some files or snippets are omitted.]\n\n".length = 38 := by decide
  have hsum : (truncationNotice n length).length =
      22 + (toString n).length + 17 + (toString length).length + 13 + 38 := by
    unfold truncationNotice
    simp only [String.length_append, htext, hfirst, hsecond, hthird, hlast]
  rw [hsum]
  omega

theorem buildLlmContext_ok {text : PyText} {archiveName : String} {archive : ZipArchive}
    {maxChars : Int} {context : String} {truncated : Bool}
    (h : buildLlmContext text archiveName archive maxChars = .ok (context, truncated)) :
    (context.length : Int) ≤ max 1000 maxChars ∧
      (truncated = true ↔
        max 1000 maxChars < (archive.reviewText text archiveName).length) ∧
      (truncated = false → context = archive.reviewText text archiveName) := by
  simp only [buildLlmContext] at h
  obtain ⟨sections, hsections, h⟩ := except_bind_ok h
  obtain ⟨joined, hjoined, h⟩ := except_bind_ok h
  obtain ⟨hjoined, hsize⟩ := joinText_ok hjoined
  rw [llmSections_text hsections] at hjoined
  subst hjoined
  split at h
  · rename_i hfits
    have heq := Prod.mk.inj (Except.ok.inj h)
    rw [← heq.1, ← heq.2]
    refine ⟨hfits, ?_, fun _ => rfl⟩
    simp only [Bool.false_eq_true, false_iff, not_lt]
    exact hfits
  · rename_i hlong
    have heq := Prod.mk.inj (Except.ok.inj h)
    rw [← heq.1, ← heq.2]
    refine ⟨?_, ?_, fun hfalse => by cases hfalse⟩
    · have hnotice := length_truncationNotice (max 1000 maxChars) (by omega)
        (by omega) hsize
      have hcut := length_textPrefix (max 1000 maxChars - (truncationNotice (max 1000 maxChars)
        (archive.reviewText text archiveName).length).length).toNat
        (archive.reviewText text archiveName)
      rw [String.length_append, sliceTo, if_pos (by omega)]
      omega
    · simp only [true_iff]
      omega

theorem collectSuspiciousSnippets_ends (text : PyText) {infos : List ZipInfo}
    (h : ∀ info ∈ infos, ∃ raw, info.data = .ok raw) (snippets : List String) :
    ∃ found, collectSuspiciousSnippets text infos snippets = .ok found := by
  induction infos generalizing snippets with
  | nil => exact ⟨snippets, rfl⟩
  | cons info infos ih =>
    have hrest := ih fun other hother => h other (List.mem_cons_of_mem info hother)
    obtain ⟨raw, hdata⟩ := h info List.mem_cons_self
    rw [collectSuspiciousSnippets, hdata]
    by_cases hfull : 20 ≤ snippets.length
    · exact ⟨snippets, if_pos hfull⟩
    · rw [if_neg hfull]
      dsimp only
      split
      · exact hrest snippets
      · split
        · exact hrest snippets
        · exact hrest _

theorem llmSections_ends (text : PyText) (archiveName : String) {archive : ZipArchive}
    (h : ∀ info ∈ archive.files, ∃ raw, info.data = .ok raw) :
    ∃ sections, llmSections text archiveName archive = .ok sections := by
  have hstep : ∀ info ∈ archive.files, ∀ s : LlmSections, ∃ t, s.addFile text info = .ok t := by
    intro info hinfo s
    obtain ⟨raw, hdata⟩ := h info hinfo
    rw [LlmSections.addFile, hdata]
    dsimp only
    split
    · exact ⟨_, rfl⟩
    · exact ⟨_, rfl⟩
  obtain ⟨files, hfiles⟩ := foldlM_ends hstep ⟨["Archive: " ++ archiveName,
    "Total files: " ++ toString archive.files.length], 0, 0⟩
  obtain ⟨found, hfound⟩ := collectSuspiciousSnippets_ends text h []
  rw [ZipArchive.files] at hfiles hfound
  simp only [llmSections, hfiles, hfound]
  exact ⟨_, rfl⟩

/-- A review text within the limit is handed over as it is. -/
theorem buildLlmContext_fits {text : PyText} {archiveName : String} {archive : ZipArchive}
    {maxChars : Int} (h : ∀ info ∈ archive.files, ∃ raw, info.data = .ok raw)
    (hsize : (archive.reviewText text archiveName).length ≤ maxSize)
    (hfits : ((archive.reviewText text archiveName).length : Int) ≤ max 1000 maxChars) :
    buildLlmContext text archiveName archive maxChars =
      .ok (archive.reviewText text archiveName, false) := by
  obtain ⟨sections, hsections⟩ := llmSections_ends text archiveName h
  have htext := llmSections_text hsections
  have hjoin : joinText "\n\n" sections = .ok (archive.reviewText text archiveName) := by
    rw [joinText, htext, if_neg (by omega)]
  simp only [buildLlmContext, hsections]
  change (joinText "\n\n" sections >>= _) = _
  rw [hjoin]
  exact if_pos hfits

/-- A file of at most four thousand characters stands in its section as it is. -/
theorem formatLlmFileSection_complete {path content : String}
    (h : content.length ≤ maxFileChars) :
    textContains content (formatLlmFileSection path content) = true := by
  have hcut : textPrefix maxFileChars content = content := by
    rw [textPrefix, List.take_of_length_le (by rwa [String.length_toList]), String.ofList_toList]
  rw [textContains_iff, formatLlmFileSection, hcut, if_neg (by omega)]
  simp only [String.toList_append, List.append_assoc]
  exact ⟨"File: ".toList ++ (path.toList ++ "\n```text\n".toList), "\n```".toList, by simp⟩

theorem reviewText_section {text : PyText} {archiveName : String} {archive : ZipArchive}
    {file : String × String} (h : file ∈ archive.reviewed text) :
    textContains (formatLlmFileSection file.1 file.2) (archive.reviewText text archiveName) =
      true := by
  apply textContains_intercalate
  apply List.mem_append_left
  apply List.mem_append_right
  exact List.mem_map.mpr ⟨file, h, rfl⟩

/-- The context keeps to its limit, and a context that is not marked as
truncated shows every reviewed file in full. -/
structure ZipArchive.ContextHonest (archive : ZipArchive) (text : PyText) (maxChars : Int)
    (context : String) (truncated : Bool) : Prop where
  bounded : (context.length : Int) ≤ max 1000 maxChars
  complete : truncated = false → ∀ file ∈ archive.reviewed text,
    textContains file.2 context = true

/-- The context is always within its limit. It is honest about cuts exactly if
the review text exceeds the limit, or the text of each reviewed file of more
than four thousand characters turns up somewhere in the review text all the same. -/
theorem context_honest_iff {text : PyText} {archiveName : String} {archive : ZipArchive}
    {maxChars : Int} {context : String} {truncated : Bool}
    (h : buildLlmContext text archiveName archive maxChars = .ok (context, truncated)) :
    archive.ContextHonest text maxChars context truncated ↔
      max 1000 maxChars < (archive.reviewText text archiveName).length ∨
        ∀ file ∈ archive.reviewed text, maxFileChars < file.2.length →
          textContains file.2 (archive.reviewText text archiveName) = true := by
  obtain ⟨hbound, hcut, hjoined⟩ := buildLlmContext_ok h
  constructor
  · intro hhonest
    cases truncated with
    | true => exact .inl (hcut.mp rfl)
    | false =>
      right
      intro file hfile _
      rw [← hjoined rfl]
      exact hhonest.complete rfl file hfile
  · intro hcond
    refine ⟨hbound, fun hfalse file hfile => ?_⟩
    rw [hjoined hfalse]
    rcases hcond with hlong | hlarge
    · rw [hcut.mpr hlong] at hfalse
      cases hfalse
    · by_cases hlength : maxFileChars < file.2.length
      · exact hlarge file hfile hlength
      · exact textContains_trans (formatLlmFileSection_complete (by omega))
          (reviewText_section hfile)

def asciiText : PyText := ⟨asciiLower, fun c => c.toNat < 127, fun _ => "0.0"⟩

def longFile (n : Nat) : ZipInfo where
  filename := "main"
  externalAttr := 0
  fileSize := n
  data := .ok (List.replicate n 0x5a)
  within := by
    intro content h
    rw [← Except.ok.inj h, List.length_replicate]

def longArchive (n : Nat) : ZipArchive := ⟨n, [longFile n]⟩

theorem decodeReplace_replicate (n : Nat) :
    decodeReplace (List.replicate n 0x5a) = String.ofList (List.replicate n 'Z') := by
  have hdecode : decodeAfter 0 (List.replicate n 0x5a) = List.replicate n 'Z' := by
    induction n with
    | zero => rfl
    | succ n ih =>
      rw [List.replicate_succ, List.replicate_succ, ← ih]
      rfl
  rw [decodeReplace, hdecode]

theorem longArchive_files (n : Nat) : (longArchive n).files = [longFile n] := by
  have hfile : (longFile n).isDir = false := by
    change decide ("main".toList.getLast? = some '/') = false
    decide
  rw [ZipArchive.files, longArchive, List.filter_cons_of_pos (by simp [hfile]), List.filter_nil]

theorem longArchive_reviewed (n : Nat) : (longArchive n).reviewed asciiText =
    [("main", String.ofList (List.replicate n 'Z'))] := by
  have hincluded : shouldInclude asciiText (longFile n).filename = true := by
    change shouldInclude asciiText "main" = true
    decide
  have hread : (longFile n).readText = some (String.ofList (List.replicate n 'Z')) := by
    rw [← decodeReplace_replicate]
    rfl
  have hreviewed : (longFile n).reviewed asciiText =
      some ("main", String.ofList (List.replicate n 'Z')) := by
    rw [ZipInfo.reviewed, if_pos hincluded, hread]
    rfl
  rw [ZipArchive.reviewed, longArchive_files, List.filterMap_cons_some hreviewed,
    List.filterMap_nil]

theorem longArchive_read (n : Nat) : ∀ info ∈ (longArchive n).files, ∃ raw, info.data = .ok raw := by
  intro info hinfo
  rw [longArchive_files] at hinfo
  rw [List.mem_singleton.mp hinfo]
  exact ⟨_, rfl⟩

def longArchiveHead : String :=
  "Archive: a.zip\n\nTotal files: 1\n\nIncluded files: 1; skipped binary/irrelevant files: 0" ++
    "\n\nFile: main\n```text\n"

theorem longArchive_text {n : Nat} (h : maxFileChars < n) :
    (longArchive n).reviewText asciiText "a.zip" =
      longArchiveHead ++ String.ofList (List.replicate maxFileChars 'Z') ++ "\n[File truncated]" ++
        "\n```" := by
  have hsnippet : (longFile n).snippet asciiText = none := by
    rw [ZipInfo.snippet, if_neg]
    change ¬llmRelevantSuffixes.contains (asciiText.lower (posixSuffix "main")) = true
    decide
  have hcut : textPrefix maxFileChars (String.ofList (List.replicate n 'Z')) =
      String.ofList (List.replicate maxFileChars 'Z') := by
    rw [textPrefix, String.toList_ofList, List.take_replicate, Nat.min_eq_left (by omega)]
  rw [ZipArchive.reviewText, longArchive_reviewed, longArchive_files,
    List.filterMap_cons_none hsnippet, List.filterMap_nil, List.map_singleton,
    formatLlmFileSection, hcut, if_pos (by rwa [String.length_ofList, List.length_replicate])]
  generalize String.ofList (List.replicate maxFileChars 'Z') = body
  have hone : toString 1 = "1" := by decide
  have hzero : toString (1 - 1) = "0" := by decide
  have hhead : "Archive: " ++ "a.zip" ++ "\n\n" ++ "Total files: " ++ "1" ++ "\n\n" ++
      "Included files: " ++ "1" ++ "; skipped binary/irrelevant files: " ++ "0" ++ "\n\n" ++
      "File: " ++ "main" ++ "\n```text\n" = longArchiveHead := by decide
  simp only [List.length_singleton, hone, hzero, List.cons_append, List.nil_append, List.take_nil,
    List.isEmpty_nil, if_true, String.intercalate_cons_cons, String.intercalate_singleton,
    ← String.append_assoc, hhead]

theorem longArchive_fits {n : Nat} (h : maxFileChars < n) :
    ((longArchive n).reviewText asciiText "a.zip").length ≤ 5000 := by
  have hhead : longArchiveHead.length ≤ 200 := by decide
  have hmark : "\n[File truncated]".length = 17 := by decide
  have hend : "\n```".length = 4 := by decide
  have hmax : maxFileChars = 4000 := rfl
  have hsum : ((longArchive n).reviewText asciiText "a.zip").length =
      longArchiveHead.length + maxFileChars + 17 + 4 := by
    rw [longArchive_text h, String.length_append, String.length_append, String.length_append,
      String.length_ofList, List.length_replicate, hmark, hend]
  omega

/-- The letter of the file stands nowhere else, so the whole file does not either. -/
theorem longArchive_cut {n : Nat} (h : maxFileChars < n) :
    textContains (String.ofList (List.replicate n 'Z'))
      ((longArchive n).reviewText asciiText "a.zip") ≠ true := by
  have hhead : longArchiveHead.toList.count 'Z' = 0 := by decide
  have hmark : "\n[File truncated]".toList.count 'Z' = 0 := by decide
  have hend : "\n```".toList.count 'Z' = 0 := by decide
  intro hin
  have hcount := (textContains_iff.mp hin).sublist.count_le 'Z'
  rw [longArchive_text h, String.toList_append, String.toList_append, String.toList_append,
    List.count_append, List.count_append, List.count_append, hhead, hmark, hend,
    String.toList_ofList, String.toList_ofList, List.count_replicate_self,
    List.count_replicate_self] at hcount
  omega

theorem longArchive_context {n : Nat} (h : maxFileChars < n) :
    buildLlmContext asciiText "a.zip" (longArchive n) 24000 =
      .ok ((longArchive n).reviewText asciiText "a.zip", false) := by
  have hfits := longArchive_fits h
  have hsize : 5000 ≤ maxSize := by decide
  exact buildLlmContext_fits (longArchive_read n) (by omega) (by omega)

theorem context_honest_iff_cut :
    (longArchive 5000).ContextHonest asciiText 24000
        ((longArchive 5000).reviewText asciiText "a.zip") false ↔
      max 1000 (24000 : Int) < ((longArchive 5000).reviewText asciiText "a.zip").length ∨
        ∀ file ∈ (longArchive 5000).reviewed asciiText, maxFileChars < file.2.length →
          textContains file.2 ((longArchive 5000).reviewText asciiText "a.zip") = true :=
  context_honest_iff (longArchive_context (n := 5000) (by decide))

/-- A module of five thousand letters is cut, and nothing says so. -/
theorem cut_file_unmarked :
    ¬∀ (text : PyText) (archiveName : String) (archive : ZipArchive) (maxChars : Int)
      (context : String) (truncated : Bool),
      buildLlmContext text archiveName archive maxChars = .ok (context, truncated) →
        archive.ContextHonest text maxChars context truncated := by
  intro hall
  have hlong : maxFileChars < 5000 := by decide
  have hhonest := hall _ _ _ _ _ _ (longArchive_context hlong)
  apply longArchive_cut hlong
  apply hhonest.complete rfl ("main", String.ofList (List.replicate 5000 'Z'))
  rw [longArchive_reviewed]
  exact List.mem_singleton.mpr rfl

end PluginRegistry
