import PluginRegistry.Proofs.ScanGate

namespace PluginRegistry

section
variable {sep sep' : Char} {xs ys us vs : List Char}

/-- Two ways to cut a text at a separator: the same, or one cuts later. -/
theorem cut_eq (h : xs ++ sep :: ys = us ++ sep :: vs) :
    (xs = us ∧ ys = vs) ∨ (∃ ws, vs = ws ++ sep :: ys ∧ xs = us ++ sep :: ws) ∨
      ∃ ws, ys = ws ++ sep :: vs ∧ us = xs ++ sep :: ws := by
  rcases List.append_eq_append_iff.mp h with ⟨ws, hus, hys⟩ | ⟨ws, hxs, hvs⟩
  · cases ws with
    | nil => exact .inl ⟨by simpa using hus.symm, by simpa using hys⟩
    | cons c ws =>
      obtain ⟨rfl, htail⟩ := List.cons.inj hys
      exact .inr (.inr ⟨ws, htail, hus⟩)
  · cases ws with
    | nil => exact .inl ⟨by simpa using hxs, by simpa using hvs.symm⟩
    | cons c ws =>
      obtain ⟨rfl, htail⟩ := List.cons.inj hvs
      exact .inr (.inl ⟨ws, htail, hxs⟩)

/-- Two texts joined once with each of two separators are determined by the results. -/
theorem joins_inj (hne : sep ≠ sep') (h : xs ++ sep :: ys = us ++ sep :: vs)
    (h' : xs ++ sep' :: ys = us ++ sep' :: vs) : xs = us ∧ ys = vs := by
  rcases cut_eq h with heq | ⟨ws, rfl, rfl⟩ | ⟨ws, rfl, rfl⟩
  · exact heq
  · simp only [List.append_assoc, List.append_cancel_left_eq, List.cons_append,
      List.cons.injEq] at h'
    exact absurd h'.1 hne
  · simp only [List.append_assoc, List.append_cancel_left_eq, List.cons_append,
      List.cons.injEq] at h'
    exact absurd h'.1.symm hne

end

/-- The inputs of `build_s3_key_with_layout`; the folder is the prefix and the author. -/
structure ArtifactName where
  folder : String
  pluginKey : String
  version : String
  sourceType : SourceType
  commitSha : Option CommitSha

namespace ArtifactName

variable (n m : ArtifactName)

def tag : String :=
  shortTag n.sourceType n.commitSha

def directory : String :=
  n.folder ++ "/" ++ n.pluginKey ++ "/" ++ n.version

def file : String :=
  n.pluginKey ++ "-" ++ n.version ++ "-" ++ n.tag ++ ".zip"

def key : String :=
  n.directory ++ "/" ++ n.file

def IsPlaceholder : Prop :=
  n.sourceType = .gitAuto ∧ n.commitSha = none

structure SameInputs : Prop where
  folder : n.folder = m.folder
  pluginKey : n.pluginKey = m.pluginKey
  version : n.version = m.version
  tag : n.tag = m.tag

/-- The second plugin key or label has a slash in it, and what stands before the
slash reads as a directory of the first name. -/
def Shadows : Prop :=
  ∃ part, m.file = part ++ "/" ++ n.file ∧ n.directory = m.directory ++ "/" ++ part

def Clashes : Prop :=
  n.SameInputs m ∨ n.Shadows m ∨ m.Shadows n

end ArtifactName

def S3Layout.artifactName (layout : S3Layout) (plugin : Plugin) (version : String)
    (sourceType : SourceType) (commitSha : Option CommitSha) : ArtifactName where
  folder := stripBy (· = '/') layout.pluginsPrefix ++ "/" ++ layout.authorOf plugin
  pluginKey := plugin.pluginKey
  version
  sourceType
  commitSha

theorem buildS3KeyWithLayout_eq (plugin : Plugin) (version : String) (sourceType : SourceType)
    (commitSha : Option CommitSha) (layout : S3Layout) :
    buildS3KeyWithLayout plugin version sourceType commitSha layout =
      (layout.artifactName plugin version sourceType commitSha).key := rfl

theorem CommitSha.short (c : CommitSha) : (textPrefix 7 c.text).toList.length = 7 ∧
    '_' ∉ (textPrefix 7 c.text).toList ∧ '/' ∉ (textPrefix 7 c.text).toList := by
  have hc := c.wellFormed
  simp only [isCommitSha, Bool.and_eq_true, decide_eq_true_eq] at hc
  obtain ⟨⟨hlen, -⟩, hall⟩ := hc
  simp only [textPrefix, String.toList_ofList, List.length_take]
  refine ⟨by omega, fun hmem => ?_, fun hmem => ?_⟩
  · exact absurd (List.all_eq_true.mp hall '_' (List.mem_of_mem_take hmem)) (by decide)
  · exact absurd (List.all_eq_true.mp hall '/' (List.mem_of_mem_take hmem)) (by decide)

/-- A short commit hash ends no fixed tag. -/
theorem CommitSha.short_not_suffix (c : CommitSha) (sourceType : SourceType) :
    ¬ (textPrefix 7 c.text).toList <:+ sourceType.text.toList := by
  obtain ⟨hlen, hno, -⟩ := c.short
  intro h
  have hdrop := List.suffix_iff_eq_drop.mp h
  rw [hlen] at hdrop
  rw [hdrop] at hno
  cases sourceType <;> exact hno (by decide)

theorem shortTag_eq_of_suffix {s t : SourceType} {c d : Option CommitSha}
    (h : (shortTag s c).toList <:+ (shortTag t d).toList) : shortTag s c = shortTag t d := by
  cases c with
  | some c =>
    cases d with
    | some d =>
      exact String.toList_injective (h.eq_of_length (c.short.1.trans d.short.1.symm))
    | none => exact absurd h (c.short_not_suffix t)
  | none =>
    cases d with
    | some d =>
      have hle := h.length_le
      rw [shortTag, shortTag, d.short.1] at hle
      cases s <;> exact absurd hle (by decide)
    | none => cases s <;> cases t <;> first | rfl | exact absurd h (by decide)

theorem shortTag_no_slash (s : SourceType) (c : Option CommitSha) :
    '/' ∉ (shortTag s c).toList := by
  cases c with
  | some c => exact c.short.2.2
  | none => cases s <;> exact (by decide)

theorem shortTag_placeholder {s : SourceType} {c : Option CommitSha}
    (h : shortTag s c = shortTag .gitAuto none) : s = .gitAuto ∧ c = none := by
  cases c with
  | some c =>
    have hlen := c.short.1
    rw [shortTag] at h
    rw [h] at hlen
    cases hlen
  | none =>
    cases s with
    | gitAuto => exact ⟨rfl, rfl⟩
    | manualUpload => exact absurd h (by decide)

namespace ArtifactName

variable {n m : ArtifactName}

theorem tag_eq_of_key (h : n.key = m.key) : n.tag = m.tag := by
  have hends : ∀ k : ArtifactName, k.key.toList =
      ((k.directory ++ "/" ++ k.pluginKey ++ "-" ++ k.version ++ "-").toList ++ k.tag.toList) ++
        ".zip".toList := by
    intro k
    simp only [key, file, String.toList_append, List.append_assoc]
  have hcut := List.append_cancel_right ((hends n).symm.trans ((congrArg _ h).trans (hends m)))
  have hn : n.tag.toList <:+ _ := ⟨_, hcut⟩
  rcases List.suffix_or_suffix_of_suffix hn ⟨_, rfl⟩ with hs | hs
  · exact shortTag_eq_of_suffix hs
  · exact (shortTag_eq_of_suffix hs).symm

/-- Nothing else is ever stored under the key of a placeholder. -/
theorem placeholder_of_key (h : n.key = m.key) (hm : m.IsPlaceholder) : n.IsPlaceholder := by
  have htag := tag_eq_of_key h
  rw [tag, tag, hm.1, hm.2] at htag
  exact shortTag_placeholder htag

theorem sameInputs_of_parts (hd : n.directory = m.directory) (hf : n.file = m.file)
    (ht : n.tag = m.tag) : n.SameInputs m := by
  have hfile : n.pluginKey.toList ++ '-' :: n.version.toList =
      m.pluginKey.toList ++ '-' :: m.version.toList := by
    have hlist := congrArg String.toList hf
    simp only [file, ht, String.toList_append, List.append_cancel_right_eq] at hlist
    simpa using hlist
  have hdir : (n.folder ++ "/").toList ++ (n.pluginKey.toList ++ '/' :: n.version.toList) =
      (m.folder ++ "/").toList ++ (m.pluginKey.toList ++ '/' :: m.version.toList) := by
    have hlist := congrArg String.toList hd
    simpa [directory] using hlist
  have hlen : (n.pluginKey.toList ++ '/' :: n.version.toList).length =
      (m.pluginKey.toList ++ '/' :: m.version.toList).length := by
    have hl := congrArg List.length hfile
    simpa using hl
  obtain ⟨hfolder, hkey⟩ := List.append_inj' hdir hlen
  obtain ⟨hk, hv⟩ := joins_inj (by decide) hfile hkey
  refine ⟨?_, String.toList_injective hk, String.toList_injective hv, ht⟩
  rw [String.toList_append, String.toList_append] at hfolder
  exact String.toList_injective (List.append_cancel_right hfolder)

theorem shadows_of_lists {part : List Char}
    (hf : m.file.toList = part ++ '/' :: n.file.toList)
    (hd : n.directory.toList = m.directory.toList ++ '/' :: part) : n.Shadows m := by
  refine ⟨String.ofList part, String.toList_injective ?_, String.toList_injective ?_⟩
  · simpa using hf
  · simpa using hd

theorem Shadows.key_eq (h : n.Shadows m) : n.key = m.key := by
  obtain ⟨part, hf, hd⟩ := h
  rw [key, key, hf, hd]
  simp only [String.append_assoc]

/-- Two names clash exactly when they become the same key. -/
theorem key_eq_iff : n.key = m.key ↔ n.Clashes m := by
  constructor
  · intro h
    have ht := tag_eq_of_key h
    have hcut : n.directory.toList ++ '/' :: n.file.toList =
        m.directory.toList ++ '/' :: m.file.toList := by
      have hlist := congrArg String.toList h
      simpa [key] using hlist
    rcases cut_eq hcut with ⟨hd, hf⟩ | ⟨part, hf, hd⟩ | ⟨part, hf, hd⟩
    · exact .inl (sameInputs_of_parts (String.toList_injective hd) (String.toList_injective hf) ht)
    · exact .inr (.inl (shadows_of_lists hf hd))
    · exact .inr (.inr (shadows_of_lists hf hd))
  · rintro (⟨hfolder, hkey, hversion, htag⟩ | h | h)
    · simp only [key, directory, file, hfolder, hkey, hversion, htag]
    · exact h.key_eq
    · exact h.key_eq.symm

instance (n m : ArtifactName) : Decidable (n.Clashes m) :=
  decidable_of_iff _ key_eq_iff

theorem not_shadows (hk : '/' ∉ m.pluginKey.toList) (hv : '/' ∉ m.version.toList) :
    ¬ n.Shadows m := by
  rintro ⟨part, hf, -⟩
  have hslash : '/' ∈ m.file.toList := by
    rw [hf]
    simp
  have htag : '/' ∉ m.tag.toList := shortTag_no_slash _ _
  simp [file, hk, hv, htag] at hslash

/-- Without slashes in plugin keys and labels, a key determines the folder, the
plugin, the label and the tag. -/
theorem key_eq_iff_plain (hn : '/' ∉ n.pluginKey.toList ∧ '/' ∉ n.version.toList)
    (hm : '/' ∉ m.pluginKey.toList ∧ '/' ∉ m.version.toList) :
    n.key = m.key ↔ n.SameInputs m := by
  rw [key_eq_iff]
  constructor
  · rintro (h | h | h)
    · exact h
    · exact absurd h (not_shadows hm.1 hm.2)
    · exact absurd h (not_shadows hn.1 hn.2)
  · exact .inl

end ArtifactName

end PluginRegistry
