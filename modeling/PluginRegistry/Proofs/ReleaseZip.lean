import PluginRegistry.Proofs.Listing

namespace PluginRegistry
open Lib

variable {env : Env} {checkout : Checkout} {job : BuildJob} {maxReleaseZipBytes : Int}

namespace Checkout

/-- What the loop makes of one path, were there no limit: the member it writes
and the size it counts. -/
def member (checkout : Checkout) (path : Path) : Option (ZipEntry × Nat) :=
  match checkout.files.stat path with
  | some (.file content size) =>
    if shouldSkip (path.drop checkout.repoDir.length) then none
    else some (⟨path.drop checkout.repoDir.length, content⟩, size)
  | _ => none

def members (checkout : Checkout) : List (ZipEntry × Nat) :=
  (checkout.files.rglob checkout.repoDir).filterMap checkout.member

def OverLimit (checkout : Checkout) (maxReleaseZipBytes : Int) : Prop :=
  checkout.members ≠ [] ∧ maxReleaseZipBytes < ((checkout.members.map (·.2)).sum : Nat)

def Escapes (checkout : Checkout) : Prop :=
  ∃ path ∈ checkout.files.rglob checkout.repoDir, (checkout.member path).isSome = true ∧
    ∃ target, checkout.files.resolve path = some target ∧ ¬ checkout.repoDir <+: target

/-- Every member is what a regular file inside the repository holds, the one its
own path leads to, and the members together keep to the limit. -/
structure Confines (checkout : Checkout) (maxReleaseZipBytes : Int) (zip : Blob) : Prop where
  inside : ∀ entry ∈ zip, ∃ target size,
    checkout.files.resolve (checkout.repoDir ++ entry.name) = some target ∧
      checkout.repoDir <+: target ∧
      checkout.files.lookup target = some (.file entry.content size)
  bounded : ((zip.map (·.content.length)).sum : Nat) ≤ maxReleaseZipBytes

theorem member_some {path : Path} {m : ZipEntry × Nat} (h : checkout.member path = some m) :
    ∃ content size, checkout.files.stat path = some (.file content size) ∧
      shouldSkip (path.drop checkout.repoDir.length) = false ∧
      m = (⟨path.drop checkout.repoDir.length, content⟩, size) := by
  unfold member at h
  split at h
  · rename_i content size hs
    split at h
    · cases h
    · rename_i hno
      rw [Bool.not_eq_true] at hno
      cases h
      exact ⟨content, size, hs, hno, rfl⟩
  · cases h

/-- The loop stops with an error when the members exceed the limit, and writes
all of them when they do not. -/
theorem writeMembers_spec (checkout : Checkout) (maxReleaseZipBytes : Int) (paths : List Path)
    (total : Nat) :
    if paths.filterMap checkout.member ≠ [] ∧
        maxReleaseZipBytes < (total + ((paths.filterMap checkout.member).map (·.2)).sum : Nat) then
      (writeMembers checkout.files checkout.repoDir maxReleaseZipBytes total paths).2 =
        some (validation "release zip is too large")
    else writeMembers checkout.files checkout.repoDir maxReleaseZipBytes total paths =
      ((paths.filterMap checkout.member).map (·.1), none) := by
  induction paths generalizing total with
  | nil => simp [writeMembers]
  | cons path rest ih =>
    have hskip : checkout.member path = none →
        writeMembers checkout.files checkout.repoDir maxReleaseZipBytes total (path :: rest) =
          writeMembers checkout.files checkout.repoDir maxReleaseZipBytes total rest := by
      intro hm
      unfold member at hm
      rw [writeMembers]
      cases hs : checkout.files.stat path with
      | none => rfl
      | some node =>
        rw [hs] at hm
        cases node with
        | file content size =>
          have hskip : shouldSkip (path.drop checkout.repoDir.length) = true := by
            by_contra hno
            simp only [hno, if_false] at hm
            cases hm
          simp only [hskip, if_true]
        | dir => rfl
        | symlink target => rfl
        | special => rfl
    cases hm : checkout.member path with
    | none =>
      rw [List.filterMap_cons_none hm, hskip hm]
      exact ih total
    | some m =>
      obtain ⟨content, size, hs, hno, rfl⟩ := member_some hm
      have hwrite : writeMembers checkout.files checkout.repoDir maxReleaseZipBytes total
          (path :: rest) =
          if maxReleaseZipBytes < (total + size : Nat) then
            ([], some (validation "release zip is too large"))
          else
            (⟨path.drop checkout.repoDir.length, content⟩ :: (writeMembers checkout.files
                checkout.repoDir maxReleaseZipBytes (total + size) rest).1,
              (writeMembers checkout.files checkout.repoDir maxReleaseZipBytes
                (total + size) rest).2) := by
        rw [writeMembers]
        simp only [hs, hno, Bool.false_eq_true, if_false]
      have hrest := ih (total + size)
      rw [List.filterMap_cons_some hm, hwrite]
      simp only [ne_eq, reduceCtorEq, not_false_eq_true, true_and, List.map_cons, List.sum_cons]
      by_cases hover : maxReleaseZipBytes < (total + size : Nat)
      · have hall : maxReleaseZipBytes < (total + (size +
            ((rest.filterMap checkout.member).map (·.2)).sum) : Nat) := by omega
        rw [if_pos hall, if_pos hover]
      · rw [if_neg hover]
        split at hrest
        · rename_i hlate
          have hall : maxReleaseZipBytes < (total + (size +
              ((rest.filterMap checkout.member).map (·.2)).sum) : Nat) := by omega
          rw [if_pos hall]
          exact hrest
        · rename_i hfits
          have hall : ¬ maxReleaseZipBytes < (total + (size +
              ((rest.filterMap checkout.member).map (·.2)).sum) : Nat) := by
            intro hlt
            by_cases hnil : rest.filterMap checkout.member = []
            · rw [hnil] at hlt
              exact hover hlt
            · exact hfits ⟨hnil, by omega⟩
          rw [if_neg hall, hrest]

/-- What `_create_zip` writes. -/
theorem createZip_spec (checkout : Checkout) (maxReleaseZipBytes : Int) :
    (checkout.OverLimit maxReleaseZipBytes →
      (createZip checkout maxReleaseZipBytes).2 = some (validation "release zip is too large")) ∧
    (¬ checkout.OverLimit maxReleaseZipBytes →
      createZip checkout maxReleaseZipBytes = (checkout.members.map (·.1), none)) := by
  have hspec := checkout.writeMembers_spec maxReleaseZipBytes
    (checkout.files.rglob checkout.repoDir) 0
  rw [Nat.zero_add] at hspec
  constructor
  · intro hover
    rw [if_pos ⟨hover.1, hover.2⟩] at hspec
    exact hspec
  · intro hfits
    rw [if_neg fun hover => hfits ⟨hover.1, hover.2⟩] at hspec
    exact hspec

/-- A member that does not lead outside is as long as its file says. -/
theorem honest_members (h : ¬ checkout.Escapes) :
    (checkout.members.map (·.1.content.length)).sum = (checkout.members.map (·.2)).sum := by
  congr 1
  apply List.map_congr_left
  intro m hm
  obtain ⟨path, hpath, hmem⟩ := List.mem_filterMap.mp hm
  obtain ⟨content, size, hs, -, rfl⟩ := member_some hmem
  obtain ⟨target, hres, hfile⟩ := Option.bind_eq_some_iff.mp hs
  have hin : checkout.repoDir <+: target := by
    by_contra hout
    exact h ⟨path, hpath, by rw [hmem]; rfl, target, hres, hout⟩
  exact (checkout.honest target content size hin hfile).symm

theorem rglob_path {path : Path} (h : path ∈ checkout.files.rglob checkout.repoDir) :
    checkout.repoDir ++ path.drop checkout.repoDir.length = path := by
  have hpre := (Bool.and_eq_true_iff.mp (List.mem_filter.mp h).2).1
  obtain ⟨rest, rfl⟩ := List.isPrefixOf_iff_prefix.mp hpre
  rw [List.drop_left]

/-- An archive of all members is confined exactly when no member leads outside. -/
theorem confines_iff : checkout.Confines maxReleaseZipBytes (checkout.members.map (·.1)) ↔
    ¬ checkout.Escapes ∧
      ((checkout.members.map (·.1.content.length)).sum : Nat) ≤ maxReleaseZipBytes := by
  constructor
  · intro h
    constructor
    · rintro ⟨path, hpath, hsome, target, hres, hout⟩
      obtain ⟨m, hm⟩ := Option.isSome_iff_exists.mp hsome
      obtain ⟨content, size, hs, -, rfl⟩ := member_some hm
      have hin : (⟨path.drop checkout.repoDir.length, content⟩ : ZipEntry) ∈
          checkout.members.map (·.1) :=
        List.mem_map.mpr ⟨_, List.mem_filterMap.mpr ⟨path, hpath, hm⟩, rfl⟩
      obtain ⟨target', size', hres', hpre, -⟩ := h.inside _ hin
      rw [rglob_path hpath, hres] at hres'
      cases hres'
      exact hout hpre
    · have hb := h.bounded
      rw [List.map_map] at hb
      exact hb
  · rintro ⟨hno, hb⟩
    constructor
    · intro entry hentry
      obtain ⟨m, hm, rfl⟩ := List.mem_map.mp hentry
      obtain ⟨path, hpath, hmem⟩ := List.mem_filterMap.mp hm
      obtain ⟨content, size, hs, -, rfl⟩ := member_some hmem
      obtain ⟨target, hres, hfile⟩ := Option.bind_eq_some_iff.mp hs
      refine ⟨target, size, ?_, ?_, hfile⟩
      · rw [rglob_path hpath]
        exact hres
      · by_contra hout
        exact hno ⟨path, hpath, by rw [hmem]; rfl, target, hres, hout⟩
    · rw [List.map_map]
      exact hb

end Checkout

/-- When the packing step of a build does not fail, the archive it leaves is confined. -/
def BuildJob.ZipConfined (job : BuildJob) (env : Env) : Prop :=
  ∀ s s', (job.step env .pack).run s = .ok () s' →
    ∃ zip, s'.outside.zipFiles.lookup job.zipPath = some zip ∧
      job.checkout.Confines job.maxReleaseZipBytes zip

theorem packStep_confined (hopen : env.fault .openZipFile = none)
    (hfits : ¬ job.checkout.OverLimit job.maxReleaseZipBytes) :
    job.ZipConfined env ↔
      job.checkout.Confines job.maxReleaseZipBytes (job.checkout.members.map (·.1)) := by
  have hzip := (job.checkout.createZip_spec job.maxReleaseZipBytes).2 hfits
  have hpack : ∀ s, (job.step env .pack).run s =
      .ok () { s with outside := job.packFiles env s.outside } := by
    intro s
    have herror : job.packError env = none := by simp [BuildJob.packError, hopen, hzip]
    rw [packStep_run, herror]
  have hfiles : ∀ x : Outside, (job.packFiles env x).zipFiles.lookup job.zipPath =
      some (job.checkout.members.map (·.1)) := by
    intro x
    simp [BuildJob.packFiles, hopen, hzip]
  constructor
  · intro h
    obtain ⟨zip, hin, hconf⟩ := h (Session.start (.empty .default) ⟨∅, [], ∅⟩) _ (hpack _)
    cases (hfiles _).symm.trans hin
    exact hconf
  · intro hconf s s' hrun
    cases (hpack s).symm.trans hrun
    exact ⟨_, hfiles _, hconf⟩

/-- The archive of a build is confined exactly when it cannot be written, when its
members exceed the limit, or when no packed path leads out of the repository. -/
theorem zip_confined_iff (env : Env) (job : BuildJob) :
    job.ZipConfined env ↔ (env.fault .openZipFile).isSome = true ∨
      job.checkout.OverLimit job.maxReleaseZipBytes ∨
      (¬ job.checkout.Escapes ∧ 0 ≤ job.maxReleaseZipBytes) := by
  have hfails : ∀ e, job.packError env = some e → job.ZipConfined env := by
    intro e he s s' hrun
    rw [packStep_run, he] at hrun
    cases hrun
  cases hopen : env.fault .openZipFile with
  | some e =>
    have he : job.packError env = some e := by simp [BuildJob.packError, hopen]
    exact iff_of_true (hfails e he) (.inl rfl)
  | none =>
    by_cases hover : job.checkout.OverLimit job.maxReleaseZipBytes
    · have hzip := (job.checkout.createZip_spec job.maxReleaseZipBytes).1 hover
      have he : job.packError env = some (validation "release zip is too large") := by
        simp [BuildJob.packError, hopen, hzip]
      exact iff_of_true (hfails _ he) (.inr (.inl hover))
    · rw [packStep_confined hopen hover, Checkout.confines_iff]
      constructor
      · rintro ⟨hno, hb⟩
        exact .inr (.inr ⟨hno, by omega⟩)
      · rintro (hc | hc | ⟨hno, hpos⟩)
        · cases hc
        · exact absurd hc hover
        · refine ⟨hno, ?_⟩
          rw [Checkout.honest_members hno]
          by_cases hnil : job.checkout.members = []
          · rw [hnil]
            exact hpos
          · by_contra hlt
            exact hover ⟨hnil, by omega⟩

def linkedFiles : FileSystem :=
  AList.insert ["repo"] .dir (AList.insert ["repo", "notes.txt"]
    (.symlink ⟨true, ["etc", "secret"]⟩) (AList.insert ["etc"] .dir
      (AList.insert ["etc", "secret"] (.file [115] 1) ∅)))

def linkedCheckout : Checkout where
  files := linkedFiles
  repoDir := ["repo"]
  honest := by
    intro p content size hp hfile
    have hin := Table.mem_entries.mpr hfile
    have hentries : linkedFiles.entries = [⟨["repo"], .dir⟩,
        ⟨["repo", "notes.txt"], .symlink ⟨true, ["etc", "secret"]⟩⟩, ⟨["etc"], .dir⟩,
        ⟨["etc", "secret"], .file [115] 1⟩] := by decide
    simp only [hentries, List.mem_cons, List.not_mem_nil, or_false] at hin
    rcases hin with hin | hin | hin | hin <;> cases hin
    rfl

def linkedEnv : Env :=
  { Env.calm 0 with checkout := linkedCheckout }

/-- The secret ends up in the archive. -/
theorem linked_file_packed :
    ¬ ∀ (env : Env) (job : BuildJob), job.ZipConfined env := by
  intro h
  have hjob := h linkedEnv ((Db.empty .default).buildJob linkedEnv 0 (.new "demo" .demo "")
    ("1.0.0", .zero))
  have hfits : ¬ linkedCheckout.OverLimit RuntimeConfig.default.maxReleaseZipBytes :=
    fun hover => absurd hover.2 (by decide +kernel)
  have hconf : linkedCheckout.Confines RuntimeConfig.default.maxReleaseZipBytes
      (linkedCheckout.members.map (·.1)) := (packStep_confined rfl hfits).mp hjob
  apply (Checkout.confines_iff.mp hconf).1
  exact ⟨["repo", "notes.txt"], by decide +kernel, by decide +kernel, ["etc", "secret"],
    by decide +kernel, by decide +kernel⟩

end PluginRegistry
