import PluginRegistry.Proofs.VersionLabels
import PluginRegistry.Services.GitRefs

namespace PluginRegistry
open Lib

variable {settings : GitSettings} {yaml : Yaml} {repo : GitRepo} {tools : GitTools}
  {normalized : NormalizedRepo} {refType : RefType} {ref : String} {commitSha : CommitSha}

theorem checkedOut_filter (asked : Option String) :
    checkedOut repo tools (asked.filter fun ref => !ref.isEmpty) = checkedOut repo tools asked := by
  simp only [checkedOut, Option.filter_filter, Bool.and_self]

/-- A clone by URL is the checkout of the ref in the repository the URL names. -/
theorem cloneRepo_hosts {identity : List Char × List Char} {worktree : CommitSha → Clone}
    {repoUrl : String} (h : repoIdentity settings repoUrl = .ok identity) (asked : Option String) :
    cloneRepo settings (repo.hosts tools identity worktree) repoUrl asked =
      (cloneAt repo tools asked).map worktree := by
  simp only [cloneRepo, h, bind, Except.bind, GitRepo.hosts, if_true, cloneAt, checkedOut_filter]

structure GitRepo.Takes (repo : GitRepo) (ref : String) (commitSha : CommitSha) : Prop where
  blank : ref = "" → repo.branches.lookup repo.defaultBranch = some commitSha
  hash : ref ≠ "" → isSha ref = true → repo.Names ref commitSha ∧ repo.Cloned commitSha ∧
    ∀ other, repo.Names ref other → repo.Cloned other → other = commitSha
  name : ref ≠ "" → isSha ref = false → repo.branchOrTag ref = some commitSha

theorem cloneAt_ok {asked : Option String} :
    cloneAt repo tools asked = .ok commitSha ↔ checkedOut repo tools asked = some commitSha := by
  unfold cloneAt
  cases checkedOut repo tools asked <;> simp

theorem checkedOut_empty :
    checkedOut repo tools (some "") = repo.branches.lookup repo.defaultBranch :=
  rfl

theorem checkedOut_given (hempty : ref ≠ "") :
    checkedOut repo tools (some ref) =
      if isSha ref = true then tools.checkout ref else repo.branchOrTag ref := by
  have hgiven : (!ref.isEmpty) = true := by
    simpa using hempty
  rw [checkedOut, Option.filter_some, if_pos hgiven]

theorem cloneAt_takes (hd : tools.Documented repo) (h : repo.Takes ref commitSha) :
    cloneAt repo tools (some ref) = .ok commitSha := by
  rw [cloneAt_ok]
  by_cases hempty : ref = ""
  · rw [hempty, checkedOut_empty]
    exact h.blank hempty
  · rw [checkedOut_given hempty]
    cases hsha : isSha ref with
    | true =>
      obtain ⟨hnames, hcloned, hunique⟩ := h.hash hempty hsha
      obtain ⟨found, hfound⟩ := Option.isSome_iff_exists.mp (hd.checkout_finds _ _ hnames hcloned)
      obtain ⟨hn, hc⟩ := hd.checkout_names _ _ hfound
      rw [if_pos rfl, hfound, hunique found hn hc]
    | false => exact h.name hempty hsha

theorem exists_answers (P : String → CommitSha → Prop) :
    ∃ answer : String → Option CommitSha,
      (∀ name found, answer name = some found → P name found) ∧
      ∀ name found, P name found → (answer name).isSome := by
  classical
  refine ⟨fun name => if h : ∃ found, P name found then some h.choose else none, ?_, ?_⟩
  · intro name found hanswer
    dsimp only at hanswer
    split at hanswer
    · rename_i h
      cases hanswer
      exact h.choose_spec
    · cases hanswer
  · intro name found hfound
    have hname : ∃ found, P name found := ⟨found, hfound⟩
    simp only [hname, dif_pos, Option.isSome_some]

/-- What answers whenever it can may give any one of its answers. -/
theorem exists_answer {P : String → CommitSha → Prop} (h : P ref commitSha) :
    ∃ answer : String → Option CommitSha, answer ref = some commitSha ∧
      (∀ name found, answer name = some found → P name found) ∧
      ∀ name found, P name found → (answer name).isSome := by
  obtain ⟨answer, hsound, htotal⟩ := exists_answers P
  refine ⟨Function.update answer ref (some commitSha), Function.update_self .., ?_, ?_⟩
  · intro name found hanswer
    by_cases hname : name = ref
    · subst hname
      rw [Function.update_self] at hanswer
      cases hanswer
      exact h
    · rw [Function.update_of_ne hname] at hanswer
      exact hsound name found hanswer
  · intro name found hfound
    by_cases hname : name = ref
    · subst hname
      rw [Function.update_self, Option.isSome_some]
    · rw [Function.update_of_ne hname]
      exact htotal name found hfound

/-- A commit that is cloned under every git and API in keeping with their documentation is
the one that the ref takes. -/
theorem takes_of_cloneAt {selected : String} (hnames : repo.Names selected commitSha)
    (h : ∀ tools : GitTools, tools.Documented repo → tools.endpoint selected = some commitSha →
      cloneAt repo tools (some ref) = .ok commitSha) :
    repo.Takes ref commitSha := by
  obtain ⟨endpoint, hsel, hen, hef⟩ := exists_answer hnames
  obtain ⟨checkout, hcn, hcf⟩ :=
    exists_answers fun name found => repo.Names name found ∧ repo.Cloned found
  have hclone := h ⟨endpoint, checkout⟩
    ⟨hen, hef, hcn, fun name found hn hc => hcf name found ⟨hn, hc⟩⟩ hsel
  rw [cloneAt_ok] at hclone
  refine ⟨?_, ?_, ?_⟩
  · intro hempty
    rwa [hempty, checkedOut_empty] at hclone
  · intro hempty hsha
    rw [checkedOut_given hempty, if_pos hsha] at hclone
    obtain ⟨hn, hc⟩ := hcn _ _ hclone
    refine ⟨hn, hc, ?_⟩
    intro other hother hcloned
    -- `git checkout` may as well answer with the other commit
    obtain ⟨checkout', hsame, hcn', hcf'⟩ :=
      exists_answer (P := fun name found => repo.Names name found ∧ repo.Cloned found)
        ⟨hother, hcloned⟩
    have hclone' := h ⟨endpoint, checkout'⟩
      ⟨hen, hef, hcn', fun name found hn hc => hcf' name found ⟨hn, hc⟩⟩ hsel
    rw [cloneAt_ok, checkedOut_given hempty, if_pos hsha] at hclone'
    exact Option.some.inj (hsame.symm.trans hclone')
  · intro hempty hsha
    rwa [checkedOut_given hempty, hsha] at hclone

def GitRepo.Inspectable (yaml : Yaml) (repo : GitRepo) (commitSha : CommitSha) : Prop :=
  ∃ metadata, inspectCommit yaml repo commitSha = .ok metadata

def NormalizedRepo.givenRef (normalized : NormalizedRepo) (ref : String) : String :=
  if ref.isEmpty then (normalized.detectedRef.map (·.2)).getD "" else ref

theorem selectedRef_given (htype : refType ≠ .default) (defaultBranch : String) :
    selectedRef refType (some ref) (normalized.detectedRef.map (·.2)) defaultBranch =
      if strip (normalized.givenRef ref) = "" then
        .error (valueError (refTypeText refType ++ " ref is required"))
      else .ok (strip (normalized.givenRef ref)) := by
  have hgiven : (if truthy (some ref) = true then some ref
      else normalized.detectedRef.map (·.2)).getD "" = normalized.givenRef ref := by
    rw [NormalizedRepo.givenRef, truthy]
    cases ref.isEmpty <;> simp
  rw [selectedRef, if_neg htype]
  dsimp only
  rw [hgiven]
  simp only [String.isEmpty_iff]

/-- What a ref of a type resolves to: an answer of the endpoint that can be shown. -/
theorem resolveRef_commit (htype : refType ≠ .default) :
    (∃ resolved, resolveRef yaml tools repo normalized (some refType) (some ref) = .ok resolved ∧
        resolved.selectedCommit = commitSha) ↔
      strip (normalized.givenRef ref) ≠ "" ∧
        tools.endpoint (strip (normalized.givenRef ref)) = some commitSha ∧
        repo.Inspectable yaml commitSha := by
  have hdefault : ¬ ((some refType).getD ((normalized.detectedRef.map (·.1)).getD .default) =
      .default ∧ repo.defaultBranch = "") := fun h => htype h.1
  unfold resolveRef
  dsimp only
  rw [if_neg hdefault, Option.getD_some, selectedRef_given htype]
  by_cases hempty : strip (normalized.givenRef ref) = ""
  · simp [hempty, bind, Except.bind]
  · rw [if_neg hempty]
    simp only [bind, Except.bind, ne_eq, hempty, not_false_eq_true, true_and]
    cases hanswer : tools.endpoint (strip (normalized.givenRef ref)) with
    | none => simp [throw, throwThe, MonadExceptOf.throw]
    | some found =>
      unfold GitRepo.Inspectable
      dsimp only
      cases hinspect : inspectCommit yaml repo found with
      | error e =>
        simp only [reduceCtorEq, false_and, exists_false, false_iff, not_and, Option.some.injEq]
        rintro rfl ⟨metadata, hm⟩
        rw [hinspect] at hm
        cases hm
      | ok metadata =>
        constructor
        · rintro ⟨resolved, hresolved, rfl⟩
          cases hresolved
          exact ⟨rfl, metadata, hinspect⟩
        · rintro ⟨hfound, -⟩
          cases hfound
          exact ⟨_, rfl, rfl⟩

def BuildsResolved (yaml : Yaml) (repo : GitRepo) (normalized : NormalizedRepo)
    (refType : RefType) (ref : String) : Prop :=
  ∀ tools : GitTools, tools.Documented repo → ∀ resolved,
    resolveRef yaml tools repo normalized (some refType) (some ref) = .ok resolved →
    cloneAt repo tools (some ref) = .ok resolved.selectedCommit

/-- Whatever commit the ref resolves to, a submission with that ref checks it
out once it is accepted. -/
def SubmissionsResolved (settings : GitSettings) (yaml : Yaml) (repo : GitRepo)
    (normalized : NormalizedRepo) (refType : RefType) (ref : String) : Prop :=
  ∀ tools : GitTools, tools.Documented repo → ∀ resolved,
    resolveRef yaml tools repo normalized (some refType) (some ref) = .ok resolved →
    ∀ repoUrl row decision,
      createSubmissionRequest settings ⟨repoUrl, refType, some ref⟩ = .ok row →
      cloneAt repo tools (row.submitPayload decision).ref = .ok resolved.selectedCommit

/-- Every commit that the resolved ref stands for and that can be shown is the
one that the raw ref is cloned at. -/
def BuildRefSettled (yaml : Yaml) (repo : GitRepo) (normalized : NormalizedRepo) (ref : String) :
    Prop :=
  strip (normalized.givenRef ref) ≠ "" → ∀ commitSha,
    repo.Names (strip (normalized.givenRef ref)) commitSha →
    repo.Inspectable yaml commitSha → repo.Takes ref commitSha

def SubmissionRefSettled (settings : GitSettings) (yaml : Yaml) (repo : GitRepo)
    (refType : RefType) (ref : String) : Prop :=
  (∃ repoUrl row, createSubmissionRequest settings ⟨repoUrl, refType, some ref⟩ = .ok row) →
    ∀ commitSha, repo.Names (strip ref) commitSha → repo.Inspectable yaml commitSha →
      repo.Takes (strip ref) commitSha

theorem builds_resolved_iff (htype : refType ≠ .default) :
    BuildsResolved yaml repo normalized refType ref ↔
      BuildRefSettled yaml repo normalized ref := by
  constructor
  · intro hbuilds hgiven commitSha hnames hinspect
    apply takes_of_cloneAt hnames
    intro tools hd hanswer
    obtain ⟨resolved, hresolved, rfl⟩ :=
      (resolveRef_commit htype).mpr ⟨hgiven, hanswer, hinspect⟩
    exact hbuilds tools hd resolved hresolved
  · intro hsettled tools hd resolved hresolved
    obtain ⟨hgiven, hanswer, hinspect⟩ :=
      (resolveRef_commit htype).mp ⟨resolved, hresolved, rfl⟩
    exact cloneAt_takes hd (hsettled hgiven _ (hd.endpoint_names _ _ hanswer) hinspect)

/-- The row of a submission keeps its ref without blanks, and its task gets it. -/
theorem submitted_ref (htype : refType ≠ .default) {repoUrl : String} {row : Submission}
    (h : createSubmissionRequest settings ⟨repoUrl, refType, some ref⟩ = .ok row)
    (decision : DecisionRequest) :
    strip ref ≠ "" ∧ ref ≠ "" ∧ (row.submitPayload decision).ref = some (strip ref) := by
  unfold createSubmissionRequest at h
  dsimp only at h
  split at h
  · cases h
  · obtain ⟨-, -, h⟩ := except_bind_ok h
    split at h
    · cases h
    · rename_i hrefused
      have hgiven : truthy ((Option.filter (fun ref => !ref.isEmpty) (some ref)).map strip) =
          true := by
        simpa [htype] using hrefused
      have hrow := Except.ok.inj h
      subst hrow
      rw [Submission.submitPayload, if_neg htype]
      rw [Option.filter_some] at hgiven ⊢
      by_cases hempty : ref = ""
      · simp [hempty, truthy] at hgiven
      · rw [if_pos (by simpa using hempty)] at hgiven ⊢
        refine ⟨?_, hempty, rfl⟩
        simpa [truthy] using hgiven

theorem submissions_resolved_iff (htype : refType ≠ .default) :
    SubmissionsResolved settings yaml repo normalized refType ref ↔
      SubmissionRefSettled settings yaml repo refType ref := by
  constructor
  · rintro hsubmits ⟨repoUrl, row, hrow⟩ commitSha hnames hinspect
    obtain ⟨hstrip, hgiven, hpayload⟩ := submitted_ref htype hrow ⟨0, .accept, none, 0⟩
    have hsame : normalized.givenRef ref = ref := if_neg (by simpa using hgiven)
    apply takes_of_cloneAt hnames
    intro tools hd hanswer
    rw [← hsame] at hstrip hanswer
    obtain ⟨resolved, hresolved, rfl⟩ :=
      (resolveRef_commit htype).mpr ⟨hstrip, hanswer, hinspect⟩
    rw [← hpayload]
    exact hsubmits tools hd resolved hresolved repoUrl row ⟨0, .accept, none, 0⟩ hrow
  · intro hsettled tools hd resolved hresolved repoUrl row decision hrow
    obtain ⟨-, hgiven, hpayload⟩ := submitted_ref htype hrow decision
    have hsame : normalized.givenRef ref = ref := if_neg (by simpa using hgiven)
    obtain ⟨-, hanswer, hinspect⟩ := (resolveRef_commit htype).mp ⟨resolved, hresolved, rfl⟩
    rw [hsame] at hanswer
    rw [hpayload]
    exact cloneAt_takes hd
      (hsettled ⟨repoUrl, row, hrow⟩ _ (hd.endpoint_names _ _ hanswer) hinspect)

/-- Inspections and clones agree on a ref exactly when all that the ref can stand
for is what its clone takes: the branch of that name, else the tag, or the one
commit with that full hash. -/
theorem inspection_and_clone_agree_iff (settings : GitSettings) (yaml : Yaml) (repo : GitRepo)
    (normalized : NormalizedRepo) (refType : RefType) (htype : refType ≠ .default) (ref : String) :
    (BuildsResolved yaml repo normalized refType ref ↔
        BuildRefSettled yaml repo normalized ref) ∧
      (SubmissionsResolved settings yaml repo normalized refType ref ↔
        SubmissionRefSettled settings yaml repo refType ref) :=
  ⟨builds_resolved_iff htype, submissions_resolved_iff htype⟩

def firstCommit : GitCommit :=
  ⟨[], "Initial import", some (demoFile "1.0.0")⟩

def demoRepo : GitRepo :=
  ⟨AList.singleton "main" .one, ∅, "main", AList.singleton .one firstCommit⟩

def demoNormalized : NormalizedRepo :=
  ⟨"https://github.com/alice/demo", "alice", "demo", none⟩

theorem inspection_and_clone_agree_iff_main :
    RefType.branch ≠ .default ∧
      (BuildsResolved demoYaml demoRepo demoNormalized .branch "main" ↔
        BuildRefSettled demoYaml demoRepo demoNormalized "main") ∧
      (SubmissionsResolved demoSettings demoYaml demoRepo demoNormalized .branch "main" ↔
        SubmissionRefSettled demoSettings demoYaml demoRepo .branch "main") :=
  ⟨by decide, inspection_and_clone_agree_iff _ _ _ _ .branch (by decide) "main"⟩

theorem demoRepo_inspectable : demoRepo.Inspectable demoYaml .one := by
  have htext : demoFile "1.0.0" = utf8 "author: alice\nname: demo\nversion: 1.0.0\n" := by
    decide
  have hdecodes : (String.fromUTF8? (demoFile "1.0.0").toByteArray).isNone = false := by
    rw [htext, fromUTF8_utf8]
    rfl
  refine ⟨⟨"demo", "alice", "1.0.0", none⟩, ?_⟩
  have hcommit : demoRepo.commits.lookup .one = some firstCommit := rfl
  have hmessage : firstCommit.message.isEmpty = false := by
    decide
  rw [inspectCommit, hcommit]
  simp only [firstCommit] at hmessage ⊢
  simp only [hmessage, hdecodes, Bool.false_eq_true, if_false]
  exact parseMetadataYamlText_ok.mpr ⟨demoData "1.0.0", demoYaml_load "1.0.0", rfl⟩

theorem demoRepo_abbreviates : demoRepo.Abbreviates "1111111" .one := by
  refine ⟨by decide, ⟨rfl, by decide⟩, ?_⟩
  rintro other ⟨hstored, -⟩
  by_contra hne
  have hmissing : demoRepo.commits.lookup other = none := by
    rw [AList.lookup_eq_none]
    simpa [demoRepo, AList.mem_keys] using hne
  rw [hmissing] at hstored
  cases hstored

/-- A commit can be inspected by its short hash, and no clone can be made at it. -/
theorem short_hash_not_cloned :
    ¬ ∀ (settings : GitSettings) (yaml : Yaml) (repo : GitRepo) (normalized : NormalizedRepo)
      (refType : RefType), refType ≠ .default → ∀ ref : String,
        BuildsResolved yaml repo normalized refType ref ∧
          SubmissionsResolved settings yaml repo normalized refType ref := by
  intro h
  have hbuilds := (h demoSettings demoYaml demoRepo demoNormalized .commit (by decide) "1111111").1
  have hstrip : strip (demoNormalized.givenRef "1111111") = "1111111" := by
    decide
  have htakes : demoRepo.Takes "1111111" .one := by
    apply (builds_resolved_iff (by decide)).mp hbuilds
    · rw [hstrip]
      decide
    · rw [hstrip]
      exact .hash demoRepo_abbreviates
    · exact demoRepo_inspectable
  have hbranch := htakes.name (by decide) (by decide)
  revert hbranch
  decide

end PluginRegistry
