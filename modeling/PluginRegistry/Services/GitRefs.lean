import PluginRegistry.Services.SubmitService

namespace PluginRegistry
open Lib

/-- A commit as GitHub's API gives it: its message, and `metadata.yaml` if the
contents endpoint has a file there. -/
structure GitCommit where
  parents : List CommitSha
  message : String
  metadataYaml : Option (List UInt8)

/-- A repository on its host. The commits that no branch or tag leads to stay
stored. -/
structure GitRepo where
  branches : Table String CommitSha
  tags : Table String CommitSha
  defaultBranch : String
  commits : Table CommitSha GitCommit

inductive GitRepo.Cloned (repo : GitRepo) : CommitSha → Prop
  | branch {name : String} {commitSha : CommitSha} :
    repo.branches.lookup name = some commitSha → Cloned repo commitSha
  | tag {name : String} {commitSha : CommitSha} :
    repo.tags.lookup name = some commitSha → Cloned repo commitSha
  | parent {child : CommitSha} {commit : GitCommit} {commitSha : CommitSha} :
    Cloned repo child → repo.commits.lookup child = some commit → commitSha ∈ commit.parents →
      Cloned repo commitSha

def GitRepo.Abbreviates (repo : GitRepo) (ref : String) (commitSha : CommitSha) : Prop :=
  let fits := fun stored : CommitSha =>
    (repo.commits.lookup stored).isSome ∧ (asciiLower ref).toList <+: (asciiLower stored.text).toList
  4 ≤ ref.length ∧ fits commitSha ∧ ∀ other, fits other → other = commitSha

inductive GitRepo.Names (repo : GitRepo) (ref : String) : CommitSha → Prop
  | branch {commitSha : CommitSha} :
    repo.branches.lookup ref = some commitSha → Names repo ref commitSha
  | tag {commitSha : CommitSha} :
    repo.tags.lookup ref = some commitSha → Names repo ref commitSha
  | hash {commitSha : CommitSha} : repo.Abbreviates ref commitSha → Names repo ref commitSha

/-- What GitHub's commits endpoint and `git checkout` in a full clone answer for
a ref. -/
structure GitTools where
  endpoint : String → Option CommitSha
  checkout : String → Option CommitSha

/-- What is documented of both: they take branch names, tag names and hashes,
and find one of the commits that a ref stands for. -/
structure GitTools.Documented (tools : GitTools) (repo : GitRepo) : Prop where
  endpoint_names : ∀ ref commitSha, tools.endpoint ref = some commitSha →
    repo.Names ref commitSha
  endpoint_finds : ∀ ref commitSha, repo.Names ref commitSha → (tools.endpoint ref).isSome
  checkout_names : ∀ ref commitSha, tools.checkout ref = some commitSha →
    repo.Names ref commitSha ∧ repo.Cloned commitSha
  checkout_finds : ∀ ref commitSha, repo.Names ref commitSha → repo.Cloned commitSha →
    (tools.checkout ref).isSome

def isSha (ref : String) : Bool :=
  ref.length = 40 && ref.toList.all fun c => "0123456789abcdef".toList.contains c.toLower

/-- What `git clone --branch` takes: a branch, or else a tag. -/
def GitRepo.branchOrTag (repo : GitRepo) (ref : String) : Option CommitSha :=
  (repo.branches.lookup ref).or (repo.tags.lookup ref)

/-- The commit that the three commands of `clone_repo` leave checked out. -/
def checkedOut (repo : GitRepo) (tools : GitTools) (ref : Option String) : Option CommitSha :=
  match ref.filter fun ref => !ref.isEmpty with
  | none => repo.branches.lookup repo.defaultBranch
  | some ref => if isSha ref then tools.checkout ref else repo.branchOrTag ref

def cloneAt (repo : GitRepo) (tools : GitTools) (ref : Option String) : Except PyErr CommitSha :=
  match checkedOut repo tools ref with
  | some commitSha => .ok commitSha
  | none => .error (gitError "Failed to clone")

/-- The hosts that hold one repository, where a checkout of each of its commits
leaves a clone. -/
def GitRepo.hosts (repo : GitRepo) (tools : GitTools) (identity : List Char × List Char)
    (worktree : CommitSha → Clone) : GitHosts := fun name ref =>
  if name = identity then (cloneAt repo tools ref).map worktree
  else .error (gitError "Failed to clone")

def refTypeText : RefType → String
  | .default => "default"
  | .branch => "branch"
  | .tag => "tag"
  | .commit => "commit"

def selectedRef (refType : RefType) (explicitRef detectedRef : Option String)
    (defaultBranch : String) : Except PyErr String :=
  if refType = .default then .ok defaultBranch
  else
    let given := if truthy explicitRef then explicitRef else detectedRef
    let selected := strip (given.getD "")
    if selected.isEmpty then .error (valueError (refTypeText refType ++ " ref is required"))
    else .ok selected

structure ResolvedRef where
  selectedRefType : RefType
  selectedRef : String
  selectedCommit : CommitSha
  metadata : PluginMetadata

/-- `_commit_info` and `_metadata_preview` of one commit: a commit without any
message has no first line. -/
def inspectCommit (yaml : Yaml) (repo : GitRepo) (commitSha : CommitSha) :
    Except PyErr PluginMetadata :=
  match repo.commits.lookup commitSha with
  | none => .error (gitError "GitHub repository, ref, or metadata.yaml was not found")
  | some commit =>
    match commit.metadataYaml with
    | none => .error (gitError "GitHub repository, ref, or metadata.yaml was not found")
    | some content =>
      if commit.message.isEmpty then .error ⟨.indexError, "list index out of range", 0⟩
      else if (String.fromUTF8? content.toByteArray).isNone then
        .error (gitError "Failed to decode metadata.yaml from GitHub")
      else parseMetadataYamlText yaml content

def resolveRef (yaml : Yaml) (tools : GitTools) (repo : GitRepo) (normalized : NormalizedRepo)
    (refType : Option RefType) (ref : Option String) : Except PyErr ResolvedRef := do
  let selectedRefType := refType.getD ((normalized.detectedRef.map (·.1)).getD .default)
  if selectedRefType = .default ∧ repo.defaultBranch = "" then
    throw (gitError "GitHub repository did not include a default branch")
  else
    let selected ← selectedRef selectedRefType ref (normalized.detectedRef.map (·.2))
      repo.defaultBranch
    match tools.endpoint selected with
    | none => throw (gitError "GitHub repository, ref, or metadata.yaml was not found")
    | some commitSha =>
      let metadata ← inspectCommit yaml repo commitSha
      return ⟨selectedRefType, selected, commitSha, metadata⟩

structure SubmissionCreate where
  repoUrl : String
  refType : RefType
  ref : Option String

def SubmissionCreate.valid (data : SubmissionCreate) : Bool :=
  1 ≤ data.repoUrl.length && data.repoUrl.length ≤ 512 &&
    data.ref.all fun ref => ref.length ≤ 255

def createSubmissionRequest (settings : GitSettings) (data : SubmissionCreate) :
    Except PyErr Submission := do
  if !data.valid then throw (validation "Request validation failed")
  else
    let _ ← parseGithubUrl settings data.repoUrl
    let normalizedRef := if data.refType = .default then none
      else (data.ref.filter fun ref => !ref.isEmpty).map strip
    if data.refType ≠ .default ∧ truthy normalizedRef = false then
      throw (valueError "ref is required when ref_type is not default")
    else
      return {
        repoUrl := strip data.repoUrl
        refType := data.refType
        ref := normalizedRef
        status := .pendingReview
        adminMessage := none
        acceptedBy := none
        acceptedAt := none }

end PluginRegistry
