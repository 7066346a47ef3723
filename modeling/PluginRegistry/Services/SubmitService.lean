import PluginRegistry.Services.BuildService
import PluginRegistry.Services.GitProviders
import PluginRegistry.Services.MetadataParser

namespace PluginRegistry
open Lib

/-- What a clone leaves on disk, under real directories, and what
`git rev-parse HEAD` says there. -/
structure Clone where
  checkout : Checkout
  placed : ∀ dir name, dir ++ [name] <+: checkout.repoDir →
    name ≠ "" ∧ name ≠ "." ∧ name ≠ ".." ∧
      checkout.files.lookup (dir ++ [name]) = some .dir
  commitSha : Except PyErr CommitSha

/-- What the Git hosts hold at one moment: what a clone of a repository gives at
a ref, the default branch without one. -/
abbrev GitHosts := List Char × List Char → Option String → Except PyErr Clone

structure Moment where
  env : Env
  hosts : GitHosts

/-- The repository that a URL names. GitHub tells owners and repositories apart
without regard to case. -/
def repoIdentity (settings : GitSettings) (repoUrl : String) :
    Except PyErr (List Char × List Char) :=
  (parseGithubUrl settings repoUrl).map fun (owner, repo) =>
    (owner.map Char.toLower, repo.map Char.toLower)

def cloneRepo (settings : GitSettings) (hosts : GitHosts) (repoUrl : String)
    (ref : Option String) : Except PyErr Clone := do
  hosts (← repoIdentity settings repoUrl) (ref.filter fun ref => !ref.isEmpty)

/-- `get_metadata_path`. -/
def Checkout.metadataPath (checkout : Checkout) : Path :=
  checkout.repoDir ++ ["metadata.yaml"]

def Clone.metadata (yaml : Yaml) (clone : Clone) : Except PyErr PluginMetadata :=
  parseMetadataYaml yaml clone.checkout.files clone.checkout.metadataPath

/-- A checkout whose `metadata.yaml` has been written over. -/
def Checkout.rewrite (checkout : Checkout) (content : List UInt8) : Checkout where
  files := checkout.files.write checkout.metadataPath content
  repoDir := checkout.repoDir
  honest := by
    intro p written size hp hlook
    unfold FileSystem.write at hlook
    cases hr : checkout.files.resolve checkout.metadataPath with
    | none =>
      rw [hr] at hlook
      exact checkout.honest p written size hp hlook
    | some target =>
      rw [hr] at hlook
      by_cases ht : p = target
      · subst ht
        rw [AList.lookup_insert] at hlook
        cases hlook
        rfl
      · rw [AList.lookup_insert_ne ht] at hlook
        exact checkout.honest p written size hp hlook

def Checkout.overwriteMetadataVersion (yaml : Yaml) (checkout : Checkout) (version : String) :
    Except PyErr Checkout := do
  let data ← loadMapping yaml (← checkout.files.read checkout.metadataPath)
  return checkout.rewrite (yaml.safeDump (data.set "version" (.str version)))

/-- What `build_from_repo` does with `metadata.yaml`: it keeps the version that
it read first, and packs the file with the version it was given. -/
def Clone.prepare (yaml : Yaml) (clone : Clone) (version : Option String) :
    Except PyErr (PluginMetadata × Checkout) := do
  let metadata ← clone.metadata yaml
  match version with
  | none => return (metadata, clone.checkout)
  | some version =>
    if metadata.version = version then return (metadata, clone.checkout)
    else
      let checkout ← clone.checkout.overwriteMetadataVersion yaml version
      let reread ← parseMetadataYaml yaml checkout.files checkout.metadataPath
      return ({ reread with version := metadata.version }, checkout)

def urlRefusal (settings : GitSettings) (repoUrl : String) : Option PyErr :=
  match getGitProviderForUrl settings repoUrl, parseGithubUrl settings repoUrl with
  | .error e, _ => some e
  | .ok _, .error e => some e
  | .ok _, .ok _ => none

def Env.atClone (env : Env) (settings : GitSettings) (yaml : Yaml) (repoUrl : String)
    (clone : Except PyErr Clone) (version : Option String) : Env :=
  let prepared := clone.bind fun clone => clone.prepare yaml version
  { env with
    fault := fun site =>
      if site = .preflightRepoSize then (urlRefusal settings repoUrl).or (env.fault site)
      else env.fault site
    checkout := match prepared with
      | .ok (_, checkout) => checkout
      | .error _ => env.checkout
    metadata := prepared.map (·.1)
    commitSha := clone.bind (·.commitSha) }

/-- `build_from_repo` with the clone it makes. -/
def buildFromClone (settings : GitSettings) (yaml : Yaml) (moment : Moment) (pluginId : PluginId)
    (plugin : Plugin) (version ref : Option String) : Op VersionId :=
  let repoUrl := plugin.repoUrl.getD ""
  buildFromRepo (moment.env.atClone settings yaml repoUrl
    (cloneRepo settings moment.hosts repoUrl ref) version) pluginId plugin version

structure SubmitRequest where
  repoUrl : String
  version : Option String
  ref : Option String

/-- `version or metadata.version`. -/
def SubmitRequest.versionFor (request : SubmitRequest) (metadata : PluginMetadata) : String :=
  if truthy request.version then request.version.getD "" else metadata.version

def submittedPlugin (env : Env) (metadata : PluginMetadata) (repoUrl : String) :
    Op (PluginId × Plugin) := do
  match ← getPluginByKey (inferPluginKey env metadata.name) with
  | none =>
    let pluginId ← createPlugin env metadata repoUrl
    return (pluginId, .new (inferPluginKey env metadata.name) metadata repoUrl)
  | some (pluginId, plugin) =>
    Work.lift (assertMetadataMatchesPlugin env metadata plugin)
    return (pluginId, plugin)

/-- `submit_repo` up to the build: the plugin, and the version to build. -/
def openSubmission (settings : GitSettings) (yaml : Yaml) (first : Moment)
    (request : SubmitRequest) : Op (PluginId × Plugin × String) := do
  let _ ← runtimeConfig
  Work.lift (getGitProviderForUrl settings request.repoUrl)
  let normalized ← Work.lift (normalizeUrl settings request.repoUrl)
  call first.env .preflightRepoSize
  call first.env .cloneRepo
  let clone ← Work.lift (cloneRepo settings first.hosts normalized.repoUrl request.ref)
  let metadata ← Work.lift (clone.metadata yaml)
  let (pluginId, plugin) ← submittedPlugin first.env metadata normalized.repoUrl
  return (pluginId, plugin, request.versionFor metadata)

/-- `submit_repo`. The repository is cloned at one moment for its metadata and
at a later one by the build. -/
def submitRepo (settings : GitSettings) (yaml : Yaml) (first second : Moment)
    (request : SubmitRequest) : Op VersionId := do
  let (pluginId, plugin, version) ← openSubmission settings yaml first request
  buildFromClone settings yaml second pluginId plugin (some version) request.ref

end PluginRegistry
