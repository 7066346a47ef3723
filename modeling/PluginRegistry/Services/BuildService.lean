import PluginRegistry.Services.ScanService

namespace PluginRegistry
open Lib

def shouldSkip (rel : List String) : Bool :=
  let name := rel.getLastD ""
  rel.contains ".git" || rel.contains "__pycache__" || rel.contains "node_modules" ||
    rel.contains ".venv" || rel.contains "venv" || rel.contains "dist" || rel.contains "build" ||
    rel.contains ".DS_Store" || name = ".env" || name = ".env.local" ||
    name.toList.drop (name.length - 4) = ".pyc".toList || name = ".python-version"

/-- The members `_create_zip` writes for the paths still to come, and the
error that ends it, if one does. `total` counts the sizes so far. -/
def writeMembers (files : FileSystem) (repoDir : Path) (maxReleaseZipBytes : Int) :
    Nat → List Path → Blob × Option PyErr
  | _, [] => ([], none)
  | total, path :: rest =>
    match files.stat path with
    | some (.file content size) =>
      let rel := path.drop repoDir.length
      if shouldSkip rel then writeMembers files repoDir maxReleaseZipBytes total rest
      else if maxReleaseZipBytes < (total + size : Nat) then
        ([], some (validation "release zip is too large"))
      else
        let (zip, error) := writeMembers files repoDir maxReleaseZipBytes (total + size) rest
        (⟨rel, content⟩ :: zip, error)
    | _ => writeMembers files repoDir maxReleaseZipBytes total rest

def createZip (checkout : Checkout) (maxReleaseZipBytes : Int) : Blob × Option PyErr :=
  writeMembers checkout.files checkout.repoDir maxReleaseZipBytes 0
    (checkout.files.rglob checkout.repoDir)

/-- What a build holds once its version row exists. `resultsLoaded` tells whether its
session has loaded the results of the version, before the scan. -/
structure BuildJob where
  pluginId : PluginId
  plugin : Plugin
  versionId : VersionId
  version : String
  commitSha : CommitSha
  checkout : Checkout
  s3Layout : S3Layout
  s3PublicUrl : String
  maxReleaseZipBytes : Int
  resultsLoaded : Bool

def BuildJob.zipPath (job : BuildJob) : String :=
  job.plugin.pluginKey ++ "-" ++ job.version ++ ".zip"

def BuildJob.s3Key (job : BuildJob) : String :=
  buildS3KeyWithLayout job.plugin job.version .gitAuto (some job.commitSha) job.s3Layout

/-- Everything up to the row that holds the placeholder key. An error here
leaves no version for the handler to mark. -/
def startBuild (env : Env) (pluginId : PluginId) (plugin : Plugin) (version : Option String) :
    Op BuildJob := do
  Work.refuse (!truthy plugin.repoUrl) (invalidState "Plugin has no repository URL")
  let cfg ← runtimeConfig
  call env .preflightRepoSize
  call env .cloneRepo
  let metadata ← Work.lift env.metadata
  let effectiveVersion := if truthy version then version.getD "" else metadata.version
  Work.lift (assertMetadataMatchesPlugin env metadata plugin)
  let commitSha ← Work.lift env.commitSha
  let existing ← getVersionByPluginAndCommit pluginId commitSha
  Work.refuse existing.isSome
    (conflict ("Commit " ++ textPrefix 12 commitSha.text ++ " already exists for plugin " ++
      plugin.pluginKey))
  let placeholderKey := buildS3KeyWithLayout plugin effectiveVersion .gitAuto none cfg.s3Layout
  let versionId ← createVersion env pluginId effectiveVersion (some placeholderKey)
    (some (buildPublicUrlWithBase placeholderKey cfg.s3PublicUrl)) .gitAuto none .building
  return {
    pluginId
    plugin
    versionId
    version := effectiveVersion
    commitSha
    checkout := env.checkout
    s3Layout := cfg.s3Layout
    s3PublicUrl := cfg.s3PublicUrl
    maxReleaseZipBytes := cfg.maxReleaseZipBytes
    resultsLoaded := false }

def packStep (env : Env) (job : BuildJob) : Op Unit := do
  call env .openZipFile
  let (zip, error) := createZip job.checkout job.maxReleaseZipBytes
  Work.emit fun x => { x with zipFiles := AList.insert job.zipPath zip x.zipFiles }
  match error with
  | none => pure ()
  | some e => throw e

def readZipFile (zipPath : String) : Op Blob := fun s =>
  match s.outside.zipFiles.lookup zipPath with
  | some content => .ok content s
  | none => .error ⟨.osError, "No such file or directory: " ++ zipPath, 0⟩ s

def uploadStep (env : Env) (job : BuildJob) : Op Unit := do
  let content ← readZipFile job.zipPath
  uploadFile env content job.s3Key

/-- The next flush updates a row this session has loaded. If another session
has deleted it, the flush fails. -/
def requireRow (versionId : VersionId) : Op Unit := fun s =>
  if !s.broken && (s.pending.versions.lookup versionId).isNone then
    .error ⟨.staleDataError, "UPDATE statement on table 'plugin_versions' matched no row", 0⟩
      { s with broken := true }
  else .ok () s

def updateStep (env : Env) (job : BuildJob) : Op Unit := do
  requireRow job.versionId
  updateVersionAfterBuild env job.versionId job.s3Key
    (buildPublicUrlWithBase job.s3Key job.s3PublicUrl) job.commitSha

inductive BuildStep
  | pack | upload | update | scan
  deriving DecidableEq, Repr

def BuildStep.next : BuildStep → Option BuildStep
  | .pack => some .upload
  | .upload => some .update
  | .update => some .scan
  | .scan => none

def BuildJob.step (env : Env) (job : BuildJob) : BuildStep → Op Unit
  | .pack => packStep env job
  | .upload => uploadStep env job
  | .update => updateStep env job
  | .scan => scanVersion env job.versionId none job.resultsLoaded

/-- What the session has loaded after a step. The refresh that follows the update reads
the versions of every active plugin with their results. -/
def BuildJob.after (job : BuildJob) (step : BuildStep) (db : Db) : BuildJob :=
  { job with
    resultsLoaded := match step with
      | .update => (db.plugins.lookup job.pluginId).any fun p => p.status = .active
      | .pack | .upload | .scan => job.resultsLoaded }

/-- The `except` block of `build_from_repo`. -/
def buildFailed (versionId : VersionId) (exc : PyErr) : Op Unit := do
  updateVersion versionId fun v =>
    { v with buildStatus := .failed, buildLog := some exc.text }
  requireRow versionId
  Work.commit
  throw exc

def BuildJob.guarded (env : Env) (job : BuildJob) (step : BuildStep) : Op Unit :=
  tryCatch (job.step env step) (buildFailed job.versionId)

def buildFromRepo (env : Env) (pluginId : PluginId) (plugin : Plugin) (version : Option String) :
    Op VersionId := do
  let job ← startBuild env pluginId plugin version
  tryCatch
    (do
      job.step env .pack
      job.step env .upload
      job.step env .update
      let job ← Work.query (job.after .update)
      job.step env .scan)
    (buildFailed job.versionId)
  return job.versionId

end PluginRegistry
