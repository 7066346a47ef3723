import PluginRegistry.Services.Environment

namespace PluginRegistry
open Lib

def inferPluginKey (env : Env) (name : String) : String :=
  String.ofList ((env.lower (strip name)).toList.map fun c => if c = '_' then '-' else c)

def getPluginByKey (pluginKey : String) : Op (Option (PluginId × Plugin)) :=
  Work.query fun db => db.plugins.first fun _ p => p.pluginKey = pluginKey

def getVersionByPluginAndCommit (pluginId : PluginId) (commitSha : CommitSha) :
    Op (Option (VersionId × PluginVersion)) :=
  Work.query fun db => db.versions.first fun _ v =>
    v.pluginId = pluginId && v.sourceType = .gitAuto && v.commitSha = some commitSha

def Db.getLatestVersion (db : Db) (pluginId : PluginId) : Option (VersionId × PluginVersion) :=
  match db.versions.first fun _ v =>
      v.pluginId = pluginId && v.isLatest && v.versionStatus = .active &&
        v.buildStatus = .success with
  | none => none
  | some (id, version) =>
    if scanProvidersPassed version (some db.config.scanEnabledProviders) then some (id, version)
    else none

def assertMetadataMatchesPlugin (env : Env) (metadata : PluginMetadata) (plugin : Plugin) :
    Except PyErr Unit :=
  let actualKey := inferPluginKey env metadata.name
  if actualKey ≠ plugin.pluginKey then
    .error (validation ("metadata plugin key " ++ actualKey ++ " does not match existing plugin " ++
      plugin.pluginKey))
  else if metadata.author ≠ plugin.author then
    .error (validation "metadata author does not match existing plugin")
  else .ok ()

def Plugin.new (pluginKey : String) (metadata : PluginMetadata) (repoUrl : String) : Plugin where
  pluginKey
  author := metadata.author
  repoUrl := some (if repoUrl.isEmpty then metadata.repo.getD "" else repoUrl)
  status := .pending
  reviewStatus := .pending

def createPlugin (env : Env) (metadata : PluginMetadata) (repoUrl : String) : Op PluginId := do
  let pluginKey := inferPluginKey env metadata.name
  let existing ← getPluginByKey pluginKey
  Work.refuse existing.isSome (conflict ("Plugin key already exists: " ++ pluginKey))
  let id ← add (·.addPlugin (.new pluginKey metadata repoUrl))
  Work.flush
  Work.commit
  call env (.refresh .createPlugin)
  return id

def Plugin.reviewStatusFor (p : Plugin) (status : PluginStatus) :
    Option ReviewStatus → ReviewStatus
  | some reviewStatus => reviewStatus
  | none =>
    if status = .active && p.reviewStatus = .pending then .approved
    else if status = .disabled && p.reviewStatus = .pending then .rejected
    else p.reviewStatus

def setPluginStatus (env : Env) (pluginId : PluginId) (status : PluginStatus)
    (reviewStatus : Option ReviewStatus) : Op Unit := do
  match ← getPlugin pluginId with
  | none => throw (notFound "Plugin not found")
  | some _ =>
    updatePlugin pluginId fun p =>
      { p with status, reviewStatus := p.reviewStatusFor status reviewStatus }
    Work.when (status = .disabled ∨ status = .deleted) do
      execute (·.clearLatest pluginId)
    Work.commit
    call env (.refresh .setPluginStatus)

def Db.s3Keys (db : Db) (pluginId : PluginId) : List String :=
  db.versions.entries.filterMap fun e =>
    if e.2.pluginId = pluginId then e.2.s3Key.filter (!·.isEmpty) else none

/-- `DELETE FROM plugin_versions WHERE plugin_id = …`. -/
def Db.deleteVersionsOf (db : Db) (pluginId : PluginId) : Db :=
  { db with versions := db.versions.keep fun _ v => v.pluginId ≠ pluginId }

def Db.deletePluginRow (db : Db) (pluginId : PluginId) : Db :=
  { db with plugins := AList.erase pluginId db.plugins }

def Db.deleteVersionRow (db : Db) (versionId : VersionId) : Db :=
  { db with versions := AList.erase versionId db.versions }

def deletePlugin (env : Env) (pluginId : PluginId) : Op Unit := do
  match ← getPlugin pluginId with
  | none => throw (notFound "Plugin not found")
  | some _ =>
    let s3Keys ← Work.query (·.s3Keys pluginId)
    s3Keys.forM (deleteFile env)
    execute (·.clearLatest pluginId)
    execute (·.deleteVersionsOf pluginId)
    Work.change (·.deletePluginRow pluginId)
    Work.commit
    call env (.refresh .deletePlugin)

def deleteVersion (env : Env) (pluginId : PluginId) (versionId : VersionId) : Op Unit := do
  match ← getVersion versionId with
  | none => throw (notFound "Version not found")
  | some version =>
    Work.refuse (version.pluginId ≠ pluginId) (notFound "Version not found")
    Work.when (truthy version.s3Key) do
      deleteFile env (version.s3Key.getD "")
    execute (·.deleteVersionRow versionId)
    Work.commit
    call env (.refresh .deleteVersion)

def PluginVersion.new (now : Time) (pluginId : PluginId) (version : String)
    (s3Key downloadUrl : Option String) (sourceType : SourceType) (commitSha : Option CommitSha)
    (buildStatus : BuildStatus) : PluginVersion where
  pluginId
  version
  commitSha
  sourceType
  downloadUrl
  s3Key
  buildStatus
  buildLog := none
  versionStatus := .draft
  isLatest := false
  createdAt := now
  scan := none
  providerResults := fun _ => none

def createVersion (env : Env) (pluginId : PluginId) (version : String)
    (s3Key downloadUrl : Option String) (sourceType : SourceType) (commitSha : Option CommitSha)
    (buildStatus : BuildStatus) : Op VersionId := do
  let id ← add (·.addVersion
    (.new env.now pluginId version s3Key downloadUrl sourceType commitSha buildStatus))
  Work.commit
  call env (.refresh .createVersion)
  return id

def createVersionFromUpload (env : Env) (pluginId : PluginId) (plugin : Plugin)
    (metadata : PluginMetadata) (content : Blob) (version : String) : Op VersionId := do
  Work.lift (assertMetadataMatchesPlugin env metadata plugin)
  let cfg ← runtimeConfig
  let s3Key := buildS3KeyWithLayout plugin version .manualUpload none cfg.s3Layout
  uploadFile env content s3Key
  createVersion env pluginId version (some s3Key)
    (some (buildPublicUrlWithBase s3Key cfg.s3PublicUrl)) .manualUpload none .success

def updateVersionAfterBuild (env : Env) (versionId : VersionId) (s3Key downloadUrl : String)
    (commitSha : CommitSha) : Op Unit := do
  updateVersion versionId fun v =>
    { v with
      s3Key := some s3Key
      downloadUrl := some downloadUrl
      commitSha := some commitSha
      buildStatus := .success }
  Work.commit
  call env (.refresh .updateVersionAfterBuild)

/-- The two gates in front of every write that activates or publishes a
version, with the texts of their errors. -/
def requirePassed (version : PluginVersion) (buildText scanText : String) : Op Unit := do
  let requiredProviders := some (← runtimeConfig).scanEnabledProviders
  Work.refuse (!buildReadyForScanPolicy version requiredProviders) (invalidState buildText)
  Work.refuse (!scanProvidersPassed version requiredProviders) (invalidState scanText)

/-- `build_status` once a gate has let a version through: a scan that only
waits for its last write counts as finished. -/
def PluginVersion.settleBuild (v : PluginVersion) : PluginVersion :=
  if v.buildStatus = .scanning then { v with buildStatus := .success } else v

def setVersionStatus (env : Env) (versionId : VersionId) (status : VersionStatus) : Op Unit := do
  match ← getVersion versionId with
  | none => throw (notFound "Version not found")
  | some version =>
    Work.when (status = .active) do
      requirePassed version "Version build must be successful before activation"
        "Version security scan must pass before activation"
      updateVersion versionId (·.settleBuild)
    updateVersion versionId fun v => { v with versionStatus := status }
    Work.when (status = .draft ∨ status = .deprecated ∨ status = .deleted) do
      updateVersion versionId fun v => { v with isLatest := false }
    Work.commit
    call env (.refresh .setVersionStatus)

def getVersionOf (pluginId : PluginId) (versionId : VersionId) : Op (Option PluginVersion) :=
  Work.query fun db => (db.versions.lookup versionId).filter fun v => v.pluginId = pluginId

def setLatestVersion (env : Env) (pluginId : PluginId) (versionId : VersionId) : Op Unit := do
  match ← getPlugin pluginId with
  | none => throw (notFound "Plugin not found")
  | some plugin =>
    Work.refuse (plugin.status ≠ .active)
      (invalidState "Plugin must be active before setting latest")
    match ← getVersionOf pluginId versionId with
    | none => throw (notFound "Version not found")
    | some version =>
      Work.refuse (version.versionStatus ≠ .active)
        (invalidState "Version must be active to be set as latest")
      requirePassed version "Version build must be successful to be set as latest"
        "Version security scan must pass before setting latest"
      updateVersion versionId (·.settleBuild)
      execute (·.clearLatest pluginId)
      updateVersion versionId fun v => { v with isLatest := true }
      Work.commit
      call env (.refresh .setLatestVersion)

def ReviewProviderResult.setHumanReviewResult (r : ReviewProviderResult) (now : Time)
    (reviewStatus : ReviewStatus) : ReviewProviderResult :=
  { r with
    kind := .human
    passed := some (reviewStatus = .approved || reviewStatus = .skipped)
    mode := if reviewStatus = .skipped then .skipped else .real
    message := some
      (if reviewStatus = .skipped then "Human review skipped" else "Human review approved")
    completedAt := some now }

/-- The review results with one reviewer's row rewritten, or added if it is missing. -/
def PluginVersion.modifyResult (v : PluginVersion) (reviewer : Reviewer) (kind : ReviewKind)
    (f : ReviewProviderResult → ReviewProviderResult) : PluginVersion :=
  { v with
    providerResults := Function.update v.providerResults reviewer
      (some (f ((v.providerResults reviewer).getD (.new kind)))) }

def setHumanReviewResult (env : Env) (versionId : VersionId) (reviewStatus : ReviewStatus) :
    Op Unit := do
  Work.flush
  updateVersion versionId (·.modifyResult .human .human
    (·.setHumanReviewResult env.now reviewStatus))

/-- The version as a session selects it. Results that the session has loaded before its
scan, when there were none, are not loaded again. -/
def PluginVersion.selected (v : PluginVersion) (resultsLoaded : Bool) : PluginVersion :=
  if resultsLoaded then { v with scan := none, providerResults := fun _ => none } else v

@[simp] theorem PluginVersion.selected_false (v : PluginVersion) : v.selected false = v := rfl

def publishPluginVersion (env : Env) (pluginId : PluginId) (versionId : VersionId)
    (reviewStatus : ReviewStatus) (resultsLoaded : Bool := false) : Op Unit := do
  Work.refuse (reviewStatus ≠ .approved ∧ reviewStatus ≠ .skipped)
    (validation "Invalid review status for publishing")
  match ← getPlugin pluginId with
  | none => throw (notFound "Plugin not found")
  | some _ =>
    match ← getVersionOf pluginId versionId with
    | none => throw (notFound "Version not found")
    | some version =>
      requirePassed (version.selected resultsLoaded)
        "Version build must be successful before publishing"
        "Version security scan must pass before publishing"
      updateVersion versionId (·.settleBuild)
      updatePlugin pluginId fun p => { p with status := .active, reviewStatus }
      updateVersion versionId fun v => { v with versionStatus := .active }
      execute (·.clearLatest pluginId)
      updateVersion versionId fun v => { v with isLatest := true }
      setHumanReviewResult env versionId reviewStatus
      Work.commit
      call env (.refresh .publishPluginVersion)

end PluginRegistry
