import PluginRegistry.Lib.Machine
import PluginRegistry.Services.BuildService
import PluginRegistry.Services.RegistryService

namespace PluginRegistry
open Lib

/-- What an API handler, the CLI or a worker runs in one database session,
builds apart. -/
inductive Operation
  | createPlugin (metadata : PluginMetadata) (repoUrl : String)
  | setPluginStatus (pluginId : PluginId) (status : PluginStatus)
      (reviewStatus : Option ReviewStatus)
  | deletePlugin (pluginId : PluginId)
  | uploadVersion (pluginId : PluginId) (metadata : PluginMetadata) (content : Blob)
      (version : String)
  | deleteVersion (pluginId : PluginId) (versionId : VersionId)
  | setVersionStatus (versionId : VersionId) (status : VersionStatus)
  | setLatestVersion (pluginId : PluginId) (versionId : VersionId)
  | publishPluginVersion (pluginId : PluginId) (versionId : VersionId)
      (reviewStatus : ReviewStatus)
  | scanVersion (versionId : VersionId) (providers : Option (List String))
  | markScanPending (versionId : VersionId) (providers : Option (List String))
  | markScanSkipped (versionId : VersionId) (providers : Option (List String))
  | pollVirustotalAnalysis (versionId : VersionId)
  | setConfig (config : RuntimeConfig)

def uploadVersion (env : Env) (pluginId : PluginId) (metadata : PluginMetadata) (content : Blob)
    (version : String) : Op Unit := do
  match ← getPlugin pluginId with
  | none => throw (notFound "Plugin not found")
  | some plugin =>
    discard (createVersionFromUpload env pluginId plugin metadata content
      (if version.isEmpty then metadata.version else version))

def setConfig (config : RuntimeConfig) : Op Unit := do
  Work.change fun db => { db with config }
  Work.commit

def Operation.work (env : Env) : Operation → Op Unit
  | .createPlugin metadata repoUrl => discard (PluginRegistry.createPlugin env metadata repoUrl)
  | .setPluginStatus pluginId status reviewStatus =>
    PluginRegistry.setPluginStatus env pluginId status reviewStatus
  | .deletePlugin pluginId => PluginRegistry.deletePlugin env pluginId
  | .uploadVersion pluginId metadata content version =>
    PluginRegistry.uploadVersion env pluginId metadata content version
  | .deleteVersion pluginId versionId => PluginRegistry.deleteVersion env pluginId versionId
  | .setVersionStatus versionId status => PluginRegistry.setVersionStatus env versionId status
  | .setLatestVersion pluginId versionId =>
    PluginRegistry.setLatestVersion env pluginId versionId
  | .publishPluginVersion pluginId versionId reviewStatus =>
    PluginRegistry.publishPluginVersion env pluginId versionId reviewStatus
  | .scanVersion versionId providers => PluginRegistry.scanVersion env versionId providers
  | .markScanPending versionId providers =>
    PluginRegistry.markScanPending env versionId providers
  | .markScanSkipped versionId providers =>
    PluginRegistry.markScanSkipped env versionId providers
  | .pollVirustotalAnalysis versionId => PluginRegistry.pollVirustotalAnalysis env versionId
  | .setConfig config => PluginRegistry.setConfig config

def Operation.perform (op : Operation) (env : Env) (db : Db) (x : Outside) :
    Report PyErr Db Outside Unit :=
  (op.work env).perform db x

def buildTask (env : Env) (pluginId : PluginId) (version : Option String) : Op Unit := do
  match ← getPlugin pluginId with
  | none => pure ()
  | some plugin => discard (buildFromRepo env pluginId plugin version)

inductive Task
  | operation (op : Operation)
  | build (pluginId : PluginId) (version : Option String)

def Task.perform (env : Env) (db : Db) (x : Outside) : Task → Report PyErr Db Outside Unit
  | .operation op => op.perform env db x
  | .build pluginId version => (buildTask env pluginId version).perform db x

structure Artifact where
  s3Key : String
  content : Blob

structure Build where
  job : BuildJob
  next : BuildStep

/-- The service: what is stored, the builds under way, and a record of what has
been uploaded for which version, which the code itself does not keep. -/
structure World where
  db : Db
  outside : Outside
  builds : Table VersionId Build
  uploaded : Table VersionId Artifact

inductive Event
  | perform (op : Operation) (env : Env)
  | startBuild (pluginId : PluginId) (version : Option String) (env : Env)
  | advance (versionId : VersionId) (env : Env)

namespace World

def recordUpload (w : World) (db : Db) : Operation → Table VersionId Artifact
  | .uploadVersion _ _ content _ =>
    if db.nextId = w.db.nextId then w.uploaded
    else match (db.versions.lookup w.db.nextId).bind (·.s3Key) with
      | none => w.uploaded
      | some s3Key => AList.insert w.db.nextId ⟨s3Key, content⟩ w.uploaded
  | _ => w.uploaded

def perform (w : World) (op : Operation) (env : Env) : World :=
  let report := op.perform env w.db w.outside
  { w with
    db := report.db
    outside := report.outside
    uploaded := w.recordUpload report.db op }

def startBuild (w : World) (pluginId : PluginId) (version : Option String) (env : Env) : World :=
  match w.db.plugins.lookup pluginId with
  | none => w
  | some plugin =>
    let report := (PluginRegistry.startBuild env pluginId plugin version).perform w.db w.outside
    { w with
      db := report.db
      outside := report.outside
      builds := match report.outcome with
        | .ok job => AList.insert job.versionId ⟨job, .pack⟩ w.builds
        | .error _ => w.builds }

/-- A build's next step. A build that fails or ends is forgotten. A step reads the rows
afresh: of the objects that the session keeps from one step to the next, only the loaded
results are modelled. -/
def advance (w : World) (versionId : VersionId) (env : Env) : World :=
  match w.builds.lookup versionId with
  | none => w
  | some build =>
    let report := (build.job.guarded env build.next).perform w.db w.outside
    { db := report.db
      outside := report.outside
      builds := match report.outcome, build.next.next with
        | .ok _, some next =>
          AList.insert versionId ⟨build.job.after build.next report.db, next⟩ w.builds
        | _, _ => AList.erase versionId w.builds
      uploaded := match report.outcome, build.next, w.outside.zipFiles.lookup build.job.zipPath with
        | .ok _, .upload, some content =>
          AList.insert versionId ⟨build.job.s3Key, content⟩ w.uploaded
        | _, _, _ => w.uploaded }

def step (w : World) : Event → World
  | .perform op env => w.perform op env
  | .startBuild pluginId version env => w.startBuild pluginId version env
  | .advance versionId env => w.advance versionId env

end World

def service (config : RuntimeConfig) : Machine World Event where
  init := ⟨.empty config, ⟨∅, [], ∅⟩, ∅, ∅⟩
  step := World.step

def World.run (config : RuntimeConfig) (events : List Event) : World :=
  (service config).runFrom (service config).init events

theorem World.run_reachable (config : RuntimeConfig) (events : List Event) :
    (service config).Reachable (World.run config events) :=
  ⟨events, rfl⟩

def PluginMetadata.demo : PluginMetadata :=
  ⟨"demo", "alice", "1.0.0", some "https://git/demo"⟩

def CommitSha.zero : CommitSha :=
  ⟨"0000000000000000000000000000000000000000", by decide⟩

def Checkout.empty : Checkout :=
  ⟨∅, [], fun _ _ _ _ h => by cases h⟩

def Env.calm (now : Time) : Env where
  now
  redis := true
  fault := fun _ => none
  scanAnswer := fun _ => .ok ⟨some true, "clean", .real, none, none, none, none, none, none⟩
  pollAnswer := .ok ⟨some true, "clean", .real, none, none, none, none, none, none⟩
  checkout := .empty
  metadata := .ok .demo
  commitSha := .ok .zero
  lower := id

end PluginRegistry
