import PluginRegistry.Python.FileSystem
import PluginRegistry.Services.S3Service
import PluginRegistry.Services.ScanResults

namespace PluginRegistry
open Lib

structure ScanOutcome where
  passed : Option Bool
  message : String
  mode : ScanMode
  virustotalAnalysisId : Option String := none
  virustotalFileSha256 : Option String := none
  virustotalSubmittedAt : Option Time := none
  virustotalDeadlineAt : Option Time := none
  virustotalNextPollAt : Option Time := none
  virustotalPollAttempts : Option Nat := none

structure PluginMetadata where
  name : String
  author : String
  version : String
  repo : Option String

/-- The working tree of a clone inside the file system of the machine. What
git checks out are ordinary files, whose reported size is their length. -/
structure Checkout where
  files : FileSystem
  repoDir : Path
  honest : ∀ p content size, repoDir <+: p → files.lookup p = some (.file content size) →
    size = content.length

inductive Caller
  | createPlugin | setPluginStatus | deletePlugin | deleteVersion | createVersion
  | updateVersionAfterBuild | setVersionStatus | setLatestVersion | publishPluginVersion
  | scanVersion | markScanPending | markScanSkipped | completeProviderOutcome
  | pollVirustotalAnalysis
  deriving DecidableEq, Repr

inductive Site
  | refresh (after : Caller)
  | enqueueTask | preflightRepoSize | cloneRepo | openZipFile
  | uploadFile | deleteFile (s3Key : String)
  deriving DecidableEq, Repr

/-- Everything one operation learns from outside the database: the clock,
whether Redis is there, which calls fail, what the scanners and the cloned
repository say, and how Python lowers text. -/
structure Env where
  now : Time
  redis : Bool
  fault : Site → Option PyErr
  scanAnswer : Provider → Except PyErr ScanOutcome
  pollAnswer : Except PyErr ScanOutcome
  checkout : Checkout
  metadata : Except PyErr PluginMetadata
  commitSha : Except PyErr CommitSha
  lower : String → String

structure QueuedTask where
  taskType : String
  versionId : VersionId
  delay : Time

/-- What no database rollback undoes: the bucket, the queue, and the archives
that builds leave in the temporary directory they share. -/
structure Outside where
  bucket : Bucket
  tasks : List QueuedTask
  zipFiles : Table String Blob

abbrev Op := Work PyErr Db Outside

def call (env : Env) (site : Site) : Op Unit :=
  match env.fault site with
  | none => pure ()
  | some e => throw e

def uploadFile (env : Env) (content : Blob) (s3Key : String) : Op Unit := do
  call env .uploadFile
  Work.emit fun x => { x with bucket := AList.insert s3Key content x.bucket }

def deleteFile (env : Env) (s3Key : String) : Op Unit := do
  call env (.deleteFile s3Key)
  Work.emit fun x => { x with bucket := AList.erase s3Key x.bucket }

def enqueueTask (env : Env) (taskType : String) (versionId : VersionId) (delay : Time) :
    Op Unit := do
  call env .enqueueTask
  Work.when env.redis do
    Work.emit fun x => { x with tasks := x.tasks ++ [⟨taskType, versionId, delay⟩] }

def Db.modifyVersion (db : Db) (id : VersionId) (f : PluginVersion → PluginVersion) : Db :=
  { db with versions := db.versions.modify id f }

def Db.modifyPlugin (db : Db) (id : PluginId) (f : Plugin → Plugin) : Db :=
  { db with plugins := db.plugins.modify id f }

def PluginVersion.withoutLatest (pluginId : PluginId) (v : PluginVersion) : PluginVersion :=
  if v.pluginId = pluginId then { v with isLatest := false } else v

/-- `UPDATE plugin_versions SET is_latest = false WHERE plugin_id = …`. No row has `updated_at`
here, which the statement also sets. -/
def Db.clearLatest (db : Db) (pluginId : PluginId) : Db :=
  { db with versions := db.versions.mapRows fun _ v => v.withoutLatest pluginId }

def Db.addPlugin (db : Db) (p : Plugin) : Db :=
  { db with plugins := AList.insert db.nextId p db.plugins, nextId := db.nextId + 1 }

def Db.addVersion (db : Db) (v : PluginVersion) : Db :=
  { db with versions := AList.insert db.nextId v db.versions, nextId := db.nextId + 1 }

/-- `db.add` of a new row under a fresh id. -/
def add (insert : Db → Db) : Op Nat := fun s =>
  .ok s.pending.nextId { s with pending := insert s.pending }

def updateVersion (id : VersionId) (f : PluginVersion → PluginVersion) : Op Unit :=
  Work.change (·.modifyVersion id f)

def updatePlugin (id : PluginId) (f : Plugin → Plugin) : Op Unit :=
  Work.change (·.modifyPlugin id f)

def execute (g : Db → Db) : Op Unit := do
  Work.flush
  Work.change g

def getPlugin (id : PluginId) : Op (Option Plugin) :=
  Work.query (·.plugins.lookup id)

def getVersion (id : VersionId) : Op (Option PluginVersion) :=
  Work.query (·.versions.lookup id)

def runtimeConfig : Op RuntimeConfig :=
  Work.query (·.config)

end PluginRegistry
