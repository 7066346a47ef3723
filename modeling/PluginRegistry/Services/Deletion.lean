import PluginRegistry.Service

namespace PluginRegistry
open Lib

inductive DeleteStatement
  | select | selectKeys | clearLatest | deleteVersions | commit
  deriving DecidableEq

/-- Which calls of a deletion raise: the object deletions by their number, the
statements, and the refresh of the cache. A call that raises has done nothing. -/
structure DeletionFaults where
  object : Nat → String → Option PyErr
  statement : DeleteStatement → Option PyErr
  refresh : Option PyErr

def failing (fault : Option PyErr) : Op Unit :=
  match fault with
  | none => pure ()
  | some e => throw e

section
variable (faults : DeletionFaults)

/-- `delete_file`, the n-th call of a deletion. -/
def removeObject (n : Nat) (s3Key : String) : Op Unit := do
  failing (faults.object n s3Key)
  Work.emit fun x => { x with bucket := AList.erase s3Key x.bucket }

def removeObjects : Nat → List String → Op Unit
  | _, [] => pure ()
  | n, s3Key :: rest => do
    removeObject faults n s3Key
    removeObjects (n + 1) rest

/-- `delete_plugin`. -/
def deletePluginUnder (pluginId : PluginId) : Op Unit := do
  failing (faults.statement .select)
  match ← getPlugin pluginId with
  | none => throw (notFound "Plugin not found")
  | some _ =>
    failing (faults.statement .selectKeys)
    let s3Keys ← Work.query (·.s3Keys pluginId)
    removeObjects faults 0 s3Keys
    failing (faults.statement .clearLatest)
    execute (·.clearLatest pluginId)
    failing (faults.statement .deleteVersions)
    execute (·.deleteVersionsOf pluginId)
    Work.change (·.deletePluginRow pluginId)
    failing (faults.statement .commit)
    Work.commit
    failing faults.refresh

/-- `delete_version`. -/
def deleteVersionUnder (pluginId : PluginId) (versionId : VersionId) : Op Unit := do
  failing (faults.statement .select)
  match ← getVersion versionId with
  | none => throw (notFound "Version not found")
  | some version =>
    Work.refuse (version.pluginId ≠ pluginId) (notFound "Version not found")
    removeObjects faults 0 (version.s3Key.filter (!·.isEmpty)).toList
    failing (faults.statement .deleteVersions)
    execute (·.deleteVersionRow versionId)
    failing (faults.statement .commit)
    Work.commit
    failing faults.refresh

end

inductive Deletion
  | plugin (pluginId : PluginId)
  | version (pluginId : PluginId) (versionId : VersionId)

def Deletion.work (faults : DeletionFaults) : Deletion → Op Unit
  | .plugin pluginId => deletePluginUnder faults pluginId
  | .version pluginId versionId => deleteVersionUnder faults pluginId versionId

def Deletion.perform (faults : DeletionFaults) (d : Deletion) (db : Db) (x : Outside) :
    Report PyErr Db Outside Unit :=
  (d.work faults).perform db x

def World.delete (w : World) (faults : DeletionFaults) (d : Deletion) : World :=
  let report := d.perform faults w.db w.outside
  { w with db := report.db, outside := report.outside }

inductive DeletingEvent
  | service (event : Event)
  | delete (d : Deletion) (faults : DeletionFaults)

def deletingService (config : RuntimeConfig) : Machine World DeletingEvent where
  init := (service config).init
  step := fun w event =>
    match event with
    | .service event => w.step event
    | .delete d faults => w.delete faults d

def Deletion.operation : Deletion → Operation
  | .plugin pluginId => .deletePlugin pluginId
  | .version pluginId versionId => .deleteVersion pluginId versionId

def Deletion.caller : Deletion → Caller
  | .plugin _ => .deletePlugin
  | .version .. => .deleteVersion

def Env.deletionFaults (env : Env) (d : Deletion) : DeletionFaults where
  object := fun _ s3Key => env.fault (.deleteFile s3Key)
  statement := fun _ => none
  refresh := env.fault (.refresh d.caller)

end PluginRegistry
