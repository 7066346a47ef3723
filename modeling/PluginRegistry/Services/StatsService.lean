import PluginRegistry.Lib.Tallies
import PluginRegistry.Service

namespace PluginRegistry
open Lib

abbrev Day := Nat

inductive StatKind
  | download | install
  deriving DecidableEq, Repr

/-- A row of `plugin_version_stats`; version and day are its key. The counters are columns
of 32 bits in the database. -/
structure VersionStat where
  downloadCount : Nat
  installCount : Nat
  deriving DecidableEq, Repr

def VersionStat.count (stat : VersionStat) : StatKind → Nat
  | .download => stat.downloadCount
  | .install => stat.installCount

def VersionStat.setCount (stat : VersionStat) (n : Nat) : StatKind → VersionStat
  | .download => { stat with downloadCount := n }
  | .install => { stat with installCount := n }

def VersionStat.first (kind : StatKind) : VersionStat :=
  VersionStat.setCount ⟨0, 0⟩ 1 kind

abbrev StatRows := Table (VersionId × Day) VersionStat

/-- Any database but PostgreSQL enforces its foreign keys here, too. -/
inductive Dialect
  | postgresql | other
  deriving DecidableEq, Repr

/-- How a request ends: counted, with the address that a download is redirected to; a
404; or a 500, where the database refuses the write. -/
inductive StatAnswer
  | counted (versionId : VersionId) (day : Day) (url : Option String)
  | notFound (detail : String)
  | refused

/-- The next statement of a request. Apart from PostgreSQL, a count is read with one
statement and written with another. -/
inductive StatStage
  | findPlugin (pluginKey : String)
  | findLatest (pluginId : PluginId)
  | checkScans (versionId : VersionId) (version : PluginVersion)
  | increment (versionId : VersionId) (url : Option String)
  | write (versionId : VersionId) (day : Day) (seen : Option VersionStat) (url : Option String)
  | answered (answer : StatAnswer)

structure StatRequest where
  kind : StatKind
  stage : StatStage

/-- The service, the counters, and the requests to `/download` and `/install`. -/
structure StatsWorld where
  world : World
  stats : StatRows
  requests : Table Nat StatRequest

inductive StatsEvent
  | act (event : Event)
  | start (requestId : Nat) (kind : StatKind) (pluginKey : String)
  | advance (requestId : Nat) (today : Day)

/-- The rows of `get_latest_version`, before its look at the scans. -/
def Db.latestRow (db : Db) (pluginId : PluginId) : Option (VersionId × PluginVersion) :=
  db.versions.first fun _ v =>
    v.pluginId = pluginId && v.isLatest && v.versionStatus = .active && v.buildStatus = .success

def StatRows.upsert (stats : StatRows) (kind : StatKind) (key : VersionId × Day) : StatRows :=
  match stats.lookup key with
  | none => AList.insert key (.first kind) stats
  | some stat => AList.insert key (stat.setCount (stat.count kind + 1) kind) stats

/-- A commit of the counter that was read before; `none` is a refused flush: the row
has come or gone in the meantime. -/
def StatRows.commitSeen (stats : StatRows) (kind : StatKind) (key : VersionId × Day) :
    Option VersionStat → Option StatRows
  | none => if (stats.lookup key).isSome then none else some (AList.insert key (.first kind) stats)
  | some seen =>
    (stats.lookup key).map fun stat =>
      AList.insert key (stat.setCount (seen.count kind + 1) kind) stats

namespace StatsWorld

def setStage (w : StatsWorld) (requestId : Nat) (kind : StatKind) (stage : StatStage) :
    StatsWorld :=
  { w with requests := AList.insert requestId ⟨kind, stage⟩ w.requests }

def act (w : StatsWorld) (event : Event) : StatsWorld :=
  let world := w.world.step event
  { w with world, stats := w.stats.keep fun key _ => (world.db.versions.lookup key.1).isSome }

def versionExists (w : StatsWorld) (versionId : VersionId) : Bool :=
  (w.world.db.versions.lookup versionId).isSome

def noVersion : StatStage := .answered (.notFound "No active version available")

/-- `increment_download_count` and `increment_install_count`, up to the first commit
or to the read before it. -/
def increment (dialect : Dialect) (w : StatsWorld) (requestId : Nat) (kind : StatKind)
    (versionId : VersionId) (url : Option String) (today : Day) : StatsWorld :=
  match dialect with
  | .other =>
    w.setStage requestId kind (.write versionId today (w.stats.lookup (versionId, today)) url)
  | .postgresql =>
    if w.versionExists versionId then
      { w with stats := w.stats.upsert kind (versionId, today) }.setStage requestId kind
        (.answered (.counted versionId today url))
    else w.setStage requestId kind (.answered .refused)

def write (w : StatsWorld) (requestId : Nat) (kind : StatKind) (versionId : VersionId) (day : Day)
    (seen : Option VersionStat) (url : Option String) : StatsWorld :=
  match w.stats.commitSeen kind (versionId, day) seen with
  | some stats =>
    if w.versionExists versionId then
      { w with stats }.setStage requestId kind (.answered (.counted versionId day url))
    else w.setStage requestId kind (.answered .refused)
  | none => w.setStage requestId kind (.answered .refused)

def afterScans (kind : StatKind) (versionId : VersionId) (version : PluginVersion) : StatStage :=
  match kind with
  | .install => .increment versionId none
  | .download =>
    if truthy version.downloadUrl then .increment versionId version.downloadUrl else noVersion

def advance (dialect : Dialect) (w : StatsWorld) (requestId : Nat) (today : Day) : StatsWorld :=
  match w.requests.lookup requestId with
  | none => w
  | some ⟨kind, stage⟩ =>
    match stage with
    | .findPlugin pluginKey =>
      match w.world.db.plugins.first fun _ p => p.pluginKey = pluginKey with
      | none => w.setStage requestId kind (.answered (.notFound "Plugin not found"))
      | some (pluginId, _) => w.setStage requestId kind (.findLatest pluginId)
    | .findLatest pluginId =>
      match w.world.db.latestRow pluginId with
      | none => w.setStage requestId kind noVersion
      | some (versionId, version) => w.setStage requestId kind (.checkScans versionId version)
    | .checkScans versionId version =>
      if scanProvidersPassed version (some w.world.db.config.scanEnabledProviders) then
        w.setStage requestId kind (afterScans kind versionId version)
      else w.setStage requestId kind noVersion
    | .increment versionId url => w.increment dialect requestId kind versionId url today
    | .write versionId day seen url => w.write requestId kind versionId day seen url
    | .answered _ => w

def start (w : StatsWorld) (requestId : Nat) (kind : StatKind) (pluginKey : String) : StatsWorld :=
  if (w.requests.lookup requestId).isSome then w
  else w.setStage requestId kind (.findPlugin pluginKey)

def step (dialect : Dialect) (w : StatsWorld) : StatsEvent → StatsWorld
  | .act event => w.act event
  | .start requestId kind pluginKey => w.start requestId kind pluginKey
  | .advance requestId today => w.advance dialect requestId today

end StatsWorld

def statsService (dialect : Dialect) (config : RuntimeConfig) : Machine StatsWorld StatsEvent where
  init := ⟨(service config).init, ∅, ∅⟩
  step := StatsWorld.step dialect

structure RegistryStats where
  totalPlugins : Nat
  totalActiveVersions : Nat
  totalDownloads : Nat
  totalInstalls : Nat
  deriving DecidableEq, Repr

def StatsWorld.getStats (w : StatsWorld) : RegistryStats where
  totalPlugins := w.world.db.plugins.total fun _ p => (decide (p.status = .active)).toNat
  totalActiveVersions := w.world.db.versions.total fun _ v =>
    (decide (v.versionStatus = .active) &&
      (w.world.db.plugins.lookup v.pluginId).any fun p => p.status = .active).toNat
  totalDownloads := w.stats.total fun _ stat => stat.downloadCount
  totalInstalls := w.stats.total fun _ stat => stat.installCount

end PluginRegistry
