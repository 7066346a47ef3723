import PluginRegistry.Lib.Probes
import PluginRegistry.Service
import PluginRegistry.Services.RegistryCache

namespace PluginRegistry
open Lib

/-- The functions that refresh the cache, the publication first: a scan or a poll
that publishes refreshes on its own account before that. -/
def Caller.latestFirst : List Caller :=
  [.publishPluginVersion, .createPlugin, .setPluginStatus, .deletePlugin, .deleteVersion,
    .createVersion, .updateVersionAfterBuild, .setVersionStatus, .setLatestVersion, .scanVersion,
    .markScanPending, .markScanSkipped, .completeProviderOutcome, .pollVirustotalAnalysis]

def Env.refusing (env : Env) (caller : Caller) (e : PyErr) : Env :=
  { env with fault := Function.update env.fault (.refresh caller) (some e) }

/-- Errors that no `except` clause between a refresh and its request catches. -/
def refreshProbe : Probe PyErr where
  first := ⟨.runtimeError, "refresh_cache", 0⟩
  second := ⟨.runtimeError, "refresh_cache", 1⟩
  distinct := by decide

/-- The rows that a program's last `refresh_cache` reads, if it comes to one. -/
def refreshedRows (w : Env → Op Unit) (env : Env) (db : Db) (x : Outside) : Option Db :=
  Caller.latestFirst.findSome? fun caller =>
    Work.committedAt refreshProbe (fun e => w (env.refusing caller e)) db x

def Event.env : Event → Env
  | .perform _ env | .startBuild _ _ env | .advance _ env => env

def World.program (w : World) : Event → Env → Op Unit
  | .perform op _, env => op.work env
  | .startBuild pluginId version _, env =>
    match w.db.plugins.lookup pluginId with
    | none => pure ()
    | some plugin => discard (PluginRegistry.startBuild env pluginId plugin version)
  | .advance versionId _, env =>
    match w.builds.lookup versionId with
    | none => pure ()
    | some build => build.job.step env build.next

structure Served where
  world : World
  json : Option Registry
  md5 : Option String

/-- The service's steps, each with the objects that its session keeps at its last refresh, the
two public reads, the admin's refresh, and a key whose time is over. -/
inductive ServedEvent
  | act (event : Event) (session : SessionRows)
  | generate
  | getMd5
  | refresh
  | expire (key : CacheKey)

namespace Served

def call (md5 : Registry → String) (s : Served) (db : Db) (event : CacheEvent) : Served :=
  let c := (cacheService md5 db).runFrom ⟨db, s.json, s.md5, ∅⟩
    (event :: List.replicate 10 (.advance 0))
  { s with json := c.json, md5 := c.md5 }

def act (md5 : Registry → String) (s : Served) (event : Event) (session : SessionRows) :
    Served :=
  let world := s.world.step event
  match refreshedRows (s.world.program event) event.env s.world.db s.world.outside with
  | none => { s with world }
  | some rows => { s.call md5 rows (.write 0 rows session .nothing) with world }

def step (md5 : Registry → String) (s : Served) : ServedEvent → Served
  | .act event session => s.act md5 event session
  | .generate => s.call md5 s.world.db (.generate 0)
  | .getMd5 => s.call md5 s.world.db (.getMd5 0)
  | .refresh => s.call md5 s.world.db (.write 0 s.world.db .empty .nothing)
  | .expire .json => { s with json := none }
  | .expire .md5 => { s with md5 := none }

def document (s : Served) : Registry :=
  s.json.getD s.world.db.generateRegistryJson

def checksum (md5 : Registry → String) (s : Served) : String :=
  s.md5.getD (md5 s.document)

end Served

def servedService (md5 : Registry → String) (config : RuntimeConfig) :
    Machine Served ServedEvent where
  init := ⟨(service config).init, none, none⟩
  step := Served.step md5

end PluginRegistry
