import PluginRegistry.Lib.Machine
import PluginRegistry.Services.SessionRows

namespace PluginRegistry
open Lib

/-- The document `generate_registry_json` returns. -/
abbrev Registry := Table String RegistryEntry

/-- What a call does with the document once `generate_registry_json` has it. -/
inductive AfterGenerate
  | finish
  | refreshMd5
  | digest
  deriving DecidableEq, Repr

inductive CacheStage
  | reread (object : Reread)
  | deleteKeys
  | getJson (after : AfterGenerate)
  | readPlugins (after : AfterGenerate)
  | readConfig (rows : Db) (after : AfterGenerate)
  | setJson (registry : Registry) (after : AfterGenerate)
  | getMd5
  | setMd5 (registry : Registry)
  | finished

/-- A call, with the objects that its session keeps. -/
structure CacheCall where
  session : SessionRows
  stage : CacheStage

structure CacheState where
  db : Db
  json : Option Registry
  md5 : Option String
  calls : Table Nat CacheCall

inductive CacheKey
  | json | md5
  deriving DecidableEq, Repr

/-- `write` is a commit by a session that keeps these objects and then re-reads one of them,
with the `refresh_cache` call that follows it. `generate` and `getMd5` are the calls of the
public endpoints, each in a session of its own. -/
inductive CacheEvent
  | write (callId : Nat) (db : Db) (session : SessionRows) (object : Reread)
  | generate (callId : Nat)
  | getMd5 (callId : Nat)
  | expire (key : CacheKey)
  | advance (callId : Nat)

def AfterGenerate.stage (registry : Registry) : AfterGenerate → CacheStage
  | .finish => .finished
  | .refreshMd5 => .getMd5
  | .digest => .setMd5 registry

namespace CacheState

def initial (db : Db) : CacheState :=
  ⟨db, none, none, ∅⟩

def setCall (w : CacheState) (callId : Nat) (call : CacheCall) : CacheState :=
  { w with calls := AList.insert callId call w.calls }

/-- A new call; a call id is used once. -/
def start (w : CacheState) (callId : Nat) (stage : CacheStage) : CacheState :=
  if (w.calls.lookup callId).isSome then w else w.setCall callId ⟨.empty, stage⟩

/-- A call's next command or read. `md5` is the digest of the canonical text of
a document. -/
def advance (md5 : Registry → String) (w : CacheState) (callId : Nat) : CacheState :=
  match w.calls.lookup callId with
  | none => w
  | some ⟨session, stage⟩ =>
    match stage with
    | .reread object => w.setCall callId ⟨session.reread w.db object, .deleteKeys⟩
    | .deleteKeys =>
      { w with json := none, md5 := none }.setCall callId ⟨session, .getJson .refreshMd5⟩
    | .getJson after =>
      match w.json with
      | some registry => w.setCall callId ⟨session, after.stage registry⟩
      | none => w.setCall callId ⟨session, .readPlugins after⟩
    | .readPlugins after =>
      w.setCall callId ⟨session.fetch w.db, .readConfig (session.view w.db) after⟩
    | .readConfig rows after =>
      let rows := { rows with config := w.db.config }
      w.setCall callId ⟨session, .setJson rows.generateRegistryJson after⟩
    | .setJson registry after =>
      { w with json := some registry }.setCall callId ⟨session, after.stage registry⟩
    | .getMd5 =>
      match w.md5 with
      | some _ => w.setCall callId ⟨session, .finished⟩
      | none => w.setCall callId ⟨session, .getJson .digest⟩
    | .setMd5 registry =>
      { w with md5 := some (md5 registry) }.setCall callId ⟨session, .finished⟩
    | .finished => w

def step (md5 : Registry → String) (w : CacheState) : CacheEvent → CacheState
  | .write callId db session object =>
    if (w.calls.lookup callId).isSome then w
    else { w with db }.setCall callId ⟨session, .reread object⟩
  | .generate callId => w.start callId (.getJson .finish)
  | .getMd5 callId => w.start callId .getMd5
  | .expire .json => { w with json := none }
  | .expire .md5 => { w with md5 := none }
  | .advance callId => w.advance md5 callId

end CacheState

def cacheService (md5 : Registry → String) (db : Db) : Machine CacheState CacheEvent where
  init := .initial db
  step := CacheState.step md5

end PluginRegistry
