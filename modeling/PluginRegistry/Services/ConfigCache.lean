import PluginRegistry.Lib.Machine
import PluginRegistry.Services.ConfigService

namespace PluginRegistry
open Lib

inductive ConfigStage
  | getItem (items : List (String × String)) (writes : List ConfigWrite)
  | clear
  | getAll
  | readRows
  | setHash (values : ConfigRows)
  | setExpiry
  | finished
  deriving DecidableEq

/-- The committed rows, the cached hash (one without fields does not exist), and
the calls. -/
structure ConfigState where
  rows : ConfigRows
  hash : ConfigRows
  calls : Table Nat ConfigStage

/-- `update` and `read` are new calls of `update_config` and `get_runtime_values`;
an update can fail before its commit, and the hash can expire. -/
inductive ConfigEvent
  | update (callId : Nat) (values : ConfigRows)
  | read (callId : Nat)
  | advance (callId : Nat)
  | fail (callId : Nat)
  | expire

namespace ConfigState

def setStage (w : ConfigState) (callId : Nat) (stage : ConfigStage) : ConfigState :=
  { w with calls := AList.insert callId stage w.calls }

def start (w : ConfigState) (callId : Nat) (stage : ConfigStage) : ConfigState :=
  if (w.calls.lookup callId).isSome then w else w.setStage callId stage

def getItem (lower : String → String) (w : ConfigState) (callId : Nat)
    (writes : List ConfigWrite) : List (String × String) → ConfigState
  | [] =>
    match writes.foldlM ConfigWrite.apply w.rows with
    | .error _ => w.setStage callId .finished
    | .ok rows => { w with rows }.setStage callId .clear
  | (key, value) :: items =>
    match configWrite lower key value (w.rows.lookup key) with
    | .error _ => w.setStage callId .finished
    | .ok more => w.setStage callId (.getItem items (writes ++ more))

/-- A call's next command, read or commit. `hset` keeps the fields it does not set. -/
def advance (lower : String → String) (w : ConfigState) (callId : Nat) : ConfigState :=
  match w.calls.lookup callId with
  | none => w
  | some stage =>
    match stage with
    | .getItem items writes => w.getItem lower callId writes items
    | .clear => { w with hash := ∅ }.setStage callId .finished
    | .getAll =>
      w.setStage callId (if w.hash.entries.isEmpty then .readRows else .finished)
    | .readRows =>
      w.setStage callId (if w.rows.entries.isEmpty then .finished else .setHash w.rows)
    | .setHash values => { w with hash := values ∪ w.hash }.setStage callId .setExpiry
    | .setExpiry => w.setStage callId .finished
    | .finished => w

def fail (w : ConfigState) (callId : Nat) : ConfigState :=
  match w.calls.lookup callId with
  | some (.getItem _ _) => w.setStage callId .finished
  | _ => w

def step (lower : String → String) (w : ConfigState) : ConfigEvent → ConfigState
  | .update callId values =>
    w.start callId (.getItem (values.entries.map fun item => (item.1, item.2)) [])
  | .read callId => w.start callId .getAll
  | .advance callId => w.advance lower callId
  | .fail callId => w.fail callId
  | .expire => { w with hash := ∅ }

end ConfigState

def configService (lower : String → String) (rows : ConfigRows) :
    Machine ConfigState ConfigEvent where
  init := ⟨rows, ∅, ∅⟩
  step := ConfigState.step lower

end PluginRegistry
