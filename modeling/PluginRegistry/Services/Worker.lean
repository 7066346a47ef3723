import PluginRegistry.Python.Json
import PluginRegistry.Services.TaskQueue
import Mathlib.Data.List.Infix

namespace PluginRegistry.Worker
open Lib

/-- A text of the queue as `json.loads` reads it. -/
inductive QueueItem
  | unparseable (error : PyErr)
  | parsed (value : Json)
  deriving DecidableEq

/-- What happens around the task of one iteration: the time, what the database,
the configuration and the handler raise, and what the configuration holds. -/
structure TaskEnv where
  now : Time
  markRunning : Option PyErr
  handled : Option PyErr
  markSucceeded : Option PyErr
  maxAttempts : Except PyErr Int
  retryDelaySeconds : Except PyErr Int
  markDead : Option PyErr
  markRetrying : Option PyErr
  closeSession : Option PyErr

def raise : Option PyErr → Except PyErr Unit
  | none => .ok ()
  | some error => .error error

def noAttribute (value : Json) (name : String) : PyErr :=
  ⟨.attributeError, "'" ++ value.typeName ++ "' object has no attribute '" ++ name ++ "'", 0⟩

def popTask : QueueItem → Except PyErr JsonObject
  | .unparseable error => .error error
  | .parsed (.obj fields) =>
    let fields : JsonObject := fields
    let task : JsonObject :=
      if (fields.get "payload").isSome then fields
      else [("type", (fields.get "type").getD .null), ("payload", .obj [])]
    .ok (task.setDefault "attempts" (.int 0))
  | .parsed (.arr items) =>
    .error (noAttribute (.arr items) (if .str "payload" ∈ items then "setdefault" else "get"))
  | .parsed (.str text) =>
    .error (noAttribute (.str text)
      (if "payload".toList <:+: text.toList then "setdefault" else "get"))
  | .parsed value =>
    .error ⟨.typeError, "argument of type '" ++ value.typeName ++ "' is not iterable", 0⟩

/-- `int(task.get("attempts") or 0)`. -/
def attempts (task : JsonObject) : Except PyErr Int :=
  match task.get "attempts" with
  | some value => if value.truthy then value.toInt else .ok 0
  | none => .ok 0

/-- `int(task.get("max_attempts") or await runtime_task_max_attempts(db))`. -/
def maxAttempts (task : JsonObject) (runtime : Except PyErr Int) : Except PyErr Int :=
  match task.get "max_attempts" with
  | some value => if value.truthy then value.toInt else runtime
  | none => runtime

/-- `encode_task`. No number that `json.loads` built is too long to print, so
only the counter can be. -/
def encodeTask (task : JsonObject) : Except PyErr QueueItem :=
  match task.get "attempts" with
  | some (.int n) =>
    if 10 ^ intMaxStrDigits ≤ n.natAbs then
      .error (valueError ("Exceeds the limit (4300 digits) for integer string conversion; " ++
        "use sys.set_int_max_str_digits() to increase the limit"))
    else .ok (.parsed (.obj task))
  | _ => .ok (.parsed (.obj task))

def redactedTask (task : JsonObject) : JsonObject :=
  match task.get "payload" with
  | some (.obj payload) =>
    let payload : JsonObject := payload
    if (payload.get "temporary_token").isSome then
      task.set "payload" (.obj (redactedPayload payload))
    else task
  | _ => task

/-- From here on `time.time() + delay_seconds` overflows. -/
def delayLimit : Int :=
  2 ^ 1024 - 2 ^ 970

def pushTask (task : JsonObject) (delaySeconds : Int) (now : Time) :
    Except PyErr (Push QueueItem) := do
  let item ← encodeTask task
  if delayLimit ≤ delaySeconds then
    throw ⟨.overflowError, "int too large to convert to float", 0⟩
  else return PluginRegistry.pushTask item (delaySeconds * 1000000) now

/-- `requeue_task` without its writes: where the task goes. -/
def requeued (task : JsonObject) (error : PyErr) (runtimeMaxAttempts : Except PyErr Int)
    (retryDelaySeconds : Except PyErr Int) : Except PyErr (Requeue JsonObject) := do
  let attempts := (← attempts task) + 1
  let task := (task.set "attempts" (.int attempts)).set "last_error" (.str error.text)
  if !isRetryableTaskError error then return .deadLetter task
  else
    let maxAttempts ← maxAttempts task runtimeMaxAttempts
    if maxAttempts ≤ attempts then return .deadLetter task
    else return .push task (← retryDelaySeconds)

def deadLetter (task : JsonObject) (env : TaskEnv) : Except PyErr (Push QueueItem) := do
  raise env.markDead
  return .dead (← encodeTask (redactedTask task))

def requeueTask (task : JsonObject) (error : PyErr) (env : TaskEnv) :
    Except PyErr (Push QueueItem) := do
  match ← requeued task error env.maxAttempts env.retryDelaySeconds with
  | .deadLetter task => deadLetter task env
  | .push task delaySeconds =>
    raise env.markRetrying
    pushTask task delaySeconds env.now

/-- The `try` block of `run_worker` once a task is popped. -/
def runTask (task : JsonObject) (env : TaskEnv) : Except PyErr Unit := do
  let _ ← attempts task
  raise env.markRunning
  raise env.handled
  raise env.markSucceeded

/-- The queues as one worker sees them, the items it has finished, and whether
its loop still runs. -/
structure WorkerState extends Queues QueueItem where
  succeeded : List QueueItem
  running : Bool

inductive WorkerEvent
  | push (command : Push QueueItem)
  | iterate (env : TaskEnv)

namespace WorkerState

def start : WorkerState :=
  ⟨.empty, [], true⟩

def push (w : WorkerState) (command : Push QueueItem) : WorkerState :=
  { w with toQueues := w.toQueues.push command }

/-- One `ZREM` of `promote_due_tasks`, and the `RPUSH` if it removed something. -/
def promoteTask (w : WorkerState) (item : QueueItem) : WorkerState :=
  if (w.delayed.lookup item).isSome then
    { w with delayed := AList.erase item w.delayed, ready := w.ready ++ [item] }
  else w

def promoteDueTasks (w : WorkerState) (now : Time) : WorkerState :=
  (dueTasks w.delayed now).foldl promoteTask w

/-- An iteration from the moment `BLPOP` has removed the item. -/
def handleItem (w : WorkerState) (item : QueueItem) (env : TaskEnv) : WorkerState :=
  match popTask item with
  | .error _ => w
  | .ok task =>
    match runTask task env with
    | .ok _ => { w with succeeded := w.succeeded ++ [item] }
    | .error error =>
      -- An exception in the handler leaves the loop.
      match requeueTask task error env with
      | .error _ => { w with running := false }
      | .ok command => { w.push command with running := env.closeSession.isNone }

/-- One iteration of the loop of `run_worker`. -/
def iterate (w : WorkerState) (env : TaskEnv) : WorkerState :=
  if !w.running then w
  else
    let w := w.promoteDueTasks env.now
    match w.ready with
    | [] => w
    | item :: ready => { w with ready }.handleItem item env

def step (w : WorkerState) : WorkerEvent → WorkerState
  | .push command => w.push command
  | .iterate env => w.iterate env

end WorkerState

def workerLoop : Machine WorkerState WorkerEvent where
  init := .start
  step := WorkerState.step

end PluginRegistry.Worker
