import PluginRegistry.Python.JsonEncoder
import PluginRegistry.Services.Worker

namespace PluginRegistry
open Lib

/-- The `dict` that `create_task_envelope` builds, with what `requeue_task` adds to it. -/
def QueueTask.fields (task : QueueTask) : JsonObject :=
  [("id", .str task.id), ("type", .str task.taskType), ("payload", .obj task.payload),
    ("attempts", .int task.attempts), ("max_attempts", .int task.maxAttempts)] ++
    (task.lastError.map fun error => ("last_error", Json.str error)).toList

namespace TextQueue

/-- `json` as the queue uses it. -/
structure Codec where
  writer : JsonWriter
  reader : JsonReader

inductive Stage
  | idle
  | promoting (raws : List String)
  | moving (raw : String) (raws : List String)
  | popping
  | holding (task : JsonObject)
  | requeueing (target : Requeue JsonObject)

/-- The Redis structures and the workers, with a record of every id ever
enqueued and of the tasks that have succeeded. -/
structure State extends Queues String where
  workers : Table Nat Stage
  succeeded : List JsonObject
  enqueued : List String

namespace Codec

variable (codec : Codec)

def encodeTask (task : JsonObject) : Except PyErr String := do
  let _ ← Worker.encodeTask task
  return codec.writer.dumps (.obj task)

def popTask (raw : String) : Except PyErr JsonObject := do
  Worker.popTask (.parsed (← codec.reader.loads raw))

end Codec

namespace State

def empty : State :=
  ⟨.empty, ∅, [], []⟩

/-- The Redis command of `push_task`. -/
def push (t : State) (raw : String) (delaySeconds : Int) (now : Time) : State :=
  { t with toQueues := t.toQueues.push (pushTask raw (delaySeconds * 1000000) now) }

theorem push_eq (t : State) (raw : String) (delaySeconds : Int) (now : Time) :
    t.push raw delaySeconds now =
      if 0 < delaySeconds * 1000000 then
        { t with delayed := AList.insert raw (now + delaySeconds * 1000000) t.delayed }
      else { t with ready := t.ready ++ [raw] } := by
  rw [push, Queues.push_pushTask]
  split <;> rfl

def setStage (t : State) (workerId : Nat) (stage : Stage) : State :=
  { t with workers := AList.insert workerId stage t.workers }

def leave (t : State) (workerId : Nat) : State :=
  { t with workers := AList.erase workerId t.workers }

def finish (t : State) (workerId : Nat) (task : JsonObject) (env : WorkerEnv) : State :=
  match (do let _ ← Worker.attempts task; Worker.raise env.handled) with
  | .ok _ => { t with succeeded := task :: t.succeeded }.setStage workerId .idle
  | .error error =>
    match Worker.requeued task error (.ok env.config.maxAttempts)
        (.ok env.config.retryDelaySeconds) with
    | .ok target => t.setStage workerId (.requeueing target)
    | .error _ => t.leave workerId

/-- The last command of `requeue_task`. -/
def requeue (t : State) (codec : Codec) (workerId : Nat) (target : Requeue JsonObject)
    (now : Time) : State :=
  match target with
  | .deadLetter task =>
    match codec.encodeTask (Worker.redactedTask task) with
    | .ok raw => { t with dead := t.dead ++ [raw] }.setStage workerId .idle
    | .error _ => t.leave workerId
  | .push task delaySeconds =>
    match codec.encodeTask task with
    | .ok raw => (t.push raw delaySeconds now).setStage workerId .idle
    | .error _ => t.leave workerId

def advance (t : State) (codec : Codec) (workerId : Nat) (env : WorkerEnv) : State :=
  match t.workers.lookup workerId with
  | none => t
  | some stage =>
    match stage with
    | .idle => t.setStage workerId (.promoting (dueTasks t.delayed env.now))
    | .promoting [] => t.setStage workerId .popping
    | .promoting (raw :: raws) =>
      if (t.delayed.lookup raw).isSome then
        { t with delayed := AList.erase raw t.delayed }.setStage workerId (.moving raw raws)
      else t.setStage workerId (.promoting raws)
    | .moving raw raws => { t with ready := t.ready ++ [raw] }.setStage workerId (.promoting raws)
    | .popping =>
      match t.ready with
      | [] => t.setStage workerId .idle
      | raw :: ready =>
        match codec.popTask raw with
        | .ok task => { t with ready }.setStage workerId (.holding task)
        | .error _ => { t with ready }.setStage workerId .idle
    | .holding task => t.finish workerId task env
    | .requeueing target => t.requeue codec workerId target env.now

/-- `enqueue_task` draws a fresh `uuid4`; one drawn before is not drawn again. -/
def step (codec : Codec) (t : State) : QueueEvent → State
  | .enqueue id taskType payload config delaySeconds now =>
    if id ∈ t.enqueued then t
    else
      match codec.encodeTask (createTaskEnvelope config.settingsMaxAttempts taskType payload id
          config.maxAttempts).fields with
      | .ok raw => { t.push raw delaySeconds now with enqueued := id :: t.enqueued }
      | .error _ => t
  | .start workerId =>
    if (t.workers.lookup workerId).isSome then t else t.setStage workerId .idle
  | .advance workerId env => t.advance codec workerId env

end State

def service (codec : Codec) : Machine State QueueEvent where
  init := .empty
  step := State.step codec

end TextQueue

end PluginRegistry
