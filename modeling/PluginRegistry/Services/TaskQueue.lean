import PluginRegistry.Lib.Machine
import PluginRegistry.Models
import PluginRegistry.Python.Datetime
import PluginRegistry.Python.Json

namespace PluginRegistry
open Lib

/-- What the configuration says about retries; a delay is in whole seconds. -/
structure TaskLimits where
  maxAttempts : Int
  retryDelaySeconds : Int

structure TaskConfig extends TaskLimits where
  settingsMaxAttempts : Int

structure QueueTask where
  id : String
  taskType : String
  payload : JsonObject
  attempts : Int
  maxAttempts : Int
  lastError : Option String
  deriving DecidableEq

def createTaskEnvelope (settingsMaxAttempts : Int) (taskType : String) (payload : JsonObject)
    (id : String) (maxAttempts : Int) : QueueTask where
  id := id
  taskType := taskType
  payload := payload
  attempts := 0
  maxAttempts := if maxAttempts = 0 then settingsMaxAttempts else maxAttempts
  lastError := none

/-- What `_redacted_task` makes of a payload. -/
def redactedPayload (payload : JsonObject) : JsonObject :=
  if (payload.get "temporary_token").isSome then
    (payload.pop "temporary_token").set "temporary_token_present" (.bool true)
  else payload

def QueueTask.redacted (task : QueueTask) : QueueTask :=
  { task with payload := redactedPayload task.payload }

def isRetryableTaskError (error : PyErr) : Bool :=
  !error.isA [.registryError]

/-- Where `requeue_task` puts a task. -/
inductive Requeue (Task : Type)
  | deadLetter (task : Task)
  | push (task : Task) (delaySeconds : Int)
  deriving DecidableEq

def Requeue.task {Task : Type} : Requeue Task → Task
  | .deadLetter task => task
  | .push task _ => task

/-- `int(task.get("max_attempts") or await runtime_task_max_attempts(db))`. -/
def QueueTask.limit (task : QueueTask) (runtimeMaxAttempts : Int) : Int :=
  if task.maxAttempts = 0 then runtimeMaxAttempts else task.maxAttempts

theorem QueueTask.limit_mono (task : QueueTask) {n m : Int} (h : n ≤ m) :
    task.limit n ≤ task.limit m := by
  unfold QueueTask.limit
  split
  · exact h
  · exact le_rfl

def QueueTask.failed (task : QueueTask) (error : PyErr) : QueueTask :=
  { task with attempts := task.attempts + 1, lastError := some error.text }

@[simp] theorem QueueTask.failed_id (task : QueueTask) (error : PyErr) :
    (task.failed error).id = task.id := rfl

@[simp] theorem QueueTask.failed_maxAttempts (task : QueueTask) (error : PyErr) :
    (task.failed error).maxAttempts = task.maxAttempts := rfl

@[simp] theorem QueueTask.failed_attempts (task : QueueTask) (error : PyErr) :
    (task.failed error).attempts = task.attempts + 1 := rfl

@[simp] theorem QueueTask.failed_limit (task : QueueTask) (error : PyErr) (n : Int) :
    (task.failed error).limit n = task.limit n := rfl

def requeueTask (task : QueueTask) (error : PyErr) (limits : TaskLimits) : Requeue QueueTask :=
  let task := task.failed error
  if !isRetryableTaskError error then .deadLetter task
  else if task.limit limits.maxAttempts ≤ task.attempts then .deadLetter task
  else .push task limits.retryDelaySeconds

/-- The Redis command that a task is put away with. -/
inductive Push (Item : Type)
  | dead (item : Item)
  | ready (item : Item)
  | delayed (item : Item) (due : Int)

/-- `push_task`, with the delay in microseconds. -/
def pushTask {Item : Type} (item : Item) (delay : Int) (now : Time) : Push Item :=
  if 0 < delay then .delayed item (now + delay) else .ready item

/-- The three structures in Redis. -/
structure Queues (Item : Type) where
  ready : List Item
  delayed : Table Item Int
  dead : List Item

namespace Queues

variable {Item : Type}

def empty : Queues Item :=
  ⟨[], ∅, []⟩

@[simp] theorem empty_ready : (empty : Queues Item).ready = [] := rfl

@[simp] theorem empty_delayed : (empty : Queues Item).delayed = ∅ := rfl

@[simp] theorem empty_dead : (empty : Queues Item).dead = [] := rfl

variable [DecidableEq Item]

def push (q : Queues Item) : Push Item → Queues Item
  | .dead item => { q with dead := q.dead ++ [item] }
  | .ready item => { q with ready := q.ready ++ [item] }
  | .delayed item due => { q with delayed := AList.insert item due q.delayed }

theorem push_pushTask (q : Queues Item) (item : Item) (delay : Int) (now : Time) :
    q.push (pushTask item delay now) =
      if 0 < delay then { q with delayed := AList.insert item (now + delay) q.delayed }
      else { q with ready := q.ready ++ [item] } := by
  unfold pushTask
  split <;> rfl

end Queues

/-- `ZRANGEBYSCORE` of `promote_due_tasks`: the first hundred due members. Members of one score,
which Redis orders by their texts, come in the order of the table. -/
def dueTasks {Member : Type} (delayed : Table Member Int) (now : Time) : List Member :=
  let due := delayed.entries.filter fun e => 0 ≤ e.2 && e.2 ≤ (now : Int)
  ((due.mergeSort fun a b => a.2 ≤ b.2).take 100).map (·.1)

inductive WorkerStage
  | idle
  | promoting (raws : List QueueTask)
  | moving (raw : QueueTask) (raws : List QueueTask)
  | popping
  | holding (task : QueueTask)
  | requeueing (target : Requeue QueueTask)

/-- What a worker learns at a step: the time, how the handler of the task it
holds ends, and the configuration. -/
structure WorkerEnv where
  now : Time
  handled : Option PyErr
  config : TaskConfig

/-- The Redis structures and the workers, with a record of every id ever
enqueued and of the tasks that have succeeded. -/
structure QueueState extends Queues QueueTask where
  workers : Table Nat WorkerStage
  succeeded : List QueueTask
  enqueued : List String

inductive QueueEvent
  | enqueue (id taskType : String) (payload : JsonObject) (config : TaskConfig)
      (delaySeconds : Int) (now : Time)
  | start (workerId : Nat)
  | advance (workerId : Nat) (env : WorkerEnv)

namespace QueueState

def empty : QueueState :=
  ⟨.empty, ∅, [], []⟩

def pushTask (w : QueueState) (task : QueueTask) (delaySeconds : Int) (now : Time) : QueueState :=
  { w with toQueues := w.push (PluginRegistry.pushTask task (delaySeconds * 1000000) now) }

theorem pushTask_eq (w : QueueState) (task : QueueTask) (delaySeconds : Int) (now : Time) :
    w.pushTask task delaySeconds now =
      if 0 < delaySeconds * 1000000 then
        { w with delayed := AList.insert task (now + delaySeconds * 1000000) w.delayed }
      else { w with ready := w.ready ++ [task] } := by
  rw [pushTask, Queues.push_pushTask]
  split <;> rfl

def setStage (w : QueueState) (workerId : Nat) (stage : WorkerStage) : QueueState :=
  { w with workers := AList.insert workerId stage w.workers }

def advance (w : QueueState) (workerId : Nat) (env : WorkerEnv) : QueueState :=
  match w.workers.lookup workerId with
  | none => w
  | some stage =>
    match stage with
    | .idle => w.setStage workerId (.promoting (dueTasks w.delayed env.now))
    | .promoting [] => w.setStage workerId .popping
    | .promoting (raw :: raws) =>
      if (w.delayed.lookup raw).isSome then
        { w with delayed := AList.erase raw w.delayed }.setStage workerId (.moving raw raws)
      else w.setStage workerId (.promoting raws)
    | .moving raw raws => { w with ready := w.ready ++ [raw] }.setStage workerId (.promoting raws)
    | .popping =>
      match w.ready with
      | [] => w.setStage workerId .idle
      | task :: ready => { w with ready }.setStage workerId (.holding task)
    | .holding task =>
      match env.handled with
      | none => { w with succeeded := task :: w.succeeded }.setStage workerId .idle
      | some error => w.setStage workerId (.requeueing (requeueTask task error env.config.toTaskLimits))
    | .requeueing (.deadLetter task) =>
      { w with dead := w.dead ++ [task.redacted] }.setStage workerId .idle
    | .requeueing (.push task delaySeconds) =>
      (w.pushTask task delaySeconds env.now).setStage workerId .idle

/-- `enqueue_task` draws a fresh `uuid4`; one drawn before is not drawn again. -/
def step (w : QueueState) : QueueEvent → QueueState
  | .enqueue id taskType payload config delaySeconds now =>
    if id ∈ w.enqueued then w
    else
      { w.pushTask (createTaskEnvelope config.settingsMaxAttempts taskType payload id
          config.maxAttempts) delaySeconds now with
        enqueued := id :: w.enqueued }
  | .start workerId =>
    if (w.workers.lookup workerId).isSome then w else w.setStage workerId .idle
  | .advance workerId env => w.advance workerId env

end QueueState

def queueService : Machine QueueState QueueEvent where
  init := .empty
  step := QueueState.step

end PluginRegistry
