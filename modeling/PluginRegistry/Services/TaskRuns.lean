import PluginRegistry.Lib.Machine
import PluginRegistry.Services.TaskObservability

namespace PluginRegistry.TaskRuns
open Lib

inductive Stage
  | idle
  | promoting (raws : List QueueTask)
  | moving (raw : QueueTask) (raws : List QueueTask)
  | popping
  | holding (task : QueueTask)
  | handling (task : QueueTask)
  | handled (task : QueueTask)
  | failed (target : Requeue QueueTask) (error : PyErr)
  | pushing (target : Requeue QueueTask)
  deriving DecidableEq

/-- What a worker learns at a step: the time, how the handler of the task it
handles ends, and the configuration. -/
structure WorkerEnv where
  now : Time
  workerId : String
  handled : Option PyErr
  limits : TaskLimits

/-- An API request or a handler that enqueues a task: it has written the row, or it
is the retry endpoint with the row that it has read. -/
inductive Request
  | pushing (task : QueueTask) (delay : Int)
  | retrying (row : WorkerTask)

/-- The Redis structures, the rows, the workers and the requests, with a record of
every call of a handler, of the tasks that have succeeded, and of the task that a
task was first enqueued as. No write of `task_observability` raises; `Worker` says what
becomes of the task when one does. -/
structure State extends Queues QueueTask where
  rows : Table String WorkerTask
  workers : Table Nat Stage
  requests : Table Nat Request
  calls : List QueueTask
  succeeded : List QueueTask
  originals : Table String String

inductive Event
  | enqueue (requestId : Nat) (id taskType : String) (payload : JsonObject) (limits : TaskLimits)
      (delay : Int) (now : Time)
  | retry (requestId : Nat) (taskId : String)
  | serve (requestId : Nat) (id : String) (limits : TaskLimits) (now : Time)
  | start (workerId : Nat)
  | advance (workerId : Nat) (env : WorkerEnv)

namespace State

def empty : State :=
  ⟨.empty, ∅, ∅, ∅, [], [], ∅⟩

def original (w : State) (id : String) : String :=
  (w.originals.lookup id).getD id

def pushTask (w : State) (task : QueueTask) (delay : Int) (now : Time) : State :=
  { w with toQueues := w.push (PluginRegistry.pushTask task delay now) }

theorem pushTask_eq (w : State) (task : QueueTask) (delay : Int) (now : Time) :
    w.pushTask task delay now =
      if 0 < delay then { w with delayed := AList.insert task (now + delay) w.delayed }
      else { w with ready := w.ready ++ [task] } := by
  rw [pushTask, Queues.push_pushTask]
  split <;> rfl

def setStage (w : State) (workerId : Nat) (stage : Stage) : State :=
  { w with workers := AList.insert workerId stage w.workers }

def setRequest (w : State) (requestId : Nat) (request : Request) : State :=
  { w with requests := AList.insert requestId request w.requests }

/-- A write of `task_observability` to the row of a task. -/
def mark (w : State) (id : String) (write : WorkerTask → WorkerTask) : State :=
  { w with rows := w.rows.modify id write }

/-- `enqueue_task` up to its push. A `uuid4` that was drawn before is not drawn again. -/
def createTask (settingsMaxAttempts : Int) (w : State) (requestId : Nat) (id original : String)
    (taskType : String) (payload : JsonObject) (limits : TaskLimits) (delay : Int) (now : Time) :
    State :=
  if (w.rows.lookup id).isSome then w
  else
    let row := createWorkerTask settingsMaxAttempts taskType payload id limits.maxAttempts delay now
    let task := createTaskEnvelope settingsMaxAttempts taskType payload id limits.maxAttempts
    { w with
      rows := AList.insert id row w.rows
      originals := AList.insert id original w.originals }.setRequest requestId (.pushing task delay)

/-- `retry_task_endpoint` up to `enqueue_task`. -/
def readRetried (w : State) (requestId : Nat) (taskId : String) : State :=
  match w.rows.lookup taskId with
  | none => w
  | some row => if row.status = .running then w else w.setRequest requestId (.retrying row)

def serve (settingsMaxAttempts : Int) (w : State) (requestId : Nat) (id : String)
    (limits : TaskLimits) (now : Time) : State :=
  match w.requests.lookup requestId with
  | none => w
  | some (.retrying row) =>
    w.createTask settingsMaxAttempts requestId id (w.original row.id) row.taskType row.payload
      limits 0 now
  | some (.pushing task delay) =>
    { w.pushTask task delay now with requests := AList.erase requestId w.requests }

def advance (w : State) (workerId : Nat) (env : WorkerEnv) : State :=
  match w.workers.lookup workerId with
  | none => w
  | some .idle => w.setStage workerId (.promoting (dueTasks w.delayed env.now))
  | some (.promoting []) => w.setStage workerId .popping
  | some (.promoting (raw :: raws)) =>
    if (w.delayed.lookup raw).isSome then
      { w with delayed := AList.erase raw w.delayed }.setStage workerId (.moving raw raws)
    else w.setStage workerId (.promoting raws)
  | some (.moving raw raws) =>
    { w with ready := w.ready ++ [raw] }.setStage workerId (.promoting raws)
  | some .popping =>
    match w.ready with
    | [] => w.setStage workerId .idle
    | task :: ready => { w with ready }.setStage workerId (.holding task)
  | some (.holding task) =>
    ({ w with calls := w.calls ++ [task] }.mark task.id fun row =>
      row.markRunning env.workerId task.attempts env.now).setStage workerId (.handling task)
  | some (.handling task) =>
    match env.handled with
    | none => w.setStage workerId (.handled task)
    | some error => w.setStage workerId (.failed (requeueTask task error env.limits) error)
  | some (.handled task) =>
    ({ w with succeeded := w.succeeded ++ [task] }.mark task.id fun row =>
      row.markSucceeded env.now).setStage workerId .idle
  | some (.failed (.deadLetter task) error) =>
    (w.mark task.id fun row =>
      row.markDead task.attempts error.text env.now).setStage workerId (.pushing (.deadLetter task))
  | some (.failed (.push task delaySeconds) error) =>
    (w.mark task.id fun row =>
      row.markRetrying task.attempts error.text delaySeconds env.now).setStage workerId
        (.pushing (.push task delaySeconds))
  | some (.pushing (.deadLetter task)) =>
    { w with dead := w.dead ++ [task.redacted] }.setStage workerId .idle
  | some (.pushing (.push task delaySeconds)) =>
    (w.pushTask task (delaySeconds * 1000000) env.now).setStage workerId .idle

def step (settingsMaxAttempts : Int) (w : State) : Event → State
  | .enqueue requestId id taskType payload limits delay now =>
    if (w.requests.lookup requestId).isSome then w
    else w.createTask settingsMaxAttempts requestId id id taskType payload limits delay now
  | .retry requestId taskId =>
    if (w.requests.lookup requestId).isSome then w else w.readRetried requestId taskId
  | .serve requestId id limits now => w.serve settingsMaxAttempts requestId id limits now
  | .start workerId =>
    if (w.workers.lookup workerId).isSome then w else w.setStage workerId .idle
  | .advance workerId env => w.advance workerId env

end State

def taskRuns (settingsMaxAttempts : Int) : Machine State Event where
  init := .empty
  step := State.step settingsMaxAttempts

end PluginRegistry.TaskRuns
