import PluginRegistry.Services.Worker

namespace PluginRegistry
open Lib

def storedPayload (payload : JsonObject) : JsonObject :=
  if payload.isEmpty then []
  else
    let redacted := payload.pop "temporary_token"
    if (payload.get "temporary_token").any Json.truthy then
      redacted.set "temporary_token_present" (.bool true)
    else redacted

inductive TaskStatus
  | queued | delayed | running | retrying | succeeded | failed | dead | cancelled
  deriving DecidableEq

/-- A row of `worker_tasks`. -/
structure WorkerTask where
  id : String
  taskType : String
  status : TaskStatus
  payload : JsonObject
  attempts : Int
  maxAttempts : Int
  queuedAt : Time
  startedAt : Option Time
  finishedAt : Option Time
  nextRunAt : Option Int
  workerId : Option String
  durationMs : Option Nat
  lastError : Option String

def createWorkerTask (settingsMaxAttempts : Int) (taskType : String) (payload : JsonObject)
    (id : String) (maxAttempts : Int) (delay : Int) (now : Time) : WorkerTask where
  id := id
  taskType := taskType
  status := if 0 < delay then .delayed else .queued
  payload := storedPayload payload
  attempts := 0
  maxAttempts := if maxAttempts = 0 then settingsMaxAttempts else maxAttempts
  queuedAt := now
  startedAt := none
  finishedAt := none
  nextRunAt := if 0 < delay then some (now + delay) else none
  workerId := none
  durationMs := none
  lastError := none

namespace WorkerTask

/-- `_duration_ms`. -/
def durationUntil (task : WorkerTask) (finishedAt : Time) : Option Nat :=
  task.startedAt.map fun startedAt => (finishedAt - startedAt) / 1000

def markRunning (task : WorkerTask) (workerId : String) (attempts : Int) (now : Time) :
    WorkerTask :=
  { task with
    status := .running
    startedAt := some now
    finishedAt := none
    nextRunAt := none
    workerId := some workerId
    attempts
    lastError := none }

def markSucceeded (task : WorkerTask) (now : Time) : WorkerTask :=
  { task with
    status := .succeeded
    finishedAt := some now
    nextRunAt := none
    durationMs := task.durationUntil now }

def markRetrying (task : WorkerTask) (attempts : Int) (error : String) (delaySeconds : Int)
    (now : Time) : WorkerTask :=
  { task with
    status := .retrying
    finishedAt := some now
    durationMs := task.durationUntil now
    attempts
    lastError := some error
    nextRunAt := some (now + delaySeconds * 1000000) }

def markDead (task : WorkerTask) (attempts : Int) (error : String) (now : Time) : WorkerTask :=
  { task with
    status := .dead
    finishedAt := some now
    durationMs := task.durationUntil now
    attempts
    lastError := some error
    nextRunAt := none }

end WorkerTask

end PluginRegistry
