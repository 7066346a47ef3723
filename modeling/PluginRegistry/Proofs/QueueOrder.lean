import PluginRegistry.Lib.Fifo
import PluginRegistry.Proofs.RetriedTasks

namespace PluginRegistry.TaskRuns
open Lib

inductive Advanced (w : State) (i : Nat) (env : WorkerEnv) : State → Prop
  | absent (stage : w.workers.lookup i = none) : Advanced w i env w
  | polled (stage : w.workers.lookup i = some .idle) :
    Advanced w i env (w.setStage i (.promoting (dueTasks w.delayed env.now)))
  | promoted (stage : w.workers.lookup i = some (.promoting [])) :
    Advanced w i env (w.setStage i .popping)
  | taken {raw : QueueTask} {raws : List QueueTask}
    (stage : w.workers.lookup i = some (.promoting (raw :: raws)))
    (due : (w.delayed.lookup raw).isSome) :
    Advanced w i env
      ({ w with delayed := AList.erase raw w.delayed }.setStage i (.moving raw raws))
  | gone {raw : QueueTask} {raws : List QueueTask}
    (stage : w.workers.lookup i = some (.promoting (raw :: raws)))
    (due : w.delayed.lookup raw = none) : Advanced w i env (w.setStage i (.promoting raws))
  | moved {raw : QueueTask} {raws : List QueueTask}
    (stage : w.workers.lookup i = some (.moving raw raws)) :
    Advanced w i env ({ w with ready := w.ready ++ [raw] }.setStage i (.promoting raws))
  | starved (stage : w.workers.lookup i = some .popping) (empty : w.ready = []) :
    Advanced w i env (w.setStage i .idle)
  | popped {task : QueueTask} {ready : List QueueTask}
    (stage : w.workers.lookup i = some .popping) (first : w.ready = task :: ready) :
    Advanced w i env ({ w with ready }.setStage i (.holding task))
  | called {task : QueueTask} (stage : w.workers.lookup i = some (.holding task)) :
    Advanced w i env
      (({ w with calls := w.calls ++ [task] }.mark task.id fun row =>
        row.markRunning env.workerId task.attempts env.now).setStage i (.handling task))
  | returned {task : QueueTask} (stage : w.workers.lookup i = some (.handling task))
    (ended : env.handled = none) : Advanced w i env (w.setStage i (.handled task))
  | raised {task : QueueTask} {error : PyErr}
    (stage : w.workers.lookup i = some (.handling task)) (ended : env.handled = some error) :
    Advanced w i env (w.setStage i (.failed (requeueTask task error env.limits) error))
  | succeeded {task : QueueTask} (stage : w.workers.lookup i = some (.handled task)) :
    Advanced w i env
      (({ w with succeeded := w.succeeded ++ [task] }.mark task.id fun row =>
        row.markSucceeded env.now).setStage i .idle)
  | died {task : QueueTask} {error : PyErr}
    (stage : w.workers.lookup i = some (.failed (.deadLetter task) error)) :
    Advanced w i env
      ((w.mark task.id fun row =>
        row.markDead task.attempts error.text env.now).setStage i (.pushing (.deadLetter task)))
  | retried {task : QueueTask} {delaySeconds : Int} {error : PyErr}
    (stage : w.workers.lookup i = some (.failed (.push task delaySeconds) error)) :
    Advanced w i env
      ((w.mark task.id fun row =>
        row.markRetrying task.attempts error.text delaySeconds env.now).setStage i
          (.pushing (.push task delaySeconds)))
  | buried {task : QueueTask} (stage : w.workers.lookup i = some (.pushing (.deadLetter task))) :
    Advanced w i env ({ w with dead := w.dead ++ [task.redacted] }.setStage i .idle)
  | pushed {task : QueueTask} {delaySeconds : Int}
    (stage : w.workers.lookup i = some (.pushing (.push task delaySeconds))) :
    Advanced w i env ((w.pushTask task (delaySeconds * 1000000) env.now).setStage i .idle)

/-- What one step of a worker does to the ready list. -/
theorem advance_advanced (w : State) (i : Nat) (env : WorkerEnv) :
    Advanced w i env (w.advance i env) := by
  unfold State.advance
  cases hi : w.workers.lookup i with
  | none => exact .absent hi
  | some stage =>
    cases stage with
    | idle => exact .polled hi
    | promoting raws =>
      cases raws with
      | nil => exact .promoted hi
      | cons raw raws =>
        dsimp only
        split
        · rename_i hdue
          exact .taken hi hdue
        · rename_i hdue
          exact .gone hi (Option.not_isSome_iff_eq_none.mp hdue)
    | moving raw raws => exact .moved hi
    | popping =>
      cases hready : w.ready with
      | nil => exact .starved hi hready
      | cons task ready => exact .popped hi hready
    | holding task => exact .called hi
    | handling task =>
      cases hhandled : env.handled with
      | none => exact .returned hi hhandled
      | some error => exact .raised hi hhandled
    | handled task => exact .succeeded hi
    | failed target error =>
      cases target with
      | deadLetter task => exact .died hi
      | push task delaySeconds => exact .retried hi
    | pushing target =>
      cases target with
      | deadLetter task => exact .buried hi
      | push task delaySeconds => exact .pushed hi

def Event.enters (w : State) : Event → List QueueTask
  | .serve requestId _ _ _ =>
    match w.requests.lookup requestId with
    | some (.pushing task delay) => if 0 < delay then [] else [task]
    | _ => []
  | .advance i _ =>
    match w.workers.lookup i with
    | some (.moving raw _) => [raw]
    | some (.pushing (.push task delaySeconds)) => if 0 < delaySeconds then [] else [task]
    | _ => []
  | _ => []

def Event.leaves (w : State) : Event → List QueueTask
  | .advance i _ =>
    match w.workers.lookup i with
    | some .popping => w.ready.take 1
    | _ => []
  | _ => []

theorem createTask_ready {settingsMaxAttempts : Int} {w : State} {requestId : Nat}
    {id original taskType : String} {payload : JsonObject} {limits : TaskLimits} {delay : Int}
    {now : Time} :
    (w.createTask settingsMaxAttempts requestId id original taskType payload limits delay
      now).ready = w.ready := by
  unfold State.createTask
  split <;> rfl

theorem pushTask_ready (w : State) (task : QueueTask) (delay : Int) (now : Time) :
    (w.pushTask task delay now).ready = w.ready ++ if 0 < delay then [] else [task] := by
  rw [State.pushTask_eq]
  split
  · exact (List.append_nil _).symm
  · rfl

theorem advance_ready (w : State) (i : Nat) (env : WorkerEnv) :
    w.ready ++ (Event.advance i env).enters w =
      (Event.advance i env).leaves w ++ (w.advance i env).ready := by
  have hadvanced := advance_advanced w i env
  generalize w.advance i env = w' at hadvanced
  cases hadvanced with
  | @pushed task delaySeconds stage =>
    have hdelay : 0 < delaySeconds * 1000000 ↔ 0 < delaySeconds := by omega
    simp [Event.enters, Event.leaves, stage, State.setStage, pushTask_ready, hdelay]
  | popped stage first => simp [Event.enters, Event.leaves, stage, first, State.setStage]
  | starved stage empty => simp [Event.enters, Event.leaves, stage, empty, State.setStage]
  | moved stage => simp [Event.enters, Event.leaves, stage, State.setStage]
  | absent stage => simp [Event.enters, Event.leaves, stage]
  | _ stage => simp [Event.enters, Event.leaves, stage, State.setStage, State.mark]

/-- The ready list gives its tasks back in the order in which they enter it. -/
theorem taskRuns_fifo (settingsMaxAttempts : Int) :
    (taskRuns settingsMaxAttempts).IsFifo (·.ready) (fun w e => e.enters w)
      (fun w e => e.leaves w) := by
  intro w e
  change _ = _ ++ (w.step settingsMaxAttempts e).ready
  cases e with
  | enqueue requestId id taskType payload limits delay now =>
    simp only [State.step]
    split <;> simp [Event.enters, Event.leaves, createTask_ready]
  | retry requestId taskId =>
    simp only [State.step, State.readRetried]
    split
    · simp [Event.enters, Event.leaves]
    · split
      · simp [Event.enters, Event.leaves]
      · split <;> simp [Event.enters, Event.leaves, State.setRequest]
  | serve requestId id limits now =>
    cases hrequest : w.requests.lookup requestId with
    | none => simp [State.step, State.serve, Event.enters, Event.leaves, hrequest]
    | some request =>
      cases request with
      | pushing task delay =>
        simp [State.step, State.serve, Event.enters, Event.leaves, hrequest, pushTask_ready]
      | retrying row =>
        simp [State.step, State.serve, Event.enters, Event.leaves, hrequest, createTask_ready]
  | start workerId =>
    simp only [State.step]
    split <;> simp [Event.enters, Event.leaves, State.setStage]
  | advance i env => exact advance_ready w i env

/-- Whatever workers and requests do in between, tasks leave the ready list in the order
in which they entered it, and a task behind `n` others is taken by the next pop after
theirs. -/
theorem ready_list_is_fair (settingsMaxAttempts : Int) (es later : List Event) :
    let run := taskRuns settingsMaxAttempts
    let w := run.runFrom run.init es
    run.collect (fun w e => e.enters w) run.init es =
        run.collect (fun w e => e.leaves w) run.init es ++ w.ready ∧
      ∀ before task after, w.ready = before ++ task :: after →
        before.length < (run.collect (fun w e => e.leaves w) w later).length →
          (run.collect (fun w e => e.leaves w) w later)[before.length]? = some task :=
  ⟨(taskRuns_fifo settingsMaxAttempts).run (taskRuns settingsMaxAttempts).init es,
    fun _ _ _ => (taskRuns_fifo settingsMaxAttempts).leaves_at⟩

def twoEnqueued : List Event :=
  [.enqueue 0 "t" "scan" [] ⟨3, 60⟩ 0 0, .enqueue 1 "u" "build" [] ⟨3, 60⟩ 0 0,
    .serve 0 "t" ⟨3, 60⟩ 0, .serve 1 "u" ⟨3, 60⟩ 0, .start 1, .start 2]

theorem ready_list_is_fair_two :
    let run := taskRuns 3
    let w := run.runFrom run.init twoEnqueued
    (run.collect (fun w e => e.leaves w) w (takeTask 2 ++ takeTask 1))[1]? =
      some (createTaskEnvelope 3 "build" [] "u" 3) := by
  intro run w
  have hready : w.ready = [createTaskEnvelope 3 "scan" [] "t" 3] ++
      createTaskEnvelope 3 "build" [] "u" 3 :: [] := by
    decide +kernel
  have hlong : 1 < (run.collect (fun w e => e.leaves w) w (takeTask 2 ++ takeTask 1)).length := by
    decide +kernel
  obtain ⟨-, hnext⟩ := ready_list_is_fair 3 twoEnqueued (takeTask 2 ++ takeTask 1)
  exact hnext [_] _ [] hready hlong

end PluginRegistry.TaskRuns
