import PluginRegistry.Proofs.TaskConservation
import PluginRegistry.Services.Worker

namespace PluginRegistry.Worker
open Lib

def Continues (task task' : JsonObject) : Prop :=
  ∀ key, key ≠ "attempts" → key ≠ "last_error" → task'.get key = task.get key

namespace WorkerState

def popped (w : WorkerState) (env : TaskEnv) : Option QueueItem :=
  if w.running then (w.promoteDueTasks env.now).ready.head? else none

/-- The popped item has succeeded, is back in a queue or is in the dead-letter
list, and the loop goes on. -/
def Settled (w w' : WorkerState) (item : QueueItem) : Prop :=
  w'.running = true ∧
    (w'.succeeded = w.succeeded ++ [item] ∨
      ∃ task task', popTask item = .ok task ∧ Continues task task' ∧
        (.parsed (.obj task') ∈ w'.ready ∨ (w'.delayed.lookup (.parsed (.obj task'))).isSome ∨
          w'.dead = w.dead ++ [.parsed (.obj (redactedTask task'))]))

def Keeps (w : WorkerState) : WorkerEvent → Prop
  | .push _ => True
  | .iterate env => ∀ item, w.popped env = some item → w.Settled (w.iterate env) item

end WorkerState

def TaskEnv.raised (env : TaskEnv) : Option PyErr :=
  env.markRunning.or (env.handled.or env.markSucceeded)

def Requeueable (task : JsonObject) (tried : Int) (error : PyErr) (env : TaskEnv) : Prop :=
  (tried + 1).natAbs < 10 ^ intMaxStrDigits ∧ env.closeSession = none ∧
    if isRetryableTaskError error then
      ∃ limit, maxAttempts task env.maxAttempts = .ok limit ∧
        if limit ≤ tried + 1 then env.markDead = none
        else (∃ delay, env.retryDelaySeconds = .ok delay ∧ delay < delayLimit) ∧
          env.markRetrying = none
    else env.markDead = none

/-- The popped text is a JSON object with a usable counter, and if its handling
raises then requeueing raises nothing. -/
def WorkerState.Manageable (w : WorkerState) : WorkerEvent → Prop
  | .push _ => True
  | .iterate env => ∀ item, w.popped env = some item →
    ∃ task tried, popTask item = .ok task ∧ attempts task = .ok tried ∧
      ∀ error, env.raised = some error → Requeueable task tried error env

theorem runTask_eq {task : JsonObject} {tried : Int} (h : attempts task = .ok tried)
    (env : TaskEnv) : runTask task env = raise env.raised := by
  simp only [runTask, h, TaskEnv.raised]
  cases env.markRunning <;> cases env.handled <;> rfl

theorem runTask_error {task : JsonObject} {error : PyErr} (h : attempts task = .error error)
    (env : TaskEnv) : runTask task env = .error error := by
  simp only [runTask, h]
  rfl

/-- A counter that cannot be read fails a second time when the task is requeued. -/
theorem requeueTask_error {task : JsonObject} {broken : PyErr} (h : attempts task = .error broken)
    (error : PyErr) (env : TaskEnv) : requeueTask task error env = .error broken := by
  simp only [requeueTask, requeued, h]
  rfl

def retried (task : JsonObject) (tried : Int) (error : PyErr) : JsonObject :=
  (task.set "attempts" (.int (tried + 1))).set "last_error" (.str error.text)

theorem retried_continues (task : JsonObject) (tried : Int) (error : PyErr) :
    Continues task (retried task tried error) := by
  intro key hattempts herror
  rw [retried, JsonObject.get_set, if_neg herror, JsonObject.get_set, if_neg hattempts]

theorem retried_attempts (task : JsonObject) (tried : Int) (error : PyErr) :
    (retried task tried error).get "attempts" = some (.int (tried + 1)) := by
  rw [retried, JsonObject.get_set, if_neg (by decide), JsonObject.get_set, if_pos rfl]

theorem redactedTask_attempts (task : JsonObject) :
    (redactedTask task).get "attempts" = task.get "attempts" := by
  unfold redactedTask
  split
  · dsimp only
    split
    · rw [JsonObject.get_set, if_neg (by decide)]
    · rfl
  · rfl

theorem encodeTask_ok {task : JsonObject} {n : Int} (h : task.get "attempts" = some (.int n))
    (hn : n.natAbs < 10 ^ intMaxStrDigits) : encodeTask task = .ok (.parsed (.obj task)) := by
  simp only [encodeTask, h]
  rw [if_neg (Nat.not_le.mpr hn)]

theorem encodeTask_error {task : JsonObject} {n : Int} (h : task.get "attempts" = some (.int n))
    (hn : ¬n.natAbs < 10 ^ intMaxStrDigits) : ∃ error, encodeTask task = .error error := by
  simp only [encodeTask, h]
  rw [if_pos (Nat.not_lt.mp hn)]
  exact ⟨_, rfl⟩

def Takes (task : JsonObject) : Push QueueItem → Prop
  | .dead item => item = .parsed (.obj (redactedTask task))
  | .ready item => item = .parsed (.obj task)
  | .delayed item _ => item = .parsed (.obj task)

theorem deadLetter_ok {task : JsonObject} {n : Int} {env : TaskEnv}
    (h : task.get "attempts" = some (.int n)) (hn : n.natAbs < 10 ^ intMaxStrDigits)
    (hd : env.markDead = none) :
    deadLetter task env = .ok (.dead (.parsed (.obj (redactedTask task)))) := by
  have hr : (redactedTask task).get "attempts" = some (.int n) := by
    rw [redactedTask_attempts, h]
  simp only [deadLetter, hd, raise, encodeTask_ok hr hn]
  rfl

theorem deadLetter_inv {task : JsonObject} {n : Int} {env : TaskEnv} {command : Push QueueItem}
    (h : task.get "attempts" = some (.int n)) (hok : deadLetter task env = .ok command) :
    n.natAbs < 10 ^ intMaxStrDigits ∧ env.markDead = none := by
  have hr : (redactedTask task).get "attempts" = some (.int n) := by
    rw [redactedTask_attempts, h]
  cases hd : env.markDead with
  | some error =>
    simp only [deadLetter, hd, raise] at hok
    cases hok
  | none =>
    refine ⟨?_, rfl⟩
    by_contra hn
    obtain ⟨error, he⟩ := encodeTask_error hr hn
    simp only [deadLetter, hd, raise, he] at hok
    cases hok

/-- Where the task goes once the counter is read. -/
theorem requeued_eq {task : JsonObject} {tried : Int} (h : attempts task = .ok tried)
    (error : PyErr) (runtimeMaxAttempts retryDelaySeconds : Except PyErr Int) :
    requeued task error runtimeMaxAttempts retryDelaySeconds =
      if isRetryableTaskError error then do
        let limit ← maxAttempts task runtimeMaxAttempts
        if limit ≤ tried + 1 then return .deadLetter (retried task tried error)
        else return .push (retried task tried error) (← retryDelaySeconds)
      else return .deadLetter (retried task tried error) := by
  have hget : (retried task tried error).get "max_attempts" = task.get "max_attempts" :=
    retried_continues task tried error _ (by decide) (by decide)
  have hmax : maxAttempts (retried task tried error) runtimeMaxAttempts =
      maxAttempts task runtimeMaxAttempts := by
    simp only [maxAttempts, hget]
  rw [← hmax]
  simp only [requeued, h]
  cases isRetryableTaskError error <;> rfl

section Requeue

variable {task task' : JsonObject} {tried delay : Int} {error : PyErr} {env : TaskEnv}
  {command : Push QueueItem}

theorem requeueTask_dead
    (h : requeued task error env.maxAttempts env.retryDelaySeconds = .ok (.deadLetter task')) :
    requeueTask task error env = deadLetter task' env := by
  rw [requeueTask, h]
  rfl

theorem requeueTask_push
    (h : requeued task error env.maxAttempts env.retryDelaySeconds = .ok (.push task' delay))
    (hmark : env.markRetrying = none) :
    requeueTask task error env = pushTask task' delay env.now := by
  rw [requeueTask, h]
  simp only [bind, Except.bind, hmark, raise]

theorem pushTask_ok {n : Int} (h : task.get "attempts" = some (.int n))
    (hn : n.natAbs < 10 ^ intMaxStrDigits) (hdelay : delay < delayLimit) (now : Time) :
    ∃ command, pushTask task delay now = .ok command ∧ Takes task command := by
  simp only [pushTask, encodeTask_ok h hn, bind, Except.bind, if_neg (Int.not_le.mpr hdelay)]
  refine ⟨_, rfl, ?_⟩
  unfold PluginRegistry.pushTask
  split <;> rfl

theorem pushTask_inv {n : Int} {now : Time} (h : task.get "attempts" = some (.int n))
    (hok : pushTask task delay now = .ok command) :
    n.natAbs < 10 ^ intMaxStrDigits ∧ delay < delayLimit := by
  by_cases hn : n.natAbs < 10 ^ intMaxStrDigits
  · refine ⟨hn, ?_⟩
    by_contra hdelay
    simp only [pushTask, encodeTask_ok h hn, bind, Except.bind, if_pos (Int.not_lt.mp hdelay)] at hok
    cases hok
  · obtain ⟨error, he⟩ := encodeTask_error h hn
    simp only [pushTask, he] at hok
    cases hok

/-- Requeueing under its conditions puts the task somewhere. -/
theorem requeueTask_ok (h : attempts task = .ok tried) (hq : Requeueable task tried error env) :
    ∃ command, requeueTask task error env = .ok command ∧
      Takes (retried task tried error) command := by
  obtain ⟨hn, -, hq⟩ := hq
  have hattempts := retried_attempts task tried error
  have hwhere := requeued_eq h error env.maxAttempts env.retryDelaySeconds
  by_cases hretry : isRetryableTaskError error = true
  · rw [if_pos hretry] at hq hwhere
    obtain ⟨limit, hlimit, hq⟩ := hq
    simp only [hlimit, bind, Except.bind] at hwhere
    by_cases hle : limit ≤ tried + 1
    · rw [if_pos hle] at hq hwhere
      rw [requeueTask_dead hwhere, deadLetter_ok hattempts hn hq]
      exact ⟨_, rfl, rfl⟩
    · rw [if_neg hle] at hq hwhere
      obtain ⟨⟨delay, hdelay, hfits⟩, hmark⟩ := hq
      have hpush : requeued task error env.maxAttempts env.retryDelaySeconds =
          .ok (.push (retried task tried error) delay) := by rw [hwhere, hdelay]; rfl
      rw [requeueTask_push hpush hmark]
      exact pushTask_ok hattempts hn hfits env.now
  · rw [if_neg hretry] at hq hwhere
    rw [requeueTask_dead hwhere, deadLetter_ok hattempts hn hq]
    exact ⟨_, rfl, rfl⟩

/-- Any other requeueing raises before its Redis command. -/
theorem requeueTask_inv (h : attempts task = .ok tried) (hclose : env.closeSession = none)
    (hok : requeueTask task error env = .ok command) : Requeueable task tried error env := by
  have hattempts := retried_attempts task tried error
  have hwhere := requeued_eq h error env.maxAttempts env.retryDelaySeconds
  by_cases hretry : isRetryableTaskError error = true
  · rw [if_pos hretry] at hwhere
    cases hlimit : maxAttempts task env.maxAttempts with
    | error broken =>
      rw [hlimit] at hwhere
      rw [requeueTask, hwhere] at hok
      cases hok
    | ok limit =>
      simp only [hlimit, bind, Except.bind] at hwhere
      by_cases hle : limit ≤ tried + 1
      · rw [if_pos hle] at hwhere
        rw [requeueTask_dead hwhere] at hok
        obtain ⟨hn, hd⟩ := deadLetter_inv hattempts hok
        exact ⟨hn, hclose, by rw [if_pos hretry]; exact ⟨limit, hlimit, by rwa [if_pos hle]⟩⟩
      · rw [if_neg hle] at hwhere
        cases hdelay : env.retryDelaySeconds with
        | error broken =>
          rw [hdelay] at hwhere
          rw [requeueTask, hdelay, hwhere] at hok
          cases hok
        | ok delay =>
          rw [hdelay] at hwhere
          cases hmark : env.markRetrying with
          | some broken =>
            rw [requeueTask, hdelay, hwhere] at hok
            simp only [bind, Except.bind, hmark, raise] at hok
            cases hok
          | none =>
            have hpush : requeued task error env.maxAttempts env.retryDelaySeconds =
                .ok (.push (retried task tried error) delay) := by rw [hdelay, hwhere]; rfl
            rw [requeueTask_push hpush hmark] at hok
            obtain ⟨hn, hfits⟩ := pushTask_inv hattempts hok
            refine ⟨hn, hclose, ?_⟩
            rw [if_pos hretry]
            exact ⟨limit, hlimit, by rw [if_neg hle]; exact ⟨⟨delay, hdelay, hfits⟩, hmark⟩⟩
  · rw [if_neg hretry] at hwhere
    rw [requeueTask_dead hwhere] at hok
    obtain ⟨hn, hd⟩ := deadLetter_inv hattempts hok
    exact ⟨hn, hclose, by rwa [if_neg hretry]⟩

end Requeue

namespace WorkerState

variable {w : WorkerState} {env : TaskEnv} {item : QueueItem}

/-- What promoting leaves alone. -/
theorem promoteDueTasks_frame (w : WorkerState) (now : Time) :
    (w.promoteDueTasks now).running = w.running ∧
      (w.promoteDueTasks now).succeeded = w.succeeded ∧ (w.promoteDueTasks now).dead = w.dead := by
  have hfold : ∀ (items : List QueueItem) (x : WorkerState),
      (items.foldl promoteTask x).running = x.running ∧
        (items.foldl promoteTask x).succeeded = x.succeeded ∧
        (items.foldl promoteTask x).dead = x.dead := by
    intro items
    induction items with
    | nil => exact fun x => ⟨rfl, rfl, rfl⟩
    | cons item items ih =>
      intro x
      have hitem : (x.promoteTask item).running = x.running ∧
          (x.promoteTask item).succeeded = x.succeeded ∧ (x.promoteTask item).dead = x.dead := by
        unfold promoteTask
        split <;> exact ⟨rfl, rfl, rfl⟩
      obtain ⟨hr, hs, hd⟩ := ih (x.promoteTask item)
      exact ⟨hr.trans hitem.1, hs.trans hitem.2.1, hd.trans hitem.2.2⟩
  exact hfold _ w

/-- An iteration that pops an item, with the queue it leaves behind. -/
theorem iterate_popped (h : w.popped env = some item) : ∃ ready, w.iterate env =
    { w.promoteDueTasks env.now with ready }.handleItem item env := by
  unfold popped at h
  split at h
  · rename_i hr
    obtain ⟨ready, hready⟩ := List.head?_eq_some_iff.mp h
    refine ⟨ready, ?_⟩
    simp only [iterate, hr, hready]
    rfl
  · cases h

theorem popped_running (h : w.popped env = some item) : w.running = true := by
  unfold popped at h
  split at h
  · rename_i hr
    exact hr
  · cases h

/-- What a push puts somewhere is found there. -/
theorem push_takes {task : JsonObject} {command : Push QueueItem} (w : WorkerState)
    (h : Takes task command) :
    .parsed (.obj task) ∈ (w.push command).ready ∨
      ((w.push command).delayed.lookup (.parsed (.obj task))).isSome ∨
      (w.push command).dead = w.dead ++ [.parsed (.obj (redactedTask task))] := by
  cases command with
  | dead item =>
    cases h
    exact .inr (.inr rfl)
  | ready item =>
    cases h
    exact .inl (List.mem_append_right _ (List.mem_singleton_self _))
  | delayed item due =>
    cases h
    exact .inr (.inl (by simp [push, Queues.push]))

theorem handleItem_settled {task : JsonObject} {tried : Int} (hrun : w.running = true)
    (htask : popTask item = .ok task) (htried : attempts task = .ok tried)
    (hq : ∀ error, env.raised = some error → Requeueable task tried error env) :
    w.Settled (w.handleItem item env) item := by
  cases hraised : env.raised with
  | none =>
    have hdone : runTask task env = .ok () := by rw [runTask_eq htried, hraised]; rfl
    simp only [handleItem, htask, hdone]
    exact ⟨hrun, .inl rfl⟩
  | some error =>
    have hfailed : runTask task env = .error error := by rw [runTask_eq htried, hraised]; rfl
    have hrequeue := hq error hraised
    obtain ⟨command, hcommand, htakes⟩ := requeueTask_ok htried hrequeue
    simp only [handleItem, htask, hfailed, hcommand]
    refine ⟨by rw [hrequeue.2.1]; rfl, .inr ⟨task, _, htask, retried_continues task tried error, ?_⟩⟩
    exact w.push_takes htakes

/-- Where the conditions fail the item is lost or the loop has ended. -/
theorem handleItem_inv (h : w.Settled (w.handleItem item env) item) :
    ∃ task tried, popTask item = .ok task ∧ attempts task = .ok tried ∧
      ∀ error, env.raised = some error → Requeueable task tried error env := by
  cases htask : popTask item with
  | error broken =>
    simp only [handleItem, htask] at h
    obtain ⟨-, hs | ⟨task, -, hok, -⟩⟩ := h
    · exact absurd hs (by simp)
    · rw [htask] at hok
      cases hok
  | ok task =>
    cases htried : attempts task with
    | error broken =>
      simp only [handleItem, htask, runTask_error htried, requeueTask_error htried] at h
      cases h.1
    | ok tried =>
      refine ⟨task, tried, rfl, htried, fun error hraised => ?_⟩
      have hfailed : runTask task env = .error error := by rw [runTask_eq htried, hraised]; rfl
      simp only [handleItem, htask, hfailed] at h
      cases hcommand : requeueTask task error env with
      | error broken =>
        simp only [hcommand] at h
        cases h.1
      | ok command =>
        simp only [hcommand] at h
        exact requeueTask_inv htried (Option.isNone_iff_eq_none.mp h.1) hcommand

/-- The step lemma: an iteration settles what it pops exactly when the item and
its handling are manageable. -/
theorem keeps_iff (w : WorkerState) (e : WorkerEvent) : w.Keeps e ↔ w.Manageable e := by
  cases e with
  | push command => exact Iff.rfl
  | iterate env =>
    refine forall_congr' fun item => forall_congr' fun hpop => ?_
    obtain ⟨ready, hiter⟩ := iterate_popped hpop
    obtain ⟨hrunning, hsucceeded, hdead⟩ := w.promoteDueTasks_frame env.now
    have hsame : ∀ x : WorkerState, w.Settled x item ↔
        ({ w.promoteDueTasks env.now with ready }).Settled x item := by
      intro x
      simp only [Settled, hsucceeded, hdead]
    rw [hiter, hsame]
    constructor
    · exact handleItem_inv
    · rintro ⟨task, tried, htask, htried, hq⟩
      exact handleItem_settled (hrunning.trans (popped_running hpop)) htask htried hq

end WorkerState

/-- The worker settles every task it pops in a run, whatever the queue holds and
whatever fails, exactly when each text it pops and each failure is manageable. -/
theorem worker_settles_iff (es : List WorkerEvent) :
    (∀ x ∈ workerLoop.steps workerLoop.init es, x.1.Keeps x.2) ↔
      ∀ x ∈ workerLoop.steps workerLoop.init es, x.1.Manageable x.2 :=
  forall₂_congr fun x _ => x.1.keeps_iff x.2

def scanItem : QueueItem :=
  .parsed (.obj [("id", .str "6f1c"), ("type", .str "scan"),
    ("payload", .obj [("version_id", .str "77aa")]), ("attempts", .int 0), ("max_attempts", .int 3)])

/-- The database goes away while a task is handled and is still away when the
task is marked as retrying. -/
def outage : TaskEnv where
  now := 0
  markRunning := none
  handled := some ⟨.osError, "connection lost", 0⟩
  markSucceeded := none
  maxAttempts := .ok 3
  retryDelaySeconds := .ok 5
  markDead := some ⟨.osError, "connection refused", 0⟩
  markRetrying := some ⟨.osError, "connection refused", 0⟩
  closeSession := none

/-- The exception handler raises, the worker ends, and the task is nowhere. -/
theorem outage_loses_task :
    (¬∀ x ∈ workerLoop.steps workerLoop.init [.push (.ready scanItem), .iterate outage],
      x.1.Keeps x.2) ∧
    workerLoop.runFrom workerLoop.init [.push (.ready scanItem), .iterate outage] =
      ⟨.empty, [], false⟩ := by
  have hpromote : WorkerState.promoteDueTasks ⟨⟨[scanItem], ∅, []⟩, [], true⟩ outage.now =
      ⟨⟨[scanItem], ∅, []⟩, [], true⟩ := by
    simp [WorkerState.promoteDueTasks, dueTasks]
  have hiter : WorkerState.iterate ⟨⟨[scanItem], ∅, []⟩, [], true⟩ outage =
      ⟨.empty, [], false⟩ := by
    simp only [WorkerState.iterate, hpromote]
    rfl
  refine ⟨fun h => ?_, hiter⟩
  have hkeeps := h (⟨⟨[scanItem], ∅, []⟩, [], true⟩, .iterate outage) (by simp [Machine.steps]; rfl)
  have hsettled := hkeeps scanItem (by simp only [WorkerState.popped, hpromote]; rfl)
  rw [hiter] at hsettled
  cases hsettled.1

end PluginRegistry.Worker
