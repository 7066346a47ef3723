import PluginRegistry.Proofs.CacheCoherence
import PluginRegistry.Services.TaskQueue

namespace PluginRegistry
open Lib

/-- Where a task can be. A worker acts as a promoter between a removal from the
delayed set and the push. -/
inductive Place
  | ready | delayed
  | worker (workerId : Nat)
  | promoter (workerId : Nat)
  | succeeded | dead
  deriving DecidableEq

def QueueTask.copy (id : String) (task : QueueTask) : Nat :=
  if task.id = id then 1 else 0

def countId (id : String) (tasks : List QueueTask) : Nat :=
  (tasks.map (·.copy id)).sum

namespace WorkerStage

def inHand (id : String) : WorkerStage → Nat
  | .holding task => task.copy id
  | .requeueing target => target.task.copy id
  | _ => 0

def inMove (id : String) : WorkerStage → Nat
  | .moving raw _ => raw.copy id
  | _ => 0

end WorkerStage

namespace QueueState

def copies (w : QueueState) (id : String) : Place → Nat
  | .ready => countId id w.ready
  | .delayed => w.delayed.total fun task _ => task.copy id
  | .worker i => (w.workers.lookup i).elim 0 (·.inHand id)
  | .promoter i => (w.workers.lookup i).elim 0 (·.inMove id)
  | .succeeded => countId id w.succeeded
  | .dead => countId id w.dead

/-- Every task that was ever enqueued is in exactly one place, once, and nothing
else is anywhere. -/
structure Conserved (w : QueueState) : Prop where
  onePlace : ∀ id ∈ w.enqueued, ∃ p, w.copies id p = 1 ∧ ∀ q, q ≠ p → w.copies id q = 0
  nothingElse : ∀ id, id ∉ w.enqueued → ∀ p, w.copies id p = 0

def allCopies (w : QueueState) (id : String) : Nat :=
  countId id w.ready + w.delayed.total (fun task _ => task.copy id) +
    w.workers.total (fun _ stage => stage.inHand id) +
    w.workers.total (fun _ stage => stage.inMove id) + countId id w.succeeded + countId id w.dead

def Balanced (w : QueueState) : Prop :=
  ∀ id, w.allCopies id = if id ∈ w.enqueued then 1 else 0

variable {w : QueueState}

theorem copies_le (w : QueueState) (id : String) (p : Place) :
    w.copies id p ≤ w.allCopies id := by
  have hhand := fun i => Table.elim_le_total w.workers i fun _ stage => stage.inHand id
  have hmove := fun i => Table.elim_le_total w.workers i fun _ stage => stage.inMove id
  cases p with
  | worker i => simp only [copies, allCopies]; have := hhand i; omega
  | promoter i => simp only [copies, allCopies]; have := hmove i; omega
  | ready | delayed | succeeded | dead => simp only [copies, allCopies]; omega

/-- Two different places hold two different copies. -/
theorem copies_add_le (w : QueueState) (id : String) {p q : Place} (h : p ≠ q) :
    w.copies id p + w.copies id q ≤ w.allCopies id := by
  have hhand := fun i => Table.elim_le_total w.workers i fun _ stage => stage.inHand id
  have hmove := fun i => Table.elim_le_total w.workers i fun _ stage => stage.inMove id
  cases p with
  | worker i =>
    cases q with
    | worker j =>
      have hij : i ≠ j := fun hij => h (congrArg _ hij)
      have := Table.elim_add_le_total w.workers hij fun _ stage => stage.inHand id
      simp only [copies, allCopies]
      omega
    | promoter j =>
      have := hhand i
      have := hmove j
      simp only [copies, allCopies]
      omega
    | ready | delayed | succeeded | dead =>
      have := hhand i
      simp only [copies, allCopies]
      omega
  | promoter i =>
    cases q with
    | promoter j =>
      have hij : i ≠ j := fun hij => h (congrArg _ hij)
      have := Table.elim_add_le_total w.workers hij fun _ stage => stage.inMove id
      simp only [copies, allCopies]
      omega
    | worker j =>
      have := hhand j
      have := hmove i
      simp only [copies, allCopies]
      omega
    | ready | delayed | succeeded | dead =>
      have := hmove i
      simp only [copies, allCopies]
      omega
  | ready | delayed | succeeded | dead =>
    cases q with
    | worker j =>
      have := hhand j
      simp only [copies, allCopies]
      omega
    | promoter j =>
      have := hmove j
      simp only [copies, allCopies]
      omega
    | ready | delayed | succeeded | dead =>
      first
        | exact absurd rfl h
        | simp only [copies, allCopies]; omega

theorem exists_copy (w : QueueState) (id : String) (h : 0 < w.allCopies id) :
    ∃ p, 0 < w.copies id p := by
  by_contra hno
  have hzero : ∀ p, w.copies id p = 0 := by
    intro p
    by_contra hp
    exact hno ⟨p, Nat.pos_of_ne_zero hp⟩
  have hhand : w.workers.total (fun _ stage => stage.inHand id) = 0 := by
    by_contra hpos
    obtain ⟨i, stage, hi, hs⟩ := Table.exists_of_total_pos (Nat.pos_of_ne_zero hpos)
    have := hzero (.worker i)
    simp only [copies, hi, Option.elim_some] at this
    omega
  have hmove : w.workers.total (fun _ stage => stage.inMove id) = 0 := by
    by_contra hpos
    obtain ⟨i, stage, hi, hs⟩ := Table.exists_of_total_pos (Nat.pos_of_ne_zero hpos)
    have := hzero (.promoter i)
    simp only [copies, hi, Option.elim_some] at this
    omega
  have hready := hzero .ready
  have hdelayed := hzero .delayed
  have hsucceeded := hzero .succeeded
  have hdead := hzero .dead
  simp only [copies] at hready hdelayed hsucceeded hdead
  simp only [allCopies] at h
  omega

theorem Balanced.conserved (h : w.Balanced) : w.Conserved where
  onePlace := by
    intro id hid
    have hone : w.allCopies id = 1 := by rw [h id, if_pos hid]
    obtain ⟨p, hp⟩ := w.exists_copy id (by omega)
    have hle := w.copies_le id p
    refine ⟨p, by omega, ?_⟩
    intro q hq
    have hadd := w.copies_add_le id hq
    omega
  nothingElse := by
    intro id hid p
    have hzero : w.allCopies id = 0 := by rw [h id, if_neg hid]
    have hle := w.copies_le id p
    omega

def stageCopies (id : String) (stage : WorkerStage) : Nat :=
  stage.inHand id + stage.inMove id

@[simp] theorem stageCopies_idle (id : String) : stageCopies id .idle = 0 := rfl

@[simp] theorem stageCopies_promoting (id : String) (raws : List QueueTask) :
    stageCopies id (.promoting raws) = 0 := rfl

@[simp] theorem stageCopies_popping (id : String) : stageCopies id .popping = 0 := rfl

@[simp] theorem stageCopies_moving (id : String) (raw : QueueTask) (raws : List QueueTask) :
    stageCopies id (.moving raw raws) = raw.copy id :=
  Nat.zero_add _

@[simp] theorem stageCopies_holding (id : String) (task : QueueTask) :
    stageCopies id (.holding task) = task.copy id := rfl

@[simp] theorem stageCopies_requeueing (id : String) (target : Requeue QueueTask) :
    stageCopies id (.requeueing target) = target.task.copy id := rfl

/-- A change of stage gives up what the worker held and takes what it holds now. -/
theorem allCopies_setStage (w : QueueState) (i : Nat) (stage : WorkerStage) (id : String) :
    (w.setStage i stage).allCopies id + (w.workers.lookup i).elim 0 (stageCopies id) =
      w.allCopies id + stageCopies id stage := by
  have hhand := Table.total_insert w.workers i stage fun _ stage => stage.inHand id
  have hmove := Table.total_insert w.workers i stage fun _ stage => stage.inMove id
  simp only [allCopies, setStage]
  cases hi : w.workers.lookup i with
  | none =>
    simp only [hi, Option.elim_none] at hhand hmove ⊢
    simp only [stageCopies]
    omega
  | some old =>
    simp only [hi, Option.elim_some] at hhand hmove ⊢
    simp only [stageCopies]
    omega

@[simp] theorem countId_nil (id : String) : countId id [] = 0 := rfl

@[simp] theorem countId_cons (id : String) (task : QueueTask) (tasks : List QueueTask) :
    countId id (task :: tasks) = task.copy id + countId id tasks := by
  simp [countId]

@[simp] theorem countId_append (id : String) (tasks more : List QueueTask) :
    countId id (tasks ++ more) = countId id tasks + countId id more := by
  simp [countId]

theorem allCopies_ready (w : QueueState) (ready : List QueueTask) (id : String) :
    allCopies { w with ready } id + countId id w.ready = w.allCopies id + countId id ready := by
  simp only [allCopies]
  omega

theorem allCopies_dead (w : QueueState) (dead : List QueueTask) (id : String) :
    allCopies { w with dead } id + countId id w.dead = w.allCopies id + countId id dead := by
  simp only [allCopies]
  omega

theorem allCopies_succeeded (w : QueueState) (succeeded : List QueueTask) (id : String) :
    allCopies { w with succeeded } id + countId id w.succeeded =
      w.allCopies id + countId id succeeded := by
  simp only [allCopies]
  omega

theorem allCopies_delayed (w : QueueState) (delayed : Table QueueTask Int) (id : String) :
    allCopies { w with delayed } id + w.delayed.total (fun task _ => task.copy id) =
      w.allCopies id + delayed.total fun task _ => task.copy id := by
  simp only [allCopies]
  omega

/-- A push adds one copy, if the delayed set does not hold this very text. -/
theorem allCopies_pushTask (w : QueueState) {task : QueueTask} (delaySeconds : Int) (now : Time)
    (h : w.delayed.lookup task = none) (id : String) :
    (w.pushTask task delaySeconds now).allCopies id = w.allCopies id + task.copy id := by
  rw [pushTask_eq]
  split
  · have hinsert := Table.total_insert w.delayed task ((now : Int) + delaySeconds * 1000000)
      fun task _ => task.copy id
    rw [h, Option.elim_none] at hinsert
    have hdelayed := w.allCopies_delayed
      (AList.insert task ((now : Int) + delaySeconds * 1000000) w.delayed) id
    omega
  · have hready := w.allCopies_ready (w.ready ++ [task]) id
    simp only [countId_append, countId_cons, countId_nil] at hready
    omega

theorem pushTask_workers (w : QueueState) (task : QueueTask) (delaySeconds : Int) (now : Time) :
    (w.pushTask task delaySeconds now).workers = w.workers := by
  rw [pushTask_eq]
  split <;> rfl

theorem pushTask_enqueued (w : QueueState) (task : QueueTask) (delaySeconds : Int) (now : Time) :
    (w.pushTask task delaySeconds now).enqueued = w.enqueued := by
  rw [pushTask_eq]
  split <;> rfl

/-- A task that is somewhere else is not in the delayed set. -/
theorem Balanced.not_delayed (h : w.Balanced) {task : QueueTask} {p : Place}
    (hp : 0 < w.copies task.id p) (hne : p ≠ .delayed) : w.delayed.lookup task = none := by
  cases hd : w.delayed.lookup task with
  | none => rfl
  | some due =>
    have hle := Table.le_total hd fun task' _ => task'.copy task.id
    have hadd := w.copies_add_le task.id hne
    have hall := h task.id
    have hself : task.copy task.id = 1 := if_pos rfl
    simp only [copies] at hadd hp
    split at hall <;> omega

@[simp] theorem redacted_copy (task : QueueTask) (id : String) :
    task.redacted.copy id = task.copy id := rfl

@[simp] theorem requeueTask_copy (task : QueueTask) (error : PyErr) (limits : TaskLimits)
    (id : String) : (requeueTask task error limits).task.copy id = task.copy id := by
  unfold requeueTask
  dsimp only
  split
  · rfl
  · split <;> rfl

/-- A Redis command of a worker moves a task or leaves it where it is. -/
theorem advance_allCopies (h : w.Balanced) (i : Nat) (env : WorkerEnv) (id : String) :
    (w.advance i env).allCopies id = w.allCopies id := by
  unfold advance
  cases hi : w.workers.lookup i with
  | none => rfl
  | some stage =>
    have hset : ∀ (x : QueueState) stage', x.workers = w.workers →
        (x.setStage i stage').allCopies id + stageCopies id stage =
          x.allCopies id + stageCopies id stage' := by
      intro x stage' hx
      have := allCopies_setStage x i stage' id
      rwa [hx, hi, Option.elim_some] at this
    cases stage with
    | idle =>
      have hstage := hset w (.promoting (dueTasks w.delayed env.now)) rfl
      simp only [stageCopies_idle, stageCopies_promoting] at hstage
      exact hstage
    | promoting raws =>
      cases raws with
      | nil =>
        have hstage := hset w .popping rfl
        simp only [stageCopies_promoting, stageCopies_popping] at hstage
        exact hstage
      | cons raw raws =>
        dsimp only
        split
        · rename_i hd
          obtain ⟨due, hdue⟩ := Option.isSome_iff_exists.mp hd
          have hstage := hset { w with delayed := AList.erase raw w.delayed } (.moving raw raws) rfl
          have herase := Table.total_erase w.delayed raw fun task _ => task.copy id
          have hdelayed := w.allCopies_delayed (AList.erase raw w.delayed) id
          rw [hdue, Option.elim_some] at herase
          simp only [stageCopies_promoting, stageCopies_moving] at hstage
          omega
        · have hstage := hset w (.promoting raws) rfl
          simp only [stageCopies_promoting] at hstage
          exact hstage
    | moving raw raws =>
      have hstage := hset { w with ready := w.ready ++ [raw] } (.promoting raws) rfl
      have hready := w.allCopies_ready (w.ready ++ [raw]) id
      simp only [stageCopies_promoting, stageCopies_moving] at hstage
      simp only [countId_append, countId_cons, countId_nil] at hready
      dsimp only
      omega
    | popping =>
      cases hr : w.ready with
      | nil =>
        have hstage := hset w .idle rfl
        simp only [stageCopies_popping, stageCopies_idle] at hstage
        exact hstage
      | cons task ready =>
        have hstage := hset { w with ready } (.holding task) rfl
        have hready := w.allCopies_ready ready id
        simp only [stageCopies_popping, stageCopies_holding] at hstage
        rw [hr, countId_cons] at hready
        dsimp only
        omega
    | holding task =>
      cases hh : env.handled with
      | none =>
        have hstage := hset { w with succeeded := task :: w.succeeded } .idle rfl
        have hdone := w.allCopies_succeeded (task :: w.succeeded) id
        simp only [stageCopies_holding, stageCopies_idle] at hstage
        rw [countId_cons] at hdone
        dsimp only
        omega
      | some error =>
        have hstage := hset w (.requeueing (requeueTask task error env.config.toTaskLimits)) rfl
        simp only [stageCopies_holding, stageCopies_requeueing, requeueTask_copy] at hstage
        dsimp only
        omega
    | requeueing target =>
      cases target with
      | deadLetter task =>
        have hstage := hset { w with dead := w.dead ++ [task.redacted] } .idle rfl
        have hdead := w.allCopies_dead (w.dead ++ [task.redacted]) id
        simp only [stageCopies_requeueing, stageCopies_idle, Requeue.task] at hstage
        simp only [countId_append, countId_cons, countId_nil, redacted_copy] at hdead
        dsimp only
        omega
      | push task delaySeconds =>
        -- The worker's own copy is the only one, so the push is no second one.
        have hheld : 0 < w.copies task.id (.worker i) := by
          simp only [copies, hi, Option.elim_some, WorkerStage.inHand, Requeue.task]
          exact Nat.lt_of_lt_of_eq Nat.zero_lt_one (if_pos rfl).symm
        have hfree := h.not_delayed hheld (by simp)
        have hpush := w.allCopies_pushTask delaySeconds env.now hfree id
        have hstage := hset (w.pushTask task delaySeconds env.now) .idle
          (w.pushTask_workers task delaySeconds env.now)
        simp only [stageCopies_requeueing, stageCopies_idle, Requeue.task] at hstage
        dsimp only
        omega

theorem advance_enqueued (w : QueueState) (i : Nat) (env : WorkerEnv) :
    (w.advance i env).enqueued = w.enqueued := by
  unfold advance
  cases w.workers.lookup i with
  | none => rfl
  | some stage =>
    cases stage with
    | idle => rfl
    | promoting raws =>
      cases raws with
      | nil => rfl
      | cons raw raws => dsimp only; split <;> rfl
    | moving raw raws => rfl
    | popping => cases hr : w.ready <;> rfl
    | holding task => cases hh : env.handled <;> rfl
    | requeueing target =>
      cases target with
      | deadLetter task => rfl
      | push task delaySeconds => exact w.pushTask_enqueued task delaySeconds env.now

/-- A step keeps one copy of every task that was enqueued. -/
theorem Balanced.step (h : w.Balanced) (e : QueueEvent) : (w.step e).Balanced := by
  intro id
  cases e with
  | enqueue newId taskType payload config delaySeconds now =>
    simp only [QueueState.step]
    split
    · exact h id
    · rename_i hnew
      have hnone := h newId
      rw [if_neg hnew] at hnone
      have hfree : w.delayed.lookup (createTaskEnvelope config.settingsMaxAttempts taskType payload
          newId config.maxAttempts) = none := by
        cases hd : w.delayed.lookup (createTaskEnvelope config.settingsMaxAttempts taskType
            payload newId config.maxAttempts) with
        | none => rfl
        | some due =>
          have hle := Table.le_total hd fun task _ => task.copy newId
          have hcopy := w.copies_le newId .delayed
          have hself : (createTaskEnvelope config.settingsMaxAttempts taskType payload newId
              config.maxAttempts).copy newId = 1 := if_pos rfl
          simp only [copies] at hcopy
          omega
      have hpush := w.allCopies_pushTask delaySeconds now hfree id
      change (w.pushTask _ _ _).allCopies id = _
      rw [hpush, h id]
      by_cases hid : newId = id
      · subst hid
        simp [QueueTask.copy, createTaskEnvelope, hnew]
      · have hne : id ≠ newId := Ne.symm hid
        simp [QueueTask.copy, createTaskEnvelope, hid, hne]
  | start workerId =>
    simp only [QueueState.step]
    split
    · exact h id
    · rename_i hfree
      have hset := allCopies_setStage w workerId .idle id
      rw [Option.not_isSome_iff_eq_none.mp hfree] at hset
      simp only [Option.elim_none, stageCopies, WorkerStage.inHand, WorkerStage.inMove] at hset
      have hall := h id
      change (w.setStage workerId .idle).allCopies id = if id ∈ w.enqueued then 1 else 0
      omega
  | advance workerId env =>
    change (w.advance workerId env).allCopies id =
      if id ∈ (w.advance workerId env).enqueued then 1 else 0
    rw [advance_allCopies h, advance_enqueued]
    exact h id

end QueueState

/-- Tasks are conserved: in every reachable state of any number of workers and
promoters every enqueued task is in exactly one place. -/
theorem tasks_conserved (es : List QueueEvent) :
    (queueService.runFrom queueService.init es).Conserved := by
  apply QueueState.Balanced.conserved
  apply Machine.Reachable.induct QueueState.Balanced (m := queueService)
  · intro id
    rfl
  · intro w e h
    exact h.step e
  · exact ⟨es, rfl⟩

end PluginRegistry
