import PluginRegistry.Proofs.TaskChanges

namespace PluginRegistry.TaskRuns
open Lib

structure Counted (bound : Int) (task : QueueTask) (calls : List QueueTask) : Prop where
  attempts : calls.map (·.attempts) = (List.range calls.length).map Int.ofNat
  limits : ∀ call ∈ calls, call.maxAttempts = task.maxAttempts
  within : (calls.length : Int) ≤ max 1 (task.limit bound)

theorem Counted.of_limit {bound : Int} {task other : QueueTask} {calls : List QueueTask}
    (h : Counted bound task calls) (hlimit : other.maxAttempts = task.maxAttempts) :
    Counted bound other calls where
  attempts := h.attempts
  limits := fun call hcall => (h.limits call hcall).trans hlimit.symm
  within := by
    rw [QueueTask.limit, hlimit]
    exact h.within

namespace Token

def Fits (bound : Int) (calls : List QueueTask) (status : TaskStatus) : Token → Prop
  | .waiting task | .held task =>
    Counted bound task calls ∧ task.attempts = calls.length ∧
      (calls.length + 1 : Int) ≤ max 1 (task.limit bound) ∧
      status ∈ [.queued, .delayed, .retrying]
  | .running task | .returned task =>
    Counted bound task calls ∧ task.attempts + 1 = calls.length ∧ status = .running
  | .failing target =>
    Counted bound target.task calls ∧ target.task.attempts = calls.length ∧
      (∀ task delaySeconds, target = .push task delaySeconds →
        (calls.length : Int) < task.limit bound) ∧ status = .running
  | .succeeded task => Counted bound task calls ∧ status = .succeeded
  | .dying task | .dead task => Counted bound task calls ∧ status = .dead

def Ended : Token → Prop
  | .returned _ | .failing (.deadLetter _) | .dying _ | .succeeded _ | .dead _ => True
  | _ => False

end Token

@[simp] theorem redacted_id (task : QueueTask) : task.redacted.id = task.id := rfl

@[simp] theorem redacted_maxAttempts (task : QueueTask) :
    task.redacted.maxAttempts = task.maxAttempts := rfl

/-- What a failure does to the task, and when the task is pushed again. -/
theorem requeueTask_cases (task : QueueTask) (error : PyErr) (limits : TaskLimits) :
    (requeueTask task error limits).task = task.failed error ∧
      ∀ pushed delaySeconds, requeueTask task error limits = .push pushed delaySeconds →
        isRetryableTaskError error = true ∧ task.attempts + 1 < task.limit limits.maxAttempts := by
  unfold requeueTask
  dsimp only
  split
  · exact ⟨rfl, by simp⟩
  · rename_i hretry
    split
    · exact ⟨rfl, by simp⟩
    · rename_i hlimit
      exact ⟨rfl, fun _ _ _ => ⟨by simpa using hretry, Int.not_le.mp hlimit⟩⟩

namespace Move

variable {bound : Int} {old new : Token} {status : Option TaskStatus} {made : List QueueTask}

theorem id_eq (h : Move bound old new status made) : new.id = old.id := by
  cases h with
  | fail task error limits hlimits =>
    have htask := (requeueTask_cases task error limits).1
    simp [Token.id, Token.task, htask]
  | bury task => simp [Token.id, Token.task]
  | _ => rfl

theorem made_id (h : Move bound old new status made) : ∀ call ∈ made, call.id = old.id := by
  cases h with
  | call task =>
    intro call hcall
    obtain rfl := List.mem_singleton.mp hcall
    rfl
  | _ => simp

/-- A move keeps what the place says. -/
theorem fits (h : Move bound old new status made) {calls : List QueueTask} {before : TaskStatus}
    (hfits : old.Fits bound calls before) :
    new.Fits bound (calls ++ made) (status.getD before) := by
  cases h with
  | pop task =>
    rw [List.append_nil]
    exact hfits
  | call task =>
    obtain ⟨hcounted, hattempts, hwithin, -⟩ := hfits
    refine ⟨⟨?_, ?_, ?_⟩, ?_, rfl⟩
    · rw [List.map_append, hcounted.attempts, List.length_append, List.length_singleton,
        List.range_succ, List.map_append, List.map_singleton, List.map_singleton, hattempts]
      rfl
    · intro call hcall
      rcases List.mem_append.mp hcall with hcall | hcall
      · exact hcounted.limits call hcall
      · rw [List.mem_singleton.mp hcall]
    · rw [List.length_append, List.length_singleton]
      push_cast
      exact hwithin
    · rw [List.length_append, List.length_singleton, hattempts]
      push_cast
      rfl
  | finish task =>
    rw [List.append_nil]
    exact hfits
  | fail task error limits hlimits =>
    rw [List.append_nil]
    obtain ⟨hcounted, hattempts, hstatus⟩ := hfits
    obtain ⟨htask, hpushed⟩ := requeueTask_cases task error limits
    refine ⟨hcounted.of_limit (by rw [htask, QueueTask.failed_maxAttempts]),
      by rw [htask]; exact hattempts, ?_, hstatus⟩
    intro pushed delaySeconds htarget
    obtain ⟨-, hlimit⟩ := hpushed pushed delaySeconds htarget
    rw [htarget] at htask
    have hmono := task.limit_mono hlimits
    obtain rfl : pushed = task.failed error := htask
    rw [QueueTask.failed_limit]
    omega
  | succeed task =>
    rw [List.append_nil]
    exact ⟨hfits.1, rfl⟩
  | retry task delaySeconds =>
    rw [List.append_nil]
    obtain ⟨hcounted, hattempts, hpush, -⟩ := hfits
    have hlt := hpush task delaySeconds rfl
    refine ⟨hcounted, hattempts, ?_, ?_⟩
    · change (calls.length : Int) < _ at hlt
      omega
    · simp
  | die task =>
    rw [List.append_nil]
    exact ⟨hfits.1, rfl⟩
  | bury task =>
    rw [List.append_nil]
    exact ⟨hfits.1.of_limit (redacted_maxAttempts task), hfits.2⟩

/-- No move leads back from where a task has ended, and none calls it there. -/
theorem ended (h : Move bound old new status made) (hended : old.Ended) :
    new.Ended ∧ made = [] := by
  cases h <;> simp_all [Token.Ended]

end Move

def State.callsOf (w : State) (id : String) : List QueueTask :=
  w.calls.filter (·.id = id)

structure Sound (bound : Int) (w : State) : Prop where
  distinct : (w.tokens.map Token.id).Nodup
  fits : ∀ token ∈ w.tokens, ∃ row, w.rows.lookup token.id = some row ∧
    token.Fits bound (w.callsOf token.id) row.status
  tracked : ∀ id row, w.rows.lookup id = some row → ∃ token ∈ w.tokens, token.id = id
  called : ∀ call ∈ w.calls, (w.rows.lookup call.id).isSome

theorem Sound.empty (bound : Int) : Sound bound .empty where
  distinct := List.nodup_nil
  fits := by simp [State.tokens, State.empty, Table.tokens]
  tracked := by simp [State.empty]
  called := by simp [State.empty]

/-- A step keeps the invariant. -/
theorem Sound.change {bound : Int} {retried : Option String} {w w' : State} (h : Sound bound w)
    (hchange : Change bound retried w w') : Sound bound w' := by
  cases hchange with
  | quiet tokens rows calls originals =>
    refine ⟨(tokens.map Token.id).nodup_iff.mpr h.distinct, ?_, ?_, ?_⟩
    · intro token htoken
      rw [rows, State.callsOf, calls]
      exact h.fits token (tokens.mem_iff.mp htoken)
    · intro id row hrow
      rw [rows] at hrow
      obtain ⟨token, htoken, hid⟩ := h.tracked id row hrow
      exact ⟨token, tokens.mem_iff.mpr htoken, hid⟩
    · rw [calls, rows]
      exact h.called
  | create task row original fresh attempts status id origin tokens rows calls originals =>
    have hno : ∀ token ∈ w.tokens, token.id ≠ task.id := by
      intro token htoken heq
      obtain ⟨row', hrow', -⟩ := h.fits token htoken
      rw [heq, fresh] at hrow'
      cases hrow'
    have huncalled : w.callsOf task.id = [] := by
      rw [State.callsOf, List.filter_eq_nil_iff]
      intro call hcall heq
      have hrow := h.called call hcall
      rw [of_decide_eq_true heq, fresh] at hrow
      cases hrow
    refine ⟨?_, ?_, ?_, ?_⟩
    · obtain ⟨rest, hbefore, hafter⟩ := tokens
      rw [(hafter.map Token.id).nodup_iff]
      refine List.nodup_cons.mpr ⟨?_, (hbefore.map Token.id).nodup_iff.mp h.distinct⟩
      intro hmem
      obtain ⟨token, htoken, hid⟩ := List.mem_map.mp hmem
      exact hno token (hbefore.mem_iff.mpr htoken) hid
    · intro token htoken
      rw [rows, State.callsOf, calls]
      rcases tokens.mem_after htoken with hnew | ⟨hold, -⟩
      · obtain rfl := List.mem_singleton.mp hnew
        refine ⟨row, by simp [Token.id, Token.task], ?_⟩
        change Token.Fits bound (w.callsOf task.id) row.status (.waiting task)
        rw [huncalled]
        refine ⟨⟨rfl, by simp, by simp⟩, attempts, by simp, ?_⟩
        rcases status with hstatus | hstatus <;> simp [hstatus]
      · obtain ⟨row', hrow', hfits⟩ := h.fits token hold
        refine ⟨row', ?_, hfits⟩
        rw [Table.lookup_insert_eq, if_neg (hno token hold), hrow']
    · intro id' row' hrow'
      rw [rows, Table.lookup_insert_eq] at hrow'
      split at hrow'
      · rename_i hid
        exact ⟨.waiting task, tokens.mem_new List.mem_cons_self, hid.symm⟩
      · obtain ⟨token, htoken, hid⟩ := h.tracked id' row' hrow'
        exact ⟨token, tokens.mem_stays htoken List.not_mem_nil, hid⟩
    · intro call hcall
      rw [calls] at hcall
      rw [rows, Table.lookup_insert_eq]
      split
      · rfl
      · exact h.called call hcall
  | move old new status made write move tokens rows statusWrite idWrite callsEq originals =>
    have hold := tokens.mem_old List.mem_cons_self
    obtain ⟨row, hrow, hfits⟩ := h.fits old hold
    have hcalls : ∀ id, w'.callsOf id = w.callsOf id ++ made.filter (·.id = id) := by
      intro id
      rw [State.callsOf, callsEq, List.filter_append]
      rfl
    refine ⟨?_, ?_, ?_, ?_⟩
    · exact tokens.nodup Token.id (by simp [move.id_eq]) h.distinct
    · intro token htoken
      rw [rows, hcalls]
      rcases tokens.mem_after htoken with hnew | ⟨hbefore, hkeys⟩
      · obtain rfl := List.mem_singleton.mp hnew
        rw [move.id_eq]
        have hmade : made.filter (·.id = old.id) = made := by
          rw [List.filter_eq_self]
          exact fun call hcall => decide_eq_true (move.made_id call hcall)
        refine ⟨write row, by rw [Table.lookup_modify_self, hrow]; rfl, ?_⟩
        rw [hmade, statusWrite]
        exact move.fits hfits
      · have hne : token.id ≠ old.id := hkeys Token.id h.distinct old List.mem_cons_self
        have hmade : made.filter (·.id = token.id) = [] := by
          rw [List.filter_eq_nil_iff]
          intro call hcall heq
          exact hne ((of_decide_eq_true heq).symm.trans (move.made_id call hcall))
        rw [Table.lookup_modify_ne _ _ hne, hmade, List.append_nil]
        exact h.fits token hbefore
    · intro id row' hrow'
      have hsome : ∃ row'', w.rows.lookup id = some row'' := by
        rw [rows, Table.lookup_modify] at hrow'
        split at hrow'
        · obtain ⟨row'', hrow'', -⟩ := Option.map_eq_some_iff.mp hrow'
          exact ⟨row'', hrow''⟩
        · exact ⟨row', hrow'⟩
      obtain ⟨row'', hrow''⟩ := hsome
      obtain ⟨token, htoken, hid⟩ := h.tracked id row'' hrow''
      by_cases hmoved : token = old
      · exact ⟨new, tokens.mem_new List.mem_cons_self, by rw [move.id_eq, ← hmoved, hid]⟩
      · exact ⟨token, tokens.mem_stays htoken (by simpa using hmoved), hid⟩
    · intro call hcall
      have hsome : (w.rows.lookup call.id).isSome := by
        rw [callsEq] at hcall
        rcases List.mem_append.mp hcall with hcall | hcall
        · exact h.called call hcall
        · rw [move.made_id call hcall, hrow]
          rfl
      rw [rows, Table.lookup_modify]
      split
      · rwa [Option.isSome_map]
      · exact hsome

theorem Token.Fits.counted {bound : Int} {calls : List QueueTask} {status : TaskStatus}
    {token : Token} (h : token.Fits bound calls status) : Counted bound token.task calls := by
  cases token <;> exact h.1

/-- A task that has ended stays so and is not called again. -/
theorem Sound.ended_change {bound : Int} {retried : Option String} {w w' : State}
    (h : Sound bound w) (hchange : Change bound retried w w') {token : Token}
    (htoken : token ∈ w.tokens) (hended : token.Ended) :
    ∃ token' ∈ w'.tokens, token'.id = token.id ∧ token'.Ended ∧
      w'.callsOf token.id = w.callsOf token.id := by
  cases hchange with
  | quiet tokens rows calls originals =>
    exact ⟨token, tokens.mem_iff.mpr htoken, rfl, hended, by rw [State.callsOf, calls]; rfl⟩
  | create task row original fresh attempts status id origin tokens rows calls originals =>
    exact ⟨token, tokens.mem_stays htoken List.not_mem_nil, rfl, hended,
      by rw [State.callsOf, calls]; rfl⟩
  | move old new status made write move tokens rows statusWrite idWrite callsEq originals =>
    have hold := tokens.mem_old List.mem_cons_self
    by_cases hmoved : token = old
    · subst hmoved
      obtain ⟨hnew, hmade⟩ := move.ended hended
      refine ⟨new, tokens.mem_new List.mem_cons_self, move.id_eq, hnew, ?_⟩
      rw [State.callsOf, callsEq, hmade, List.append_nil]
      rfl
    · refine ⟨token, tokens.mem_stays htoken (by simpa using hmoved), rfl, hended, ?_⟩
      have hne : token.id ≠ old.id := by
        intro heq
        exact hmoved (List.inj_on_of_nodup_map h.distinct htoken hold heq)
      have hmade : made.filter (·.id = token.id) = [] := by
        rw [List.filter_eq_nil_iff]
        intro call hcall heq
        exact hne ((of_decide_eq_true heq).symm.trans (move.made_id call hcall))
      rw [State.callsOf, callsEq, List.filter_append, hmade, List.append_nil]
      rfl

theorem Sound.run {settingsMaxAttempts bound : Int} {w : State} (h : Sound bound w)
    {es : List Event} (hbound : ∀ e ∈ es, ∀ n ∈ e.limit, n ≤ bound) :
    Sound bound ((taskRuns settingsMaxAttempts).runFrom w es) := by
  induction es generalizing w with
  | nil => exact h
  | cons e es ih =>
    have hchange : Change bound (e.retried w) w (w.step settingsMaxAttempts e) :=
      step_change h.distinct e (hbound e List.mem_cons_self)
    exact ih (h.change hchange) fun e' he' => hbound e' (List.mem_cons_of_mem _ he')

theorem Sound.ended_run (settingsMaxAttempts : Int) {bound : Int} {w : State} (h : Sound bound w)
    {es : List Event} (hbound : ∀ e ∈ es, ∀ n ∈ e.limit, n ≤ bound) {token : Token}
    (htoken : token ∈ w.tokens)
    (hended : token.Ended) :
    ((taskRuns settingsMaxAttempts).runFrom w es).callsOf token.id = w.callsOf token.id := by
  induction es generalizing w token with
  | nil => rfl
  | cons e es ih =>
    have hchange : Change bound (e.retried w) w (w.step settingsMaxAttempts e) :=
      step_change h.distinct e (hbound e List.mem_cons_self)
    obtain ⟨token', htoken', hid, hended', hcalls⟩ := h.ended_change hchange htoken hended
    have hlater := ih (h.change hchange) (fun e' he' => hbound e' (List.mem_cons_of_mem _ he'))
      htoken' hended'
    rw [hid] at hlater
    exact hlater.trans hcalls

/-- The runtime limits of a run have a bound. -/
theorem exists_bound (es : List Event) : ∃ bound, ∀ e ∈ es, ∀ n ∈ e.limit, n ≤ bound := by
  induction es with
  | nil => exact ⟨0, by simp⟩
  | cons e es ih =>
    obtain ⟨bound, hbound⟩ := ih
    refine ⟨max bound (e.limit.getD bound), ?_⟩
    intro e' he' n hn
    rcases List.mem_cons.mp he' with rfl | he'
    · rw [Option.mem_def.mp hn]
      exact le_max_right _ _
    · exact (hbound e' he' n hn).trans (le_max_left _ _)

namespace State

variable {w : State}

/-- A task that is dying is still with a worker. -/
theorem dying_of_mem {task : QueueTask} (h : .dying task ∈ w.tokens) :
    ∃ i, w.workers.lookup i = some (.pushing (.deadLetter task)) := by
  simp only [tokens, List.mem_append, List.mem_map, Table.mem_tokens, reduceCtorEq, and_false,
    exists_false, false_or, or_false, Option.some.injEq] at h
  rcases h with ⟨i, stage, hstage, htoken⟩ | ⟨i, request, hrequest, htoken⟩
  · refine ⟨i, hstage.trans (congrArg some ?_)⟩
    unfold Stage.token at htoken
    split at htoken <;> simp_all
  · cases request <;> simp [Request.token] at htoken

theorem dead_mem_iff {task : QueueTask} : .dead task ∈ w.tokens ↔ task ∈ w.dead := by
  constructor
  · intro h
    simp only [tokens, List.mem_append, List.mem_map, Table.mem_tokens, reduceCtorEq, and_false,
      exists_false, false_or, Option.some.injEq] at h
    rcases h with ⟨i, stage, hstage, htoken⟩ | ⟨i, request, hrequest, htoken⟩ | h
    · unfold Stage.token at htoken
      split at htoken <;> simp at htoken
    · cases request <;> simp [Request.token] at htoken
    · simpa using h
  · intro h
    simp [tokens, h]

theorem succeeded_mem {task : QueueTask} (h : task ∈ w.succeeded) : .succeeded task ∈ w.tokens := by
  simp [tokens, h]

end State

theorem Counted.increasing {bound : Int} {task : QueueTask} {calls : List QueueTask}
    (h : Counted bound task calls) : calls.Pairwise (·.attempts < ·.attempts) := by
  have hrange : (calls.map (·.attempts)).Pairwise (· < ·) := by
    rw [h.attempts, List.pairwise_map]
    exact List.pairwise_lt_range.imp Int.ofNat_lt.mpr
  exact List.pairwise_map.mp hrange

namespace Sound

variable {bound : Int} {w : State}

/-- The calls of one task are counted. -/
theorem counted (h : Sound bound w) {id : String} {call : QueueTask} (hcall : call ∈ w.callsOf id) :
    ∃ task, Counted bound task (w.callsOf id) := by
  obtain ⟨hmem, hid⟩ := List.mem_filter.mp hcall
  obtain ⟨row, hrow⟩ := Option.isSome_iff_exists.mp (h.called call hmem)
  obtain ⟨token, htoken, heq⟩ := h.tracked call.id row hrow
  obtain ⟨row', -, hfits⟩ := h.fits token htoken
  rw [heq, of_decide_eq_true hid] at hfits
  exact ⟨token.task, hfits.counted⟩

/-- Away from the push to the dead letters, a row is dead exactly if its task is there. -/
theorem dead_iff (h : Sound bound w) {id : String}
    (hquiet : ∀ i task, w.workers.lookup i = some (.pushing (.deadLetter task)) → task.id ≠ id) :
    (∃ row, w.rows.lookup id = some row ∧ row.status = .dead) ↔ ∃ task ∈ w.dead, task.id = id := by
  constructor
  · rintro ⟨row, hrow, hdead⟩
    obtain ⟨token, htoken, hid⟩ := h.tracked id row hrow
    obtain ⟨row', hrow', hfits⟩ := h.fits token htoken
    rw [hid, hrow] at hrow'
    obtain rfl := Option.some.inj hrow'
    rw [hdead] at hfits
    cases token with
    | dead task => exact ⟨task, State.dead_mem_iff.mp htoken, hid⟩
    | dying task =>
      obtain ⟨i, hi⟩ := State.dying_of_mem htoken
      exact absurd hid (hquiet i task hi)
    | _ => simp [Token.Fits] at hfits
  · rintro ⟨task, htask, hid⟩
    obtain ⟨row, hrow, -, hdead⟩ := h.fits _ (State.dead_mem_iff.mpr htask)
    exact ⟨row, hid ▸ hrow, hdead⟩

end Sound

def State.Ending (w : State) (workerId : Nat) (id : String) : Nat → Prop
  | 0 => ∃ task ∈ w.dead, task.id = id
  | 1 => ∃ task, w.workers.lookup workerId = some (.pushing (.deadLetter task)) ∧ task.id = id
  | 2 => ∃ task error,
      w.workers.lookup workerId = some (.failed (.deadLetter task) error) ∧ task.id = id
  | _ => False

def Event.isAdvance (workerId : Nat) : Event → Bool
  | .advance i _ => i = workerId
  | _ => false

namespace State

variable {w : State}

structure Spares (w w' : State) (workerId : Nat) : Prop where
  worker : (w.workers.lookup workerId).isSome →
    w'.workers.lookup workerId = w.workers.lookup workerId
  dead : ∀ task ∈ w.dead, task ∈ w'.dead

theorem Spares.setStage {x : State} {i workerId : Nat} (hne : workerId ≠ i)
    (hworkers : x.workers = w.workers) (hdead : ∀ task ∈ w.dead, task ∈ x.dead) (stage : Stage) :
    w.Spares (x.setStage i stage) workerId where
  worker := fun _ => by
    rw [← hworkers]
    exact AList.lookup_insert_ne hne
  dead := hdead

theorem advance_spares {i workerId : Nat} (hne : workerId ≠ i) (env : WorkerEnv) :
    w.Spares (w.advance i env) workerId := by
  unfold advance
  split
  · exact ⟨fun _ => rfl, fun _ h => h⟩
  · apply Spares.setStage hne <;> simp
  · apply Spares.setStage hne <;> simp
  · split <;> apply Spares.setStage hne <;> simp
  · apply Spares.setStage hne <;> simp
  · split <;> apply Spares.setStage hne <;> simp
  · apply Spares.setStage hne <;> simp [mark]
  · split <;> apply Spares.setStage hne <;> simp
  · apply Spares.setStage hne <;> simp [mark]
  · apply Spares.setStage hne <;> simp [mark]
  · apply Spares.setStage hne <;> simp [mark]
  · apply Spares.setStage hne
    · rfl
    · exact fun _ h => List.mem_append_left _ h
  · rename_i task delaySeconds _
    obtain ⟨-, -, -, hworkers, -, -, hdead⟩ :=
      w.pushTask_frame task (delaySeconds * 1000000) env.now
    exact .setStage hne hworkers (fun _ h => hdead ▸ h) _

theorem createTask_spares (settingsMaxAttempts : Int) (requestId : Nat)
    (id original taskType : String) (payload : JsonObject) (limits : TaskLimits) (delay : Int)
    (now : Time) (workerId : Nat) :
    w.Spares (w.createTask settingsMaxAttempts requestId id original taskType payload limits delay
      now) workerId := by
  unfold createTask
  split <;> exact ⟨fun _ => rfl, fun _ h => h⟩

/-- Only its own steps move a worker. -/
theorem step_spares (settingsMaxAttempts : Int) {workerId : Nat} {e : Event}
    (h : e.isAdvance workerId = false) : w.Spares (w.step settingsMaxAttempts e) workerId := by
  cases e with
  | enqueue requestId id taskType payload limits delay now =>
    simp only [step]
    split
    · exact ⟨fun _ => rfl, fun _ h => h⟩
    · exact createTask_spares ..
  | retry requestId taskId =>
    simp only [step, readRetried]
    split
    · exact ⟨fun _ => rfl, fun _ h => h⟩
    · split
      · exact ⟨fun _ => rfl, fun _ h => h⟩
      · split <;> exact ⟨fun _ => rfl, fun _ h => h⟩
  | serve requestId id limits now =>
    simp only [step, serve]
    split
    · exact ⟨fun _ => rfl, fun _ h => h⟩
    · exact createTask_spares ..
    · rename_i task delay _
      obtain ⟨-, -, -, hworkers, -, -, hdead⟩ := w.pushTask_frame task delay now
      exact ⟨fun _ => by rw [← hworkers], fun _ h => hdead ▸ h⟩
  | start i =>
    simp only [step]
    split
    · exact ⟨fun _ => rfl, fun _ h => h⟩
    · rename_i hstart
      refine ⟨fun hsome => ?_, fun _ h => h⟩
      have hne : workerId ≠ i := by
        rintro rfl
        exact hstart hsome
      exact AList.lookup_insert_ne hne
  | advance i env =>
    have hne : workerId ≠ i := Ne.symm (of_decide_eq_false h)
    exact advance_spares hne env

/-- A step of its worker brings the task one place further, every other step leaves
it there. -/
theorem Ending.step (settingsMaxAttempts : Int) {workerId : Nat} {id : String} {n : Nat}
    (h : w.Ending workerId id n) (e : Event) :
    (w.step settingsMaxAttempts e).Ending workerId id
      (n - (if e.isAdvance workerId then 1 else 0)) := by
  cases hadvance : e.isAdvance workerId with
  | false =>
    have hspares := step_spares (w := w) settingsMaxAttempts hadvance
    match n, h with
    | 0, ⟨task, htask, hid⟩ => exact ⟨task, hspares.dead task htask, hid⟩
    | 1, ⟨task, htask, hid⟩ =>
      exact ⟨task, (hspares.worker (by rw [htask]; rfl)).trans htask, hid⟩
    | 2, ⟨task, error, htask, hid⟩ =>
      exact ⟨task, error, (hspares.worker (by rw [htask]; rfl)).trans htask, hid⟩
  | true =>
    cases e with
    | advance i env =>
      obtain rfl : i = workerId := of_decide_eq_true hadvance
      match n, h with
      | 0, ⟨task, htask, hid⟩ =>
        have hspares : w.Spares (w.advance i env) (i + 1) :=
          advance_spares (Nat.succ_ne_self i) env
        exact ⟨task, hspares.dead task htask, hid⟩
      | 1, ⟨task, htask, hid⟩ =>
        refine ⟨task.redacted, ?_, (redacted_id task).trans hid⟩
        simp only [State.step, advance, htask]
        exact List.mem_append_right _ List.mem_cons_self
      | 2, ⟨task, error, htask, hid⟩ =>
        refine ⟨task, ?_, hid⟩
        simp only [State.step, advance, htask]
        exact AList.lookup_insert _
    | _ => cases hadvance

theorem Ending.run {settingsMaxAttempts : Int} {workerId : Nat} {id : String} {n : Nat}
    (h : w.Ending workerId id n) (es : List Event) :
    ((taskRuns settingsMaxAttempts).runFrom w es).Ending workerId id
      (n - es.countP (Event.isAdvance workerId)) := by
  induction es generalizing w n with
  | nil => exact h
  | cons e es ih =>
    have hlater := ih (h.step settingsMaxAttempts e)
    rw [List.countP_cons, Nat.add_comm, ← Nat.sub_sub]
    exact hlater

/-- A handler that raises an error that must not be retried. -/
theorem advance_unretried {i : Nat} {env : WorkerEnv} {task : QueueTask} {error : PyErr}
    (hi : w.workers.lookup i = some (.handling task)) (hhandled : env.handled = some error)
    (herror : isRetryableTaskError error = false) :
    (w.advance i env).workers.lookup i =
      some (.failed (.deadLetter (task.failed error)) error) := by
  have htarget : requeueTask task error env.limits = .deadLetter (task.failed error) := by
    simp [requeueTask, herror]
  simp only [advance, hi, hhandled, htarget]
  exact AList.lookup_insert _

end State

/-- A task is called at most as often as its envelope says, where a stored zero stands
for the runtime limit that is read at a failure, and the counter rises from one call
to the next. An error that must not be retried ends the task: it is never called
again, and two steps of its worker later it is among the dead letters. A row is dead
exactly if its task is there, and a task that has succeeded or died is not called
again. -/
theorem retries_are_bounded (settingsMaxAttempts : Int) (es later : List Event) (id : String) :
    let w := (taskRuns settingsMaxAttempts).runFrom (taskRuns settingsMaxAttempts).init es
    (∀ task ∈ w.callsOf id, ∀ bound,
      (task.maxAttempts = 0 → ∀ e ∈ es, ∀ limit ∈ e.limit, limit ≤ bound) →
        ((w.callsOf id).length : Int) ≤
          max 1 (if task.maxAttempts = 0 then bound else task.maxAttempts)) ∧
      (w.callsOf id).Pairwise (·.attempts < ·.attempts) ∧
      (∀ i env task error, w.workers.lookup i = some (.handling task) → task.id = id →
        env.handled = some error → isRetryableTaskError error = false →
          let w' := (taskRuns settingsMaxAttempts).runFrom (w.advance i env) later
          w'.callsOf id = w.callsOf id ∧
            (2 ≤ later.countP (Event.isAdvance i) → ∃ task ∈ w'.dead, task.id = id)) ∧
      ((∀ i task, w.workers.lookup i = some (.pushing (.deadLetter task)) → task.id ≠ id) →
        ((∃ row, w.rows.lookup id = some row ∧ row.status = .dead) ↔
          ∃ task ∈ w.dead, task.id = id)) ∧
      ((∃ task ∈ w.succeeded ++ w.dead, task.id = id) →
        ((taskRuns settingsMaxAttempts).runFrom w later).callsOf id = w.callsOf id) := by
  intro w
  obtain ⟨most, hmost⟩ := exists_bound (es ++ later)
  have hes : ∀ e ∈ es, ∀ limit ∈ e.limit, limit ≤ most :=
    fun e he => hmost e (List.mem_append_left _ he)
  have hlater : ∀ e ∈ later, ∀ limit ∈ e.limit, limit ≤ most :=
    fun e he => hmost e (List.mem_append_right _ he)
  have hsound : Sound most w := (Sound.empty most).run hes
  refine ⟨?_, ?_, ?_, hsound.dead_iff, ?_⟩
  · intro call hcall bound hbound
    by_cases hzero : call.maxAttempts = 0
    · have hbounded : Sound bound w := (Sound.empty bound).run (hbound hzero)
      obtain ⟨task, hcounted⟩ := hbounded.counted hcall
      exact (hcounted.of_limit (hcounted.limits call hcall)).within
    · obtain ⟨task, hcounted⟩ := hsound.counted hcall
      have hwithin := (hcounted.of_limit (hcounted.limits call hcall)).within
      rw [QueueTask.limit, if_neg hzero] at hwithin
      rwa [if_neg hzero]
  · cases hcalls : w.callsOf id with
    | nil => exact .nil
    | cons call calls =>
      have hcall : call ∈ w.callsOf id := by
        rw [hcalls]
        exact List.mem_cons_self
      obtain ⟨task, hcounted⟩ := hsound.counted hcall
      exact hcalls ▸ hcounted.increasing
  · intro i env task error hi hid hhandled herror w'
    have hstage := State.advance_unretried hi hhandled herror
    obtain ⟨bound, hbound⟩ := exists_bound (es ++ .advance i env :: later)
    have hsound : Sound bound w :=
      (Sound.empty bound).run fun e he => hbound e (List.mem_append_left _ he)
    have hchange : Change bound none w (w.advance i env) :=
      State.advance_change hsound.distinct i
        (hbound (.advance i env) (List.mem_append_right _ List.mem_cons_self) _ rfl)
    have hended := (hsound.change hchange).ended_run settingsMaxAttempts
      (fun e he => hbound e (List.mem_append_right _ (List.mem_cons_of_mem _ he)))
      (State.token_of_worker hstage rfl) trivial
    constructor
    · have hcalls : (w.advance i env).calls = w.calls := by
        simp only [State.advance, hi, hhandled]
        rfl
      have hkept : (w.advance i env).callsOf id = w.callsOf id := by
        rw [State.callsOf, hcalls]
        rfl
      have hended : ((taskRuns settingsMaxAttempts).runFrom (w.advance i env) later).callsOf task.id =
          (w.advance i env).callsOf task.id := hended
      exact (hid ▸ hended).trans hkept
    · intro hsteps
      have hending : (w.advance i env).Ending i id 2 := ⟨_, error, hstage, hid⟩
      have hburied : w'.Ending i id _ := hending.run later
      rw [Nat.sub_eq_zero_of_le hsteps] at hburied
      exact hburied
  · rintro ⟨task, htask, hid⟩
    rcases List.mem_append.mp htask with htask | htask
    · have hended := hsound.ended_run settingsMaxAttempts hlater (State.succeeded_mem htask) trivial
      exact hid ▸ hended
    · have hended :=
        hsound.ended_run settingsMaxAttempts hlater (State.dead_mem_iff.mpr htask) trivial
      exact hid ▸ hended

def takeTask (workerId : Nat) : List Event :=
  List.replicate 4 (.advance workerId ⟨0, "worker", none, ⟨3, 0⟩⟩)

/-- A task that is enqueued under a limit of zero, fails under a limit of three and is
called again. -/
def handledTwice : List Event :=
  [.enqueue 0 "t" "scan" [] ⟨0, 0⟩ 0 0, .serve 0 "t" ⟨0, 0⟩ 0, .start 1] ++ takeTask 1 ++
    List.replicate 3 (.advance 1 ⟨0, "worker", some ⟨.osError, "refused", 0⟩, ⟨3, 0⟩⟩) ++
    takeTask 1

/-- A stored limit of zero does not bound the calls. -/
theorem zero_limit_is_exceeded :
    ¬ ∀ (settingsMaxAttempts : Int) (es : List Event) (id : String),
      let w := (taskRuns settingsMaxAttempts).runFrom (taskRuns settingsMaxAttempts).init es
      ∀ task ∈ w.callsOf id, ((w.callsOf id).length : Int) ≤ max 1 task.maxAttempts := by
  intro h
  have hbound := h 0 handledTwice "t" (createTaskEnvelope 0 "scan" [] "t" 0) (by decide +kernel)
  have hcalls : (((taskRuns 0).runFrom (taskRuns 0).init handledTwice).callsOf "t").length = 2 := by
    decide +kernel
  rw [hcalls] at hbound
  exact absurd hbound (by decide)

theorem retries_are_bounded_handled_twice :
    let w := (taskRuns 0).runFrom (taskRuns 0).init handledTwice
    let conflicted : WorkerEnv := ⟨0, "worker", some (conflict "taken"), ⟨3, 0⟩⟩
    let w' := (taskRuns 0).runFrom (w.advance 1 conflicted)
      [.advance 1 conflicted, .advance 1 conflicted]
    ((w.callsOf "t").length : Int) ≤ max 1 3 ∧
      (w.callsOf "t").Pairwise (·.attempts < ·.attempts) ∧
      (w'.callsOf "t" = w.callsOf "t" ∧ ∃ task ∈ w'.dead, task.id = "t") ∧
      ¬ (∃ row, w.rows.lookup "t" = some row ∧ row.status = .dead) ∧
      ((taskRuns 0).runFrom w' (takeTask 1)).callsOf "t" = w'.callsOf "t" := by
  intro w conflicted w'
  let again : QueueTask := ⟨"t", "scan", [], 1, 0, some "refused"⟩
  have hstage : w.workers.lookup 1 = some (.handling again) := by decide +kernel
  obtain ⟨hcount, hrise, hend, hdead, -⟩ := retries_are_bounded 0 handledTwice
    [.advance 1 conflicted, .advance 1 conflicted] "t"
  obtain ⟨-, -, -, -, hstay⟩ := retries_are_bounded 0
    (handledTwice ++ [.advance 1 conflicted, .advance 1 conflicted, .advance 1 conflicted])
    (takeTask 1) "t"
  rw [Machine.runFrom_append] at hstay
  obtain ⟨hcalls, hburied⟩ := hend 1 conflicted again (conflict "taken") hstage rfl rfl (by decide)
  refine ⟨hcount again (by decide +kernel) 3 (fun _ => by decide +kernel), hrise,
    ⟨hcalls, hburied (by decide)⟩, ?_, hstay (by decide +kernel)⟩
  rw [hdead]
  · decide +kernel
  · intro i task hi
    have hall : ∀ e ∈ w.workers.entries, e.2 = .handling again := by decide +kernel
    have hone := hall ⟨i, _⟩ (Table.mem_entries.mpr hi)
    cases hone

end PluginRegistry.TaskRuns
