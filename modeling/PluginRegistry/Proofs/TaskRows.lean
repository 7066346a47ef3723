import PluginRegistry.Proofs.QueueOrder

namespace PluginRegistry.TaskRuns
open Lib

def Token.statuses : Token → List TaskStatus
  | .waiting _ | .held _ => [.queued, .delayed, .retrying]
  | .running _ | .returned _ | .failing _ => [.running]
  | .succeeded _ => [.succeeded]
  | .dying _ | .dead _ => [.dead]

theorem Token.Fits.mem_statuses {bound : Int} {calls : List QueueTask} {status : TaskStatus}
    {token : Token} (h : token.Fits bound calls status) : status ∈ token.statuses := by
  cases token with
  | waiting task | held task => exact h.2.2.2
  | running task | returned task => exact List.mem_singleton.mpr h.2.2
  | failing target => exact List.mem_singleton.mpr h.2.2.2
  | succeeded task | dying task | dead task => exact List.mem_singleton.mpr h.2

/-- The counter of a row is the number of failed calls: the call that runs and the one
that has succeeded do not count. -/
def CountsFailures (row : WorkerTask) (calls : List QueueTask) : Prop :=
  row.attempts + (if row.status = .running ∨ row.status = .succeeded then 1 else 0) = calls.length

def State.RowsCount (w : State) : Prop :=
  ∀ id row, w.rows.lookup id = some row → CountsFailures row (w.callsOf id)

namespace State

variable {w w' : State} {bound : Int}

theorem callsOf_append {made : List QueueTask} {id : String} (hcalls : w'.calls = w.calls ++ made)
    (hmade : ∀ call ∈ made, call.id = id) (other : String) :
    w'.callsOf other = w.callsOf other ++ if other = id then made else [] := by
  rw [callsOf, hcalls, List.filter_append]
  congr 1
  split
  · rename_i heq
    rw [List.filter_eq_self]
    exact fun call hcall => decide_eq_true ((hmade call hcall).trans heq.symm)
  · rename_i hne
    rw [List.filter_eq_nil_iff]
    intro call hcall heq
    exact hne ((of_decide_eq_true heq).symm.trans (hmade call hcall))

/-- A step that leaves the rows and the calls alone. -/
theorem RowsCount.quiet (h : w.RowsCount) (hrows : w'.rows = w.rows) (hcalls : w'.calls = w.calls) :
    w'.RowsCount := by
  intro id row hrow
  rw [hrows] at hrow
  change CountsFailures row (w'.calls.filter (·.id = id))
  rw [hcalls]
  exact h id row hrow

/-- A step that writes one row. -/
theorem RowsCount.write (h : w.RowsCount) {id : String} {write : WorkerTask → WorkerTask}
    {made : List QueueTask} (hrows : w'.rows = w.rows.modify id write)
    (hcalls : w'.calls = w.calls ++ made) (hmade : ∀ call ∈ made, call.id = id)
    (hwrite : ∀ row, w.rows.lookup id = some row → CountsFailures (write row) (w.callsOf id ++ made)) :
    w'.RowsCount := by
  intro other row hrow
  rw [callsOf_append hcalls hmade]
  rw [hrows, Table.lookup_modify] at hrow
  split at hrow
  · rename_i heq
    obtain ⟨before, hbefore, rfl⟩ := Option.map_eq_some_iff.mp hrow
    rw [heq] at hbefore
    rw [if_pos heq, heq]
    exact hwrite before hbefore
  · rename_i hne
    rw [if_neg hne, List.append_nil]
    exact h other row hrow

theorem RowsCount.createTask (h : w.RowsCount) (hsound : Sound bound w)
    {settingsMaxAttempts : Int} {requestId : Nat} {id original taskType : String}
    {payload : JsonObject} {limits : TaskLimits} {delay : Int} {now : Time} :
    (w.createTask settingsMaxAttempts requestId id original taskType payload limits delay
      now).RowsCount := by
  unfold State.createTask
  split
  · exact h
  · rename_i hfresh
    have hfresh := Option.not_isSome_iff_eq_none.mp hfresh
    intro other row hrow
    change AList.lookup other (AList.insert id _ w.rows) = some row at hrow
    rw [Table.lookup_insert_eq] at hrow
    split at hrow
    · rename_i heq
      obtain rfl := Option.some.inj hrow
      have hnone : w.callsOf other = [] := by
        rw [callsOf, List.filter_eq_nil_iff]
        intro call hcall hid
        have hknown := hsound.called call hcall
        rw [of_decide_eq_true hid, heq, hfresh] at hknown
        cases hknown
      change CountsFailures _ (w.callsOf other)
      rw [hnone]
      change (0 : Int) + (if (if 0 < delay then TaskStatus.delayed else .queued) = .running ∨
        (if 0 < delay then TaskStatus.delayed else .queued) = .succeeded then 1 else 0) = 0
      split <;> simp
    · exact h other row hrow

/-- A step of a worker keeps the attempts of a row at the number of failed calls. -/
theorem RowsCount.advance (h : w.RowsCount) (hsound : Sound bound w) (i : Nat) (env : WorkerEnv) :
    (w.advance i env).RowsCount := by
  have hadvanced := advance_advanced w i env
  generalize w.advance i env = w' at hadvanced
  cases hadvanced with
  | @called task stage =>
    obtain ⟨row, hrow, -, hattempts, -⟩ := hsound.fits _ (token_of_worker stage rfl)
    refine h.write rfl rfl (by simp) ?_
    intro row' hrow'
    simp only [CountsFailures, WorkerTask.markRunning, true_or, if_true, List.length_append,
      List.length_singleton, hattempts]
    rfl
  | @succeeded task stage =>
    obtain ⟨row, hrow, -, -, hstatus⟩ := hsound.fits _ (token_of_worker stage rfl)
    refine h.write rfl (List.append_nil _).symm (by simp) ?_
    intro row' hrow'
    have hcounts := h task.id row' hrow'
    obtain rfl := Option.some.inj (hrow.symm.trans hrow')
    simpa [CountsFailures, hstatus, WorkerTask.markSucceeded] using hcounts
  | @died task error stage =>
    obtain ⟨row, hrow, -, hattempts, -⟩ := hsound.fits _ (token_of_worker stage rfl)
    refine h.write rfl (List.append_nil _).symm (by simp) ?_
    intro row' hrow'
    have hattempts : task.attempts = (w.callsOf task.id).length := hattempts
    simpa [CountsFailures, WorkerTask.markDead] using hattempts
  | @retried task delaySeconds error stage =>
    obtain ⟨row, hrow, -, hattempts, -⟩ := hsound.fits _ (token_of_worker stage rfl)
    refine h.write rfl (List.append_nil _).symm (by simp) ?_
    intro row' hrow'
    have hattempts : task.attempts = (w.callsOf task.id).length := hattempts
    simpa [CountsFailures, WorkerTask.markRetrying] using hattempts
  | @pushed task delaySeconds stage =>
    obtain ⟨hrows, hcalls, -⟩ := w.pushTask_frame task (delaySeconds * 1000000) env.now
    exact h.quiet hrows hcalls
  | _ => exact h.quiet rfl rfl

theorem RowsCount.step (h : w.RowsCount) (hsound : Sound bound w) (settingsMaxAttempts : Int)
    (e : Event) : (w.step settingsMaxAttempts e).RowsCount := by
  cases e with
  | enqueue requestId id taskType payload limits delay now =>
    simp only [State.step]
    split
    · exact h
    · exact h.createTask hsound
  | retry requestId taskId =>
    simp only [State.step, State.readRetried]
    split
    · exact h
    · split
      · exact h
      · split <;> exact h
  | serve requestId id limits now =>
    simp only [State.step, State.serve]
    split
    · exact h
    · exact h.createTask hsound
    · rename_i task delay _
      obtain ⟨hrows, hcalls, -⟩ := w.pushTask_frame task delay now
      exact h.quiet hrows hcalls
  | start workerId =>
    simp only [State.step]
    split <;> exact h
  | advance i env => exact h.advance hsound i env

end State

theorem State.RowsCount.run {settingsMaxAttempts bound : Int} {w : State} (h : w.RowsCount)
    (hsound : Sound bound w) {es : List Event} (hbound : ∀ e ∈ es, ∀ n ∈ e.limit, n ≤ bound) :
    ((taskRuns settingsMaxAttempts).runFrom w es).RowsCount := by
  induction es generalizing w with
  | nil => exact h
  | cons e es ih =>
    have hchange : Change bound (e.retried w) w (w.step settingsMaxAttempts e) :=
      step_change hsound.distinct e (hbound e List.mem_cons_self)
    exact ih (h.step hsound settingsMaxAttempts e) (hsound.change hchange)
      fun e' he' => hbound e' (List.mem_cons_of_mem _ he')

/-- Every row stands for a task in exactly one place, its status says which, and its
counter says how often the handler has failed: the calls so far, less the one that runs or
has succeeded. -/
theorem rows_tell_the_truth (settingsMaxAttempts : Int) (es : List Event) :
    let w := (taskRuns settingsMaxAttempts).runFrom (taskRuns settingsMaxAttempts).init es
    (w.tokens.map Token.id).Nodup ∧
      (∀ id, (w.rows.lookup id).isSome ↔ ∃ token ∈ w.tokens, token.id = id) ∧
      ∀ token ∈ w.tokens, ∃ row, w.rows.lookup token.id = some row ∧
        row.status ∈ token.statuses ∧
        row.attempts + (if row.status = .running ∨ row.status = .succeeded then 1 else 0) =
          (w.callsOf token.id).length := by
  intro w
  obtain ⟨bound, hbound⟩ := exists_bound es
  have hempty : State.empty.RowsCount := by
    intro id row hrow
    cases hrow
  have hsound : Sound bound w := (Sound.empty bound).run hbound
  have hcount : w.RowsCount := hempty.run (Sound.empty bound) hbound
  refine ⟨hsound.distinct, ?_, ?_⟩
  · intro id
    constructor
    · intro hid
      obtain ⟨row, hrow⟩ := Option.isSome_iff_exists.mp hid
      exact hsound.tracked id row hrow
    · rintro ⟨token, htoken, rfl⟩
      obtain ⟨row, hrow, -⟩ := hsound.fits token htoken
      rw [hrow]
      rfl
  · intro token htoken
    obtain ⟨row, hrow, hfits⟩ := hsound.fits token htoken
    exact ⟨row, hrow, hfits.mem_statuses, hcount token.id row hrow⟩

theorem rows_tell_the_truth_handled_twice :
    let w := (taskRuns 0).runFrom (taskRuns 0).init handledTwice
    ∃ row, w.rows.lookup "t" = some row ∧ row.status = .running ∧ row.attempts = 1 := by
  intro w
  obtain ⟨-, -, htruth⟩ := rows_tell_the_truth 0 handledTwice
  have hstage : w.workers.lookup 1 = some (.handling ⟨"t", "scan", [], 1, 0, some "refused"⟩) := by
    decide +kernel
  obtain ⟨row, hrow, hstatus, hcount⟩ := htruth _ (State.token_of_worker hstage rfl)
  have hrunning := List.mem_singleton.mp hstatus
  have hcalls : ((w.callsOf "t").length : Int) = 2 := by decide +kernel
  refine ⟨row, hrow, hrunning, ?_⟩
  rw [if_pos (.inl hrunning)] at hcount
  have htotal : row.attempts + 1 = 2 := hcount.trans hcalls
  omega

end PluginRegistry.TaskRuns
