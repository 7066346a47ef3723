import PluginRegistry.Proofs.BoundedRetries

namespace PluginRegistry.TaskRuns
open Lib

def Live (status : TaskStatus) : Prop :=
  status ∈ [.queued, .delayed, .retrying, .running]

instance (status : TaskStatus) : Decidable (Live status) :=
  inferInstanceAs (Decidable (status ∈ _))

def State.OneLive (w : State) : Prop :=
  ∀ id row id' row', w.rows.lookup id = some row → Live row.status →
    w.rows.lookup id' = some row' → Live row'.status → w.original id = w.original id' → id = id'

def Event.Clear (w : State) (e : Event) : Prop :=
  ∀ original ∈ e.retried w, ∀ id row, w.rows.lookup id = some row → w.original id = original →
    ¬ Live row.status

/-- Rows carry their ids, and every original and every task that is retried has a row. -/
structure Lineage (w : State) : Prop where
  ids : ∀ id row, w.rows.lookup id = some row → row.id = id
  originals : ∀ id, (w.rows.lookup id).isSome → (w.rows.lookup (w.original id)).isSome
  requests : ∀ i row, w.requests.lookup i = some (.retrying row) → (w.rows.lookup row.id).isSome

theorem Lineage.empty : Lineage .empty where
  ids := by simp [State.empty]
  originals := by simp [State.empty]
  requests := by simp [State.empty]

namespace State

variable {w w' : State} {bound : Int} {retried : Option String}

theorem original_insert {id original : String}
    (h : w'.originals = AList.insert id original w.originals) (other : String) :
    w'.original other = if other = id then original else w.original other := by
  rw [State.original, h, Table.lookup_insert_eq]
  split <;> rfl

/-- No row is lost. -/
theorem rows_grow (h : Change bound retried w w') {id : String} (hrow : (w.rows.lookup id).isSome) :
    (w'.rows.lookup id).isSome := by
  cases h with
  | quiet tokens rows calls originals =>
    rw [rows]
    exact hrow
  | create task row original fresh attempts status id origin tokens rows calls originals =>
    rw [rows, Table.lookup_insert_eq]
    split
    · rfl
    · exact hrow
  | move old new status made write move tokens rows statusWrite idWrite callsEq originals =>
    rw [rows, Table.lookup_modify]
    split
    · rwa [Option.isSome_map]
    · exact hrow

theorem advance_requests (w : State) (i : Nat) (env : WorkerEnv) :
    (w.advance i env).requests = w.requests := by
  unfold advance
  split
  · rfl
  · rfl
  · rfl
  · split <;> rfl
  · rfl
  · split <;> rfl
  · rfl
  · split <;> rfl
  · rfl
  · rfl
  · rfl
  · rfl
  · rfl

/-- A request that creates a task is no longer about to retry one. -/
theorem createTask_requests {settingsMaxAttempts : Int} {requestId : Nat}
    {id original taskType : String} {payload : JsonObject} {limits : TaskLimits} {delay : Int}
    {now : Time} {i : Nat} {row : WorkerTask}
    (h : (w.createTask settingsMaxAttempts requestId id original taskType payload limits delay
      now).requests.lookup i = some (.retrying row)) :
    w.requests.lookup i = some (.retrying row) := by
  unfold createTask at h
  split at h
  · exact h
  · change AList.lookup i (AList.insert _ _ w.requests) = _ at h
    rw [Table.lookup_insert_eq] at h
    split at h
    · cases h
    · exact h

/-- A retry request has read its row. -/
theorem step_requests {settingsMaxAttempts : Int} {e : Event} {i : Nat} {row : WorkerTask}
    (h : (w.step settingsMaxAttempts e).requests.lookup i = some (.retrying row)) :
    w.requests.lookup i = some (.retrying row) ∨ ∃ id, w.rows.lookup id = some row := by
  cases e with
  | enqueue requestId id taskType payload limits delay now =>
    simp only [step] at h
    split at h
    · exact .inl h
    · exact .inl (createTask_requests h)
  | retry requestId taskId =>
    simp only [step, readRetried] at h
    split at h
    · exact .inl h
    · cases hrow : w.rows.lookup taskId with
      | none =>
        rw [hrow] at h
        exact .inl h
      | some read =>
        simp only [hrow] at h
        split at h
        · exact .inl h
        · change AList.lookup i (AList.insert _ _ w.requests) = _ at h
          rw [Table.lookup_insert_eq] at h
          split at h
          · cases h
            exact .inr ⟨taskId, hrow⟩
          · exact .inl h
  | serve requestId id limits now =>
    simp only [step, serve] at h
    split at h
    · exact .inl h
    · exact .inl (createTask_requests h)
    · change AList.lookup i (AList.erase _ w.requests) = _ at h
      by_cases hi : i = requestId
      · rw [hi, AList.lookup_erase] at h
        cases h
      · rw [AList.lookup_erase_ne hi] at h
        exact .inl h
  | start workerId =>
    simp only [step] at h
    split at h <;> exact .inl h
  | advance workerId env =>
    simp only [step, advance_requests] at h
    exact .inl h

end State

/-- What a step retries has a row. -/
theorem Lineage.retried {w : State} (h : Lineage w) {e : Event} {original : String}
    (horiginal : original ∈ e.retried w) : (w.rows.lookup original).isSome := by
  unfold Event.retried State.retried at horiginal
  split at horiginal
  · split at horiginal
    · rename_i hrequest
      split at horiginal
      · cases horiginal
      · obtain rfl := Option.some.inj horiginal
        exact h.originals _ (h.requests _ _ hrequest)
    · cases horiginal
  · cases horiginal

/-- A step keeps the invariant. -/
theorem Lineage.step {settingsMaxAttempts bound : Int} {w : State} {e : Event} (h : Lineage w)
    (hchange : Change bound (e.retried w) w (w.step settingsMaxAttempts e)) :
    Lineage (w.step settingsMaxAttempts e) := by
  have hgrow : ∀ id, (w.rows.lookup id).isSome →
      ((w.step settingsMaxAttempts e).rows.lookup id).isSome :=
    fun id hid => State.rows_grow hchange hid
  refine ⟨?_, ?_, ?_⟩
  · intro id row hrow
    cases hchange with
    | quiet tokens rows calls originals => exact h.ids id row (rows ▸ hrow)
    | create task new original fresh attempts status idEq origin tokens rows calls originals =>
      rw [rows, Table.lookup_insert_eq] at hrow
      split at hrow
      · rename_i hid
        obtain rfl := Option.some.inj hrow
        exact idEq.trans hid.symm
      · exact h.ids id row hrow
    | move old new status made write move tokens rows statusWrite idWrite callsEq originals =>
      rw [rows, Table.lookup_modify] at hrow
      split at hrow
      · obtain ⟨before, hbefore, rfl⟩ := Option.map_eq_some_iff.mp hrow
        exact (idWrite before).trans (h.ids id before hbefore)
      · exact h.ids id row hrow
  · intro id hid
    cases hchange with
    | quiet tokens rows calls originals =>
      rw [rows] at hid ⊢
      rw [State.original, originals]
      exact h.originals id hid
    | create task new original fresh attempts status idEq origin tokens rows calls originals =>
      by_cases hid' : id = task.id
      · rw [State.original_insert originals, if_pos hid']
        cases hretried : e.retried w with
        | none =>
          rw [hretried] at origin
          rw [rows, origin]
          simp
        | some retried =>
          rw [hretried] at origin
          exact origin ▸ hgrow retried (h.retried hretried)
      · rw [rows, Table.lookup_insert_eq, if_neg hid'] at hid
        rw [State.original_insert originals, if_neg hid']
        exact hgrow _ (h.originals id hid)
    | move old new status made write move tokens rows statusWrite idWrite callsEq originals =>
      have hbefore : (w.rows.lookup id).isSome := by
        rw [rows, Table.lookup_modify] at hid
        split at hid
        · rwa [Option.isSome_map] at hid
        · exact hid
      rw [State.original, originals]
      exact hgrow _ (h.originals id hbefore)
  · intro i row hrequest
    apply hgrow
    rcases State.step_requests hrequest with hbefore | ⟨id, hid⟩
    · exact h.requests i row hbefore
    · rw [h.ids id row hid, hid]
      rfl

/-- No move brings a task back to life. -/
theorem Move.live {bound : Int} {old new : Token} {status : Option TaskStatus}
    {made : List QueueTask} (h : Move bound old new status made) {calls : List QueueTask}
    {before : TaskStatus} (hfits : old.Fits bound calls before)
    (hlive : Live (status.getD before)) : Live before := by
  cases h with
  | call task =>
    obtain ⟨-, -, -, hstatus⟩ := hfits
    simp only [List.mem_cons, List.not_mem_nil, or_false] at hstatus
    rcases hstatus with rfl | rfl | rfl <;> decide
  | retry task delaySeconds =>
    obtain ⟨-, -, -, rfl⟩ := hfits
    decide
  | succeed task =>
    have hsucceeded : Live .succeeded := hlive
    exact absurd hsucceeded (by decide)
  | die task =>
    have hdead : Live .dead := hlive
    exact absurd hdead (by decide)
  | _ => exact hlive

namespace State

variable {w w' : State} {bound : Int} {retried : Option String}

/-- A live task was live before unless the step creates it. -/
theorem live_before (hsound : Sound bound w) (h : Change bound retried w w') {id : String}
    {row : WorkerTask} (hold : (w.rows.lookup id).isSome) (hrow : w'.rows.lookup id = some row)
    (hlive : Live row.status) :
    (∃ before, w.rows.lookup id = some before ∧ Live before.status) ∧
      w'.original id = w.original id := by
  cases h with
  | quiet tokens rows calls originals =>
    exact ⟨⟨row, rows ▸ hrow, hlive⟩, by rw [original, originals]; rfl⟩
  | create task new original fresh attempts status idEq origin tokens rows calls originals =>
    have hne : id ≠ task.id := by
      rintro rfl
      rw [fresh] at hold
      cases hold
    rw [rows, Table.lookup_insert_eq, if_neg hne] at hrow
    exact ⟨⟨row, hrow, hlive⟩, by rw [original_insert originals, if_neg hne]⟩
  | move old new status made write move tokens rows statusWrite idWrite callsEq originals =>
    refine ⟨?_, by rw [original, originals]; rfl⟩
    rw [rows, Table.lookup_modify] at hrow
    split at hrow
    · rename_i hid
      obtain ⟨before, hbefore, rfl⟩ := Option.map_eq_some_iff.mp hrow
      obtain ⟨row, hrow, hfits⟩ := hsound.fits old (tokens.mem_old List.mem_cons_self)
      rw [← hid, hbefore] at hrow
      obtain rfl := Option.some.inj hrow
      rw [statusWrite] at hlive
      exact ⟨before, hbefore, move.live hfits hlive⟩
    · exact ⟨row, hrow, hlive⟩

/-- A step creates one task at most. -/
theorem created (h : Change bound retried w w') {id : String} (hid : w.rows.lookup id = none)
    (hrow : (w'.rows.lookup id).isSome) :
    w'.original id = retried.getD id ∧
      ∀ id', w.rows.lookup id' = none → (w'.rows.lookup id').isSome → id' = id := by
  cases h with
  | quiet tokens rows calls originals =>
    rw [rows, hid] at hrow
    cases hrow
  | create task new original fresh attempts status idEq origin tokens rows calls originals =>
    have honly : ∀ id', w.rows.lookup id' = none → (w'.rows.lookup id').isSome →
        id' = task.id := by
      intro id' hid' hrow'
      by_contra hne
      rw [rows, Table.lookup_insert_eq, if_neg hne, hid'] at hrow'
      cases hrow'
    obtain rfl := honly id hid hrow
    exact ⟨by rw [original_insert originals, if_pos rfl, origin], honly⟩
  | move old new status made write move tokens rows statusWrite idWrite callsEq originals =>
    rw [rows, Table.lookup_modify, hid] at hrow
    split at hrow <;> cases hrow

/-- A step whose retry is clear keeps one live task of each original. -/
theorem oneLive_of_clear {settingsMaxAttempts : Int} {e : Event} (hsound : Sound bound w)
    (hlineage : Lineage w)
    (hchange : Change bound (e.retried w) w (w.step settingsMaxAttempts e)) (hone : w.OneLive)
    (hclear : e.Clear w) : (w.step settingsMaxAttempts e).OneLive := by
  -- A fresh task has no live relative.
  have hfresh : ∀ id row id' row', w.rows.lookup id = none → (w.rows.lookup id').isSome →
      (w.step settingsMaxAttempts e).rows.lookup id = some row →
      (w.step settingsMaxAttempts e).rows.lookup id' = some row' → Live row'.status →
      (w.step settingsMaxAttempts e).original id ≠ (w.step settingsMaxAttempts e).original id' := by
    intro id row id' row' hid hid' hrow hrow' hlive' heq
    obtain ⟨⟨before', hbefore', hlive'⟩, horiginal'⟩ :=
      live_before hsound hchange hid' hrow' hlive'
    obtain ⟨horiginal, -⟩ := created hchange hid (by rw [hrow]; rfl)
    rw [horiginal, horiginal'] at heq
    cases hretried : e.retried w with
    | none =>
      rw [hretried] at heq
      have hknown := hlineage.originals id' hid'
      rw [← heq, Option.getD_none, hid] at hknown
      cases hknown
    | some original =>
      rw [hretried] at heq
      exact hclear original hretried id' before' hbefore' heq.symm hlive'
  intro id row id' row' hrow hlive hrow' hlive' heq
  cases hid : w.rows.lookup id with
  | none =>
    cases hid' : w.rows.lookup id' with
    | none =>
      obtain ⟨-, honly⟩ := created hchange hid' (by rw [hrow']; rfl)
      exact honly id hid (by rw [hrow]; rfl)
    | some before' =>
      exact absurd heq (hfresh id row id' row' hid (by rw [hid']; rfl) hrow hrow' hlive')
  | some before =>
    cases hid' : w.rows.lookup id' with
    | none =>
      exact absurd heq.symm (hfresh id' row' id row hid' (by rw [hid]; rfl) hrow' hrow hlive)
    | some before' =>
      obtain ⟨⟨old, hold, hlive⟩, horiginal⟩ :=
        live_before hsound hchange (by rw [hid]; rfl) hrow hlive
      obtain ⟨⟨old', hold', hlive'⟩, horiginal'⟩ :=
        live_before hsound hchange (by rw [hid']; rfl) hrow' hlive'
      rw [horiginal, horiginal'] at heq
      exact hone id old id' old' hold hlive hold' hlive' heq

/-- A retry creates a live task of the original. -/
theorem retried_creates (settingsMaxAttempts : Int) {e : Event} {original : String}
    (h : original ∈ e.retried w) :
    ∃ id row, w.rows.lookup id = none ∧ Live row.status ∧
      (w.step settingsMaxAttempts e).rows = AList.insert id row w.rows ∧
      (w.step settingsMaxAttempts e).originals = AList.insert id original w.originals := by
  cases e with
  | serve requestId id limits now =>
    simp only [Event.retried, State.retried] at h
    cases hrequest : w.requests.lookup requestId with
    | none => simp [hrequest] at h
    | some request =>
      cases request with
      | pushing task delay => simp [hrequest] at h
      | retrying read =>
        cases hid : w.rows.lookup id with
        | some row => simp [hrequest, hid] at h
        | none =>
          have heq : w.original read.id = original := by
            simpa [hrequest, hid] using h
          have hqueued : Live .queued := by decide
          refine ⟨id, createWorkerTask settingsMaxAttempts read.taskType read.payload id
            limits.maxAttempts 0 now, hid, hqueued, ?_, ?_⟩
          · simp [step, serve, hrequest, createTask, hid, setRequest]
          · simp [step, serve, hrequest, createTask, hid, setRequest, heq]
  | _ => cases h

/-- A retry that is not clear leaves two live tasks. -/
theorem clear_of_oneLive {settingsMaxAttempts : Int} {e : Event}
    (hone : (w.step settingsMaxAttempts e).OneLive) : e.Clear w := by
  intro original hretried id' row' hrow' horiginal hlive'
  obtain ⟨id, row, hid, hlive, hrows, horiginals⟩ := retried_creates settingsMaxAttempts hretried
  have hne : id' ≠ id := by
    rintro rfl
    rw [hid] at hrow'
    cases hrow'
  apply hne
  refine hone id' row' id row ?_ hlive' ?_ hlive ?_
  · rw [hrows, Table.lookup_insert_eq, if_neg hne, hrow']
  · rw [hrows, Table.lookup_insert_eq, if_pos rfl]
  · rw [original_insert horiginals, original_insert horiginals, if_neg hne, if_pos rfl, horiginal]

end State

theorem Counted.mono {bound bound' : Int} (hle : bound ≤ bound') {task : QueueTask}
    {calls : List QueueTask} (h : Counted bound task calls) : Counted bound' task calls where
  attempts := h.attempts
  limits := h.limits
  within := h.within.trans (max_le_max_left 1 (task.limit_mono hle))

theorem Token.Fits.mono {bound bound' : Int} (hle : bound ≤ bound') {calls : List QueueTask}
    {status : TaskStatus} {token : Token} (h : token.Fits bound calls status) :
    token.Fits bound' calls status := by
  cases token with
  | waiting task | held task =>
    obtain ⟨hcounted, hattempts, hwithin, hstatus⟩ := h
    exact ⟨hcounted.mono hle, hattempts,
      hwithin.trans (max_le_max_left 1 (task.limit_mono hle)), hstatus⟩
  | failing target =>
    obtain ⟨hcounted, hattempts, hpush, hstatus⟩ := h
    exact ⟨hcounted.mono hle, hattempts,
      fun task delay ht => (hpush task delay ht).trans_le (task.limit_mono hle), hstatus⟩
  | _ => exact ⟨h.1.mono hle, h.2⟩

theorem Sound.mono {bound bound' : Int} (hle : bound ≤ bound') {w : State} (h : Sound bound w) :
    Sound bound' w where
  distinct := h.distinct
  fits := by
    intro token htoken
    obtain ⟨row, hrow, hfits⟩ := h.fits token htoken
    exact ⟨row, hrow, hfits.mono hle⟩
  tracked := h.tracked
  called := h.called

/-- At each moment of a run at most one task of an original is live, exactly if every
retry creates its task when no task of the original is live. -/
theorem one_live_task_iff (settingsMaxAttempts : Int) (es : List Event) :
    (∀ w ∈ (taskRuns settingsMaxAttempts).states (taskRuns settingsMaxAttempts).init es,
        w.OneLive) ↔
      ∀ x ∈ (taskRuns settingsMaxAttempts).steps (taskRuns settingsMaxAttempts).init es,
        x.2.Clear x.1 := by
  have hstep : ∀ w e, (∃ bound, Sound bound w) →
      ∃ bound, Sound bound w ∧
        Change bound (e.retried w) w (w.step settingsMaxAttempts e) := by
    rintro w e ⟨bound, hsound⟩
    have hsound' := hsound.mono (le_max_left bound (e.limit.getD bound))
    refine ⟨_, hsound', step_change hsound'.distinct e ?_⟩
    intro n hn
    rw [Option.mem_def.mp hn]
    exact le_max_right _ _
  apply Machine.run_iff (fun w => (∃ bound, Sound bound w) ∧ Lineage w)
  · rintro w e ⟨hsound, hlineage⟩
    obtain ⟨bound, hsound, hchange⟩ := hstep w e hsound
    exact ⟨⟨bound, hsound.change hchange⟩, hlineage.step hchange⟩
  · rintro w e ⟨hsound, hlineage⟩ hone
    obtain ⟨bound, hsound, hchange⟩ := hstep w e hsound
    exact ⟨State.clear_of_oneLive, State.oneLive_of_clear hsound hlineage hchange hone⟩
  · exact ⟨⟨0, .empty 0⟩, .empty⟩
  · intro id row id' row' hrow
    cases hrow

def retriedWhileQueued : List Event :=
  [.enqueue 0 "t" "scan" [] ⟨3, 60⟩ 0 0, .serve 0 "t" ⟨3, 60⟩ 0, .retry 1 "t",
    .serve 1 "u" ⟨3, 60⟩ 0]

/-- The retry of a queued task leaves two live tasks. -/
theorem queued_task_is_duplicated :
    ¬ ∀ (settingsMaxAttempts : Int) (es : List Event),
      ∀ w ∈ (taskRuns settingsMaxAttempts).states (taskRuns settingsMaxAttempts).init es,
        w.OneLive := by
  intro h
  have hone : "t" = "u" := h 3 retriedWhileQueued _ (Machine.run_mem_states _ _) "t"
    (createWorkerTask 3 "scan" [] "t" 3 0 0) "u" (createWorkerTask 3 "scan" [] "u" 3 0 0)
    rfl (by decide) rfl (by decide) rfl
  exact absurd hone (by decide)

end PluginRegistry.TaskRuns
