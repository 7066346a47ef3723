import PluginRegistry.Proofs.TaskRows

namespace PluginRegistry.TaskRuns
open Lib

def Event.time : Event → Option Time
  | .enqueue _ _ _ _ _ _ now => some now
  | .serve _ _ _ now => some now
  | .advance _ env => some env.now
  | _ => none

def Timed : Time → List Event → Prop
  | _, [] => True
  | clock, e :: es => (∀ now ∈ e.time, clock ≤ now) ∧ Timed (e.time.getD clock) es

namespace State

def DueBy (w : State) (id : String) (time : Int) : Prop :=
  ∀ row, w.rows.lookup id = some row → ∀ next ∈ row.nextRunAt, next ≤ time

/-- A worker may still look for this member in the delayed set: since it was read there,
the task has been called, or else it is due. -/
def Stale (w : State) (clock : Time) (raw : QueueTask) : Prop :=
  ∃ row, w.rows.lookup raw.id = some row ∧
    (raw.attempts < (w.callsOf raw.id).length ∨
      raw.attempts = (w.callsOf raw.id).length ∧ row.status ≠ .running ∧ w.DueBy raw.id clock)

end State

def Stage.Timely (w : State) (clock : Time) : Stage → Prop
  | .promoting raws => ∀ raw ∈ raws, w.Stale clock raw
  | .moving raw raws => w.DueBy raw.id clock ∧ ∀ raw ∈ raws, w.Stale clock raw
  | .holding task => w.DueBy task.id clock
  | .pushing (.push task delaySeconds) => w.DueBy task.id (clock + delaySeconds * 1000000)
  | _ => True

structure Timely (clock : Time) (w places : State) : Prop where
  ready : ∀ task ∈ places.ready, w.DueBy task.id clock
  delayed : ∀ task due, places.delayed.lookup task = some due → w.DueBy task.id due
  workers : ∀ i stage, places.workers.lookup i = some stage → stage.Timely w clock
  requests : ∀ i task delay, places.requests.lookup i = some (.pushing task delay) →
    w.DueBy task.id (clock + delay)

namespace State

variable {w w' : State} {clock clock' : Time}

theorem DueBy.mono {id : String} {time time' : Int} (h : w.DueBy id time) (hle : time ≤ time') :
    w.DueBy id time' :=
  fun row hrow next hnext => (h row hrow next hnext).trans hle

theorem Stale.mono {raw : QueueTask} (h : w.Stale clock raw) (hle : clock ≤ clock') :
    w.Stale clock' raw := by
  obtain ⟨row, hrow, hcalled | ⟨hattempts, hstatus, hdue⟩⟩ := h
  · exact ⟨row, hrow, .inl hcalled⟩
  · exact ⟨row, hrow, .inr ⟨hattempts, hstatus, hdue.mono (Int.ofNat_le.mpr hle)⟩⟩

/-- A write that clears the next run, or the row of another task, keeps a task due. -/
theorem DueBy.write {id other : String} {time : Int} {write : WorkerTask → WorkerTask}
    (h : w.DueBy other time) (hrows : w'.rows = w.rows.modify id write)
    (hwrite : other = id → ∀ row, (write row).nextRunAt = none) : w'.DueBy other time := by
  intro row hrow next hnext
  rw [hrows, Table.lookup_modify] at hrow
  split at hrow
  · rename_i heq
    obtain ⟨before, -, rfl⟩ := Option.map_eq_some_iff.mp hrow
    rw [hwrite heq before] at hnext
    cases hnext
  · exact h row hrow next hnext

/-- A call, or a write to the row of a task that runs, keeps what is stale. -/
theorem Stale.write {id : String} {made : List QueueTask} {write : WorkerTask → WorkerTask}
    {raw : QueueTask} (h : w.Stale clock raw) (hrows : w'.rows = w.rows.modify id write)
    (hcalls : w'.calls = w.calls ++ made) (hmade : ∀ call ∈ made, call.id = id)
    (hruns : made ≠ [] ∨ ∀ row, w.rows.lookup id = some row → row.status = .running) :
    w'.Stale clock raw := by
  obtain ⟨row, hrow, hstale⟩ := h
  have hcallsOf := callsOf_append hcalls hmade raw.id
  by_cases hid : raw.id = id
  · rw [if_pos hid] at hcallsOf
    refine ⟨write row, ?_, .inl ?_⟩
    · rw [hrows, Table.lookup_modify, if_pos hid, hrow]
      rfl
    · rw [hcallsOf, List.length_append]
      rcases hruns with hcall | hrunning
      · have hone := List.length_pos_of_ne_nil hcall
        rcases hstale with hcalled | ⟨hattempts, -⟩
        · push_cast
          omega
        · push_cast
          omega
      · rcases hstale with hcalled | ⟨-, hstatus, -⟩
        · push_cast
          omega
        · exact absurd (hrunning row (hid ▸ hrow)) hstatus
  · rw [if_neg hid, List.append_nil] at hcallsOf
    refine ⟨row, ?_, ?_⟩
    · rw [hrows, Table.lookup_modify_ne _ _ hid, hrow]
    · rw [hcallsOf]
      rcases hstale with hcalled | ⟨hattempts, hstatus, hdue⟩
      · exact .inl hcalled
      · exact .inr ⟨hattempts, hstatus, hdue.write hrows fun heq => absurd heq hid⟩

end State

namespace Timely

variable {w w' v : State} {clock clock' : Time}

theorem mono (h : Timely clock w v) (hle : clock ≤ clock') : Timely clock' w v := by
  have hle' : (clock : Int) ≤ clock' := Int.ofNat_le.mpr hle
  refine ⟨fun task htask => (h.ready task htask).mono hle', h.delayed, ?_,
    fun i task delay hi => (h.requests i task delay hi).mono (Int.add_le_add_right hle' _)⟩
  intro i stage hi
  have hstage := h.workers i stage hi
  cases stage with
  | promoting raws => exact fun raw hraw => (hstage raw hraw).mono hle
  | moving raw raws => exact ⟨hstage.1.mono hle', fun raw hraw => (hstage.2 raw hraw).mono hle⟩
  | holding task => exact State.DueBy.mono hstage hle'
  | pushing target =>
    cases target with
    | push task delaySeconds => exact State.DueBy.mono hstage (Int.add_le_add_right hle' _)
    | deadLetter task => trivial
  | _ => trivial

/-- Other rows and calls: what waits or is held stays due, and what is stale stays so. -/
theorem rows (h : Timely clock w v)
    (hdue : ∀ task time, .waiting task ∈ v.tokens ∨ .held task ∈ v.tokens →
      w.DueBy task.id time → w'.DueBy task.id time)
    (hstale : ∀ raw, w.Stale clock raw → w'.Stale clock raw) : Timely clock w' v where
  ready := fun task htask =>
    hdue task _ (.inl (by simp [State.tokens, htask])) (h.ready task htask)
  delayed := fun task due hd =>
    hdue task _ (.inl (State.waiting_of_delayed hd)) (h.delayed task due hd)
  requests := fun i task delay hi =>
    hdue task _ (.inl (State.token_of_request hi rfl)) (h.requests i task delay hi)
  workers := by
    intro i stage hi
    have hstage := h.workers i stage hi
    cases stage with
    | promoting raws => exact fun raw hraw => hstale raw (hstage raw hraw)
    | moving raw raws =>
      exact ⟨hdue raw _ (.inl (State.token_of_worker hi rfl)) hstage.1,
        fun raw hraw => hstale raw (hstage.2 raw hraw)⟩
    | holding task => exact hdue task _ (.inr (State.token_of_worker hi rfl)) hstage
    | pushing target =>
      cases target with
      | push task delaySeconds => exact hdue task _ (.inl (State.token_of_worker hi rfl)) hstage
      | deadLetter task => trivial
    | _ => trivial

theorem congr (h : Timely clock w v) (hrows : w'.rows = w.rows) (hcalls : w'.calls = w.calls) :
    Timely clock w' v := by
  apply h.rows
  · intro task time _ hdue row hrow
    exact hdue row (hrows ▸ hrow)
  · intro raw hstale
    have hwrite : w'.rows = w.rows.modify raw.id fun row => row :=
      hrows.trans (Table.modify_id w.rows raw.id).symm
    obtain ⟨row, hrow, hstale⟩ := hstale
    refine ⟨row, hrows ▸ hrow, ?_⟩
    rcases hstale with hcalled | ⟨hattempts, hstatus, hdue⟩
    · left
      change _ < ((w'.calls.filter (·.id = raw.id)).length : Int)
      rw [hcalls]
      exact hcalled
    · right
      refine ⟨?_, hstatus, fun row hrow => hdue row (hrows ▸ hrow)⟩
      change _ = ((w'.calls.filter (·.id = raw.id)).length : Int)
      rw [hcalls]
      exact hattempts

/-- A write to the row of a task that is called or runs. -/
theorem write (h : Timely clock w v) {id : String} {made : List QueueTask}
    {change : WorkerTask → WorkerTask} (hrows : w'.rows = w.rows.modify id change)
    (hcalls : w'.calls = w.calls ++ made) (hmade : ∀ call ∈ made, call.id = id)
    (hruns : made ≠ [] ∨ ∀ row, w.rows.lookup id = some row → row.status = .running)
    (hclear : (∀ row, (change row).nextRunAt = none) ∨
      ∀ task, .waiting task ∈ v.tokens ∨ .held task ∈ v.tokens → task.id ≠ id) :
    Timely clock w' v := by
  apply h.rows
  · intro task time htask hdue
    apply hdue.write hrows
    intro heq
    rcases hclear with hclear | hother
    · exact hclear
    · exact absurd heq (hother task htask)
  · exact fun raw hstale => hstale.write hrows hcalls hmade hruns

/-- A worker's step, by what it does in each place. -/
theorem setStage (h : Timely clock w v) {x : State} {i : Nat} {stage : Stage}
    (hsame : x.rows = w.rows ∧ x.calls = w.calls ∧ x.workers = v.workers ∧
      x.requests = v.requests)
    (hready : ∀ task ∈ x.ready, w.DueBy task.id clock)
    (hdelayed : ∀ task due, x.delayed.lookup task = some due → w.DueBy task.id due)
    (hstage : stage.Timely w clock) : Timely clock (x.setStage i stage) (x.setStage i stage) := by
  obtain ⟨hrows, hcalls, hworkers, hrequests⟩ := hsame
  have hplaces : Timely clock w (x.setStage i stage) := by
    refine ⟨hready, hdelayed, ?_, ?_⟩
    · intro j stage' hj
      change AList.lookup j (AList.insert i stage x.workers) = some stage' at hj
      rw [Table.lookup_insert_eq] at hj
      split at hj
      · obtain rfl := Option.some.inj hj
        exact hstage
      · rw [hworkers] at hj
        exact h.workers j stage' hj
    · intro j task delay hj
      apply h.requests j task delay
      rw [← hrequests]
      exact hj
  exact hplaces.congr hrows hcalls

end Timely

theorem mem_dueTasks {Member : Type} [DecidableEq Member] {delayed : Table Member Int}
    {now : Time} {raw : Member} (h : raw ∈ dueTasks delayed now) :
    ∃ due, delayed.lookup raw = some due ∧ due ≤ now := by
  obtain ⟨⟨task, due⟩, hmem, rfl⟩ := List.mem_map.mp h
  have hfilter := (List.mergeSort_perm _ _).mem_iff.mp (List.mem_of_mem_take hmem)
  obtain ⟨hentry, hdue⟩ := List.mem_filter.mp hfilter
  rw [Bool.and_eq_true, decide_eq_true_eq, decide_eq_true_eq] at hdue
  exact ⟨due, Table.mem_entries.mp hentry, hdue.2⟩

theorem Sound.runs {bound : Int} {w : State} (h : Sound bound w) {token : Token}
    (htoken : token ∈ w.tokens) (hplace : token.statuses = [.running]) :
    ∀ row, w.rows.lookup token.id = some row → row.status = .running := by
  intro row hrow
  obtain ⟨row', hrow', hfits⟩ := h.fits token htoken
  obtain rfl := Option.some.inj (hrow.symm.trans hrow')
  have hstatus := hfits.mem_statuses
  rw [hplace] at hstatus
  exact List.mem_singleton.mp hstatus

namespace Timely

variable {w v : State} {bound : Int} {clock : Time}

/-- What waits in the delayed set has not been called since it was put there. -/
theorem due_of_stale (hsound : Sound bound w) {raw : QueueTask} (hstale : w.Stale clock raw)
    (hwaits : .waiting raw ∈ w.tokens) : w.DueBy raw.id clock := by
  obtain ⟨row, -, -, hattempts, -⟩ := hsound.fits _ hwaits
  obtain ⟨-, -, hcalled | ⟨-, -, hdue⟩⟩ := hstale
  · have hattempts : raw.attempts = (w.callsOf raw.id).length := hattempts
    omega
  · exact hdue

theorem stale_of_due (hsound : Sound bound w) (h : Timely clock w w) {raw : QueueTask}
    (hraw : raw ∈ dueTasks w.delayed clock) : w.Stale clock raw := by
  obtain ⟨due, hlookup, hdue⟩ := mem_dueTasks hraw
  obtain ⟨row, hrow, -, hattempts, -, hstatus⟩ := hsound.fits _ (State.waiting_of_delayed hlookup)
  refine ⟨row, hrow, .inr ⟨hattempts, ?_, (h.delayed raw due hlookup).mono hdue⟩⟩
  intro hrunning
  rw [hrunning] at hstatus
  exact absurd hstatus (by decide)

/-- A push puts a task where it stays until it is due. -/
theorem pushTask (h : Timely clock w v) {task : QueueTask} {delay : Int}
    (htask : w.DueBy task.id (clock + delay)) :
    (∀ t ∈ (v.pushTask task delay clock).ready, w.DueBy t.id clock) ∧
      ∀ t due, (v.pushTask task delay clock).delayed.lookup t = some due → w.DueBy t.id due := by
  rw [State.pushTask_eq]
  split
  · refine ⟨h.ready, fun t due ht => ?_⟩
    change AList.lookup t (AList.insert task ((clock : Int) + delay) v.delayed) = some due at ht
    rw [Table.lookup_insert_eq] at ht
    split at ht
    · rename_i heq
      obtain rfl := Option.some.inj ht
      rw [heq]
      exact htask
    · exact h.delayed t due ht
  · refine ⟨fun t ht => ?_, h.delayed⟩
    rcases List.mem_append.mp ht with ht | ht
    · exact h.ready t ht
    · rw [List.mem_singleton.mp ht]
      exact htask.mono (by omega)

/-- A step of a worker puts no task where it could run before it is due. -/
theorem advance (h : Timely clock w w) (hsound : Sound bound w) (i : Nat) {env : WorkerEnv}
    (hle : clock ≤ env.now) : Timely env.now (w.advance i env) (w.advance i env) := by
  have h := h.mono hle
  have hadvanced := advance_advanced w i env
  generalize w.advance i env = w' at hadvanced
  cases hadvanced with
  | absent stage => exact h
  | polled stage =>
    apply h.setStage ⟨rfl, rfl, rfl, rfl⟩ h.ready h.delayed
    exact fun raw hraw => stale_of_due hsound h hraw
  | promoted stage | starved stage | returned stage | raised stage =>
    apply h.setStage ⟨rfl, rfl, rfl, rfl⟩ h.ready h.delayed
    trivial
  | buried stage =>
    apply h.setStage
    · exact ⟨rfl, rfl, rfl, rfl⟩
    · exact h.ready
    · exact h.delayed
    · trivial
  | @taken raw raws stage due =>
    have hstale := h.workers i _ stage
    obtain ⟨time, htime⟩ := Option.isSome_iff_exists.mp due
    have hdue := due_of_stale hsound (hstale raw List.mem_cons_self)
      (State.waiting_of_delayed htime)
    apply h.setStage
    · exact ⟨rfl, rfl, rfl, rfl⟩
    · exact h.ready
    · intro task due htask
      by_cases heq : task = raw
      · rw [heq, AList.lookup_erase] at htask
        cases htask
      · rw [AList.lookup_erase_ne heq] at htask
        exact h.delayed task due htask
    · exact ⟨hdue, fun other hother => hstale other (List.mem_cons_of_mem _ hother)⟩
  | @gone raw raws stage due =>
    have hstale := h.workers i _ stage
    apply h.setStage ⟨rfl, rfl, rfl, rfl⟩ h.ready h.delayed
    exact fun other hother => hstale other (List.mem_cons_of_mem _ hother)
  | @moved raw raws stage =>
    obtain ⟨hdue, hrest⟩ := h.workers i _ stage
    apply h.setStage
    · exact ⟨rfl, rfl, rfl, rfl⟩
    · intro task htask
      rcases List.mem_append.mp htask with htask | htask
      · exact h.ready task htask
      · rw [List.mem_singleton.mp htask]
        exact hdue
    · exact h.delayed
    · exact hrest
  | @popped task ready stage first =>
    have hready : ∀ t ∈ task :: ready, w.DueBy t.id env.now := first ▸ h.ready
    apply h.setStage
    · exact ⟨rfl, rfl, rfl, rfl⟩
    · exact fun t ht => hready t (List.mem_cons_of_mem _ ht)
    · exact h.delayed
    · exact hready task List.mem_cons_self
  | @called task stage =>
    have hrows : Timely env.now ({ w with calls := w.calls ++ [task] }.mark task.id fun row =>
        row.markRunning env.workerId task.attempts env.now) w :=
      h.write rfl rfl (by simp) (.inl (by simp)) (.inl fun _ => rfl)
    exact hrows.setStage ⟨rfl, rfl, rfl, rfl⟩ hrows.ready hrows.delayed trivial
  | @succeeded task stage =>
    have hruns := hsound.runs (State.token_of_worker stage rfl) rfl
    have hrows : Timely env.now ({ w with succeeded := w.succeeded ++ [task] }.mark task.id
        fun row => row.markSucceeded env.now) w :=
      h.write rfl (List.append_nil _).symm (by simp) (.inr hruns) (.inl fun _ => rfl)
    exact hrows.setStage ⟨rfl, rfl, rfl, rfl⟩ hrows.ready hrows.delayed trivial
  | @died task error stage =>
    have hruns := hsound.runs (State.token_of_worker stage rfl) rfl
    have hrows : Timely env.now (w.mark task.id fun row =>
        row.markDead task.attempts error.text env.now) w :=
      h.write rfl (List.append_nil _).symm (by simp) (.inr hruns) (.inl fun _ => rfl)
    exact hrows.setStage ⟨rfl, rfl, rfl, rfl⟩ hrows.ready hrows.delayed trivial
  | @retried task delaySeconds error stage =>
    have htoken := State.token_of_worker stage rfl
    have hruns := hsound.runs htoken rfl
    -- The failing task is in no place whose tasks wait for their time.
    have hother : ∀ t, .waiting t ∈ w.tokens ∨ .held t ∈ w.tokens → t.id ≠ task.id := by
      rintro t (ht | ht) heq
      · cases List.inj_on_of_nodup_map hsound.distinct ht htoken heq
      · cases List.inj_on_of_nodup_map hsound.distinct ht htoken heq
    have hrows : Timely env.now (w.mark task.id fun row =>
        row.markRetrying task.attempts error.text delaySeconds env.now) w :=
      h.write rfl (List.append_nil _).symm (by simp) (.inr hruns) (.inr hother)
    apply hrows.setStage ⟨rfl, rfl, rfl, rfl⟩ hrows.ready hrows.delayed
    intro row hrow next hnext
    rw [State.mark, Table.lookup_modify_self] at hrow
    obtain ⟨before, -, rfl⟩ := Option.map_eq_some_iff.mp hrow
    obtain rfl := Option.some.inj hnext
    exact le_rfl
  | @pushed task delaySeconds stage =>
    obtain ⟨hready, hdelayed⟩ := h.pushTask (h.workers i _ stage)
    obtain ⟨hrows, hcalls, -, hworkers, hrequests, -⟩ :=
      w.pushTask_frame task (delaySeconds * 1000000) env.now
    exact h.setStage ⟨hrows, hcalls, hworkers, hrequests⟩ hready hdelayed trivial

/-- A fresh row concerns no task that is there. -/
theorem insert (h : Timely clock w w) (hsound : Sound bound w) {x : State} {id : String}
    {row : WorkerTask} (hfresh : w.rows.lookup id = none)
    (hrows : x.rows = AList.insert id row w.rows) (hcalls : x.calls = w.calls) :
    Timely clock x w := by
  have hknown : ∀ other before, w.rows.lookup other = some before →
      x.rows.lookup other = some before := by
    intro other before hbefore
    have hne : other ≠ id := by
      rintro rfl
      rw [hfresh] at hbefore
      cases hbefore
    rw [hrows, AList.lookup_insert_ne hne, hbefore]
  have hdue : ∀ other before time, w.rows.lookup other = some before → w.DueBy other time →
      x.DueBy other time := by
    intro other before time hbefore hdue row hrow
    rw [hknown other before hbefore] at hrow
    obtain rfl := Option.some.inj hrow
    exact hdue before hbefore
  apply h.rows
  · rintro task time (htask | htask) htime
    · obtain ⟨before, hbefore, -⟩ := hsound.fits _ htask
      exact hdue task.id before time hbefore htime
    · obtain ⟨before, hbefore, -⟩ := hsound.fits _ htask
      exact hdue task.id before time hbefore htime
  · rintro raw ⟨before, hbefore, hstale⟩
    have hsame : x.callsOf raw.id = w.callsOf raw.id := by
      rw [State.callsOf, hcalls]
      rfl
    refine ⟨before, hknown raw.id before hbefore, ?_⟩
    rw [hsame]
    rcases hstale with hcalled | ⟨hattempts, hstatus, htime⟩
    · exact .inl hcalled
    · exact .inr ⟨hattempts, hstatus, hdue raw.id before _ hbefore htime⟩

/-- A new task is in no place where it could run before its delay is over. -/
theorem createTask (h : Timely clock w w) (hsound : Sound bound w) {settingsMaxAttempts : Int}
    {requestId : Nat} {id original taskType : String} {payload : JsonObject} {limits : TaskLimits}
    {delay : Int} {w' : State}
    (hcreate : w.createTask settingsMaxAttempts requestId id original taskType payload limits delay
      clock = w') : Timely clock w' w' := by
  unfold State.createTask at hcreate
  split at hcreate
  · exact hcreate ▸ h
  · rename_i hfresh
    have hfresh := Option.not_isSome_iff_eq_none.mp hfresh
    have hrows : w'.rows = AList.insert id (createWorkerTask settingsMaxAttempts taskType payload id
        limits.maxAttempts delay clock) w.rows := by
      rw [← hcreate]
      rfl
    have hinsert : Timely clock w' w := h.insert hsound hfresh hrows (by rw [← hcreate]; rfl)
    refine ⟨?_, ?_, ?_, ?_⟩
    · exact hcreate ▸ hinsert.ready
    · exact hcreate ▸ hinsert.delayed
    · exact hcreate ▸ hinsert.workers
    · intro i task taskDelay hi
      rw [← hcreate] at hi
      change AList.lookup i (AList.insert requestId _ w.requests) = some _ at hi
      rw [Table.lookup_insert_eq] at hi
      split at hi
      · cases hi
        intro row hrow next hnext
        rw [hrows] at hrow
        change AList.lookup id (AList.insert id _ w.rows) = some row at hrow
        rw [AList.lookup_insert] at hrow
        obtain rfl := Option.some.inj hrow
        change next ∈ (if 0 < delay then some ((clock : Int) + delay) else none) at hnext
        split at hnext
        · obtain rfl := Option.some.inj hnext
          exact le_rfl
        · cases hnext
      · exact hinsert.requests i task taskDelay hi

theorem serve (h : Timely clock w w) (hsound : Sound bound w) (settingsMaxAttempts : Int)
    (requestId : Nat) (id : String) (limits : TaskLimits) :
    let w' := w.serve settingsMaxAttempts requestId id limits clock
    Timely clock w' w' := by
  intro w'
  unfold w' State.serve
  cases hrequest : w.requests.lookup requestId with
  | none => exact h
  | some request =>
    cases request with
    | retrying row => exact h.createTask hsound rfl
    | pushing task delay =>
      obtain ⟨hready, hdelayed⟩ := h.pushTask (h.requests requestId task delay hrequest)
      obtain ⟨hrows, hcalls, -, hworkers, -⟩ := w.pushTask_frame task delay clock
      have hplaces : Timely clock w { w.pushTask task delay clock with
          requests := AList.erase requestId w.requests } := by
        refine ⟨hready, hdelayed, ?_, ?_⟩
        · intro i stage hi
          change (w.pushTask task delay clock).workers.lookup i = some stage at hi
          rw [hworkers] at hi
          exact h.workers i stage hi
        · intro i other otherDelay hi
          change AList.lookup i (AList.erase requestId w.requests) = some _ at hi
          by_cases heq : i = requestId
          · rw [heq, AList.lookup_erase] at hi
            cases hi
          · rw [AList.lookup_erase_ne heq] at hi
            exact h.requests i other otherDelay hi
      exact hplaces.congr hrows hcalls

/-- A step keeps the invariant, and the clock moves on to its time. -/
theorem step (h : Timely clock w w) (hsound : Sound bound w) (settingsMaxAttempts : Int)
    {e : Event} (hle : ∀ now ∈ e.time, clock ≤ now) :
    Timely (e.time.getD clock) (w.step settingsMaxAttempts e) (w.step settingsMaxAttempts e) := by
  cases e with
  | enqueue requestId id taskType payload limits delay now =>
    have h := h.mono (hle now rfl)
    simp only [State.step]
    split
    · exact h
    · exact h.createTask hsound rfl
  | retry requestId taskId =>
    simp only [State.step, State.readRetried]
    split
    · exact h
    · split
      · exact h
      · split
        · exact h
        · rename_i row _ _
          refine Timely.congr (w := w) ⟨h.ready, h.delayed, h.workers, ?_⟩ rfl rfl
          intro i task delay hi
          change AList.lookup i (AList.insert requestId _ w.requests) = some _ at hi
          rw [Table.lookup_insert_eq] at hi
          split at hi
          · cases hi
          · exact h.requests i task delay hi
  | serve requestId id limits now => exact (h.mono (hle now rfl)).serve hsound ..
  | start workerId =>
    simp only [State.step]
    split
    · exact h
    · apply h.setStage ⟨rfl, rfl, rfl, rfl⟩ h.ready h.delayed
      trivial
  | advance i env => exact h.advance hsound i (hle env.now rfl)

end Timely

theorem Timely.empty (clock : Time) : Timely clock .empty .empty where
  ready := by simp [State.empty]
  delayed := by simp [State.empty]
  workers := by simp [State.empty]
  requests := by simp [State.empty]

/-- In every state that a run with a clock passes through, the tasks are timely when the next
step is taken. -/
theorem timely_steps {settingsMaxAttempts bound : Int} {w : State} {clock : Time}
    (h : Timely clock w w) (hsound : Sound bound w) {es : List Event} (htimed : Timed clock es)
    (hbound : ∀ e ∈ es, ∀ n ∈ e.limit, n ≤ bound) :
    ∀ x ∈ (taskRuns settingsMaxAttempts).steps w es, ∀ now ∈ x.2.time, Timely now x.1 x.1 := by
  induction es generalizing w clock with
  | nil => exact fun x hx => absurd hx List.not_mem_nil
  | cons e es ih =>
    obtain ⟨hle, hrest⟩ := htimed
    intro x hx
    rcases List.mem_cons.mp hx with rfl | hx
    · exact fun now hnow => h.mono (hle now hnow)
    · have hchange : Change bound (e.retried w) w (w.step settingsMaxAttempts e) :=
        step_change hsound.distinct e (hbound e List.mem_cons_self)
      exact ih (h.step hsound settingsMaxAttempts hle) (hsound.change hchange) hrest
        (fun e' he' => hbound e' (List.mem_cons_of_mem _ he')) x hx

/-- While the clock does not run backwards, no handler is called before the time of the next
run that the row of its task shows. -/
theorem handlers_run_when_due (settingsMaxAttempts : Int) (es : List Event) (htimed : Timed 0 es) :
    ∀ w i env task, (w, .advance i env) ∈ (taskRuns settingsMaxAttempts).steps
        (taskRuns settingsMaxAttempts).init es →
      w.workers.lookup i = some (.holding task) →
        ∃ row, w.rows.lookup task.id = some row ∧ ∀ next ∈ row.nextRunAt, next ≤ (env.now : Int) := by
  intro w i env task hstep hstage
  obtain ⟨bound, hbound⟩ := exists_bound es
  have htimely : Timely env.now w w :=
    timely_steps (Timely.empty 0) (Sound.empty bound) htimed hbound _ hstep env.now rfl
  obtain ⟨before, after, rfl, rfl⟩ := Machine.split_of_mem_steps hstep
  have hsound : Sound bound ((taskRuns settingsMaxAttempts).runFrom .empty before) :=
    (Sound.empty bound).run fun e he => hbound e (List.mem_append_left _ he)
  obtain ⟨row, hrow, -⟩ := hsound.fits _ (State.token_of_worker hstage rfl)
  exact ⟨row, hrow, htimely.workers i _ hstage row hrow⟩

def retriedLater : List Event :=
  [.enqueue 0 "t" "scan" [] ⟨3, 60⟩ 0 0, .serve 0 "t" ⟨3, 60⟩ 0, .start 1] ++
    List.replicate 4 (.advance 1 ⟨0, "worker", none, ⟨3, 60⟩⟩) ++
    List.replicate 3 (.advance 1 ⟨0, "worker", some ⟨.osError, "refused", 0⟩, ⟨3, 60⟩⟩) ++
    List.replicate 5 (.advance 1 ⟨60000000, "worker", none, ⟨3, 60⟩⟩)

theorem handlers_run_when_due_later :
    let w := (taskRuns 3).runFrom (taskRuns 3).init retriedLater
    ∃ row, w.rows.lookup "t" = some row ∧ ∀ next ∈ row.nextRunAt, next ≤ 60000000 := by
  intro w
  let again : WorkerEnv := ⟨60000000, "worker", none, ⟨3, 60⟩⟩
  have htimed : Timed 0 (retriedLater ++ [.advance 1 again]) := by
    simp [retriedLater, again, Timed, Event.time, List.replicate]
  have hstage : w.workers.lookup 1 =
      some (.holding ⟨"t", "scan", [], 1, 3, some "refused"⟩) := by
    decide +kernel
  exact handlers_run_when_due 3 (retriedLater ++ [.advance 1 again]) htimed w 1 again _
    (Machine.mem_steps_of_split _ retriedLater [] _) hstage

end PluginRegistry.TaskRuns
