import PluginRegistry.Proofs.Invites
import PluginRegistry.Services.SubmissionService

namespace PluginRegistry
open Lib

def DecisionStage.isOpen : DecisionStage → Bool
  | .committed | .refreshed _ => true
  | _ => false

namespace SubmissionState

def decisionsOn (w : SubmissionState) (s : Nat) : List Decision :=
  w.decisions.filter fun d => d.submissionId = s

def tasksOn (w : SubmissionState) (s : Nat) : List SubmitTask :=
  w.tasks.filter fun t => t.submissionId = s

def Settled (w : SubmissionState) (s : Nat) : Prop :=
  ∀ i call, w.calls.lookup i = some call → call.request.submissionId = s →
    call.stage.isOpen = false

/-- A submission is decided once, and a `submit` task follows exactly an
acceptance, once. -/
structure DecidedOnce (w : SubmissionState) : Prop where
  once : ∀ s, (w.decisionsOn s).length ≤ 1
  atMostOneTask : ∀ s, (w.tasksOn s).length ≤ 1
  onlyAccepted : ∀ s, w.tasksOn s ≠ [] → ∃ d ∈ w.decisionsOn s, d.verdict = .accept
  followed : ∀ s, w.Settled s → ∀ d ∈ w.decisionsOn s, d.verdict = .accept → w.tasksOn s ≠ []

structure Tracked (w : SubmissionState) : Prop where
  pending : ∀ s row, w.submissions.lookup s = some row →
    (row.status = .pendingReview ↔ w.decisionsOn s = [])
  known : ∀ d ∈ w.decisions, (w.submissions.lookup d.submissionId).isSome
  recorded : ∀ i call, w.calls.lookup i = some call → call.stage.isOpen = true →
    ⟨i, call.request.submissionId, call.request.verdict⟩ ∈ w.decisions
  earned : ∀ t ∈ w.tasks, ⟨t.callId, t.submissionId, .accept⟩ ∈ w.decisions ∧
    ∃ call, w.calls.lookup t.callId = some call ∧ call.stage.isOpen = false
  accepting : ∀ i call row, w.calls.lookup i = some call → call.stage = .refreshed row →
    call.request.verdict = .accept
  unstarted : ∀ i call, w.calls.lookup i = some call →
    (call.stage = .started ∨ ∃ row, call.stage = .read row) → ∀ t ∈ w.tasks, t.callId ≠ i

end SubmissionState

def SubmissionEvent.overwrites (w : SubmissionState) : SubmissionEvent → Bool
  | .advance callId env => (w.calls.lookup callId).any fun call =>
      match call.stage with
      | .read loaded => loaded.status = .pendingReview && !env.fault .commit &&
          (w.submissions.lookup call.request.submissionId).any fun row =>
            row.status ≠ .pendingReview
      | _ => false
  | _ => false

def SubmissionEvent.dropsTask (w : SubmissionState) : SubmissionEvent → Bool
  | .advance callId env => (w.calls.lookup callId).any fun call =>
      match call.stage with
      | .committed => call.request.verdict = .accept && env.fault .refresh
      | .refreshed _ => env.fault .enqueue
      | _ => false
  | _ => false

namespace SubmissionState

variable {w : SubmissionState}

theorem mem_decisionsOn {d : Decision} {s : Nat} :
    d ∈ w.decisionsOn s ↔ d ∈ w.decisions ∧ d.submissionId = s := by
  simp [decisionsOn]

theorem mem_tasksOn {t : SubmitTask} {s : Nat} :
    t ∈ w.tasksOn s ↔ t ∈ w.tasks ∧ t.submissionId = s := by
  simp [tasksOn]

/-- Two decisions on one submission are the same one. -/
theorem DecidedOnce.unique (h : w.DecidedOnce) {d e : Decision} (hd : d ∈ w.decisions)
    (he : e ∈ w.decisions) (hs : d.submissionId = e.submissionId) : d = e := by
  have hdm : d ∈ w.decisionsOn e.submissionId := mem_decisionsOn.mpr ⟨hd, hs⟩
  have hem : e ∈ w.decisionsOn e.submissionId := mem_decisionsOn.mpr ⟨he, rfl⟩
  have hlen := h.once e.submissionId
  match hl : w.decisionsOn e.submissionId with
  | [] =>
    rw [hl] at hdm
    cases hdm
  | [x] =>
    rw [hl] at hdm hem
    rw [List.mem_singleton.mp hdm, List.mem_singleton.mp hem]
  | x :: y :: rest =>
    rw [hl] at hlen
    simp at hlen

theorem lookup_setStage {i j : Nat} {call c : DecisionCall} {stage : DecisionStage}
    (h : (w.setStage i call stage).calls.lookup j = some c) :
    (j = i ∧ c = { call with stage }) ∨ (j ≠ i ∧ w.calls.lookup j = some c) := by
  simp only [setStage, Table.lookup_insert_eq] at h
  split at h
  · rename_i hji
    exact .inl ⟨hji, (Option.some.inj h).symm⟩
  · rename_i hji
    exact .inr ⟨hji, h⟩

/-- Moving a request on keeps the records tracked. -/
theorem Tracked.setStage (h : w.Tracked) {i : Nat} {call : DecisionCall} {stage : DecisionStage}
    (hopen : stage.isOpen = true →
      ⟨i, call.request.submissionId, call.request.verdict⟩ ∈ w.decisions ∧
        ∀ t ∈ w.tasks, t.callId ≠ i)
    (haccept : ∀ row, stage = .refreshed row → call.request.verdict = .accept)
    (hearly : (stage = .started ∨ ∃ row, stage = .read row) → ∀ t ∈ w.tasks, t.callId ≠ i) :
    (w.setStage i call stage).Tracked where
  pending := h.pending
  known := h.known
  recorded j c hj hc := by
    rcases lookup_setStage hj with ⟨rfl, rfl⟩ | ⟨-, hj⟩
    · exact (hopen hc).1
    · exact h.recorded j c hj hc
  earned t ht := by
    obtain ⟨hd, c, hc, hclosed⟩ := h.earned t ht
    refine ⟨hd, ?_⟩
    by_cases hti : t.callId = i
    · refine ⟨{ call with stage }, ?_, ?_⟩
      · rw [SubmissionState.setStage, Table.lookup_insert_eq, if_pos hti]
      · by_contra hs
        exact (hopen (Bool.not_eq_false _ ▸ hs)).2 t ht hti
    · refine ⟨c, ?_, hclosed⟩
      simp only [SubmissionState.setStage, Table.lookup_insert_eq, if_neg hti]
      exact hc
  accepting j c row hj hc := by
    rcases lookup_setStage hj with ⟨rfl, rfl⟩ | ⟨-, hj⟩
    · exact haccept row hc
    · exact h.accepting j c row hj hc
  unstarted j c hj hc := by
    rcases lookup_setStage hj with ⟨rfl, rfl⟩ | ⟨-, hj⟩
    · exact hearly hc
    · exact h.unstarted j c hj hc

/-- A request that ends keeps the records tracked. -/
theorem Tracked.close (h : w.Tracked) (i : Nat) (call : DecisionCall) {stage : DecisionStage}
    (hs : stage.isOpen = false) (hstart : stage ≠ .started) (hread : ∀ row, stage ≠ .read row) :
    (w.setStage i call stage).Tracked := by
  apply h.setStage
  · intro hc
    rw [hs] at hc
    cases hc
  · rintro row rfl
    cases hs
  · rintro (hc | ⟨row, hc⟩)
    · exact absurd hc hstart
    · exact absurd hc (hread row)

theorem settled_setStage_iff {i : Nat} {call : DecisionCall} {stage : DecisionStage} {s : Nat}
    (hi : w.calls.lookup i = some call) (hs : stage.isOpen = call.stage.isOpen) :
    (w.setStage i call stage).Settled s ↔ w.Settled s := by
  constructor
  · intro h j c hj hc
    by_cases hji : j = i
    · subst hji
      obtain rfl := Option.some.inj (hi.symm.trans hj)
      rw [← hs]
      exact h j { call with stage } (by simp [setStage]) hc
    · exact h j c (by simpa [setStage, Table.lookup_insert_eq, hji] using hj) hc
  · intro h j c hj hc
    rcases lookup_setStage hj with ⟨rfl, rfl⟩ | ⟨-, hj⟩
    · exact hs.trans (h j call hi hc)
    · exact h j c hj hc

/-- A request that neither commits nor ends an open decision changes nothing that counts. -/
theorem setStage_decidedOnce {i : Nat} {call : DecisionCall} {stage : DecisionStage}
    (h : w.DecidedOnce) (hi : w.calls.lookup i = some call)
    (hs : stage.isOpen = call.stage.isOpen) : (w.setStage i call stage).DecidedOnce where
  once := h.once
  atMostOneTask := h.atMostOneTask
  onlyAccepted := h.onlyAccepted
  followed s hset := h.followed s ((settled_setStage_iff hi hs).mp hset)

/-- While a request is open, no task exists for its submission. -/
theorem tasksOn_open (ht : w.Tracked) (h : w.DecidedOnce) {i : Nat} {call : DecisionCall}
    (hi : w.calls.lookup i = some call) (ho : call.stage.isOpen = true) :
    w.tasksOn call.request.submissionId = [] := by
  apply List.eq_nil_iff_forall_not_mem.mpr
  intro t hm
  obtain ⟨hmem, hsub⟩ := mem_tasksOn.mp hm
  obtain ⟨hd, c, hc, hclosed⟩ := ht.earned t hmem
  have hsame := h.unique hd (ht.recorded i call hi ho) hsub
  have hid : t.callId = i := congrArg Decision.callId hsame
  rw [hid, hi] at hc
  obtain rfl := Option.some.inj hc
  rw [ho] at hclosed
  cases hclosed

/-- Nobody else is open on the submission of an open request. -/
theorem settled_close (ht : w.Tracked) (h : w.DecidedOnce) {i : Nat} {call : DecisionCall}
    {stage : DecisionStage} (hi : w.calls.lookup i = some call) (ho : call.stage.isOpen = true)
    (hs : stage.isOpen = false) :
    (w.setStage i call stage).Settled call.request.submissionId := by
  intro j c hj hc
  rcases lookup_setStage hj with ⟨rfl, rfl⟩ | ⟨hji, hj⟩
  · exact hs
  · by_contra hopen
    rw [Bool.not_eq_false] at hopen
    have hsame := h.unique (ht.recorded j c hj hopen) (ht.recorded i call hi ho) hc
    exact hji (congrArg Decision.callId hsame)

/-- Ending an open request without a task is right exactly where nothing was accepted. -/
theorem close_decidedOnce_iff (ht : w.Tracked) (h : w.DecidedOnce) {i : Nat} {call : DecisionCall}
    {stage : DecisionStage} (hi : w.calls.lookup i = some call) (ho : call.stage.isOpen = true)
    (hs : stage.isOpen = false) :
    (w.setStage i call stage).DecidedOnce ↔ call.request.verdict ≠ .accept := by
  have hmem := ht.recorded i call hi ho
  constructor
  · intro hnew hacc
    refine hnew.followed _ (settled_close ht h hi ho hs) _ (mem_decisionsOn.mpr ⟨hmem, rfl⟩) hacc ?_
    exact tasksOn_open ht h hi ho
  · intro hne
    refine ⟨h.once, h.atMostOneTask, h.onlyAccepted, fun s hset d hd hacc => ?_⟩
    obtain ⟨hdm, hds⟩ := mem_decisionsOn.mp hd
    by_cases hsub : s = call.request.submissionId
    · have hsame := h.unique hdm hmem (hds.trans hsub)
      exact absurd ((congrArg Decision.verdict hsame).symm.trans hacc) hne
    · refine h.followed s (fun j c hj hc => ?_) d hd hacc
      by_cases hji : j = i
      · subst hji
        obtain rfl := Option.some.inj (hi.symm.trans hj)
        exact absurd hc.symm hsub
      · exact hset j c (by simpa [setStage, Table.lookup_insert_eq, hji] using hj) hc

def deciding (w : SubmissionState) (i : Nat) (call : DecisionCall) (loaded : Submission)
    (now : Time) : SubmissionState :=
  { w with
    submissions := w.submissions.modify call.request.submissionId fun stored =>
      stored.decided loaded call.request now
    decisions := ⟨i, call.request.submissionId, call.request.verdict⟩ :: w.decisions }.setStage i
      call .committed

theorem decisionsOn_deciding {i : Nat} {call : DecisionCall} {loaded : Submission} {now : Time}
    (s : Nat) :
    (w.deciding i call loaded now).decisionsOn s =
      if call.request.submissionId = s then
        ⟨i, call.request.submissionId, call.request.verdict⟩ :: w.decisionsOn s
      else w.decisionsOn s := by
  simp only [deciding, setStage, decisionsOn, List.filter_cons, decide_eq_true_eq]

theorem decided_status (stored loaded : Submission) (request : DecisionRequest) (now : Time) :
    (stored.decided loaded request now).status ≠ .pendingReview := by
  unfold Submission.decided
  cases request.verdict <;> simp [Verdict.status]

/-- A decision writes to the row that it has loaded, whatever the row is by then. -/
theorem Tracked.deciding (h : w.Tracked) {i : Nat} {call : DecisionCall} {loaded row : Submission}
    {now : Time} (hi : w.calls.lookup i = some call) (hs : call.stage = .read loaded)
    (hrow : w.submissions.lookup call.request.submissionId = some row) :
    (w.deciding i call loaded now).Tracked := by
  have hrows : ({ w with
      submissions := w.submissions.modify call.request.submissionId fun stored =>
        stored.decided loaded call.request now
      decisions := ⟨i, call.request.submissionId, call.request.verdict⟩ :: w.decisions } :
        SubmissionState).Tracked := by
    refine ⟨?_, ?_, ?_, ?_, h.accepting, h.unstarted⟩
    · intro s r hr
      simp only [Table.lookup_modify] at hr
      split at hr
      · rename_i hsub
        obtain ⟨old, -, rfl⟩ := Option.map_eq_some_iff.mp hr
        refine iff_of_false (decided_status _ _ _ _) ?_
        simp [decisionsOn, hsub]
      · rename_i hsub
        rw [h.pending s r hr]
        simp [decisionsOn, Ne.symm hsub]
    · intro d hd
      simp only [Table.lookup_modify]
      rcases List.mem_cons.mp hd with rfl | hd
      · simp [hrow]
      · split
        · simp [h.known d hd]
        · exact h.known d hd
    · intro j c hj hc
      exact List.mem_cons_of_mem _ (h.recorded j c hj hc)
    · intro t ht
      obtain ⟨hd, hc⟩ := h.earned t ht
      exact ⟨List.mem_cons_of_mem _ hd, hc⟩
  refine hrows.setStage (fun _ => ⟨List.mem_cons_self, ?_⟩) (fun _ hc => by cases hc) ?_
  · exact h.unstarted i call hi (.inr ⟨loaded, hs⟩)
  · rintro (hc | ⟨_, hc⟩) <;> cases hc

/-- A commit is the only decision exactly if the submission was still pending. -/
theorem deciding_decidedOnce_iff (now : Time) (ht : w.Tracked) (h : w.DecidedOnce) {i : Nat}
    {call : DecisionCall} {loaded row : Submission}
    (hi : w.calls.lookup i = some call)
    (hrow : w.submissions.lookup call.request.submissionId = some row) :
    (w.deciding i call loaded now).DecidedOnce ↔ row.status = .pendingReview := by
  rw [ht.pending _ row hrow]
  constructor
  · intro hnew
    have hlen := hnew.once call.request.submissionId
    rw [decisionsOn_deciding, if_pos rfl, List.length_cons] at hlen
    exact List.length_eq_zero_iff.mp (by omega)
  · intro hnone
    refine ⟨fun s => ?_, h.atMostOneTask, fun s hne => ?_, fun s hset d hd hacc => ?_⟩
    · rw [decisionsOn_deciding]
      split
      · rename_i hsub
        rw [← hsub, hnone]
        exact Nat.le_refl 1
      · exact h.once s
    · obtain ⟨d, hd, hacc⟩ := h.onlyAccepted s hne
      refine ⟨d, ?_, hacc⟩
      rw [decisionsOn_deciding]
      split
      · exact List.mem_cons_of_mem _ hd
      · exact hd
    · have hne : call.request.submissionId ≠ s := by
        intro hsub
        have := hset i { call with stage := .committed } (by simp [deciding, setStage]) hsub
        cases this
      rw [decisionsOn_deciding, if_neg hne] at hd
      refine h.followed s (fun j c hj hc => ?_) d hd hacc
      by_cases hji : j = i
      · subst hji
        obtain rfl := Option.some.inj (hi.symm.trans hj)
        exact absurd hc hne
      · exact hset j c (by simpa [deciding, setStage, Table.lookup_insert_eq, hji] using hj) hc

def enqueued (w : SubmissionState) (i : Nat) (call : DecisionCall) (payload : SubmitPayload) :
    SubmissionState :=
  { w with tasks := ⟨i, call.request.submissionId, payload⟩ :: w.tasks }.setStage i call .done

theorem Tracked.enqueued (h : w.Tracked) {i : Nat} {call : DecisionCall} {row : Submission}
    (payload : SubmitPayload) (hi : w.calls.lookup i = some call)
    (hs : call.stage = .refreshed row) : (w.enqueued i call payload).Tracked := by
  have hmem := h.recorded i call hi (by rw [hs]; rfl)
  rw [h.accepting i call row hi hs] at hmem
  refine ⟨h.pending, h.known, ?_, ?_, ?_, ?_⟩
  · intro j c hj hc
    rcases lookup_setStage hj with ⟨rfl, rfl⟩ | ⟨-, hj⟩
    · cases hc
    · exact h.recorded j c hj hc
  · intro t ht
    have hself : (w.enqueued i call payload).calls.lookup i =
        some { call with stage := .done } := by
      simp [SubmissionState.enqueued, SubmissionState.setStage]
    rcases List.mem_cons.mp ht with rfl | ht
    · exact ⟨hmem, _, hself, rfl⟩
    · obtain ⟨hd, c, hc, hclosed⟩ := h.earned t ht
      by_cases hti : t.callId = i
      · exact ⟨hd, { call with stage := .done }, by rw [hti]; exact hself, rfl⟩
      · refine ⟨hd, c, ?_, hclosed⟩
        simp only [SubmissionState.enqueued, SubmissionState.setStage, Table.lookup_insert_eq,
          if_neg hti]
        exact hc
  · intro j c r hj hc
    rcases lookup_setStage hj with ⟨rfl, rfl⟩ | ⟨-, hj⟩
    · cases hc
    · exact h.accepting j c r hj hc
  · intro j c hj hc t ht
    rcases lookup_setStage hj with ⟨rfl, rfl⟩ | ⟨hji, hj⟩
    · rcases hc with hc | ⟨_, hc⟩ <;> cases hc
    · rcases List.mem_cons.mp ht with rfl | ht
      · exact Ne.symm hji
      · exact h.unstarted j c hj hc t ht

/-- Enqueueing ends an accepted request rightly. -/
theorem enqueued_decidedOnce (ht : w.Tracked) (h : w.DecidedOnce) {i : Nat} {call : DecisionCall}
    {row : Submission} (payload : SubmitPayload) (hi : w.calls.lookup i = some call)
    (hs : call.stage = .refreshed row) : (w.enqueued i call payload).DecidedOnce := by
  have ho : call.stage.isOpen = true := by rw [hs]; rfl
  have hmem := ht.recorded i call hi ho
  rw [ht.accepting i call row hi hs] at hmem
  have hempty := tasksOn_open ht h hi ho
  have htasks : ∀ s, (w.enqueued i call payload).tasksOn s =
      if call.request.submissionId = s then
        ⟨i, call.request.submissionId, payload⟩ :: w.tasksOn s
      else w.tasksOn s := by
    intro s
    simp only [SubmissionState.enqueued, setStage, tasksOn, List.filter_cons, decide_eq_true_eq]
  refine ⟨h.once, fun s => ?_, fun s hne => ?_, fun s hset d hd hacc => ?_⟩
  · rw [htasks]
    split
    · rename_i hsub
      rw [← hsub, hempty]
      exact Nat.le_refl 1
    · exact h.atMostOneTask s
  · rw [htasks] at hne
    split at hne
    · rename_i hsub
      exact ⟨_, mem_decisionsOn.mpr ⟨hmem, hsub⟩, rfl⟩
    · exact h.onlyAccepted s hne
  · rw [htasks]
    split
    · exact List.cons_ne_nil _ _
    · rename_i hsub
      refine h.followed s (fun j c hj hc => ?_) d hd hacc
      by_cases hji : j = i
      · subst hji
        obtain rfl := Option.some.inj (hi.symm.trans hj)
        exact absurd hc hsub
      · refine hset j c ?_ hc
        simpa [SubmissionState.enqueued, setStage, Table.lookup_insert_eq, hji] using hj

/-- A stage of a call keeps the record of the decisions and their tasks. -/
theorem advance_tracked (h : w.Tracked) (i : Nat) (env : DecisionEnv) :
    (w.advance i env).Tracked := by
  unfold advance
  cases hi : w.calls.lookup i with
  | none => exact h
  | some call =>
    have hclose : ∀ stage : DecisionStage, stage.isOpen = false → stage ≠ .started →
        (∀ row, stage ≠ .read row) → (w.setStage i call stage).Tracked :=
      fun stage hs h1 h2 => h.close i call hs h1 h2
    dsimp only
    cases hs : call.stage with
    | started =>
      dsimp only
      split
      · exact hclose .failed rfl (by simp) (by simp)
      · cases w.submissions.lookup call.request.submissionId with
        | none => exact hclose .notFound rfl (by simp) (by simp)
        | some row =>
          refine h.setStage (fun hc => by cases hc) (fun _ hc => by cases hc) fun _ => ?_
          exact h.unstarted i call hi (.inl hs)
    | read loaded =>
      dsimp only [markSubmissionDecision]
      split
      · exact hclose .refused rfl (by simp) (by simp)
      · split
        · exact hclose .failed rfl (by simp) (by simp)
        · cases hrow : w.submissions.lookup call.request.submissionId with
          | none => exact hclose .failed rfl (by simp) (by simp)
          | some row => exact h.deciding hi hs hrow
    | committed =>
      dsimp only
      split
      · exact hclose .failed rfl (by simp) (by simp)
      · cases w.submissions.lookup call.request.submissionId with
        | none => exact hclose .failed rfl (by simp) (by simp)
        | some row =>
          dsimp only
          split
          · rename_i hacc
            have hopen : call.stage.isOpen = true := by rw [hs]; rfl
            refine h.setStage (fun _ => ⟨h.recorded i call hi hopen, ?_⟩) (fun _ _ => hacc) ?_
            · rintro t htm rfl
              obtain ⟨-, c, hc, hclosed⟩ := h.earned t htm
              obtain rfl := Option.some.inj (hi.symm.trans hc)
              rw [hopen] at hclosed
              cases hclosed
            · rintro (hc | ⟨_, hc⟩) <;> cases hc
          · exact hclose .done rfl (by simp) (by simp)
    | refreshed row =>
      dsimp only
      split
      · exact hclose .failed rfl (by simp) (by simp)
      · exact h.enqueued _ hi hs
    | done => exact h
    | notFound => exact h
    | refused => exact h
    | failed => exact h

theorem step_tracked (h : w.Tracked) (e : SubmissionEvent) : (w.step e).Tracked := by
  cases e with
  | create submissionId repoUrl refType ref =>
    rw [step]
    split
    · exact h
    · rename_i hnew
      refine ⟨fun s row hr => ?_, fun d hd => ?_, h.recorded, h.earned, h.accepting, h.unstarted⟩
      · rw [Table.lookup_insert_eq] at hr
        split at hr
        · rename_i hsub
          obtain rfl := Option.some.inj hr
          refine iff_of_true rfl (List.eq_nil_iff_forall_not_mem.mpr fun d hd => hnew ?_)
          obtain ⟨hd, hds⟩ := mem_decisionsOn.mp hd
          rw [← hsub, ← hds]
          exact h.known d hd
        · exact h.pending s row hr
      · rw [Table.lookup_insert_eq]
        split
        · rfl
        · exact h.known d hd
  | call callId request =>
    rw [step]
    split
    · exact h
    · rename_i hnew
      rw [Option.not_isSome_iff_eq_none] at hnew
      have hnone : ∀ t ∈ w.tasks, t.callId ≠ callId := by
        rintro t ht rfl
        obtain ⟨-, c, hc, -⟩ := h.earned t ht
        cases hnew.symm.trans hc
      change (w.setStage callId ⟨request, .started⟩ .started).Tracked
      exact h.setStage (fun hc => by cases hc) (fun _ hc => by cases hc) fun _ => hnone
  | advance callId env => exact advance_tracked h callId env

/-- One stage: only a commit over another decision, or a task that is not queued, breaks it. -/
theorem advance_decidedOnce_iff (ht : w.Tracked) (h : w.DecidedOnce) (i : Nat)
    (env : DecisionEnv) :
    (w.advance i env).DecidedOnce ↔
      (SubmissionEvent.advance i env).overwrites w = false ∧
        (SubmissionEvent.advance i env).dropsTask w = false := by
  unfold advance SubmissionEvent.overwrites SubmissionEvent.dropsTask
  dsimp only
  cases hi : w.calls.lookup i with
  | none => exact iff_of_true h ⟨rfl, rfl⟩
  | some call =>
    dsimp only [Option.any_some]
    cases hs : call.stage with
    | started =>
      refine iff_of_true ?_ ⟨rfl, rfl⟩
      dsimp only
      split
      · exact setStage_decidedOnce h hi (by rw [hs]; rfl)
      · cases w.submissions.lookup call.request.submissionId with
        | none => exact setStage_decidedOnce h hi (by rw [hs]; rfl)
        | some row => exact setStage_decidedOnce h hi (by rw [hs]; rfl)
    | read loaded =>
      dsimp only [markSubmissionDecision]
      by_cases hp : loaded.status = .pendingReview
      · rw [if_neg (not_not.mpr hp)]
        cases hf : env.fault .commit with
        | true =>
          simp only [if_true]
          exact iff_of_true (setStage_decidedOnce h hi (by rw [hs]; rfl)) (by simp)
        | false =>
          cases hrow : w.submissions.lookup call.request.submissionId with
          | none =>
            simp only [Bool.false_eq_true, if_false]
            exact iff_of_true (setStage_decidedOnce h hi (by rw [hs]; rfl)) (by simp)
          | some row =>
            simp only [Bool.false_eq_true, if_false]
            refine (deciding_decidedOnce_iff env.now ht h hi hrow).trans ?_
            simp [hp]
      · rw [if_pos hp]
        exact iff_of_true (setStage_decidedOnce h hi (by rw [hs]; rfl)) (by simp [hp])
    | committed =>
      have ho : call.stage.isOpen = true := by rw [hs]; rfl
      dsimp only
      cases hf : env.fault .refresh with
      | true =>
        simp only [if_true]
        refine (close_decidedOnce_iff ht h hi ho rfl).trans ?_
        simp
      | false =>
        simp only [Bool.false_eq_true, if_false, Bool.and_false, and_self, iff_true]
        have hknown := ht.known _ (ht.recorded i call hi ho)
        cases hrow : w.submissions.lookup call.request.submissionId with
        | none =>
          rw [hrow] at hknown
          cases hknown
        | some row =>
          dsimp only
          split
          · exact setStage_decidedOnce h hi (by rw [hs]; rfl)
          · rename_i hacc
            exact (close_decidedOnce_iff ht h hi ho rfl).mpr hacc
    | refreshed row =>
      have ho : call.stage.isOpen = true := by rw [hs]; rfl
      dsimp only
      cases hf : env.fault .enqueue with
      | true =>
        simp only [if_true]
        refine (close_decidedOnce_iff ht h hi ho rfl).trans ?_
        simp [ht.accepting i call row hi hs]
      | false =>
        simp only [Bool.false_eq_true, if_false]
        exact iff_of_true (enqueued_decidedOnce ht h _ hi hs) (by simp)
    | done => exact iff_of_true h ⟨rfl, rfl⟩
    | notFound => exact iff_of_true h ⟨rfl, rfl⟩
    | refused => exact iff_of_true h ⟨rfl, rfl⟩
    | failed => exact iff_of_true h ⟨rfl, rfl⟩

theorem step_decidedOnce_iff (ht : w.Tracked) (h : w.DecidedOnce) (e : SubmissionEvent) :
    (w.step e).DecidedOnce ↔ e.overwrites w = false ∧ e.dropsTask w = false := by
  cases e with
  | create submissionId repoUrl refType ref =>
    refine iff_of_true ?_ ⟨rfl, rfl⟩
    rw [step]
    split
    · exact h
    · exact ⟨h.once, h.atMostOneTask, h.onlyAccepted, h.followed⟩
  | call callId request =>
    refine iff_of_true ?_ ⟨rfl, rfl⟩
    rw [step]
    split
    · exact h
    · rename_i hnew
      refine ⟨h.once, h.atMostOneTask, h.onlyAccepted, fun s hset => h.followed s ?_⟩
      intro j c hj hc
      have hji : j ≠ callId := by
        rintro rfl
        exact hnew (by rw [hj]; rfl)
      exact hset j c (by simpa [Table.lookup_insert_eq, hji] using hj) hc
  | advance callId env => exact advance_decidedOnce_iff ht h callId env

theorem empty_tracked : SubmissionState.empty.Tracked :=
  ⟨fun _ _ h => (by cases h), fun _ h => (by cases h), fun _ _ h => (by cases h),
    fun _ h => (by cases h), fun _ _ _ h => (by cases h), fun _ _ h => (by cases h)⟩

theorem empty_decidedOnce : SubmissionState.empty.DecidedOnce :=
  ⟨fun _ => Nat.zero_le 1, fun _ => Nat.zero_le 1, fun _ h => absurd rfl h,
    fun _ _ _ h => (by cases h)⟩

end SubmissionState

/-- In a run, every submission is decided once and followed by its task exactly
if no commit overwrites a decision and nothing fails between an acceptance and
its task. -/
theorem submissions_decided_once_iff (events : List SubmissionEvent) :
    (∀ w ∈ submissionService.states submissionService.init events, w.DecidedOnce) ↔
      ∀ s ∈ submissionService.steps submissionService.init events,
        s.2.overwrites s.1 = false ∧ s.2.dropsTask s.1 = false :=
  Machine.run_iff SubmissionState.Tracked SubmissionState.DecidedOnce
    (fun w e => e.overwrites w = false ∧ e.dropsTask w = false)
    (fun _ e h => SubmissionState.step_tracked h e)
    (fun _ e h hs => SubmissionState.step_decidedOnce_iff h hs e)
    SubmissionState.empty_tracked SubmissionState.empty_decidedOnce

def DecisionEnv.demo : DecisionEnv :=
  ⟨0, fun _ => false⟩

def acceptedAndRejected : List SubmissionEvent :=
  [.create 0 "https://github.com/a/b" .default none,
    .call 0 ⟨0, .accept, none, 7⟩, .call 1 ⟨0, .reject, none, 8⟩,
    .advance 0 .demo, .advance 1 .demo, .advance 0 .demo, .advance 1 .demo,
    .advance 0 .demo, .advance 0 .demo]

/-- Both decisions take effect, and the rejected submission is submitted. -/
theorem submission_decided_twice :
    ¬ ∀ events, ∀ w ∈ submissionService.states submissionService.init events, w.DecidedOnce := by
  intro h
  have hsafe := h acceptedAndRejected _ (Machine.run_mem_states _ _)
  have htwo : ((submissionService.runFrom submissionService.init
      acceptedAndRejected).decisionsOn 0).length = 2 := by
    decide +kernel
  have hone := hsafe.once 0
  rw [htwo] at hone
  omega

end PluginRegistry
