import PluginRegistry.Proofs.SessionWrites

namespace PluginRegistry
open Lib

def PollTask.weight (t : PollTask) : Nat :=
  match t.stage with
  | .running _ => 0
  | .waiting | .failed _ => 1

/-- The polls that a session still stands for: the one it is about to make, or
the one it is about to queue. -/
def ScanSession.weight (session : ScanSession) : Nat :=
  match session.stage, session.request with
  | .opened, .poll _ => 1
  | .recorded (some _), _ => 1
  | _, _ => 0

def ScanWorld.chains (w : ScanWorld) : Nat :=
  w.tasks.total (fun _ t => t.weight) + w.sessions.total fun _ session => session.weight

structure ScanWorld.Linked (w : ScanWorld) : Prop where
  polls : ∀ i session task, w.sessions.lookup i = some session → session.request = .poll task →
    ∃ envelope, w.tasks.lookup task = some ⟨envelope, .running i⟩
  held : ∀ task envelope i, w.tasks.lookup task = some ⟨envelope, .running i⟩ →
    ∃ session, w.sessions.lookup i = some session ∧ session.request = .poll task
  sessionsBefore : ∀ i session, w.sessions.lookup i = some session → i < w.clock
  tasksBefore : ∀ i task, w.tasks.lookup i = some task → i < w.clock

namespace ScanWorld

variable {w : ScanWorld} {serial : Nat} {session : ScanSession} {task : Nat} {envelope : QueueTask}

theorem Linked.noSession (h : w.Linked) : w.sessions.lookup w.clock = none := by
  cases hc : w.sessions.lookup w.clock with
  | none => rfl
  | some session => exact absurd (h.sessionsBefore _ _ hc) (Nat.lt_irrefl _)

theorem Linked.noTask (h : w.Linked) : w.tasks.lookup w.clock = none := by
  cases hc : w.tasks.lookup w.clock with
  | none => rfl
  | some t => exact absurd (h.tasksBefore _ _ hc) (Nat.lt_irrefl _)

/-- Only the row changes. -/
theorem Linked.withRow (h : w.Linked) (row : PluginVersion) (recorded : List Nat) :
    Linked { w with row, recorded } :=
  ⟨h.polls, h.held, h.sessionsBefore, h.tasksBefore⟩

theorem Linked.openSession (h : w.Linked) {request : SessionRequest}
    (hr : ∀ task, request ≠ .poll task) : (w.openSession request).Linked where
  polls i session task hi hreq := by
    simp only [ScanWorld.openSession, Table.lookup_insert_eq] at hi
    split at hi
    · cases hi
      exact absurd hreq (hr task)
    · exact h.polls i session task hi hreq
  held task envelope i ht := by
    obtain ⟨session, hs, hreq⟩ := h.held task envelope i ht
    refine ⟨session, ?_, hreq⟩
    simp only [ScanWorld.openSession, Table.lookup_insert_eq]
    rw [if_neg (Nat.ne_of_lt (h.sessionsBefore i session hs)), hs]
  sessionsBefore i session hi := by
    simp only [ScanWorld.openSession, Table.lookup_insert_eq] at hi ⊢
    split at hi
    · omega
    · have := h.sessionsBefore i session hi
      omega
  tasksBefore i t hi := Nat.lt_succ_of_lt (h.tasksBefore i t hi)

/-- A worker that takes a task opens a session under a fresh number. -/
theorem Linked.take (h : w.Linked) (task : Nat) : (w.take task).Linked := by
  unfold ScanWorld.take
  split
  · rename_i envelope ht
    have htask := h.tasksBefore task _ ht
    constructor
    · intro i session task' hi hreq
      simp only [ScanWorld.openSession, Table.lookup_insert_eq] at hi ⊢
      split at hi
      · rename_i heq
        cases hi
        cases hreq
        exact ⟨envelope, by rw [if_pos rfl, heq]⟩
      · obtain ⟨envelope', hrun⟩ := h.polls i session task' hi hreq
        refine ⟨envelope', ?_⟩
        rw [if_neg, hrun]
        rintro rfl
        rw [ht] at hrun
        cases hrun
    · intro task' envelope' i ht'
      simp only [ScanWorld.openSession, Table.lookup_insert_eq] at ht' ⊢
      split at ht'
      · rename_i heq
        cases ht'
        subst heq
        exact ⟨⟨.poll task', w.row, .opened⟩, by rw [if_pos rfl], rfl⟩
      · obtain ⟨session, hs, hreq⟩ := h.held task' envelope' i ht'
        exact ⟨session, by rw [if_neg (Nat.ne_of_lt (h.sessionsBefore i session hs)), hs], hreq⟩
    · intro i session hi
      simp only [ScanWorld.openSession, Table.lookup_insert_eq] at hi ⊢
      split at hi
      · omega
      · have := h.sessionsBefore i session hi
        omega
    · intro i t hi
      simp only [ScanWorld.openSession, Table.lookup_insert_eq] at hi ⊢
      split at hi
      · omega
      · have := h.tasksBefore i t hi
        omega
  · exact h

/-- A session goes on with the same request. -/
theorem Linked.setSession (h : w.Linked) (hs : w.sessions.lookup serial = some session)
    (stage : SessionStage) : (w.setSession serial { session with stage }).Linked where
  polls i session' task hi hreq := by
    simp only [ScanWorld.setSession, Table.lookup_insert_eq] at hi
    split at hi
    · rename_i heq
      cases hi
      subst heq
      exact h.polls i session task hs hreq
    · exact h.polls i session' task hi hreq
  held task envelope i ht := by
    obtain ⟨session', hi, hreq⟩ := h.held task envelope i ht
    simp only [ScanWorld.setSession, Table.lookup_insert_eq]
    split
    · rename_i heq
      subst heq
      rw [hs] at hi
      cases hi
      exact ⟨{ session with stage }, rfl, hreq⟩
    · exact ⟨session', hi, hreq⟩
  sessionsBefore i session' hi := by
    simp only [ScanWorld.setSession, Table.lookup_insert_eq] at hi
    split at hi
    · rename_i heq
      subst heq
      exact h.sessionsBefore i session hs
    · exact h.sessionsBefore i session' hi
  tasksBefore := h.tasksBefore

theorem Linked.enqueue (h : w.Linked) (e : SessionEnv) : (w.enqueue e).Linked := by
  unfold ScanWorld.enqueue
  split
  · constructor
    · intro i session task hi hreq
      obtain ⟨envelope, ht⟩ := h.polls i session task hi hreq
      refine ⟨envelope, ?_⟩
      simp only [Table.lookup_insert_eq]
      rw [if_neg (Nat.ne_of_lt (h.tasksBefore task _ ht)), ht]
    · intro task envelope i ht
      simp only [Table.lookup_insert_eq] at ht
      split at ht
      · cases ht
      · exact h.held task envelope i ht
    · exact fun i session hi => Nat.lt_succ_of_lt (h.sessionsBefore i session hi)
    · intro i t hi
      simp only [Table.lookup_insert_eq] at hi ⊢
      split at hi
      · omega
      · have := h.tasksBefore i t hi
        omega
  · exact h

/-- A session ends, and its task leaves the running ones. -/
theorem Linked.close (h : w.Linked) (hs : w.sessions.lookup serial = some session)
    {tasks : Table Nat PollTask}
    (hkeep : ∀ i, session.request ≠ .poll i → tasks.lookup i = w.tasks.lookup i)
    (hstop : ∀ i envelope j, session.request = .poll i →
      tasks.lookup i ≠ some ⟨envelope, .running j⟩)
    (hnew : ∀ i t, tasks.lookup i = some t → (w.tasks.lookup i).isSome = true) :
    Linked { w with sessions := AList.erase serial w.sessions, tasks } where
  polls i session' task hi hreq := by
    simp only [Table.lookup_erase_eq] at hi
    split at hi
    · cases hi
    · rename_i hne
      obtain ⟨envelope, ht⟩ := h.polls i session' task hi hreq
      refine ⟨envelope, ?_⟩
      rw [hkeep task, ht]
      intro hc
      obtain ⟨envelope', ht'⟩ := h.polls serial session task hs hc
      rw [ht] at ht'
      cases ht'
      exact hne rfl
  held task envelope i ht := by
    by_cases hreq : session.request = .poll task
    · exact absurd ht (hstop task envelope i hreq)
    · rw [hkeep task hreq] at ht
      obtain ⟨session', hi, hreq'⟩ := h.held task envelope i ht
      refine ⟨session', ?_, hreq'⟩
      simp only [Table.lookup_erase_eq]
      rw [if_neg, hi]
      rintro rfl
      rw [hs] at hi
      cases hi
      exact hreq hreq'
  sessionsBefore i session' hi := by
    simp only [Table.lookup_erase_eq] at hi
    split at hi
    · cases hi
    · exact h.sessionsBefore i session' hi
  tasksBefore i t hi := by
    obtain ⟨t', ht'⟩ := Option.isSome_iff_exists.mp (hnew i t hi)
    exact h.tasksBefore i t' ht'

theorem Linked.raise (h : w.Linked) (hs : w.sessions.lookup serial = some session)
    (error : PyErr) : (w.raise serial session error).Linked := by
  unfold ScanWorld.raise
  cases hreq : session.request with
  | poll task =>
    refine h.close hs (fun i hi => ?_) (fun i envelope j hi => ?_) fun i t hi => ?_
    · rw [hreq] at hi
      exact Table.lookup_modify_ne _ _ fun hc => hi (by rw [hc])
    · rw [hreq] at hi
      cases hi
      rw [Table.lookup_modify_self]
      cases w.tasks.lookup task <;> simp
    · by_cases hit : i = task
      · subst hit
        rw [Table.lookup_modify_self] at hi
        obtain ⟨t', ht', -⟩ := Option.map_eq_some_iff.mp hi
        rw [ht']
        rfl
      · rw [Table.lookup_modify_ne _ _ hit] at hi
        rw [hi]
        rfl
  | scan selected =>
    exact h.close hs (fun _ _ => rfl) (fun i _ _ hi => by rw [hreq] at hi; cases hi)
      fun i t hi => by rw [hi]; rfl
  | markPending providers =>
    exact h.close hs (fun _ _ => rfl) (fun i _ _ hi => by rw [hreq] at hi; cases hi)
      fun i t hi => by rw [hi]; rfl
  | markSkipped providers =>
    exact h.close hs (fun _ _ => rfl) (fun i _ _ hi => by rw [hreq] at hi; cases hi)
      fun i t hi => by rw [hi]; rfl

theorem Linked.finish (h : w.Linked) (hs : w.sessions.lookup serial = some session) :
    (w.finish serial session).Linked := by
  unfold ScanWorld.finish
  cases hreq : session.request with
  | poll task =>
    refine h.close hs (fun i hi => ?_) (fun i envelope j hi => ?_) fun i t hi => ?_
    · rw [hreq] at hi
      rw [Table.lookup_erase_eq, if_neg fun hc => hi (by rw [hc])]
    · rw [hreq] at hi
      cases hi
      rw [Table.lookup_erase_eq, if_pos rfl]
      exact nofun
    · rw [Table.lookup_erase_eq] at hi
      split at hi
      · cases hi
      · rw [hi]
        rfl
  | scan selected =>
    exact h.close hs (fun _ _ => rfl) (fun i _ _ hi => by rw [hreq] at hi; cases hi)
      fun i t hi => by rw [hi]; rfl
  | markPending providers =>
    exact h.close hs (fun _ _ => rfl) (fun i _ _ hi => by rw [hreq] at hi; cases hi)
      fun i t hi => by rw [hi]; rfl
  | markSkipped providers =>
    exact h.close hs (fun _ _ => rfl) (fun i _ _ hi => by rw [hreq] at hi; cases hi)
      fun i t hi => by rw [hi]; rfl

theorem Linked.settle (h : w.Linked) (task : Nat) (config : TaskConfig) :
    (w.settle task config).Linked := by
  unfold ScanWorld.settle
  split
  · rename_i envelope error ht
    have hrunning : ∀ i session, w.sessions.lookup i = some session →
        session.request ≠ .poll task := by
      intro i session hi hreq
      obtain ⟨envelope', ht'⟩ := h.polls i session task hi hreq
      rw [ht] at ht'
      cases ht'
    split
    · constructor
      · intro i session task' hi hreq
        obtain ⟨envelope', ht'⟩ := h.polls i session task' hi hreq
        refine ⟨envelope', ?_⟩
        rw [Table.lookup_erase_eq, if_neg, ht']
        rintro rfl
        exact hrunning i session hi hreq
      · intro task' envelope' i ht'
        rw [Table.lookup_erase_eq] at ht'
        split at ht'
        · cases ht'
        · exact h.held task' envelope' i ht'
      · exact h.sessionsBefore
      · intro i t hi
        rw [Table.lookup_erase_eq] at hi
        split at hi
        · cases hi
        · exact h.tasksBefore i t hi
    · constructor
      · intro i session task' hi hreq
        obtain ⟨envelope', ht'⟩ := h.polls i session task' hi hreq
        refine ⟨envelope', ?_⟩
        rw [Table.lookup_insert_eq, if_neg, ht']
        rintro rfl
        exact hrunning i session hi hreq
      · intro task' envelope' i ht'
        rw [Table.lookup_insert_eq] at ht'
        split at ht'
        · cases ht'
        · exact h.held task' envelope' i ht'
      · exact h.sessionsBefore
      · intro i t hi
        rw [Table.lookup_insert_eq] at hi
        split at hi
        · rename_i heq
          subst heq
          exact h.tasksBefore i _ ht
        · exact h.tasksBefore i t hi
  · exact h

/-- The commit of a session's results: it ends, or it goes on with the rows it
has stored. -/
theorem record_cases (w : ScanWorld) (serial : Nat) (session : ScanSession) (e : SessionEnv) :
    (∃ error, w.record serial session e = w.raise serial session error) ∨
      (session.write e w.row = .ok none ∧ w.record serial session e = w.finish serial session) ∨
      ∃ write row recorded, session.write e w.row = .ok (some write) ∧
        write.read.commit write.mine w.row = some row ∧
        w.record serial session e = setSession { w with row, recorded } serial
          { session with stage := .recorded write.followup } := by
  unfold record
  cases hw : session.write e w.row with
  | error error => exact .inl ⟨error, rfl⟩
  | ok result =>
    cases result with
    | none => exact .inr (.inl ⟨rfl, rfl⟩)
    | some write =>
      dsimp only
      cases hc : write.read.commit write.mine w.row with
      | none => exact .inl ⟨_, rfl⟩
      | some row => exact .inr (.inr ⟨write, row, _, rfl, hc, rfl⟩)

theorem enqueue_sessions (w : ScanWorld) (e : SessionEnv) :
    (w.enqueue e).sessions = w.sessions ∧ (w.enqueue e).row = w.row := by
  unfold enqueue
  split <;> exact ⟨rfl, rfl⟩

theorem chains_openSession (h : w.Linked) (request : SessionRequest) :
    (w.openSession request).chains = w.chains +
      ScanSession.weight ⟨request, w.row, .opened⟩ := by
  have htotal := Table.total_insert w.sessions w.clock ⟨request, w.row, .opened⟩
    fun _ session => session.weight
  rw [h.noSession, Option.elim_none] at htotal
  simp only [chains, openSession]
  omega

theorem chains_take (h : w.Linked) (task : Nat) : (w.take task).chains = w.chains := by
  unfold take
  split
  · rename_i envelope ht
    have htasks := Table.total_insert w.tasks task ⟨envelope, .running w.clock⟩
      fun _ t => t.weight
    have hsessions := Table.total_insert w.sessions w.clock ⟨.poll task, w.row, .opened⟩
      fun _ session => session.weight
    rw [ht, Option.elim_some] at htasks
    rw [h.noSession, Option.elim_none] at hsessions
    simp only [PollTask.weight, ScanSession.weight] at htasks hsessions
    simp only [chains, openSession]
    simp only [PollTask.weight, ScanSession.weight]
    omega
  · rfl

theorem chains_setSession (hs : w.sessions.lookup serial = some session)
    (session' : ScanSession) :
    (w.setSession serial session').chains + session.weight = w.chains + session'.weight := by
  have htotal := Table.total_insert w.sessions serial session' fun _ session => session.weight
  rw [hs, Option.elim_some] at htotal
  simp only [chains, setSession]
  omega

theorem chains_enqueue (h : w.Linked) (e : SessionEnv) :
    (w.enqueue e).chains = w.chains + if e.env.redis then 1 else 0 := by
  unfold enqueue
  split
  · have htotal := Table.total_insert w.tasks w.clock
      ⟨createTaskEnvelope e.taskConfig.settingsMaxAttempts "virustotal_poll" [] (toString w.clock)
        e.taskConfig.maxAttempts, .waiting⟩ fun _ t => t.weight
    rw [h.noTask, Option.elim_none] at htotal
    simp only [PollTask.weight] at htotal
    simp only [chains]
    simp only [PollTask.weight]
    omega
  · rfl

/-- What a raising session leaves behind: a poll leaves its task to be settled. -/
theorem chains_raise (h : w.Linked) (hs : w.sessions.lookup serial = some session)
    (error : PyErr) :
    (w.raise serial session error).chains + session.weight =
      w.chains + match session.request with
        | .poll _ => 1
        | _ => 0 := by
  have hsessions := Table.total_erase w.sessions serial fun _ session => session.weight
  rw [hs, Option.elim_some] at hsessions
  unfold raise
  cases hreq : session.request with
  | poll task =>
    obtain ⟨envelope, ht⟩ := h.polls serial session task hs hreq
    have htasks := Table.total_modify w.tasks task (fun t => { t with stage := .failed error })
      fun _ t => t.weight
    rw [ht, Option.elim_some, Option.elim_some] at htasks
    simp only [chains]
    simp only [PollTask.weight] at htasks ⊢
    omega
  | scan selected =>
    simp only [chains]
    omega
  | markPending providers =>
    simp only [chains]
    omega
  | markSkipped providers =>
    simp only [chains]
    omega

theorem chains_finish (h : w.Linked) (hs : w.sessions.lookup serial = some session) :
    (w.finish serial session).chains + session.weight = w.chains := by
  have hsessions := Table.total_erase w.sessions serial fun _ session => session.weight
  rw [hs, Option.elim_some] at hsessions
  unfold finish
  cases hreq : session.request with
  | poll task =>
    obtain ⟨envelope, ht⟩ := h.polls serial session task hs hreq
    have htasks := Table.total_erase w.tasks task fun _ t => t.weight
    rw [ht, Option.elim_some] at htasks
    simp only [chains]
    simp only [PollTask.weight] at htasks ⊢
    omega
  | scan selected =>
    simp only [chains]
    omega
  | markPending providers =>
    simp only [chains]
    omega
  | markSkipped providers =>
    simp only [chains]
    omega

end ScanWorld

def AnalysisNamed (env : Env) (cfg : RuntimeConfig) : Prop :=
  ∀ o, cfg.isConfigured .virustotal = true → env.scanAnswer .virustotal = .ok o →
    (o.mode = .pending ↔ truthy o.virustotalAnalysisId = true ∧ o.virustotalNextPollAt.isSome = true)

instance (env : Env) (cfg : RuntimeConfig) : Decidable (AnalysisNamed env cfg) :=
  match h : env.scanAnswer .virustotal with
  | .error _ => .isTrue fun _ _ ho => by rw [h] at ho; cases ho
  | .ok o =>
    decidable_of_iff (cfg.isConfigured .virustotal = true →
        (o.mode = .pending ↔
          truthy o.virustotalAnalysisId = true ∧ o.virustotalNextPollAt.isSome = true))
      ⟨fun hn _ hconf ho => by rw [h] at ho; cases ho; exact hn hconf, fun hn hconf => hn o hconf h⟩

def ScanSession.isPoll (session : ScanSession) : Bool :=
  match session.request with
  | .poll _ => true
  | _ => false

theorem ScanSession.isPoll_iff {session : ScanSession} :
    session.isPoll = true ↔ ∃ task, session.request = .poll task := by
  unfold isPoll
  cases session.request <;> simp

/-- Results about VirusTotal are only stored on a version that waits for no
analysis; a mark must not miss an analysis that was stored since it has read
the version. -/
def ScanSession.StoresFreely (session : ScanSession) (e : SessionEnv) (stored : PluginVersion) :
    Prop :=
  match session.request with
  | .scan selected =>
    .virustotal ∈ selected → stored.awaits = false ∧ AnalysisNamed e.env e.config
  | .markPending _ =>
    session.touchesVirustotal e.config = true → stored.awaits = false ∧
      ((stored.scanRow 0).virustotalAnalysisId = none ∨
        (session.read.scanRow 0).virustotalAnalysisId ≠ none)
  | .markSkipped _ => session.touchesVirustotal e.config = true → stored.awaits = false
  | .poll _ => True

def ScanSession.Queues (session : ScanSession) (e : SessionEnv) : Prop :=
  if e.env.fault .enqueueTask = none then e.env.redis = true else session.isPoll = true

def ScanSession.Advances (session : ScanSession) (e : SessionEnv) (stored : PluginVersion) :
    Prop :=
  match session.stage with
  | .opened => session.StoresFreely e stored
  | .recorded (some _) => session.Queues e
  | .recorded none => session.isPoll = true → e.afterwards = none

def QueueTask.Retried (task : QueueTask) (error : PyErr) (config : TaskConfig) : Prop :=
  isRetryableTaskError error = true ∧
    task.attempts + 1 < task.limit config.maxAttempts

def ScanWorld.Chained (w : ScanWorld) : ScanEvent → Prop
  | .advance serial e => ∀ session ∈ w.sessions.lookup serial, session.Advances e w.row
  | .settle task config => ∀ t ∈ w.tasks.lookup task, ∀ error, t.stage = .failed error →
    t.envelope.Retried error config
  | _ => True

instance (session : ScanSession) (e : SessionEnv) (stored : PluginVersion) :
    Decidable (session.Advances e stored) := by
  unfold ScanSession.Advances ScanSession.StoresFreely ScanSession.Queues
  split
  · split <;> infer_instance
  · infer_instance
  · infer_instance

instance (task : QueueTask) (error : PyErr) (config : TaskConfig) :
    Decidable (task.Retried error config) :=
  inferInstanceAs (Decidable (_ ∧ _))

instance (t : PollTask) (config : TaskConfig) :
    Decidable (∀ error, t.stage = .failed error → t.envelope.Retried error config) :=
  match t.stage with
  | .waiting | .running _ => .isTrue nofun
  | .failed error => decidable_of_iff (t.envelope.Retried error config)
      ⟨fun hr _ he => PollStage.failed.inj he ▸ hr, fun hr => hr error rfl⟩

instance (w : ScanWorld) (event : ScanEvent) : Decidable (w.Chained event) := by
  unfold ScanWorld.Chained
  split <;> infer_instance

/-- Exactly one chain of polls while the version waits for an analysis, none
otherwise, and every poll under way has read what is stored. -/
structure ScanWorld.Chain (w : ScanWorld) : Prop where
  linked : w.Linked
  count : w.chains = if w.row.awaits then 1 else 0
  current : ∀ i session task, w.sessions.lookup i = some session →
    session.request = .poll task → session.stage = .opened →
    session.read.virustotalView = w.row.virustotalView

namespace ScanWorld

variable {w : ScanWorld} {serial : Nat} {session : ScanSession} {e : SessionEnv}

theorem weight_opened_poll {task : Nat} (hr : session.request = .poll task)
    (ho : session.stage = .opened) : session.weight = 1 := by
  simp only [ScanSession.weight, ho, hr]

theorem weight_opened (hr : ∀ task, session.request ≠ .poll task) (ho : session.stage = .opened) :
    session.weight = 0 := by
  unfold ScanSession.weight
  rw [ho]
  cases hreq : session.request with
  | poll task => exact absurd hreq (hr task)
  | scan selected => rfl
  | markPending providers => rfl
  | markSkipped providers => rfl

theorem weight_recorded (session : ScanSession) (followup : Option Time) :
    ScanSession.weight { session with stage := .recorded followup } =
      if followup.isSome then 1 else 0 := by
  cases followup <;> rfl

theorem weight_le_chains (hs : w.sessions.lookup serial = some session) :
    session.weight ≤ w.chains := by
  have hle := Table.le_total hs fun _ session => session.weight
  simp only [chains]
  omega

/-- A poll about to be made is for an analysis that the version waits for. -/
theorem Chain.opened_awaits (h : w.Chain) {task : Nat}
    (hs : w.sessions.lookup serial = some session) (hr : session.request = .poll task)
    (ho : session.stage = .opened) : w.row.awaits = true ∧ session.read.awaits = true := by
  have hle := weight_le_chains hs
  have hone := weight_opened_poll hr ho
  have hcount := h.count
  have hrow : w.row.awaits = true := by
    by_contra hno
    rw [if_neg hno] at hcount
    omega
  exact ⟨hrow, (PluginVersion.awaits_congr (h.current serial session task hs hr ho)).trans hrow⟩

/-- Nothing stored, one session less. -/
theorem Chain.raise (h : w.Chain) (hs : w.sessions.lookup serial = some session)
    (error : PyErr) (hw : session.weight = match session.request with
        | .poll _ => 1
        | _ => 0) : (w.raise serial session error).Chain where
  linked := h.linked.raise hs error
  count := by
    have hcount := chains_raise h.linked hs error
    have hrow : (w.raise serial session error).row = w.row := rfl
    rw [hrow, ← h.count]
    omega
  current i session' task hi := by
    simp only [ScanWorld.raise, Table.lookup_erase_eq] at hi
    split at hi
    · cases hi
    · exact h.current i session' task hi

theorem Chain.finish (h : w.Chain) (hs : w.sessions.lookup serial = some session)
    (hw : session.weight = 0) : (w.finish serial session).Chain where
  linked := h.linked.finish hs
  count := by
    have hcount := chains_finish h.linked hs
    have hrow : (w.finish serial session).row = w.row := rfl
    rw [hrow, ← h.count]
    omega
  current i session' task hi := by
    simp only [ScanWorld.finish, Table.lookup_erase_eq] at hi
    split at hi
    · cases hi
    · exact h.current i session' task hi

/-- A session that stores nothing about VirusTotal. -/
theorem Chain.store_other (h : w.Chain) (hs : w.sessions.lookup serial = some session)
    (hw : session.weight = 0) {row : PluginVersion} {recorded : List Nat}
    (hv : row.virustotalView = w.row.virustotalView) :
    (setSession { w with row, recorded } serial
      { session with stage := .recorded none }).Chain where
  linked := (h.linked.withRow row recorded).setSession hs _
  count := by
    have hcount := chains_setSession (w := { w with row, recorded }) hs
      { session with stage := .recorded none }
    have hzero : ScanSession.weight { session with stage := .recorded none } = 0 := rfl
    have hsame : chains { w with row, recorded } = w.chains := rfl
    have hrow : (setSession { w with row, recorded } serial
      { session with stage := .recorded none }).row.awaits = w.row.awaits :=
      PluginVersion.awaits_congr hv
    rw [hrow, ← h.count]
    omega
  current i session' task hi hr ho := by
    simp only [setSession, Table.lookup_insert_eq] at hi
    split at hi
    · cases hi
      cases ho
    · exact (h.current i session' task hi hr ho).trans hv.symm

/-- A session that stores a result of VirusTotal when it alone stands for the
chain of the version. -/
theorem Chain.store_virustotal (h : w.Chain) (hs : w.sessions.lookup serial = some session)
    (hw : session.weight = if w.row.awaits then 1 else 0) {row : PluginVersion}
    {recorded : List Nat} {followup : Option Time}
    (ha : row.awaits = true ↔ followup.isSome = true) :
    (setSession { w with row, recorded } serial
      { session with stage := .recorded followup }).Chain where
  linked := (h.linked.withRow row recorded).setSession hs _
  count := by
    have hcount := chains_setSession (w := { w with row, recorded }) hs
      { session with stage := .recorded followup }
    have hsame : chains { w with row, recorded } = w.chains := rfl
    have hrow : (setSession { w with row, recorded } serial
      { session with stage := .recorded followup }).row.awaits = followup.isSome :=
      Bool.eq_iff_iff.mpr ha
    rw [hsame, h.count, hw, weight_recorded] at hcount
    rw [hrow]
    omega
  current i session' task hi hr ho := by
    simp only [setSession, Table.lookup_insert_eq] at hi
    split at hi
    · cases hi
      cases ho
    · rename_i hne
      have hle := Table.elim_add_le_total w.sessions hne fun _ session => session.weight
      rw [hi, hs, Option.elim_some, Option.elim_some, weight_opened_poll hr ho] at hle
      have hcount := h.count
      simp only [chains] at hcount
      omega

/-- A committed scan either leaves VirusTotal alone or stores what VirusTotal
has answered, with a follow-up exactly if the answer is pending. -/
theorem scan_stores {selected : List Provider} (hr : session.request = .scan selected)
    {write : SessionWrite} (hw : session.write e w.row = .ok (some write)) {row : PluginVersion}
    (hc : write.read.commit write.mine w.row = some row)
    (hfree : session.StoresFreely e w.row) :
    (write.followup = none ∧ row.virustotalView = w.row.virustotalView) ∨
      (w.row.awaits = false ∧ (row.awaits = true ↔ write.followup.isSome = true)) := by
  obtain ⟨outcomes, hans, hread, hmine, hfollow⟩ := scan_write hr hw
  obtain ⟨hrep, hmem, -⟩ := scanSelectedProviders_reports hans
  have hsame : w.row.providerResults (.machine .virustotal) =
      write.read.providerResults (.machine .virustotal) := by rw [hread]; rfl
  have hasks := followupTask_iff hans
  rw [← hfollow] at hasks
  by_cases hin : .virustotal ∈ selected
  · refine .inr ?_
    simp only [ScanSession.StoresFreely, hr] at hfree
    obtain ⟨hno, hnamed⟩ := hfree hin
    obtain ⟨o, ho⟩ := hmem .virustotal hin
    have hreported := (hrep .virustotal o ho).2
    have hone : ∀ o', (.virustotal, o') ∈ outcomes → o' = o := by
      intro o' ho'
      have hreported' := (hrep .virustotal o' ho').2
      unfold Reported at hreported hreported'
      split at hreported
      · rename_i hconf
        rw [if_pos hconf, hreported] at hreported'
        exact (Except.ok.inj hreported').symm
      · rename_i hconf
        rw [if_neg hconf] at hreported'
        exact hreported'.trans hreported.symm
    have hholds : row.Holds o :=
      commit_holds hc ((PluginVersion.recordAll_holds ho hone).of_view hmine) hsame
    refine ⟨hno, ?_⟩
    rw [hasks]
    unfold Reported at hreported
    by_cases hconf : e.config.isConfigured .virustotal = true
    · rw [if_pos hconf] at hreported
      have hshape := hnamed o hconf hreported
      by_cases hp : o.mode = .pending
      · obtain ⟨hid, hnext⟩ := hshape.mp hp
        exact iff_of_true (hholds.awaits_pending hp hid) ⟨hin, hconf, o, hreported, hid, hnext⟩
      · rw [hholds.awaits_final hp]
        refine iff_of_false Bool.false_ne_true ?_
        rintro ⟨-, -, o', ho', hasked⟩
        rw [hreported] at ho'
        cases ho'
        exact hp (hshape.mpr hasked)
    · rw [if_neg hconf] at hreported
      have hfinal : o.mode ≠ .pending := by
        rw [hreported]
        exact nofun
      rw [hholds.awaits_final hfinal]
      exact iff_of_false Bool.false_ne_true fun hf => hconf hf.2.1
  · refine .inl ⟨?_, ?_⟩
    · rw [← Option.not_isSome_iff_eq_none, hasks]
      exact fun hf => hin hf.1
    · apply commit_view hc _ hsame
      rw [hmine, PluginVersion.recordAll_view, PluginVersion.openScan_view]
      intro hmap
      obtain ⟨⟨q, o⟩, hq, rfl⟩ := List.mem_map.mp hmap
      exact hin (hrep _ o hq).1

/-- A committed mark stores no analysis. -/
theorem mark_stores {providers : Option (List String)}
    (hr : session.request = .markPending providers ∨ session.request = .markSkipped providers)
    {write : SessionWrite} (hw : session.write e w.row = .ok (some write)) {row : PluginVersion}
    (hc : write.read.commit write.mine w.row = some row)
    (hfree : session.StoresFreely e w.row) :
    write.followup = none ∧ (row.virustotalView = w.row.virustotalView ∨
      (w.row.awaits = false ∧ row.awaits = false)) := by
  obtain ⟨selected, o, hsel, hread, hfollow, hmine, hscan, hid, hmode⟩ := mark_write hr hw
  have hsame : w.row.providerResults (.machine .virustotal) =
      write.read.providerResults (.machine .virustotal) := by rw [hread]; rfl
  refine ⟨hfollow, ?_⟩
  by_cases hin : .virustotal ∈ selected
  · have htouch : session.touchesVirustotal e.config = true := by
      rcases hr with hr | hr <;> simp [ScanSession.touchesVirustotal, hr, hsel, hin]
    have hholds : row.Holds o :=
      commit_holds hc ((PluginVersion.markAll_holds hin).of_view hmine) hsame
    rcases hr with hr | hr
    · simp only [ScanSession.StoresFreely, hr] at hfree
      obtain ⟨hno, hmissed⟩ := hfree htouch
      refine .inr ⟨hno, ?_⟩
      have hlegacy : (row.scanRow 0).virustotalAnalysisId = none := by
        have hcleared : (write.mine.scanRow 0).virustotalAnalysisId = none :=
          (congrArg (·.2.1) hmine).trans (markAll_analysis hin)
        have hreadScan : write.read.scan = session.read.scan := by rw [hread]; rfl
        have hhas : write.mine.scan.isSome = true := hscan.trans (markAll_isSome.trans rfl)
        obtain ⟨m, hm⟩ := Option.isSome_iff_exists.mp hhas
        unfold PluginVersion.scanRow at hcleared hmissed ⊢
        rw [(commit_scan hc).1, hreadScan, hm]
        rw [hm] at hcleared
        cases hrs : session.read.scan with
        | none =>
          cases hst : w.row.scan with
          | none => exact hcleared
          | some s =>
            have hfreeRow := (commit_scan hc).2
            rw [hreadScan, hrs, hm, hst] at hfreeRow
            cases hfreeRow
        | some r =>
          cases hst : w.row.scan with
          | none => rfl
          | some s =>
            rw [hrs, hst] at hmissed
            change mergeColumn r.virustotalAnalysisId m.virustotalAnalysisId
              s.virustotalAnalysisId = none
            rw [show m.virustotalAnalysisId = none from hcleared]
            unfold mergeColumn
            split
            · rename_i heq
              exact hmissed.resolve_right fun hne => hne heq.symm
            · rfl
      obtain ⟨r, hrow, -, hx⟩ := hholds
      rw [hid] at hx
      simp [PluginVersion.awaits, PluginVersion.awaitedAnalysis, PluginVersion.virustotalResult,
        hrow, hx, hlegacy, truthy]
    · simp only [ScanSession.StoresFreely, hr] at hfree
      refine .inr ⟨hfree htouch, hholds.awaits_final fun hp => ?_⟩
      have := hmode.mp hp
      rw [hr] at this
      cases this
  · refine .inl (commit_view hc ?_ hsame)
    rw [hmine, PluginVersion.markAll_view hin, PluginVersion.openScan_view]

/-- What a committed session has stored: nothing about VirusTotal, or a result
when it alone stands for the chain of the version. -/
theorem Chain.stores (h : w.Chain) (hs : w.sessions.lookup serial = some session)
    (ho : session.stage = .opened) (hfree : session.StoresFreely e w.row) {write : SessionWrite}
    (hw : session.write e w.row = .ok (some write)) {row : PluginVersion}
    (hc : write.read.commit write.mine w.row = some row) :
    (session.weight = 0 ∧ write.followup = none ∧ row.virustotalView = w.row.virustotalView) ∨
      ((session.weight = if w.row.awaits then 1 else 0) ∧
        (row.awaits = true ↔ write.followup.isSome = true)) := by
  have hmark : ∀ providers, session.request = .markPending providers ∨
      session.request = .markSkipped providers →
      (session.weight = 0 ∧ write.followup = none ∧ row.virustotalView = w.row.virustotalView) ∨
        ((session.weight = if w.row.awaits then 1 else 0) ∧
          (row.awaits = true ↔ write.followup.isSome = true)) := by
    intro providers hr
    have hzero : session.weight = 0 := by
      apply weight_opened _ ho
      intro task
      rcases hr with hr | hr <;> rw [hr] <;> exact nofun
    obtain ⟨hfollow, hview | ⟨hno, hfinal⟩⟩ := mark_stores hr hw hc hfree
    · exact .inl ⟨hzero, hfollow, hview⟩
    · exact .inr ⟨by rw [hzero, hno]; rfl, by rw [hfollow, hfinal]; rfl⟩
  cases hr : session.request with
  | markPending providers => exact hmark providers (.inl hr)
  | markSkipped providers => exact hmark providers (.inr hr)
  | scan selected =>
    have hzero : session.weight = 0 :=
      weight_opened (fun task => by rw [hr]; exact nofun) ho
    rcases scan_stores hr hw hc hfree with ⟨hfollow, hview⟩ | ⟨hno, ha⟩
    · exact .inl ⟨hzero, hfollow, hview⟩
    · exact .inr ⟨by rw [hzero, hno]; rfl, ha⟩
  | poll task =>
    obtain ⟨o, hread, hmine, hfollow, hid⟩ := poll_write hr hw
    have hview := h.current serial session task hs hr ho
    have hsame : w.row.providerResults (.machine .virustotal) =
        write.read.providerResults (.machine .virustotal) := by
      rw [hread]
      exact (congrArg Prod.fst hview).symm
    have hholds : row.Holds o := commit_holds hc hmine hsame
    refine .inr ⟨?_, ?_⟩
    · rw [weight_opened_poll hr ho, (h.opened_awaits hs hr ho).1]
      rfl
    · rw [hfollow]
      by_cases hp : o.mode = .pending
      · exact iff_of_true (hholds.awaits_pending hp (hid hp)) hp
      · rw [hholds.awaits_final hp]
        exact iff_of_false Bool.false_ne_true hp

theorem weight_opened_eq (ho : session.stage = .opened) :
    session.weight = match session.request with
      | .poll _ => 1
      | _ => 0 := by
  unfold ScanSession.weight
  rw [ho]
  cases session.request <;> rfl

/-- The step lemma for the commit of a session's results. -/
theorem Chain.record (h : w.Chain) (hs : w.sessions.lookup serial = some session)
    (ho : session.stage = .opened) (hfree : session.StoresFreely e w.row) :
    (w.record serial session e).Chain := by
  rcases w.record_cases serial session e with ⟨error, heq⟩ | ⟨hw, heq⟩ |
    ⟨write, row, recorded, hw, hc, heq⟩
  · rw [heq]
    exact h.raise hs error (weight_opened_eq ho)
  · obtain ⟨task, hr, hidle⟩ := idle_write hw
    have := (h.opened_awaits hs hr ho).2
    rw [hidle] at this
    cases this
  · rw [heq]
    rcases h.stores hs ho hfree hw hc with ⟨hzero, hfollow, hview⟩ | ⟨hweight, ha⟩
    · rw [hfollow]
      exact h.store_other hs hzero hview
    · exact h.store_virustotal hs hweight ha

/-- The follow-up is queued, or its poll is left to be run again. -/
theorem Chain.queue (h : w.Chain) (hs : w.sessions.lookup serial = some session)
    {delay : Time} (hstage : session.stage = .recorded (some delay)) (hq : session.Queues e) :
    (w.advance serial e).Chain := by
  have hone : session.weight = 1 := by
    unfold ScanSession.weight
    rw [hstage]
  have hcount := h.count
  simp only [ScanWorld.advance, hs, hstage]
  unfold ScanSession.Queues at hq
  cases hfault : e.env.fault .enqueueTask with
  | some error =>
    rw [hfault, if_neg (by simp)] at hq
    obtain ⟨task, hr⟩ := ScanSession.isPoll_iff.mp hq
    exact h.raise hs error (by rw [hone, hr])
  | none =>
    rw [hfault, if_pos rfl] at hq
    dsimp only
    have hlook : (w.enqueue e).sessions.lookup serial = some session :=
      (congrArg (·.lookup serial) (w.enqueue_sessions e).1).trans hs
    refine ⟨(h.linked.enqueue e).setSession hlook _, ?_, ?_⟩
    · have hset := chains_setSession hlook { session with stage := .recorded none }
      have hqueue := chains_enqueue h.linked e
      have hzero : ScanSession.weight { session with stage := .recorded none } = 0 := rfl
      have hrow : ((w.enqueue e).setSession serial
          { session with stage := .recorded none }).row = w.row := (w.enqueue_sessions e).2
      rw [hq, if_pos rfl] at hqueue
      rw [hrow, ← hcount]
      omega
    · intro i session' task hi hr ho
      simp only [setSession, Table.lookup_insert_eq, (w.enqueue_sessions e).1] at hi
      split at hi
      · cases hi
        cases ho
      · exact (h.current i session' task hi hr ho).trans
          (congrArg PluginVersion.virustotalView (w.enqueue_sessions e).2).symm

/-- A step of a session keeps the chain whole, where it is a chained one. -/
theorem Chain.advance (h : w.Chain) (serial : Nat) (e : SessionEnv)
    (hgood : w.Chained (.advance serial e)) : (w.advance serial e).Chain := by
  cases hs : w.sessions.lookup serial with
  | none =>
    simp only [ScanWorld.advance, hs]
    exact h
  | some session =>
    have hgood := hgood session hs
    unfold ScanSession.Advances at hgood
    cases hstage : session.stage with
    | opened =>
      rw [hstage] at hgood
      simp only [ScanWorld.advance, hs, hstage]
      exact h.record hs hstage hgood
    | recorded followup =>
      rw [hstage] at hgood
      cases followup with
      | some delay => exact h.queue hs hstage hgood
      | none =>
        have hzero : session.weight = 0 := by
          unfold ScanSession.weight
          rw [hstage]
        simp only [ScanWorld.advance, hs, hstage]
        cases hafter : e.afterwards with
        | none => exact h.finish hs hzero
        | some error =>
          apply h.raise hs error
          cases hr : session.request with
          | poll task =>
            have := hgood (ScanSession.isPoll_iff.mpr ⟨task, hr⟩)
            rw [hafter] at this
            cases this
          | scan selected => exact hzero
          | markPending providers => exact hzero
          | markSkipped providers => exact hzero

theorem Chain.openSession (h : w.Chain) {request : SessionRequest}
    (hr : ∀ task, request ≠ .poll task) : (w.openSession request).Chain where
  linked := h.linked.openSession hr
  count := by
    rw [chains_openSession h.linked, weight_opened (fun task => hr task) rfl]
    exact h.count
  current i session task hi hreq ho := by
    simp only [ScanWorld.openSession, Table.lookup_insert_eq] at hi
    split at hi
    · cases hi
      exact absurd hreq (hr task)
    · exact h.current i session task hi hreq ho

/-- A write that leaves the VirusTotal columns alone. -/
theorem Chain.withRow (h : w.Chain) {row : PluginVersion}
    (hv : row.virustotalView = w.row.virustotalView) : Chain { w with row } where
  linked := h.linked.withRow row w.recorded
  count := by
    have hrow := PluginVersion.awaits_congr hv
    simp only [hrow]
    exact h.count
  current i session task hi hreq ho := (h.current i session task hi hreq ho).trans hv.symm

theorem Chain.take (h : w.Chain) (task : Nat) : (w.take task).Chain where
  linked := h.linked.take task
  count := by
    have hrow : (w.take task).row = w.row := by
      unfold ScanWorld.take
      split <;> rfl
    rw [chains_take h.linked, hrow]
    exact h.count
  current := by
    unfold ScanWorld.take
    split
    · intro i session task' hi hreq ho
      simp only [ScanWorld.openSession, Table.lookup_insert_eq] at hi
      split at hi
      · cases hi
        rfl
      · exact h.current i session task' hi hreq ho
    · exact h.current

theorem Chain.settle (h : w.Chain) (task : Nat) (config : TaskConfig)
    (hgood : w.Chained (.settle task config)) : (w.settle task config).Chain := by
  have hlinked := h.linked.settle task config
  unfold ScanWorld.settle at hlinked ⊢
  split
  · rename_i envelope error ht
    obtain ⟨hretry, hleft⟩ := hgood _ ht error rfl
    have hrequeue : requeueTask envelope error config.toTaskLimits =
        .push (envelope.failed error) config.retryDelaySeconds := by
      simp only [requeueTask, hretry, Bool.not_true, Bool.false_eq_true, if_false]
      exact if_neg (Int.not_le.mpr hleft)
    simp only [ht, hrequeue] at hlinked ⊢
    refine ⟨hlinked, ?_, h.current⟩
    have htotal := Table.total_insert w.tasks task ⟨envelope.failed error, .waiting⟩
      fun _ t => t.weight
    rw [ht, Option.elim_some] at htotal
    simp only [PollTask.weight] at htotal
    have hcount := h.count
    simp only [chains] at hcount ⊢
    simp only [PollTask.weight] at hcount ⊢
    omega
  · exact h

/-- The step lemma. -/
theorem Chain.step (h : w.Chain) (event : ScanEvent) (hgood : w.Chained event) :
    (w.step event).Chain := by
  cases event with
  | scan providers e =>
    change (w.beginScan providers e).Chain
    unfold beginScan
    split
    · exact h
    · split
      · split
        · exact (h.withRow PluginVersion.beginScan_view).openSession nofun
        · exact h
      · exact h.openSession nofun
  | markPending providers => exact h.openSession nofun
  | markSkipped providers => exact h.openSession nofun
  | take task => exact h.take task
  | advance serial e => exact h.advance serial e hgood
  | settle task config => exact h.settle task config hgood
  | other write =>
    apply h.withRow
    apply PluginVersion.view_of_results
    · exact write.keepsResults w.row .virustotal
    · exact write.keepsScan w.row

def Quiet (w : ScanWorld) : Prop :=
  w.sessions.keys = []

instance (w : ScanWorld) : Decidable w.Quiet :=
  inferInstanceAs (Decidable (w.sessions.keys = []))

/-- The version waits for an analysis if and only if exactly one task to poll it is left. -/
def OneChain (w : ScanWorld) : Prop :=
  w.row.awaits = true ↔ ∃! task, (w.tasks.lookup task).isSome = true

/-- With no session under way a whole chain is one task or none. -/
theorem Chain.quiet (h : w.Chain) (hq : w.Quiet) : w.OneChain := by
  have hnone : ∀ i, w.sessions.lookup i = none := by
    intro i
    rw [AList.lookup_eq_none, AList.mem_keys, hq]
    exact List.not_mem_nil
  have hsessions : (w.sessions.total fun _ session => session.weight) = 0 := by
    by_contra hpos
    obtain ⟨i, session, hi, -⟩ := Table.exists_of_total_pos (Nat.pos_of_ne_zero hpos)
    rw [hnone i] at hi
    cases hi
  have hweight : ∀ task t, w.tasks.lookup task = some t → t.weight = 1 := by
    rintro task ⟨envelope, stage⟩ ht
    cases stage with
    | running i =>
      obtain ⟨session, hi, -⟩ := h.linked.held task envelope i ht
      rw [hnone i] at hi
      cases hi
    | waiting => rfl
    | failed error => rfl
  have hcount := h.count
  simp only [chains, hsessions, Nat.add_zero] at hcount
  constructor
  · intro ha
    rw [if_pos ha] at hcount
    obtain ⟨task, t, ht, -⟩ := Table.exists_of_total_pos (by rw [hcount]; exact Nat.one_pos)
    refine ⟨task, by simp [ht], fun task' hsome => ?_⟩
    obtain ⟨t', ht'⟩ := Option.isSome_iff_exists.mp hsome
    by_contra hne
    have hle := Table.elim_add_le_total w.tasks hne fun _ t => t.weight
    rw [ht, ht', Option.elim_some, Option.elim_some, hweight _ _ ht, hweight _ _ ht'] at hle
    omega
  · rintro ⟨task, hsome, -⟩
    obtain ⟨t, ht⟩ := Option.isSome_iff_exists.mp hsome
    have hle := Table.le_total ht fun _ t => t.weight
    by_contra hno
    rw [if_neg hno] at hcount
    have hone := hweight _ _ ht
    omega

theorem Chain.init (v : PluginVersion) : (scanSessions v).init.Chain := by
  have hsessions : ∀ i, (scanSessions v).init.sessions.lookup i = none := AList.lookup_empty
  have htasks : ∀ i, (scanSessions v).init.tasks.lookup i = none := AList.lookup_empty
  constructor
  · constructor
    · intro i session task hi
      rw [hsessions] at hi
      cases hi
    · intro task envelope i ht
      rw [htasks] at ht
      cases ht
    · intro i session hi
      rw [hsessions] at hi
      cases hi
    · intro i t hi
      rw [htasks] at hi
      cases hi
  · rfl
  · intro i session task hi
    rw [hsessions] at hi
    cases hi

end ScanWorld

/-- In every run whose steps keep the chain together, each pending analysis has
one chain of polls, and nothing else has one. -/
theorem one_chain_per_analysis (v : PluginVersion) (events : List ScanEvent)
    (h : ∀ s ∈ (scanSessions v).steps (scanSessions v).init events, s.1.Chained s.2) :
    ∀ w ∈ (scanSessions v).states (scanSessions v).init events, w.Quiet → w.OneChain := by
  have hrun := Machine.guarded_run (m := scanSessions v) ScanWorld.Chain ScanWorld.Chained
    (fun w event hw hgood => hw.step event hgood) (ScanWorld.Chain.init v) h
  exact fun w hw hq => (hrun w hw).quiet hq

def uploadedVersion : PluginVersion :=
  ⟨0, "1.0.0", none, .manualUpload, some "url", some "key", .success, none, .draft, false, 0, none,
    fun _ => none⟩

def scanEnv (env : Env) : SessionEnv :=
  ⟨env, configWithVirustotal, ⟨⟨3, 5⟩, 3⟩, none⟩

def queuedScan (serial : Nat) (now : Time) : List ScanEvent :=
  [.scan none (scanEnv (.queued now)), .advance serial (scanEnv (.queued now)),
    .advance serial (scanEnv (.queued now)), .advance serial (scanEnv (.queued now))]

def polledRun : List ScanEvent :=
  queuedScan 0 1 ++ [.take 1, .advance 2 (scanEnv (.calm 200)), .advance 2 (scanEnv (.calm 200))]

theorem one_chain_per_analysis_polled :
    (∀ s ∈ (scanSessions uploadedVersion).steps (scanSessions uploadedVersion).init polledRun,
      s.1.Chained s.2) ∧
    ∀ w ∈ (scanSessions uploadedVersion).states (scanSessions uploadedVersion).init polledRun,
      w.Quiet → w.OneChain := by
  have h : ∀ s ∈ (scanSessions uploadedVersion).steps (scanSessions uploadedVersion).init
      polledRun, s.1.Chained s.2 := by
    decide +kernel
  exact ⟨h, one_chain_per_analysis uploadedVersion polledRun h⟩

/-- A rescan of a version that waits for an analysis starts a second chain. -/
theorem rescan_starts_second_chain :
    ¬ ∀ (v : PluginVersion) (events : List ScanEvent),
      ∀ w ∈ (scanSessions v).states (scanSessions v).init events, w.Quiet → w.OneChain := by
  intro h
  have hone := h uploadedVersion (queuedScan 0 1 ++ queuedScan 2 10) _
    (Machine.run_mem_states _ _) (by decide +kernel)
  obtain ⟨hawaits, hfirst, hsecond⟩ : _ ∧ _ ∧ _ := (by decide +kernel :
    ((scanSessions uploadedVersion).runFrom (scanSessions uploadedVersion).init
        (queuedScan 0 1 ++ queuedScan 2 10)).row.awaits = true ∧
      (((scanSessions uploadedVersion).runFrom (scanSessions uploadedVersion).init
        (queuedScan 0 1 ++ queuedScan 2 10)).tasks.lookup 1).isSome = true ∧
      (((scanSessions uploadedVersion).runFrom (scanSessions uploadedVersion).init
        (queuedScan 0 1 ++ queuedScan 2 10)).tasks.lookup 3).isSome = true)
  obtain ⟨task, -, hunique⟩ := hone.mp hawaits
  have hfalse : (1 : Nat) = 3 := (hunique 1 hfirst).trans (hunique 3 hsecond).symm
  omega

end PluginRegistry
