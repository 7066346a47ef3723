import PluginRegistry.Proofs.PollChains

namespace PluginRegistry
open Lib

variable {v read mine stored row : PluginVersion} {now : Time} {w : ScanWorld} {serial : Nat}
  {session : ScanSession} {e : SessionEnv} {write : SessionWrite}

def SecurityScan.virustotalPayload (scan : SecurityScan) : ScanPayload :=
  ⟨scan.virustotalPass, scan.virustotalMsg, scan.virustotalMode⟩

def PluginVersion.virustotalResults (v : PluginVersion) :
    Option ScanPayload × Option ScanPayload :=
  ((v.providerResults (.machine .virustotal)).map providerResultPayload,
    v.scan.map SecurityScan.virustotalPayload)

def ScanWorld.Overtaken (w : ScanWorld) (serial : Nat) : Prop :=
  ∃ later ∈ w.recorded, serial < later

instance (w : ScanWorld) (serial : Nat) : Decidable (w.Overtaken serial) :=
  inferInstanceAs (Decidable (∃ later ∈ w.recorded, serial < later))

def ScanWorld.KeepsNewer (w : ScanWorld) : ScanEvent → Prop
  | .advance serial e => ∀ session ∈ w.sessions.lookup serial,
    session.isPoll = true → session.stage = .opened → w.Overtaken serial →
      (w.advance serial e).row.virustotalResults = w.row.virustotalResults
  | _ => True

instance (w : ScanWorld) : ∀ event, Decidable (w.KeepsNewer event)
  | .advance serial e => inferInstanceAs (Decidable (∀ session ∈ w.sessions.lookup serial,
      session.isPoll = true → session.stage = .opened → w.Overtaken serial →
        (w.advance serial e).row.virustotalResults = w.row.virustotalResults))
  | .scan .. | .markPending _ | .markSkipped _ | .take _ | .settle .. | .other _ => .isTrue trivial

/-- What the settings, the clock and the answer of VirusTotal have a poll report on
the rows that it has read. A poll that waits for nothing or gets no answer reports
nothing. -/
inductive PollReport (env : Env) (cfg : RuntimeConfig) (v : PluginVersion) : ScanPayload → Prop
  | disabled (hw : v.awaitedAnalysis env.now ≠ none)
      (hno : Provider.virustotal ∉ cfg.scanEnabledProviders) :
      PollReport env cfg v ⟨some true, some "Scan provider disabled: virustotal", .skipped⟩
  | unconfigured (hw : v.awaitedAnalysis env.now ≠ none)
      (hen : Provider.virustotal ∈ cfg.scanEnabledProviders) (hk : cfg.virustotal.apiKey = "") :
      PollReport env cfg v
        ⟨some cfg.scanPassWhenUnconfigured, some cfg.scanUnconfiguredMessage, .skipped⟩
  | expired {analysisId : String} (hid : v.awaitedAnalysis env.now = some analysisId)
      (hen : Provider.virustotal ∈ cfg.scanEnabledProviders) (hk : cfg.virustotal.apiKey ≠ "")
      (hdue : v.pollDeadline env.now cfg.virustotal ≤ env.now) :
      PollReport env cfg v (virustotalTimeoutOutcome analysisId (v.pollAttempts env.now)
        (max 1 cfg.virustotal.maxWaitSeconds)).payload
  | answered {analysisId : String} (hask : PollAsks env cfg v analysisId) {answer : ScanOutcome}
      (hans : env.pollAnswer = .ok answer) :
      PollReport env cfg v (pollOutcome env cfg.virustotal v analysisId answer).payload

structure ScanPayload.NothingNew (read report stored : ScanPayload) : Prop where
  pass : report.pass = read.pass ∨ report.pass = stored.pass
  msg : report.msg = read.msg ∨ report.msg = stored.msg
  mode : report.mode = read.mode ∨ report.mode = stored.mode

structure PluginVersion.Agrees (stored read : PluginVersion) (report : ScanPayload) : Prop where
  result : ∀ r ∈ read.providerResults (.machine .virustotal),
    ∀ s ∈ stored.providerResults (.machine .virustotal),
      (providerResultPayload r).NothingNew report (providerResultPayload s)
  legacy : ∀ r ∈ read.scan, ∀ s ∈ stored.scan,
    r.virustotalPayload.NothingNew report s.virustotalPayload

def PluginVersion.reportedStatus (read : PluginVersion) (mode : ScanMode) : BuildStatus :=
  if read.hasArtifact then (if mode = .pending then .scanning else .success)
  else read.buildStatus

/-- The database refuses the commit of a poll: a row that it inserts is there by
now, or the checks do not admit its build status. -/
def PluginVersion.Refuses (stored read : PluginVersion) (mode : ScanMode) : Prop :=
  (read.scan.isNone ∧ stored.scan.isSome) ∨
    ((read.providerResults (.machine .virustotal)).isNone ∧
      (stored.providerResults (.machine .virustotal)).isSome) ∨
    ¬ { stored with
        buildStatus := mergeColumn read.buildStatus (read.reportedStatus mode)
          stored.buildStatus : PluginVersion }.Checked

/-- A poll that reports nothing, whose commit is refused, or whose report agrees
with what is stored. -/
def ScanSession.Spares (session : ScanSession) (e : SessionEnv) (stored : PluginVersion) : Prop :=
  ∀ report, PollReport e.env e.config session.read report →
    stored.Refuses session.read report.mode ∨ stored.Agrees session.read report

def ScanWorld.SparesNewer (w : ScanWorld) : ScanEvent → Prop
  | .advance serial e => ∀ session ∈ w.sessions.lookup serial,
    session.isPoll = true → session.stage = .opened → w.Overtaken serial → session.Spares e w.row
  | _ => True

theorem mergeRow_stored {α : Type} {merge : α → α → α → α} {read mine stored : Option α}
    (h : stored.isSome = true) : (mergeRow merge read mine stored).isSome = true := by
  obtain ⟨s, rfl⟩ := Option.isSome_iff_exists.mp h
  cases read <;> cases mine <;> rfl

theorem mergeRow_mine {α : Type} {merge : α → α → α → α} {read mine stored : Option α}
    (hm : mine.isSome = true) (h : read.isSome = true → stored.isSome = true) :
    (mergeRow merge read mine stored).isSome = true := by
  obtain ⟨m, rfl⟩ := Option.isSome_iff_exists.mp hm
  cases stored with
  | some s => exact mergeRow_stored rfl
  | none =>
    cases read with
    | none => rfl
    | some r => cases h rfl

def PluginVersion.Retained (v w : PluginVersion) : Prop :=
  (v.scan.isSome = true → w.scan.isSome = true) ∧
    ∀ p, (v.providerResults (.machine p)).isSome = true →
      (w.providerResults (.machine p)).isSome = true

theorem PluginVersion.Covers.retained (h : v.Covers row) : v.Retained row :=
  ⟨h.1, fun _ hr => h.2 _ hr⟩

theorem PluginVersion.Retained.trans (h : v.Retained mine) (h' : mine.Retained row) :
    v.Retained row :=
  ⟨fun hs => h'.1 (h.1 hs), fun p hr => h'.2 p (h.2 p hr)⟩

theorem commit_covers (h : read.commit mine stored = some row) : stored.Covers row := by
  unfold PluginVersion.commit at h
  dsimp only at h
  split at h
  · cases h
    exact ⟨fun hs => mergeRow_stored hs, fun _ hr => mergeRow_stored hr⟩
  · cases h

theorem PluginVersion.recordAll_isSome {p : Provider} {outcomes : List (Provider × ScanOutcome)}
    (h : p ∈ outcomes.map Prod.fst) :
    ((v.recordAll now outcomes).providerResults (.machine p)).isSome = true := by
  induction outcomes generalizing v with
  | nil => cases h
  | cons y ys ih =>
    rcases List.mem_cons.mp h with rfl | h
    · have hrow : ((v.record now y.1 y.2 (·.applyTracking y.1 y.2)).providerResults
          (.machine y.1)).isSome = true := by
        rw [PluginVersion.record_row]
        rfl
      have hrest := @PluginVersion.recordAll_covers
        (v.record now y.1 y.2 (·.applyTracking y.1 y.2)) now ys
      exact hrest.2 _ hrow
    · exact ih h

/-- Every session writes a legacy row. -/
theorem write_scan (h : session.write e stored = .ok (some write)) :
    write.mine.scan.isSome = true := by
  cases hr : session.request with
  | scan selected =>
    simp only [ScanSession.write, hr] at h
    cases hans : scanSelectedProviders e.env e.config selected with
    | error error =>
      rw [hans] at h
      cases h
    | ok outcomes =>
      rw [hans] at h
      cases h
      exact (PluginVersion.recordAll_covers.trans (PluginVersion.finishScan_covers _)).1 rfl
  | markPending providers =>
    obtain ⟨selected, o, -, -, -, -, hscan, -⟩ := mark_write (.inl hr) h
    exact hscan.trans (markAll_isSome.trans rfl)
  | markSkipped providers =>
    obtain ⟨selected, o, -, -, -, -, hscan, -⟩ := mark_write (.inr hr) h
    exact hscan.trans (markAll_isSome.trans rfl)
  | poll task =>
    simp only [ScanSession.write, hr] at h
    have hpolled : ∀ o track, (session.read.polled e.env.now o track).scan.isSome = true := by
      intro o track
      have hcovers : (session.read.openScan e.env.now).Covers
          (session.read.polled e.env.now o track) :=
        PluginVersion.modifyResult_covers.trans
          (PluginVersion.record_covers.trans (PluginVersion.finishScan_covers _))
      exact hcovers.1 rfl
    split at h
    · cases h
    · cases h
    · cases h
      exact hpolled _ _
    · cases h
      exact hpolled _ _

/-- Results about VirusTotal have a result row. -/
theorem write_result (ht : session.touchesVirustotal e.config = true)
    (h : session.write e stored = .ok (some write)) :
    (write.mine.providerResults (.machine .virustotal)).isSome = true := by
  have hmark : ∀ providers, session.request = .markPending providers ∨
      session.request = .markSkipped providers →
      (write.mine.providerResults (.machine .virustotal)).isSome = true := by
    intro providers hr
    obtain ⟨selected, o, hsel, -, -, hmine, -⟩ := mark_write hr h
    have hin : .virustotal ∈ selected := by
      rcases hr with hr | hr <;> simpa [ScanSession.touchesVirustotal, hr, hsel] using ht
    obtain ⟨r, hrow, -⟩ := (PluginVersion.markAll_holds hin).of_view hmine
    rw [hrow]
    rfl
  cases hr : session.request with
  | scan selected =>
    obtain ⟨outcomes, hans, -, hmine, -⟩ := scan_write hr h
    have hin : .virustotal ∈ selected := by
      simpa [ScanSession.touchesVirustotal, hr] using ht
    obtain ⟨o, ho⟩ := (scanSelectedProviders_reports hans).2.1 .virustotal hin
    have hrow : ((write.read.openScan e.env.now).recordAll e.env.now outcomes).providerResults
        (.machine .virustotal) = write.mine.providerResults (.machine .virustotal) :=
      (congrArg Prod.fst hmine).symm
    rw [← hrow]
    exact PluginVersion.recordAll_isSome (List.mem_map_of_mem (f := Prod.fst) ho)
  | markPending providers => exact hmark providers (.inl hr)
  | markSkipped providers => exact hmark providers (.inr hr)
  | poll task =>
    obtain ⟨o, -, ⟨r, hrow, -⟩, -⟩ := poll_write hr h
    rw [hrow]
    rfl

/-- The rows a session compares its own with are stored. -/
theorem write_read (hr : session.read.Retained stored)
    (h : session.write e stored = .ok (some write)) : write.read.Retained stored := by
  have hreread : (session.read.rereading stored).Retained stored := ⟨hr.1, fun _ hs => hs⟩
  cases hreq : session.request with
  | scan selected =>
    obtain ⟨outcomes, -, hread, -⟩ := scan_write hreq h
    rwa [hread]
  | markPending providers =>
    obtain ⟨selected, o, -, hread, -⟩ := mark_write (.inl hreq) h
    rwa [hread]
  | markSkipped providers =>
    obtain ⟨selected, o, -, hread, -⟩ := mark_write (.inr hreq) h
    rwa [hread]
  | poll task =>
    obtain ⟨o, hread, -⟩ := poll_write hreq h
    rwa [hread]

/-- The rows a session has read are still there, and a version with a stored
VirusTotal result has both of its rows. -/
structure ScanWorld.Lasting (w : ScanWorld) : Prop where
  readRows : ∀ i session, w.sessions.lookup i = some session → session.read.Retained w.row
  storedRows : w.recorded ≠ [] →
    (w.row.providerResults (.machine .virustotal)).isSome = true ∧ w.row.scan.isSome = true

namespace ScanWorld.Lasting

theorem withRow (h : w.Lasting) (hc : w.row.Retained row) : Lasting { w with row } where
  readRows i session hi := (h.readRows i session hi).trans hc
  storedRows hne := ⟨hc.2 _ (h.storedRows hne).1, hc.1 (h.storedRows hne).2⟩

/-- A session over rows that are still there. -/
theorem setSession (h : w.Lasting) (serial : Nat) (session : ScanSession)
    (hr : session.read.Retained w.row) : (w.setSession serial session).Lasting where
  readRows i session' hi := by
    simp only [ScanWorld.setSession, Table.lookup_insert_eq] at hi
    split at hi
    · cases hi
      exact hr
    · exact h.readRows i session' hi
  storedRows := h.storedRows

theorem openSession (h : w.Lasting) (request : SessionRequest) :
    (w.openSession request).Lasting where
  readRows i session hi := by
    simp only [ScanWorld.openSession, Table.lookup_insert_eq] at hi
    split at hi
    · cases hi
      exact ⟨id, fun _ hr => hr⟩
    · exact h.readRows i session hi
  storedRows := h.storedRows

theorem withTasks (h : w.Lasting) (tasks : Table Nat PollTask) (clock : Nat) :
    Lasting { w with tasks, clock } :=
  ⟨h.readRows, h.storedRows⟩

theorem close (h : w.Lasting) (serial : Nat) (tasks : Table Nat PollTask) :
    Lasting { w with sessions := AList.erase serial w.sessions, tasks } where
  readRows i session hi := by
    simp only [Table.lookup_erase_eq] at hi
    split at hi
    · cases hi
    · exact h.readRows i session hi
  storedRows := h.storedRows

/-- A commit keeps the rows that the sessions have read. -/
theorem record (h : w.Lasting) (hs : w.sessions.lookup serial = some session) (e : SessionEnv) :
    (w.record serial session e).Lasting := by
  unfold ScanWorld.record
  cases hw : session.write e w.row with
  | error error => exact h.close serial _
  | ok result =>
    cases result with
    | none => exact h.close serial _
    | some write =>
      dsimp only
      cases hc : write.read.commit write.mine w.row with
      | none => exact h.close serial _
      | some row =>
        have hkept := (commit_covers hc).retained
        have hread := write_read (h.readRows serial session hs) hw
        have hlasting := h.withRow hkept
        apply setSession
        · refine ⟨hlasting.readRows, fun hne => ?_⟩
          by_cases ht : session.touchesVirustotal e.config = true
          · have hresult : (row.providerResults (.machine .virustotal)).isSome = true := by
              rw [commit_result hc]
              exact mergeRow_mine (write_result ht hw) (hread.2 _)
            have hscan : row.scan.isSome = true := by
              rw [(commit_scan hc).1]
              exact mergeRow_mine (write_scan hw) hread.1
            exact ⟨hresult, hscan⟩
          · simp only [ht] at hne
            exact hlasting.storedRows hne
        · exact (h.readRows serial session hs).trans hkept

/-- No step takes away a row that a session has read. -/
theorem step (h : w.Lasting) (event : ScanEvent) : (w.step event).Lasting := by
  cases event with
  | scan providers e =>
    change (w.beginScan providers e).Lasting
    unfold ScanWorld.beginScan
    split
    · exact h
    · split
      · split
        · apply openSession
          apply h.withRow
          unfold PluginVersion.beginScan
          split
          · exact PluginVersion.openScan_covers.retained
          · exact PluginVersion.openScan_covers.retained
        · exact h
      · exact h.openSession _
  | markPending providers => exact h.openSession _
  | markSkipped providers => exact h.openSession _
  | take task =>
    change (w.take task).Lasting
    unfold ScanWorld.take
    split
    · exact (h.withTasks _ w.clock).openSession _
    · exact h
  | advance serial e =>
    change (w.advance serial e).Lasting
    unfold ScanWorld.advance
    cases hs : w.sessions.lookup serial with
    | none => exact h
    | some session =>
      dsimp only
      split
      · exact h.record hs e
      · split
        · exact h.close serial _
        · have hqueued : (w.enqueue e).Lasting := by
            unfold ScanWorld.enqueue
            split
            · exact h.withTasks _ _
            · exact h
          apply hqueued.setSession
          rw [(w.enqueue_sessions e).2]
          exact h.readRows serial session hs
      · split
        · exact h.close serial _
        · exact h.close serial _
  | settle task config =>
    change (w.settle task config).Lasting
    unfold ScanWorld.settle
    split
    · split
      · exact h.withTasks _ w.clock
      · exact h.withTasks _ w.clock
    · exact h
  | other write =>
    apply h.withRow
    refine ⟨fun hs => ?_, fun p hr => ?_⟩
    · rw [write.keepsScan]
      exact hs
    · rw [write.keepsResults]
      exact hr

theorem init (v : PluginVersion) : (scanSessions v).init.Lasting where
  readRows i session hi := by
    have hnone : (scanSessions v).init.sessions.lookup i = none := AList.lookup_empty i
    rw [hnone] at hi
    cases hi
  storedRows hne := absurd rfl hne

end ScanWorld.Lasting

section Reports
variable {env : Env} {cfg : RuntimeConfig} {report : ScanPayload} {o : ScanOutcome}

theorem PollReport.of_complete (h : v.pollDecision env cfg = .complete o) :
    PollReport env cfg v o.payload := by
  unfold PluginVersion.pollDecision at h
  cases hid : v.awaitedAnalysis env.now with
  | none =>
    rw [hid] at h
    cases h
  | some analysisId =>
    have hw : v.awaitedAnalysis env.now ≠ none := by simp [hid]
    rw [hid] at h
    dsimp only at h
    split at h
    · rename_i hno
      cases h
      exact .disabled hw (by simpa using hno)
    · rename_i hen
      have hen : Provider.virustotal ∈ cfg.scanEnabledProviders := by simpa using hen
      split at h
      · rename_i hk
        cases h
        exact .unconfigured hw hen (String.isEmpty_iff.mp hk)
      · rename_i hk
        split at h
        · rename_i hdue
          cases h
          exact .expired hid hen (fun hc => hk (String.isEmpty_iff.mpr hc)) hdue
        · split at h <;> cases h

theorem PollReport.of_recorded (h : v.pollDecision env cfg = .recorded o) :
    PollReport env cfg v o.payload := by
  have hcase := v.pollCase env cfg
  rw [h] at hcase
  cases hcase with
  | recorded hask hans => exact .answered hask hans

/-- A poll reports what it decides to store. -/
theorem PollReport.decision (h : PollReport env cfg v report) :
    ∃ o, o.payload = report ∧
      (v.pollDecision env cfg = .complete o ∨ v.pollDecision env cfg = .recorded o) := by
  cases h with
  | disabled hw hno =>
    obtain ⟨analysisId, hid⟩ := Option.ne_none_iff_exists'.mp hw
    have hno : cfg.scanEnabledProviders.contains .virustotal = false := by simpa using hno
    refine ⟨{ passed := some true
              message := "Scan provider disabled: virustotal"
              mode := .skipped
              virustotalAnalysisId := some analysisId }, rfl, .inl ?_⟩
    simp only [PluginVersion.pollDecision, hid, hno, Bool.not_false, if_true]
  | unconfigured hw hen hk =>
    obtain ⟨analysisId, hid⟩ := Option.ne_none_iff_exists'.mp hw
    have hen := List.contains_iff_mem.mpr hen
    refine ⟨{ cfg.unconfiguredOutcome with virustotalAnalysisId := some analysisId }, rfl, .inl ?_⟩
    simp only [PluginVersion.pollDecision, hid, hen, hk, Bool.not_true, Bool.false_eq_true,
      if_false]
    rfl
  | expired hid hen hk hdue =>
    have hen := List.contains_iff_mem.mpr hen
    have hkey : cfg.virustotal.apiKey.isEmpty = false := by
      rw [Bool.eq_false_iff, ne_eq, String.isEmpty_iff]
      exact hk
    refine ⟨_, rfl, .inl ?_⟩
    simp only [PluginVersion.pollDecision, hid, hen, hkey, hdue, Bool.not_true,
      Bool.false_eq_true, if_false, if_true]
  | answered hask hans => exact ⟨_, rfl, .inr (hask.decision_recorded hans)⟩

end Reports

theorem mergeColumn_stored {α : Type} [DecidableEq α] {read mine stored : α} :
    mergeColumn read mine stored = stored ↔ mine = read ∨ mine = stored := by
  unfold mergeColumn
  split
  · rename_i h
    exact iff_of_true rfl (.inl h)
  · rename_i h
    exact ⟨.inr, fun hor => hor.resolve_left h⟩

theorem ReviewProviderResult.merge_payload {read mine stored : ReviewProviderResult} :
    providerResultPayload (read.merge mine stored) = providerResultPayload stored ↔
      (providerResultPayload read).NothingNew (providerResultPayload mine)
        (providerResultPayload stored) := by
  simp only [providerResultPayload, merge, ScanPayload.mk.injEq, mergeColumn_stored]
  exact ⟨fun h => ⟨h.1, h.2.1, h.2.2⟩, fun h => ⟨h.pass, h.msg, h.mode⟩⟩

theorem SecurityScan.merge_payload {read mine stored : SecurityScan} :
    (read.merge mine stored).virustotalPayload = stored.virustotalPayload ↔
      read.virustotalPayload.NothingNew mine.virustotalPayload stored.virustotalPayload := by
  simp only [virustotalPayload, merge, ScanPayload.mk.injEq, mergeColumn_stored]
  exact ⟨fun h => ⟨h.1, h.2.1, h.2.2⟩, fun h => ⟨h.pass, h.msg, h.mode⟩⟩

def PluginVersion.Reports (v : PluginVersion) (report : ScanPayload) : Prop :=
  v.virustotalResults = (some report, some report)

theorem PluginVersion.Reports.rows {report : ScanPayload} (h : v.Reports report) :
    (∃ r, v.providerResults (.machine .virustotal) = some r ∧
      providerResultPayload r = report) ∧
    ∃ scan, v.scan = some scan ∧ scan.virustotalPayload = report := by
  obtain ⟨hrow, hscan⟩ := Prod.mk.inj h
  exact ⟨Option.map_eq_some_iff.mp hrow, Option.map_eq_some_iff.mp hscan⟩

theorem PluginVersion.polled_reports {o : ScanOutcome} {track : SecurityScan → SecurityScan}
    (ht : ∀ scan, (track scan).virustotalPayload = scan.virustotalPayload) :
    (v.polled now o track).Reports o.payload := by
  have hresults : (v.polled now o track).virustotalResults =
      ((v.openPoll now).record now .virustotal o track).virustotalResults := by
    unfold polled finishScan virustotalResults scannedAt
    dsimp only
    split <;> simp only [Option.map_map] <;> rfl
  unfold Reports
  rw [hresults]
  unfold virustotalResults
  rw [record_row]
  exact congrArg (some o.payload, some ·) (ht _)

theorem PluginVersion.polled_status {o : ScanOutcome} {track : SecurityScan → SecurityScan} :
    (v.polled now o track).buildStatus = v.reportedStatus o.mode := by
  unfold polled finishScan reportedStatus
  dsimp only
  have hart : ((((v.openPoll now).record now .virustotal o track).scannedAt now).hasArtifact) =
      v.hasArtifact := rfl
  rw [hart]
  split <;> rfl

theorem PluginVersion.polled_row_ne {o : ScanOutcome} {track : SecurityScan → SecurityScan}
    {p : Provider} (hp : p ≠ .virustotal) :
    (v.polled now o track).providerResults (.machine p) = v.providerResults (.machine p) := by
  have hrow : (v.polled now o track).providerResults (.machine p) =
      ((v.openPoll now).record now .virustotal o track).providerResults (.machine p) := by
    unfold polled finishScan scannedAt
    dsimp only
    split <;> rfl
  rw [hrow, record_row_ne hp]
  exact Function.update_of_ne (fun hc => hp (Reviewer.machine.inj hc)) ..

theorem collides_iff {α : Type} {read mine stored : Option α} (hm : mine.isSome = true) :
    collides read mine stored = true ↔ read.isNone = true ∧ stored.isSome = true := by
  simp [collides, hm]

/-- What the database refuses of a poll. -/
theorem commit_refused_iff {report : ScanPayload} (hm : mine.Reports report)
    (hb : mine.buildStatus = read.reportedStatus report.mode)
    (hne : ∀ p, p ≠ .virustotal →
      mine.providerResults (.machine p) = read.providerResults (.machine p)) :
    read.commit mine stored = none ↔ stored.Refuses read report.mode := by
  obtain ⟨⟨r, hr, -⟩, scan, hs, -⟩ := hm.rows
  have hscan : collides read.scan mine.scan stored.scan = true ↔
      read.scan.isNone = true ∧ stored.scan.isSome = true :=
    collides_iff (by rw [hs]; rfl)
  have hresults : (Provider.names.any fun p => collides (read.providerResults (.machine p))
      (mine.providerResults (.machine p)) (stored.providerResults (.machine p))) = true ↔
      (read.providerResults (.machine .virustotal)).isNone = true ∧
        (stored.providerResults (.machine .virustotal)).isSome = true := by
    rw [List.any_eq_true]
    constructor
    · rintro ⟨p, -, hp⟩
      by_cases hpv : p = .virustotal
      · subst hpv
        exact (collides_iff (by rw [hr]; rfl)).mp hp
      · rw [hne p hpv] at hp
        cases hrow : read.providerResults (.machine p) <;> rw [hrow] at hp <;> cases hp
    · exact fun h => ⟨_, Provider.mem_names _, (collides_iff (by rw [hr]; rfl)).mpr h⟩
  unfold PluginVersion.commit PluginVersion.Refuses
  dsimp only
  rw [hb]
  constructor
  · intro h
    split at h
    · cases h
    · rename_i hno
      by_contra hc
      rw [not_or, not_or, not_not, ← hscan, ← hresults] at hc
      apply hno
      obtain ⟨hc₁, hc₂, hok⟩ := hc
      rw [Bool.not_eq_true] at hc₁ hc₂
      exact ⟨Bool.or_eq_false_iff.mpr ⟨hc₁, hc₂⟩, hok.1, hok.2⟩
  · intro h
    rw [← hscan, ← hresults] at h
    apply if_neg
    rintro ⟨hfree, hok⟩
    rw [Bool.or_eq_false_iff] at hfree
    rcases h with h | h | h
    · exact Bool.false_ne_true (hfree.1.symm.trans h)
    · exact Bool.false_ne_true (hfree.2.symm.trans h)
    · exact h ⟨hok.1, hok.2⟩

/-- A commit that goes through keeps the stored result exactly when the report has
nothing new for it. -/
theorem commit_keeps_iff {report : ScanPayload} (hc : read.commit mine stored = some row)
    (hm : mine.Reports report)
    (hs : (stored.providerResults (.machine .virustotal)).isSome = true)
    (hss : stored.scan.isSome = true)
    (hr : stored.Refuses read report.mode → False) :
    row.virustotalResults = stored.virustotalResults ↔ stored.Agrees read report := by
  obtain ⟨⟨m, hmine, rfl⟩, scan, hscan, hsame⟩ := hm.rows
  obtain ⟨s, hs⟩ := Option.isSome_iff_exists.mp hs
  obtain ⟨t, hss⟩ := Option.isSome_iff_exists.mp hss
  obtain ⟨r, hread⟩ : ∃ r, read.providerResults (.machine .virustotal) = some r := by
    rw [← Option.ne_none_iff_exists']
    intro hnone
    exact hr (.inr (.inl ⟨by rw [hnone]; rfl, by rw [hs]; rfl⟩))
  obtain ⟨u, hlegacy⟩ : ∃ u, read.scan = some u := by
    rw [← Option.ne_none_iff_exists']
    intro hnone
    exact hr (.inl ⟨by rw [hnone]; rfl, by rw [hss]; rfl⟩)
  have hrow : row.virustotalResults = (some (providerResultPayload (r.merge m s)),
      some (u.merge scan t).virustotalPayload) := by
    unfold PluginVersion.virustotalResults
    rw [commit_result hc, (commit_scan hc).1, hread, hmine, hs, hlegacy, hscan, hss]
    rfl
  have hstored : stored.virustotalResults =
      (some (providerResultPayload s), some t.virustotalPayload) := by
    unfold PluginVersion.virustotalResults
    rw [hs, hss]
    rfl
  rw [hrow, hstored, Prod.mk.injEq, Option.some.injEq, Option.some.injEq,
    ReviewProviderResult.merge_payload, SecurityScan.merge_payload, hsame]
  constructor
  · intro h
    refine ⟨fun r' hr' s' hs' => ?_, fun r' hr' s' hs' => ?_⟩
    · cases hread.symm.trans hr'
      cases hs.symm.trans hs'
      exact h.1
    · cases hlegacy.symm.trans hr'
      cases hss.symm.trans hs'
      exact h.2
  · exact fun h => ⟨h.result r hread s hs, h.legacy u hlegacy t hss⟩

namespace ScanWorld

/-- A late write of a poll spares the newer result exactly where its commit is refused or
says the same. -/
theorem record_polled {report : ScanPayload} (h : w.Lasting) (hlate : w.recorded ≠ [])
    (hw : session.write e w.row = .ok (some write)) (hread : write.read = session.read)
    (hm : write.mine.Reports report)
    (hb : write.mine.buildStatus = session.read.reportedStatus report.mode)
    (hne : ∀ p, p ≠ .virustotal →
      write.mine.providerResults (.machine p) = session.read.providerResults (.machine p)) :
    (w.record serial session e).row.virustotalResults = w.row.virustotalResults ↔
      w.row.Refuses session.read report.mode ∨ w.row.Agrees session.read report := by
  have hrefused : session.read.commit write.mine w.row = none ↔
      w.row.Refuses session.read report.mode := commit_refused_iff hm hb hne
  have hrow : (w.record serial session e).row =
      (session.read.commit write.mine w.row).getD w.row := by
    unfold record
    rw [hw]
    dsimp only
    rw [hread]
    cases session.read.commit write.mine w.row <;> rfl
  rw [hrow]
  cases hc : session.read.commit write.mine w.row with
  | none => exact iff_of_true rfl (.inl (hrefused.mp hc))
  | some row =>
    have hadmitted : ¬ w.row.Refuses session.read report.mode := by
      intro hr
      cases hc.symm.trans (hrefused.mpr hr)
    obtain ⟨hresult, hscan⟩ := h.storedRows hlate
    rw [Option.getD_some, or_iff_right hadmitted]
    exact commit_keeps_iff hc hm hresult hscan hadmitted

/-- A poll of an overtaken session leaves the stored result as it is exactly when
it spares it. -/
theorem record_keeps_iff {task : Nat} (h : w.Lasting) (hlate : w.recorded ≠ [])
    (hreq : session.request = .poll task) :
    (w.record serial session e).row.virustotalResults = w.row.virustotalResults ↔
      session.Spares e w.row := by
  have hquiet : (∀ o, ¬ (session.read.pollDecision e.env e.config = .complete o ∨
      session.read.pollDecision e.env e.config = .recorded o)) → session.Spares e w.row := by
    intro hno report hrep
    obtain ⟨o, -, hd⟩ := hrep.decision
    exact absurd hd (hno o)
  have hspares : ∀ o, PollReport e.env e.config session.read o.payload →
      (session.read.pollDecision e.env e.config = .complete o ∨
        session.read.pollDecision e.env e.config = .recorded o) →
      (session.Spares e w.row ↔ w.row.Refuses session.read o.payload.mode ∨
        w.row.Agrees session.read o.payload) := by
    intro o hrep hd
    refine ⟨fun hs => hs _ hrep, fun hs report hrep' => ?_⟩
    obtain ⟨o', rfl, hd'⟩ := hrep'.decision
    have hsame : o' = o := by
      rcases hd with hd | hd <;> rcases hd' with hd' | hd' <;> cases hd.symm.trans hd' <;> rfl
    rw [hsame]
    exact hs
  cases hd : session.read.pollDecision e.env e.config with
  | idle =>
    have hw : session.write e w.row = .ok none := by simp only [ScanSession.write, hreq, hd]
    have hrow : (w.record serial session e).row = w.row := by
      unfold record
      rw [hw]
      rfl
    rw [hrow]
    refine iff_of_true rfl (hquiet fun o hno => ?_)
    rcases hno with hno | hno <;> cases hd.symm.trans hno
  | failed error =>
    have hw : session.write e w.row = .error error := by simp only [ScanSession.write, hreq, hd]
    have hrow : (w.record serial session e).row = w.row := by
      unfold record
      rw [hw]
      rfl
    rw [hrow]
    refine iff_of_true rfl (hquiet fun o hno => ?_)
    rcases hno with hno | hno <;> cases hd.symm.trans hno
  | complete o =>
    rw [hspares o (.of_complete hd) (.inl hd)]
    have hw : session.write e w.row = .ok (some ⟨session.read,
        session.read.polled e.env.now o (·.clearTracking .virustotal), none⟩) := by
      simp only [ScanSession.write, hreq, hd]
    exact record_polled h hlate hw rfl (PluginVersion.polled_reports fun _ => rfl)
      PluginVersion.polled_status fun _ hp => PluginVersion.polled_row_ne hp
  | recorded o =>
    rw [hspares o (.of_recorded hd) (.inr hd)]
    have hw : session.write e w.row = .ok (some ⟨session.read,
        session.read.polled e.env.now o (·.applyTracking .virustotal o),
        (if o.mode = .pending then o.virustotalNextPollAt else none).map (· - e.env.now)⟩) := by
      simp only [ScanSession.write, hreq, hd]
    exact record_polled h hlate hw rfl (PluginVersion.polled_reports fun _ => rfl)
      PluginVersion.polled_status fun _ hp => PluginVersion.polled_row_ne hp

/-- The step lemma. -/
theorem Lasting.keepsNewer_iff (h : w.Lasting) (event : ScanEvent) :
    w.KeepsNewer event ↔ w.SparesNewer event := by
  cases event with
  | advance serial e =>
    refine forall₂_congr fun session hs => ?_
    refine forall₃_congr fun hpoll ho hlate => ?_
    obtain ⟨task, hreq⟩ := ScanSession.isPoll_iff.mp hpoll
    have hadvance : w.advance serial e = w.record serial session e := by
      unfold advance
      rw [hs]
      dsimp only
      rw [ho]
    obtain ⟨later, hin, -⟩ := hlate
    rw [hadvance]
    exact record_keeps_iff h (List.ne_nil_of_mem hin) hreq
  | scan providers e => rfl
  | markPending providers => rfl
  | markSkipped providers => rfl
  | take task => rfl
  | settle task config => rfl
  | other write => rfl

end ScanWorld

/-- In every run, overtaken polls leave newer results alone exactly when each of
them spares what is stored when it commits. -/
theorem overtaken_polls_keep_iff (v : PluginVersion) (events : List ScanEvent) :
    (∀ s ∈ (scanSessions v).steps (scanSessions v).init events, s.1.KeepsNewer s.2) ↔
      ∀ s ∈ (scanSessions v).steps (scanSessions v).init events, s.1.SparesNewer s.2 := by
  refine forall₂_congr fun s hs => ?_
  have hreach := Machine.Reachable.init.of_mem_steps hs
  have hlasting : s.1.Lasting :=
    hreach.induct ScanWorld.Lasting (ScanWorld.Lasting.init v) fun _ event h => h.step event
  exact hlasting.keepsNewer_iff s.2

def skippedMeanwhile : List ScanEvent :=
  queuedScan 0 1 ++ [.take 1, .markSkipped none, .advance 3 (scanEnv (.calm 100)),
    .advance 2 (scanEnv (.calm 200))]

/-- The poll replaces the skip with its own result. -/
theorem poll_overwrites_skip :
    ¬ ∀ (v : PluginVersion) (events : List ScanEvent),
      ∀ s ∈ (scanSessions v).steps (scanSessions v).init events, s.1.KeepsNewer s.2 := by
  intro h
  have hfails : ¬ ∀ s ∈ (scanSessions uploadedVersion).steps (scanSessions uploadedVersion).init
      skippedMeanwhile, s.1.KeepsNewer s.2 := by
    decide +kernel
  exact hfails (h uploadedVersion skippedMeanwhile)

end PluginRegistry
