import PluginRegistry.Proofs.BuildStatus
import PluginRegistry.Services.ScanSessions

namespace PluginRegistry
open Lib

variable {v read mine stored row : PluginVersion} {now : Time}

def PluginVersion.awaits (v : PluginVersion) : Bool :=
  (v.awaitedAnalysis 0).isSome

def PluginVersion.virustotalView (v : PluginVersion) :
    Option ReviewProviderResult × Option String × ScanMode :=
  (v.providerResults (.machine .virustotal), (v.scanRow 0).virustotalAnalysisId,
    (v.scanRow 0).virustotalMode)

namespace PluginVersion

theorem scanRow_now (v : PluginVersion) (now : Time) :
    (v.scanRow now).virustotalAnalysisId = (v.scanRow 0).virustotalAnalysisId ∧
      (v.scanRow now).virustotalMode = (v.scanRow 0).virustotalMode := by
  unfold scanRow
  cases v.scan <;> exact ⟨rfl, rfl⟩

theorem awaitedAnalysis_now (v : PluginVersion) (now : Time) :
    v.awaitedAnalysis now = v.awaitedAnalysis 0 := by
  simp only [awaitedAnalysis, (v.scanRow_now now).1, (v.scanRow_now now).2]

theorem awaits_congr {v w : PluginVersion} (h : v.virustotalView = w.virustotalView) :
    v.awaits = w.awaits := by
  obtain ⟨hrow, hid, hmode⟩ : v.providerResults (.machine .virustotal) =
      w.providerResults (.machine .virustotal) ∧ (v.scanRow 0).virustotalAnalysisId =
      (w.scanRow 0).virustotalAnalysisId ∧ (v.scanRow 0).virustotalMode =
      (w.scanRow 0).virustotalMode := by simpa [virustotalView] using h
  unfold awaits awaitedAnalysis virustotalResult
  rw [hrow, hid, hmode]

theorem awaits_pending {r : ReviewProviderResult}
    (h : v.providerResults (.machine .virustotal) = some r) (hm : r.mode = .pending)
    (hid : truthy r.externalId = true) : v.awaits = true := by
  unfold truthy at hid
  simp only [awaits, awaitedAnalysis, virustotalResult, h, Option.getD_some, Option.elim_some, hm]
  cases hx : r.externalId with
  | none =>
    rw [hx] at hid
    cases hid
  | some analysisId =>
    rw [hx] at hid
    have hne : ¬ analysisId = "" := by simpa using hid
    simp [truthy, Option.filter, hne]

theorem awaits_final {r : ReviewProviderResult}
    (h : v.providerResults (.machine .virustotal) = some r) (hm : r.mode ≠ .pending) :
    v.awaits = false := by
  simp [awaits, awaitedAnalysis, h, hm]

end PluginVersion

section Columns
variable {α : Type} [DecidableEq α]

theorem mergeColumn_kept {read mine : α} (h : mine = read) (stored : α) :
    mergeColumn read mine stored = stored := by
  simp [mergeColumn, h]

theorem mergeColumn_read (read mine : α) : mergeColumn read mine read = mine := by
  unfold mergeColumn
  split
  · rename_i h
    exact h.symm
  · rfl

end Columns

theorem SecurityScan.merge_read (read mine : SecurityScan) : read.merge mine read = mine := by
  simp only [merge, mergeColumn_read]

theorem ReviewProviderResult.merge_read (read mine : ReviewProviderResult) :
    read.merge mine read = mine := by
  simp only [merge, mergeColumn_read]

/-- What a commit that goes through leaves of the result of one provider. -/
theorem commit_result (h : read.commit mine stored = some row) (p : Provider) :
    row.providerResults (.machine p) = mergeRow ReviewProviderResult.merge
      (read.providerResults (.machine p)) (mine.providerResults (.machine p))
      (stored.providerResults (.machine p)) := by
  unfold PluginVersion.commit at h
  dsimp only at h
  split at h
  · cases h
    rfl
  · cases h

theorem commit_scan (h : read.commit mine stored = some row) :
    row.scan = mergeRow SecurityScan.merge read.scan mine.scan stored.scan ∧
      collides read.scan mine.scan stored.scan = false := by
  unfold PluginVersion.commit at h
  dsimp only at h
  split at h
  · rename_i hok
    cases h
    exact ⟨rfl, (Bool.or_eq_false_iff.mp hok.1).1⟩
  · cases h

/-- A result row that nobody has written since it was read takes the new values. -/
theorem commit_fresh_result (h : read.commit mine stored = some row) {p : Provider}
    {r : ReviewProviderResult} (hm : mine.providerResults (.machine p) = some r)
    (hs : stored.providerResults (.machine p) = read.providerResults (.machine p)) :
    row.providerResults (.machine p) = some r := by
  rw [commit_result h p, hm, hs]
  cases read.providerResults (.machine p) with
  | none => rfl
  | some old => exact congrArg some (ReviewProviderResult.merge_read old r)

/-- A session that leaves the VirusTotal columns as it has read them does not
touch the stored ones. -/
theorem commit_view (h : read.commit mine stored = some row)
    (hv : mine.virustotalView = read.virustotalView)
    (hs : stored.providerResults (.machine .virustotal) =
      read.providerResults (.machine .virustotal)) :
    row.virustotalView = stored.virustotalView := by
  obtain ⟨hres, hid, hmode⟩ : mine.providerResults (.machine .virustotal) =
      read.providerResults (.machine .virustotal) ∧ (mine.scanRow 0).virustotalAnalysisId =
      (read.scanRow 0).virustotalAnalysisId ∧ (mine.scanRow 0).virustotalMode =
      (read.scanRow 0).virustotalMode := by simpa [PluginVersion.virustotalView] using hv
  have hrow : row.providerResults (.machine .virustotal) =
      stored.providerResults (.machine .virustotal) := by
    rw [commit_result h, hres, hs]
    cases read.providerResults (.machine .virustotal) with
    | none => rfl
    | some old => exact congrArg some (ReviewProviderResult.merge_read old old)
  obtain ⟨hscan, hfree⟩ := commit_scan h
  have hlegacy : (row.scanRow 0).virustotalAnalysisId = (stored.scanRow 0).virustotalAnalysisId ∧
      (row.scanRow 0).virustotalMode = (stored.scanRow 0).virustotalMode := by
    unfold PluginVersion.scanRow at hid hmode ⊢
    rw [hscan]
    cases hr : read.scan with
    | none =>
      cases hm : mine.scan with
      | none => exact ⟨rfl, rfl⟩
      | some m =>
        rw [hr, hm] at hid hmode hfree
        cases hst : stored.scan with
        | none => exact ⟨hid, hmode⟩
        | some s =>
          rw [hst] at hfree
          cases hfree
    | some r =>
      cases hm : mine.scan with
      | none => exact ⟨rfl, rfl⟩
      | some m =>
        rw [hr, hm] at hid hmode
        cases hst : stored.scan with
        | none => exact ⟨rfl, rfl⟩
        | some s => exact ⟨mergeColumn_kept hid _, mergeColumn_kept hmode _⟩
  simp only [PluginVersion.virustotalView, hrow, hlegacy.1, hlegacy.2]

namespace PluginVersion

variable {p : Provider} {o : ScanOutcome}

theorem view_of_scan {v w : PluginVersion} (hr : v.providerResults = w.providerResults)
    (hs : (v.scanRow 0).virustotalAnalysisId = (w.scanRow 0).virustotalAnalysisId ∧
      (v.scanRow 0).virustotalMode = (w.scanRow 0).virustotalMode) :
    v.virustotalView = w.virustotalView := by
  simp only [virustotalView, hr, hs.1, hs.2]

theorem view_of_results {v w : PluginVersion} (hr : v.providerResults (.machine .virustotal) =
    w.providerResults (.machine .virustotal)) (hs : v.scan = w.scan) :
    v.virustotalView = w.virustotalView := by
  simp only [virustotalView, scanRow, hr, hs]

theorem openScan_view : (v.openScan now).virustotalView = v.virustotalView := by
  refine view_of_scan (v := v.openScan now) rfl ?_
  unfold scanRow openScan
  cases v.scan <;> exact ⟨rfl, rfl⟩

theorem beginScan_view : (v.beginScan now).virustotalView = v.virustotalView := by
  have hopen := @openScan_view v now
  unfold beginScan
  split
  · exact hopen
  · exact hopen

theorem scannedAt_view : (v.scannedAt now).virustotalView = v.virustotalView := by
  refine view_of_scan (v := v.scannedAt now) rfl ?_
  unfold scanRow scannedAt
  cases v.scan <;> exact ⟨rfl, rfl⟩

theorem finishScan_view (b : BuildStatus) :
    (v.finishScan now b).virustotalView = v.virustotalView := by
  have hscanned := @scannedAt_view v now
  unfold finishScan
  dsimp only
  split
  · exact hscanned
  · exact hscanned

/-- Another provider's result leaves VirusTotal alone. -/
theorem record_view_ne (hp : p ≠ .virustotal) :
    (v.record now p o (·.applyTracking p o)).virustotalView = v.virustotalView ∧
      (v.record now p o (·.clearTracking p)).virustotalView = v.virustotalView := by
  have hscan : ∀ track : SecurityScan → SecurityScan,
      (∀ scan : SecurityScan,
        (track (scan.recordLegacy p o)).virustotalAnalysisId = scan.virustotalAnalysisId ∧
        (track (scan.recordLegacy p o)).virustotalMode = scan.virustotalMode) →
      ((v.record now p o track).scanRow 0).virustotalAnalysisId =
          (v.scanRow 0).virustotalAnalysisId ∧
        ((v.record now p o track).scanRow 0).virustotalMode = (v.scanRow 0).virustotalMode := by
    intro track ht
    unfold scanRow record
    cases hs : v.scan with
    | none => simp [hs, modifyResult]
    | some scan => simpa [hs, modifyResult] using ht scan
  constructor
  · obtain ⟨hid, hmode⟩ := hscan (·.applyTracking p o) fun scan => by
      cases p <;> first | exact ⟨rfl, rfl⟩ | exact absurd rfl hp
    simp only [virustotalView, record_row_ne (Ne.symm hp), hid, hmode]
  · obtain ⟨hid, hmode⟩ := hscan (·.clearTracking p) fun scan => by
      cases p <;> first | exact ⟨rfl, rfl⟩ | exact absurd rfl hp
    simp only [virustotalView, record_row_ne (Ne.symm hp), hid, hmode]

theorem recordAll_view {outcomes : List (Provider × ScanOutcome)}
    (h : .virustotal ∉ outcomes.map Prod.fst) :
    (v.recordAll now outcomes).virustotalView = v.virustotalView := by
  induction outcomes generalizing v with
  | nil => rfl
  | cons y ys ih =>
    rw [List.map_cons, List.mem_cons, not_or] at h
    exact (ih h.2).trans (record_view_ne (Ne.symm h.1)).1

theorem markAll_view {providers : List Provider} (h : .virustotal ∉ providers) :
    (v.markAll now providers o).virustotalView = v.virustotalView := by
  induction providers generalizing v with
  | nil => rfl
  | cons q providers ih =>
    rw [List.mem_cons, not_or] at h
    exact (ih h.2).trans (record_view_ne (Ne.symm h.1)).2

def Holds (v : PluginVersion) (o : ScanOutcome) : Prop :=
  ∃ r, v.providerResults (.machine .virustotal) = some r ∧ r.mode = o.mode ∧
    r.externalId = o.virustotalAnalysisId

theorem Holds.of_view {v w : PluginVersion} (hw : w.Holds o)
    (h : v.virustotalView = w.virustotalView) : v.Holds o := by
  obtain ⟨r, hr, hrest⟩ := hw
  exact ⟨r, (congrArg Prod.fst h).trans hr, hrest⟩

theorem record_holds {track : SecurityScan → SecurityScan} :
    (v.record now .virustotal o track).Holds o :=
  ⟨_, record_row, rfl, rfl⟩

/-- The scan of a selection stores the one outcome VirusTotal has in it. -/
theorem recordAll_holds {outcomes : List (Provider × ScanOutcome)}
    (hin : (.virustotal, o) ∈ outcomes)
    (hone : ∀ o', (.virustotal, o') ∈ outcomes → o' = o) : (v.recordAll now outcomes).Holds o := by
  induction outcomes generalizing v with
  | nil => cases hin
  | cons y ys ih =>
    by_cases hys : (.virustotal, o) ∈ ys
    · exact ih hys fun o' ho' => hone o' (List.mem_cons_of_mem _ ho')
    · have hno : .virustotal ∉ ys.map Prod.fst := by
        intro hc
        obtain ⟨⟨q, o'⟩, hq, rfl⟩ := List.mem_map.mp hc
        exact hys (hone o' (List.mem_cons_of_mem _ hq) ▸ hq)
      rcases List.mem_cons.mp hin with rfl | hin
      · exact record_holds.of_view (recordAll_view hno)
      · exact absurd hin hys

theorem markAll_holds {providers : List Provider} (h : .virustotal ∈ providers) :
    (v.markAll now providers o).Holds o := by
  induction providers generalizing v with
  | nil => cases h
  | cons q providers ih =>
    by_cases hq : .virustotal ∈ providers
    · exact ih hq
    · rcases List.mem_cons.mp h with rfl | hin
      · exact record_holds.of_view (markAll_view hq)
      · exact absurd hin hq

end PluginVersion

/-- A row that stores an outcome read afresh holds it. -/
theorem commit_holds {o : ScanOutcome} (h : read.commit mine stored = some row)
    (hm : mine.Holds o) (hs : stored.providerResults (.machine .virustotal) =
      read.providerResults (.machine .virustotal)) : row.Holds o := by
  obtain ⟨r, hr, hrest⟩ := hm
  exact ⟨r, commit_fresh_result h hr hs, hrest⟩

theorem PluginVersion.Holds.awaits_pending {o : ScanOutcome} (h : v.Holds o)
    (hm : o.mode = .pending) (hid : truthy o.virustotalAnalysisId = true) : v.awaits = true := by
  obtain ⟨r, hr, hmode, hx⟩ := h
  exact PluginVersion.awaits_pending hr (hmode.trans hm) (by rw [hx]; exact hid)

theorem PluginVersion.Holds.awaits_final {o : ScanOutcome} (h : v.Holds o)
    (hm : o.mode ≠ .pending) : v.awaits = false := by
  obtain ⟨r, hr, hmode, -⟩ := h
  exact PluginVersion.awaits_final hr (by rw [hmode]; exact hm)

section Writes
variable {session : ScanSession} {e : SessionEnv} {write : SessionWrite} {selected : List Provider}
  {providers : Option (List String)}

/-- What a scan commits. -/
theorem scan_write (hr : session.request = .scan selected)
    (h : session.write e stored = .ok (some write)) :
    ∃ outcomes, scanSelectedProviders e.env e.config selected = .ok outcomes ∧
      write.read = session.read.rereading stored ∧
      write.mine.virustotalView =
        ((write.read.openScan e.env.now).recordAll e.env.now outcomes).virustotalView ∧
      write.followup = followupTask e.env outcomes := by
  simp only [ScanSession.write, hr] at h
  cases hans : scanSelectedProviders e.env e.config selected with
  | error error =>
    rw [hans] at h
    cases h
  | ok outcomes =>
    rw [hans] at h
    cases h
    exact ⟨outcomes, rfl, rfl, PluginVersion.finishScan_view _, rfl⟩

/-- What the two marks commit. -/
theorem mark_write (hr : session.request = .markPending providers ∨
      session.request = .markSkipped providers)
    (h : session.write e stored = .ok (some write)) :
    ∃ selected outcome, e.config.selectedProviders providers = .ok selected ∧
      write.read = session.read.rereading stored ∧ write.followup = none ∧
      write.mine.virustotalView =
        ((write.read.openScan e.env.now).markAll e.env.now selected outcome).virustotalView ∧
      write.mine.scan.isSome = ((write.read.openScan e.env.now).markAll e.env.now selected
        outcome).scan.isSome ∧
      outcome.virustotalAnalysisId = none ∧
      (outcome.mode = .pending ↔ session.request = .markPending providers) := by
  rcases hr with hr | hr
  · simp only [ScanSession.write, hr] at h
    cases hsel : e.config.selectedProviders providers with
    | error error =>
      rw [hsel] at h
      cases h
    | ok selected =>
      rw [hsel] at h
      cases h
      refine ⟨selected, scanQueuedOutcome, rfl, rfl, rfl, ?_, ?_, rfl, iff_of_true rfl hr⟩
      · have hscanned := @PluginVersion.scannedAt_view
          (((session.read.rereading stored).openScan e.env.now).markAll e.env.now selected
            scanQueuedOutcome) e.env.now
        dsimp only
        unfold PluginVersion.markedPending
        dsimp only
        split
        · exact hscanned
        · exact hscanned
      · dsimp only
        unfold PluginVersion.markedPending PluginVersion.scannedAt
        dsimp only
        split <;> exact Option.isSome_map ..
  · simp only [ScanSession.write, hr] at h
    cases hsel : e.config.selectedProviders providers with
    | error error =>
      rw [hsel] at h
      cases h
    | ok selected =>
      rw [hsel] at h
      cases h
      refine ⟨selected, manuallySkippedOutcome e.config, rfl, rfl, rfl,
        PluginVersion.finishScan_view _, ?_, rfl, iff_of_false (fun hc => by cases hc) ?_⟩
      · dsimp only
        unfold PluginVersion.markedSkipped PluginVersion.finishScan PluginVersion.scannedAt
        dsimp only
        split <;> exact Option.isSome_map ..
      · rw [hr]
        exact nofun

theorem markAll_isSome {w : PluginVersion} {o : ScanOutcome} :
    (w.markAll now selected o).scan.isSome = w.scan.isSome := by
  induction selected generalizing w with
  | nil => rfl
  | cons p selected ih => exact ih.trans (Option.isSome_map ..)

/-- Marking VirusTotal clears its analysis. -/
theorem markAll_analysis {w : PluginVersion} {o : ScanOutcome} (h : .virustotal ∈ selected) :
    ((w.markAll now selected o).scanRow 0).virustotalAnalysisId = none := by
  induction selected generalizing w with
  | nil => cases h
  | cons q selected ih =>
    by_cases hq : .virustotal ∈ selected
    · exact ih hq
    · rcases List.mem_cons.mp h with rfl | hin
      · have hview := @PluginVersion.markAll_view
          (w.record now .virustotal o (·.clearTracking .virustotal)) now o selected hq
        refine (congrArg (·.2.1) hview).trans ?_
        unfold PluginVersion.virustotalView PluginVersion.scanRow PluginVersion.record
        cases hw : w.scan <;> simp [PluginVersion.modifyResult, hw] <;> rfl
      · exact absurd hin hq

/-- Another answer than a pending one asks for no further poll, and a pending
one names the analysis it is about. -/
theorem pollOutcome_shape {config : VirusTotalConfig} {env : Env} {analysisId : String}
    {answer : ScanOutcome} (h : (pollOutcome env config v analysisId answer).mode = .pending) :
    (pollOutcome env config v analysisId answer).virustotalAnalysisId = some analysisId ∧
      (pollOutcome env config v analysisId answer).virustotalNextPollAt.isSome = true := by
  unfold pollOutcome at h ⊢
  split at h
  · rename_i hp
    rw [if_pos hp]
    dsimp only at h ⊢
    split at h
    · cases h
    · rename_i hmax
      rw [if_neg hmax]
      exact ⟨rfl, rfl⟩
  · rename_i hp
    exact absurd h hp

/-- What a poll commits, and the follow-up it asks for. -/
theorem poll_write {task : Nat} (hr : session.request = .poll task)
    (h : session.write e stored = .ok (some write)) :
    ∃ o, write.read = session.read ∧ write.mine.Holds o ∧
      (write.followup.isSome = true ↔ o.mode = .pending) ∧
      (o.mode = .pending → truthy o.virustotalAnalysisId = true) := by
  simp only [ScanSession.write, hr] at h
  have hcase := session.read.pollCase e.env e.config
  cases hd : session.read.pollDecision e.env e.config with
  | idle =>
    rw [hd] at h
    cases h
  | failed error =>
    rw [hd] at h
    cases h
  | complete o =>
    rw [hd] at h
    cases h
    have ho := PluginVersion.complete_not_pending hd
    exact ⟨o, rfl, PluginVersion.record_holds.of_view (PluginVersion.finishScan_view _),
      iff_of_false Bool.false_ne_true ho, fun hp => absurd hp ho⟩
  | recorded o =>
    rw [hd] at h hcase
    cases h
    cases hcase with
    | @recorded analysisId hask answer hans =>
      refine ⟨_, rfl, PluginVersion.record_holds.of_view (PluginVersion.finishScan_view _), ?_, ?_⟩
      · dsimp only
        by_cases hp : (pollOutcome e.env e.config.virustotal session.read analysisId answer).mode =
            .pending
        · simpa [hp] using (pollOutcome_shape hp).2
        · simp [hp]
      · intro hp
        rw [(pollOutcome_shape hp).1]
        have hid := hask.awaits
        unfold PluginVersion.awaitedAnalysis at hid
        dsimp only at hid
        split at hid
        · exact (Option.filter_eq_some_iff.mp hid).2
        · cases hid

/-- Only a poll can have nothing to commit, when it has found nothing to wait for. -/
theorem idle_write (h : session.write e stored = .ok none) :
    ∃ task, session.request = .poll task ∧ session.read.awaits = false := by
  unfold ScanSession.write at h
  dsimp only at h
  split at h
  · cases hans : scanSelectedProviders e.env e.config _ with
    | error error =>
      rw [hans] at h
      cases h
    | ok outcomes =>
      rw [hans] at h
      cases h
  · cases hsel : e.config.selectedProviders _ with
    | error error =>
      rw [hsel] at h
      cases h
    | ok selected =>
      rw [hsel] at h
      cases h
  · cases hsel : e.config.selectedProviders _ with
    | error error =>
      rw [hsel] at h
      cases h
    | ok selected =>
      rw [hsel] at h
      cases h
  · rename_i task hr
    refine ⟨task, hr, ?_⟩
    have hcase := session.read.pollCase e.env e.config
    split at h
    · rename_i hd
      rw [hd] at hcase
      cases hcase with
      | idle hn =>
        rw [PluginVersion.awaits, ← session.read.awaitedAnalysis_now e.env.now, hn]
        rfl
    · cases h
    · cases h
    · cases h

end Writes

def PluginVersion.ScanFrame (v w : PluginVersion) : Prop :=
  w = { v with
    buildStatus := w.buildStatus
    scan := w.scan
    providerResults := w.providerResults }

namespace PluginVersion

variable {w : PluginVersion} {p : Provider} {o : ScanOutcome}

theorem ScanFrame.trans {u : PluginVersion} (h : v.ScanFrame w) (h' : w.ScanFrame u) :
    v.ScanFrame u := by
  unfold ScanFrame at h h' ⊢
  rw [h', h]

theorem openScan_frame : v.ScanFrame (v.openScan now) := rfl

theorem openPoll_frame : v.ScanFrame (v.openPoll now) := rfl

theorem record_frame {track : SecurityScan → SecurityScan} : v.ScanFrame (v.record now p o track) :=
  rfl

theorem finishScan_frame (b : BuildStatus) : v.ScanFrame (v.finishScan now b) := by
  unfold finishScan
  dsimp only
  split <;> rfl

theorem recordAll_frame {outcomes : List (Provider × ScanOutcome)} :
    v.ScanFrame (v.recordAll now outcomes) := by
  induction outcomes generalizing v with
  | nil => rfl
  | cons y ys ih => exact record_frame.trans ih

theorem markAll_frame {providers : List Provider} : v.ScanFrame (v.markAll now providers o) := by
  induction providers generalizing v with
  | nil => rfl
  | cons q providers ih => exact record_frame.trans ih

theorem markedPending_frame {providers : List Provider} :
    v.ScanFrame (v.markedPending now providers) := by
  have hall := openScan_frame.trans (@markAll_frame (v.openScan now) now scanQueuedOutcome providers)
  unfold ScanFrame at hall ⊢
  unfold markedPending scannedAt
  dsimp only
  split
  · rw [hall]
  · rw [hall]

def Covers (v w : PluginVersion) : Prop :=
  (v.scan.isSome = true → w.scan.isSome = true) ∧
    ∀ r, (v.providerResults r).isSome = true → (w.providerResults r).isSome = true

theorem Covers.trans {u : PluginVersion} (h : v.Covers w) (h' : w.Covers u) : v.Covers u :=
  ⟨fun hs => h'.1 (h.1 hs), fun r hr => h'.2 r (h.2 r hr)⟩

theorem openScan_covers : v.Covers (v.openScan now) :=
  ⟨fun _ => rfl, fun _ hr => hr⟩

theorem modifyResult_covers {r : Reviewer} {kind : ReviewKind}
    {f : ReviewProviderResult → ReviewProviderResult} : v.Covers (v.modifyResult r kind f) := by
  refine ⟨id, fun r' hr => ?_⟩
  by_cases h : r' = r
  · simp [modifyResult, h]
  · simpa [modifyResult, h] using hr

theorem record_covers {track : SecurityScan → SecurityScan} : v.Covers (v.record now p o track) :=
  modifyResult_covers.trans ⟨fun hs => (Option.isSome_map ..).trans hs, fun _ hr => hr⟩

theorem scannedAt_covers : v.Covers (v.scannedAt now) :=
  ⟨fun hs => (Option.isSome_map ..).trans hs, fun _ hr => hr⟩

theorem finishScan_covers (b : BuildStatus) : v.Covers (v.finishScan now b) := by
  have hscanned := @scannedAt_covers v now
  unfold finishScan
  dsimp only
  split
  · exact hscanned
  · exact hscanned

theorem recordAll_covers {outcomes : List (Provider × ScanOutcome)} :
    v.Covers (v.recordAll now outcomes) := by
  induction outcomes generalizing v with
  | nil => exact ⟨id, fun _ hr => hr⟩
  | cons y ys ih => exact record_covers.trans ih

theorem markAll_covers {providers : List Provider} : v.Covers (v.markAll now providers o) := by
  induction providers generalizing v with
  | nil => exact ⟨id, fun _ hr => hr⟩
  | cons q providers ih => exact record_covers.trans ih

theorem markedPending_covers {providers : List Provider} :
    v.Covers (v.markedPending now providers) := by
  have hall := openScan_covers.trans ((@markAll_covers (v.openScan now) now scanQueuedOutcome
    providers).trans (@scannedAt_covers _ now))
  unfold markedPending
  dsimp only
  split
  · exact hall
  · exact hall

end PluginVersion

theorem mergeRow_alone {α : Type} {merge : α → α → α → α} {read mine : Option α}
    (hm : ∀ r m, merge r m r = m) (h : read.isSome = true → mine.isSome = true) :
    mergeRow merge read mine read = mine := by
  cases read with
  | none => cases mine <;> rfl
  | some r =>
    obtain ⟨m, rfl⟩ := Option.isSome_iff_exists.mp (h rfl)
    exact congrArg some (hm r m)

theorem collides_alone {α : Type} (read mine : Option α) : collides read mine read = false := by
  cases read <;> cases mine <;> rfl

/-- A commit that nothing has come between stores what the session holds. -/
theorem commit_alone (hf : read.ScanFrame mine) (hc : read.Covers mine) (ha : mine.Checked) :
    read.commit mine read = some mine := by
  have hscan : mergeRow SecurityScan.merge read.scan mine.scan read.scan = mine.scan :=
    mergeRow_alone SecurityScan.merge_read hc.1
  have hresults : (fun r => mergeRow ReviewProviderResult.merge (read.providerResults r)
      (mine.providerResults r) (read.providerResults r)) = mine.providerResults :=
    funext fun r => mergeRow_alone ReviewProviderResult.merge_read (hc.2 r)
  unfold PluginVersion.commit
  simp only [mergeColumn_read, hscan, hresults, collides_alone]
  unfold PluginVersion.ScanFrame at hf
  rw [← hf, if_pos ⟨rfl, ha⟩]

section Alone
variable {w : ScanWorld} {e : SessionEnv} {selected : List Provider}

/-- The rows after the first step of the session that is opened next. -/
theorem advance_opened {w' : ScanWorld} (session : ScanSession) (write : SessionWrite)
    (hs : w'.sessions.lookup w.clock = some session) (ho : session.stage = .opened)
    (hw : session.write e w'.row = .ok (some write))
    (hc : write.read.commit write.mine w'.row = some row) :
    (w'.advance w.clock e).row = row := by
  simp only [ScanWorld.advance, hs, ho, ScanWorld.record, hw, hc]
  rfl

/-- A scan that runs alone stores what `scan_version` stores. -/
theorem scan_alone {providers : Option (List String)}
    {outcomes : List (Provider × ScanOutcome)}
    (hsel : e.config.selectedProviders providers = .ok selected)
    (hans : scanSelectedProviders e.env e.config selected = .ok outcomes)
    (hb : (w.row.beginScan e.env.now).Checked)
    (ha : (w.row.scanned e.env.now outcomes).Checked) :
    ((w.beginScan providers e).advance w.clock e).row = w.row.scanned e.env.now outcomes := by
  have hcommit : ∀ v : PluginVersion, v.openScan e.env.now = w.row.beginScan e.env.now →
      v.commit (w.row.scanned e.env.now outcomes) v = some (w.row.scanned e.env.now outcomes) := by
    intro v hv
    unfold PluginVersion.scanned at ha ⊢
    rw [← hv] at ha ⊢
    exact commit_alone (PluginVersion.openScan_frame.trans
        (PluginVersion.recordAll_frame.trans (PluginVersion.finishScan_frame _)))
      (PluginVersion.openScan_covers.trans
        (PluginVersion.recordAll_covers.trans (PluginVersion.finishScan_covers _))) ha
  have hwrite : ∀ v : PluginVersion, v.openScan e.env.now = w.row.beginScan e.env.now →
      ScanSession.write ⟨.scan selected, v, .opened⟩ e v =
        .ok (some ⟨v, w.row.scanned e.env.now outcomes, followupTask e.env outcomes⟩) := by
    intro v hv
    simp only [ScanSession.write, hans, PluginVersion.rereading, PluginVersion.scanned, ← hv]
    rfl
  unfold ScanWorld.beginScan
  rw [hsel]
  dsimp only
  by_cases hcan : canMarkBuildScanning w.row = true
  · rw [if_pos hcan, if_pos hb]
    have hopen : (w.row.beginScan e.env.now).openScan e.env.now = w.row.beginScan e.env.now := by
      simp only [PluginVersion.beginScan, hcan, if_true]
      rfl
    exact advance_opened ⟨.scan selected, w.row.beginScan e.env.now, .opened⟩ _
      (by simp [ScanWorld.openSession]) rfl (hwrite _ hopen)
      (hcommit _ hopen)
  · rw [if_neg hcan]
    have hopen : w.row.openScan e.env.now = w.row.beginScan e.env.now := by
      simp only [PluginVersion.beginScan, hcan, Bool.false_eq_true, if_false]
    exact advance_opened ⟨.scan selected, w.row, .opened⟩ _
      (by simp [ScanWorld.openSession]) rfl (hwrite _ hopen)
      (hcommit _ hopen)

/-- Marks that run alone store what the two operations store. -/
theorem marks_alone {providers : Option (List String)}
    (hsel : e.config.selectedProviders providers = .ok selected) :
    ((w.row.markedPending e.env.now selected).Checked →
      ((w.openSession (.markPending providers)).advance w.clock e).row =
        w.row.markedPending e.env.now selected) ∧
    ((w.row.markedSkipped e.env.now selected (manuallySkippedOutcome e.config)).Checked →
      ((w.openSession (.markSkipped providers)).advance w.clock e).row =
        w.row.markedSkipped e.env.now selected (manuallySkippedOutcome e.config)) := by
  constructor
  · intro ha
    refine advance_opened ⟨.markPending providers, w.row, .opened⟩ ⟨w.row, _, none⟩
      (by simp [ScanWorld.openSession]) rfl ?_
      (commit_alone PluginVersion.markedPending_frame PluginVersion.markedPending_covers ha)
    simp only [ScanSession.write, hsel]
    rfl
  · intro ha
    refine advance_opened ⟨.markSkipped providers, w.row, .opened⟩ ⟨w.row, _, none⟩
      (by simp [ScanWorld.openSession]) rfl ?_
      (commit_alone (PluginVersion.openScan_frame.trans
          (PluginVersion.markAll_frame.trans (PluginVersion.finishScan_frame _)))
        (PluginVersion.openScan_covers.trans
          (PluginVersion.markAll_covers.trans (PluginVersion.finishScan_covers _))) ha)
    simp only [ScanSession.write, hsel]
    rfl

/-- A poll that runs alone stores what `poll_virustotal_analysis` stores. -/
theorem poll_alone {task : Nat} {envelope : QueueTask} {o : ScanOutcome}
    {track : SecurityScan → SecurityScan}
    (ht : w.tasks.lookup task = some ⟨envelope, .waiting⟩)
    (hd : w.row.pollDecision e.env e.config = .complete o ∧ track = (·.clearTracking .virustotal) ∨
      w.row.pollDecision e.env e.config = .recorded o ∧ track = (·.applyTracking .virustotal o))
    (ha : (w.row.polled e.env.now o track).Checked) :
    ((w.take task).advance w.clock e).row = w.row.polled e.env.now o track := by
  have hcommit : w.row.commit (w.row.polled e.env.now o track) w.row =
      some (w.row.polled e.env.now o track) :=
    commit_alone (PluginVersion.openPoll_frame.trans
        (PluginVersion.record_frame.trans (PluginVersion.finishScan_frame _)))
      (PluginVersion.openScan_covers.trans (PluginVersion.modifyResult_covers.trans
        (PluginVersion.record_covers.trans (PluginVersion.finishScan_covers _)))) ha
  unfold ScanWorld.take
  rw [ht]
  dsimp only
  rcases hd with ⟨hd, rfl⟩ | ⟨hd, rfl⟩
  · refine advance_opened ⟨.poll task, w.row, .opened⟩ ⟨w.row, _, none⟩
      (by simp [ScanWorld.openSession]) rfl ?_ hcommit
    simp only [ScanSession.write, hd]
    rfl
  · refine advance_opened ⟨.poll task, w.row, .opened⟩
      ⟨w.row, _, (if o.mode = .pending then o.virustotalNextPollAt else none).map
        (· - e.env.now)⟩ (by simp [ScanWorld.openSession]) rfl ?_ hcommit
    simp only [ScanSession.write, hd]
    rfl

end Alone

end PluginRegistry
