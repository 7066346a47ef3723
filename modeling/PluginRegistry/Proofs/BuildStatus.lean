import PluginRegistry.Proofs.BuildFailures

namespace PluginRegistry
open Lib

variable {env : Env} {cfg : RuntimeConfig} {db : Db} {x : Outside} {v : PluginVersion}
  {now : Time}

inductive ScanRequest
  | scan (providers : Option (List String))
  | markPending (providers : Option (List String))
  | markSkipped (providers : Option (List String))
  | poll

def ScanRequest.operation (versionId : VersionId) : ScanRequest → Operation
  | .scan providers => .scanVersion versionId providers
  | .markPending providers => .markScanPending versionId providers
  | .markSkipped providers => .markScanSkipped versionId providers
  | .poll => .pollVirustotalAnalysis versionId

def PluginVersion.pendingFor (v : PluginVersion) (p : Provider) : Bool :=
  (v.result p).any (·.mode = .pending)

def RuntimeConfig.trackedStatus (cfg : RuntimeConfig) (v : PluginVersion) : BuildStatus :=
  if scanProvidersPending v (some cfg.scanEnabledProviders) then .scanning else .success

def Db.StatusTracks (db : Db) (versionId : VersionId) : Prop :=
  ∃ v, db.versions.lookup versionId = some v ∧ v.buildStatus = db.config.trackedStatus v

/-- An enabled provider that a request does not touch has no final result. The
legacy row that every request opens counts as pending until it is written. -/
def RuntimeConfig.StillPending (cfg : RuntimeConfig) (v : PluginVersion) (now : Time)
    (touched : List Provider) : Prop :=
  ∃ p ∈ cfg.scanEnabledProviders, p ∉ touched ∧ (v.openScan now).pendingFor p = true

structure PollStays (env : Env) (cfg : RuntimeConfig) (v : PluginVersion) : Prop where
  asks : ∃ analysisId, PollAsks env cfg v analysisId
  pending : ∃ answer, env.pollAnswer = .ok answer ∧ answer.mode = .pending
  attempts : (v.pollAttempts env.now + 1 : Nat) < max 1 cfg.virustotal.maxPollAttempts

/-- The requests that leave the status in step with all results, by the row they
find and what they are told. -/
def ScanRequest.Consistent (env : Env) (db : Db) (v : PluginVersion) : ScanRequest → Prop
  | .scan providers =>
    (Waiting env db.config (db.selection providers) ↔
      Waiting env db.config
          ((db.selection providers).filter db.config.scanEnabledProviders.contains) ∨
        db.config.StillPending v env.now (db.selection providers)) ∨
      ScanPublishes env db providers v
  | .markPending providers =>
    (∃ p ∈ db.selection providers, p ∈ db.config.scanEnabledProviders) ∨
      db.config.StillPending v env.now (db.selection providers)
  | .markSkipped providers => ¬ db.config.StillPending v env.now (db.selection providers)
  | .poll =>
    if v.awaitedAnalysis env.now = none then v.buildStatus = db.config.trackedStatus v
    else PollStays env db.config v ∨ ¬ db.config.StillPending v env.now [.virustotal]

theorem scanProvidersPending_iff {enabled : List Provider} :
    scanProvidersPending v (some enabled) = true ↔ ∃ p ∈ enabled, v.pendingFor p = true := by
  have hres : ∀ p, scanProviderResults v (some enabled) p =
      if p ∈ enabled then v.result p else none := by
    intro p
    by_cases hp : p ∈ enabled <;> simp [scanProviderResults, PluginVersion.result, hp]
  rw [scanProvidersPending, List.any_eq_true]
  constructor
  · rintro ⟨p, -, hpend⟩
    rw [hres] at hpend
    split at hpend
    · rename_i hp
      exact ⟨p, hp, hpend⟩
    · cases hpend
  · rintro ⟨p, hp, hpend⟩
    refine ⟨p, Provider.mem_names p, ?_⟩
    rw [hres, if_pos hp]
    exact hpend

/-- Splitting the pending results into those a request has touched and the rest. -/
theorem pending_split {w : PluginVersion} {touched : List Provider}
    (hrest : ∀ p, p ∉ touched → w.pendingFor p = (v.openScan now).pendingFor p) :
    (∃ p ∈ cfg.scanEnabledProviders, w.pendingFor p = true) ↔
      (∃ p ∈ touched, p ∈ cfg.scanEnabledProviders ∧ w.pendingFor p = true) ∨
        cfg.StillPending v now touched := by
  constructor
  · rintro ⟨p, hp, hpend⟩
    by_cases ht : p ∈ touched
    · exact .inl ⟨p, ht, hp, hpend⟩
    · exact .inr ⟨p, hp, ht, (hrest p ht) ▸ hpend⟩
  · rintro (⟨p, -, hp, hpend⟩ | ⟨p, hp, ht, hpend⟩)
    · exact ⟨p, hp, hpend⟩
    · exact ⟨p, hp, (hrest p ht).trans hpend⟩

/-- A row whose status says whether some touched result is pending. -/
theorem tracked_iff (cfg : RuntimeConfig) {w : PluginVersion} {touched : List Provider} {pending : Prop}
    [Decidable pending] (hstatus : w.buildStatus = if pending then .scanning else .success)
    (hrest : ∀ p, p ∉ touched → w.pendingFor p = (v.openScan now).pendingFor p) :
    w.buildStatus = cfg.trackedStatus w ↔
      (pending ↔ (∃ p ∈ touched, p ∈ cfg.scanEnabledProviders ∧ w.pendingFor p = true) ∨
        cfg.StillPending v now touched) := by
  rw [← pending_split hrest, ← scanProvidersPending_iff, RuntimeConfig.trackedStatus, hstatus]
  by_cases hp : pending <;>
    cases scanProvidersPending w (some cfg.scanEnabledProviders) <;> simp [hp]

namespace PluginVersion

variable {p : Provider} {o : ScanOutcome}

theorem beginScan_result : (v.beginScan now).result p = (v.openScan now).result p := by
  unfold beginScan
  split <;> rfl

theorem scannedAt_result : (v.scannedAt now).result p = v.result p := by
  simp only [result, scanProviderResults, scannedAt]
  cases v.scan with
  | none => rfl
  | some scan => cases p <;> rfl

theorem openPoll_result (hp : p ≠ .virustotal) :
    (v.openPoll now).result p = (v.openScan now).result p := by
  have hrow : (v.openPoll now).providerResults (.machine p) =
      (v.openScan now).providerResults (.machine p) :=
    Function.update_of_ne (fun hc => hp (Reviewer.machine.inj hc)) ..
  simp only [result, scanProviderResults, hrow]
  rfl

theorem markAll_result_ne {providers : List Provider} (h : p ∉ providers) :
    (v.markAll now providers o).result p = v.result p := by
  induction providers generalizing v with
  | nil => rfl
  | cons q providers ih =>
    rw [List.mem_cons, not_or] at h
    exact (ih h.2).trans (record_result_ne h.1 (PluginVersion.clear_keeps q))

theorem markAll_result {providers : List Provider} (h : p ∈ providers) :
    (v.markAll now providers o).result p = some o.payload := by
  induction providers generalizing v with
  | nil => cases h
  | cons q providers ih =>
    by_cases hp : p ∈ providers
    · exact ih hp
    · rcases List.mem_cons.mp h with rfl | hin
      · exact (markAll_result_ne hp).trans record_result
      · exact absurd hin hp

theorem markedPending_result (providers : List Provider) :
    (v.markedPending now providers).result p =
      ((v.openScan now).markAll now providers scanQueuedOutcome).result p := by
  have hscanned := @scannedAt_result ((v.openScan now).markAll now providers scanQueuedOutcome) now p
  unfold markedPending
  dsimp only
  split
  · exact hscanned
  · exact hscanned

theorem reviewed_result (f : ReviewProviderResult → ReviewProviderResult) :
    (v.modifyResult .human .human f).result p = v.result p := by
  have hne : Reviewer.machine p ≠ .human := nofun
  simp only [result, scanProviderResults, modifyResult, Function.update_of_ne hne]

/-- Publishing a version changes no machine result. -/
theorem published_result {pluginId : PluginId} {reviewStatus : ReviewStatus} :
    (v.published pluginId now reviewStatus).result p = v.result p := by
  refine (reviewed_result _).trans ?_
  unfold withoutLatest activated settleBuild
  split
  · split <;> rfl
  · split <;> rfl

end PluginVersion

theorem statusTracks_iff {versionId : VersionId} (hv : db.versions.lookup versionId = some v) :
    db.StatusTracks versionId ↔ v.buildStatus = db.config.trackedStatus v := by
  simp [Db.StatusTracks, hv]

/-- A version that passes the gates has no pending result. -/
theorem passes_tracked (hb : v.buildStatus = .success ∨ v.buildStatus = .scanning)
    (hp : db.passes v = true) : db.config.trackedStatus v = .success := by
  have hall := (Db.passes_iff hb).mp hp
  rw [RuntimeConfig.trackedStatus, if_neg]
  rw [scanProvidersPending_iff]
  rintro ⟨p, hin, hpend⟩
  have hpass := hall p hin
  rw [PluginVersion.resultPasses] at hpass
  rw [PluginVersion.pendingFor] at hpend
  cases hr : v.result p with
  | none =>
    rw [hr] at hpass
    cases hpass
  | some r =>
    rw [hr] at hpass hpend
    exact passes_result hpass (of_decide_eq_true hpend)

/-- An attempt to publish brings the status in step if it publishes. -/
theorem autoPublished_tracks {versionId : VersionId}
    (hv : db.versions.lookup versionId = some v)
    (hb : v.buildStatus = .success ∨ v.buildStatus = .scanning) :
    (db.autoPublished now versionId).StatusTracks versionId ↔
      db.StatusTracks versionId ∨ db.autoPublishes v = true := by
  simp only [Db.autoPublished, hv]
  cases hp : db.autoPublishes v with
  | false => simp
  | true =>
    have hpass := (Db.autoPublishes_iff.mp hp).2
    have hready := hpass
    rw [Db.passes, Bool.and_eq_true] at hready
    have hrow : (db.published now v.pluginId versionId .skipped).versions.lookup versionId =
        some (v.published v.pluginId now .skipped) := by
      rw [(Db.published_rewritten ..).versions, hv, Option.map_some, if_pos rfl]
    have hstatus : (v.published v.pluginId now .skipped).buildStatus = .success :=
      (v.activated.withoutLatest_buildStatus v.pluginId).trans
        (PluginVersion.settleBuild_success hready.1)
    have hsame : db.config.trackedStatus (v.published v.pluginId now .skipped) =
        db.config.trackedStatus v := by
      simp only [RuntimeConfig.trackedStatus, scanProvidersPending_iff, PluginVersion.pendingFor,
        PluginVersion.published_result]
    rw [if_pos rfl, statusTracks_iff hrow]
    apply iff_of_true
    · rw [hstatus]
      exact ((hsame.trans (passes_tracked hb hpass))).symm
    · exact .inr rfl

/-- What a scan records for the providers it has selected. -/
theorem scanned_pending {selected : List Provider} (hnd : selected.Nodup)
    {outcomes : List (Provider × ScanOutcome)}
    (hans : scanSelectedProviders env cfg selected = .ok outcomes) :
    (∃ p ∈ selected, p ∈ cfg.scanEnabledProviders ∧
        (v.scanned now outcomes).pendingFor p = true) ↔
      Waiting env cfg (selected.filter cfg.scanEnabledProviders.contains) := by
  obtain ⟨hrep, hmem, hdis⟩ := scanSelectedProviders_reports hans
  have hself : ∀ p ∈ selected, (v.scanned now outcomes).pendingFor p = true ↔
      cfg.isConfigured p = true ∧ ∃ o, env.scanAnswer p = .ok o ∧ o.mode = .pending := by
    intro p hp
    obtain ⟨o, ho⟩ := hmem p hp
    have hres : (v.scanned now outcomes).result p = some o.payload :=
      (PluginVersion.finishScan_result _).trans (PluginVersion.recordAll_result (hdis hnd) ho)
    have hr := (hrep p o ho).2
    rw [PluginVersion.pendingFor, hres, Option.any_some, decide_eq_true_eq]
    unfold Reported at hr
    by_cases hconf : cfg.isConfigured p = true
    · rw [if_pos hconf] at hr
      simp [hconf, hr, ScanOutcome.payload]
    · rw [if_neg hconf] at hr
      subst hr
      simp [hconf, ScanOutcome.payload, RuntimeConfig.unconfiguredOutcome]
  constructor
  · rintro ⟨p, hp, hin, hpend⟩
    exact ⟨p, List.mem_filter.mpr ⟨hp, List.contains_iff_mem.mpr hin⟩, (hself p hp).mp hpend⟩
  · rintro ⟨p, hp, hpend⟩
    obtain ⟨hp, hin⟩ := List.mem_filter.mp hp
    exact ⟨p, hp, List.contains_iff_mem.mp hin, (hself p hp).mpr hpend⟩

/-- After a scan the status fits the results exactly where the providers asked wait if and
only if an enabled one does. -/
theorem scanned_tracks (h : db.Sound) {versionId : VersionId}
    (hv : db.versions.lookup versionId = some v) {providers : Option (List String)}
    {selected : List Provider} (hsel : db.selectedProviders providers = .ok selected)
    {outcomes : List (Provider × ScanOutcome)}
    (hans : scanSelectedProviders env db.config selected = .ok outcomes) :
    (db.scanned env.now versionId outcomes).StatusTracks versionId ↔
      (Waiting env db.config selected ↔
        Waiting env db.config (selected.filter db.config.scanEnabledProviders.contains) ∨
          db.config.StillPending v env.now selected) := by
  have hnd := db.selection_nodup providers
  rw [Db.selection_of_ok hsel] at hnd
  obtain ⟨hrep, -, -⟩ := scanSelectedProviders_reports hans
  have hrest : ∀ p, p ∉ selected →
      (v.scanned env.now outcomes).pendingFor p = (v.openScan env.now).pendingFor p := by
    intro p hp
    have hno : p ∉ outcomes.map Prod.fst := by
      intro hc
      obtain ⟨⟨q, o⟩, hq, rfl⟩ := List.mem_map.mp hc
      exact hp (hrep q o hq).1
    have hres : (v.scanned env.now outcomes).result p = (v.openScan env.now).result p :=
      (PluginVersion.finishScan_result _).trans
        ((PluginVersion.recordAll_result_ne hno).trans PluginVersion.beginScan_result)
    rw [PluginVersion.pendingFor, hres, PluginVersion.pendingFor]
  rw [statusTracks_iff (Db.scanned_lookup env.now hv outcomes)]
  have hstatus := PluginVersion.scanned_buildStatus env.now (h.artifacts _ v hv) outcomes
  have htracked := tracked_iff db.config hstatus hrest
  rw [scanned_pending hnd hans] at htracked
  rw [← anyPending_iff hans]
  exact htracked

/-- A scan that raises nothing has asked its scanners and stored their answers. -/
theorem scan_completed (h : db.Sound) {versionId : VersionId}
    (hv : db.versions.lookup versionId = some v) {providers : Option (List String)}
    (hdone : ((scanVersion env versionId providers).perform db x).outcome = .ok ()) :
    ∃ selected outcomes, db.selectedProviders providers = .ok selected ∧
      scanSelectedProviders env db.config selected = .ok outcomes ∧
      ¬ (v.isLatest = true ∧ anyPending outcomes = true) := by
  have hrun := scanVersion_run env x h versionId providers
  rw [Work.perform, hrun] at hdone
  cases hsel : db.selectedProviders providers with
  | error e =>
    rw [hsel] at hdone
    cases hdone
  | ok selected =>
    rw [hsel] at hdone
    simp only [hv] at hdone
    cases hans : scanSelectedProviders env db.config selected with
    | error e =>
      rw [hans] at hdone
      cases hdone
    | ok outcomes =>
      refine ⟨selected, outcomes, rfl, hans, fun hlate => ?_⟩
      rw [hans] at hdone
      dsimp only at hdone
      rw [if_pos hlate] at hdone
      cases hdone

theorem scan_tracks (h : db.Sound) {versionId : VersionId}
    (hv : db.versions.lookup versionId = some v) {providers : Option (List String)}
    (hdone : ((scanVersion env versionId providers).perform db x).outcome = .ok ()) :
    (db.scanResult env versionId providers).StatusTracks versionId ↔
      (ScanRequest.scan providers).Consistent env db v := by
  obtain ⟨selected, outcomes, hsel, hans, hlate⟩ := scan_completed h hv hdone
  have htracked := scanned_tracks h hv hsel hans
  have hpublish := scanPublishes_iff h hv hsel hans hlate
  have hrow := Db.scanned_lookup env.now hv outcomes
  have hb : (v.scanned env.now outcomes).buildStatus = .success ∨
      (v.scanned env.now outcomes).buildStatus = .scanning := by
    rw [PluginVersion.scanned_buildStatus env.now (h.artifacts _ v hv)]
    exact scanBuildStatus_cases outcomes
  have hrows : db.scanResult env versionId providers =
      (db.scanned env.now versionId outcomes).afterScan env versionId outcomes := by
    simp only [Db.scanResult, hsel, hv, hans, hlate, if_false]
  rw [hrows, ScanRequest.Consistent, Db.selection_of_ok hsel, ← htracked, hpublish]
  unfold Db.afterScan
  split
  · rename_i hgo
    rw [autoPublished_tracks hrow hb, and_iff_right hgo]
  · rename_i hstop
    rw [or_iff_left fun hp => hstop hp.1]

/-- A mark that raises nothing knows the providers it was given. -/
theorem mark_completed (h : db.Sound) {versionId : VersionId}
    (hv : db.versions.lookup versionId = some v) {providers : Option (List String)}
    (hdone : ((markScanPending env versionId providers).perform db x).outcome = .ok () ∨
      ((markScanSkipped env versionId providers).perform db x).outcome = .ok ()) :
    ∃ selected, db.selectedProviders providers = .ok selected := by
  cases hsel : db.selectedProviders providers with
  | ok selected => exact ⟨selected, rfl⟩
  | error e =>
    rcases hdone with hdone | hdone
    · rw [Work.perform, markScanPending_run env x h] at hdone
      simp only [hv, hsel] at hdone
      cases hdone
    · rw [Work.perform, markScanSkipped_run env x h] at hdone
      simp only [hv, hsel] at hdone
      cases hdone

/-- The same of `mark_scan_pending`, whose outcome is the same for all selected providers. -/
theorem markPending_tracks (h : db.Sound) {versionId : VersionId}
    (hv : db.versions.lookup versionId = some v) (hl : v.isLatest = false)
    {providers : Option (List String)}
    (hdone : ((markScanPending env versionId providers).perform db x).outcome = .ok ()) :
    (db.afterMarkPending env.now versionId providers).StatusTracks versionId ↔
      (ScanRequest.markPending providers).Consistent env db v := by
  obtain ⟨selected, hsel⟩ := mark_completed h hv (.inl hdone)
  have hrow : (db.afterMarkPending env.now versionId providers).versions.lookup versionId =
      some (v.markedPending env.now selected) := by
    simp [Db.afterMarkPending, hv, hsel]
  have hconfig : (db.afterMarkPending env.now versionId providers).config = db.config := by
    simp [Db.afterMarkPending, hv, hsel]
  have hcan : canMarkBuildScanning v = true := by
    simp [canMarkBuildScanning, h.artifacts _ v hv, hl]
  have hstatus : (v.markedPending env.now selected).buildStatus =
      if True then .scanning else .success := by
    simp only [PluginVersion.markedPending, hcan, if_true]
  have hrest : ∀ p, p ∉ selected → (v.markedPending env.now selected).pendingFor p =
      (v.openScan env.now).pendingFor p := by
    intro p hp
    rw [PluginVersion.pendingFor, PluginVersion.markedPending_result,
      PluginVersion.markAll_result_ne hp, PluginVersion.pendingFor]
  have hself : ∀ p ∈ selected, (v.markedPending env.now selected).pendingFor p = true := by
    intro p hp
    rw [PluginVersion.pendingFor, PluginVersion.markedPending_result,
      PluginVersion.markAll_result hp]
    rfl
  rw [statusTracks_iff hrow, hconfig, tracked_iff db.config hstatus hrest, ScanRequest.Consistent,
    Db.selection_of_ok hsel, true_iff]
  refine or_congr_left (exists_congr fun p => and_congr_right fun hp => ?_)
  exact and_iff_left (hself p hp)

/-- The same of `mark_scan_skipped`. -/
theorem markSkipped_tracks (h : db.Sound) {versionId : VersionId}
    (hv : db.versions.lookup versionId = some v) {providers : Option (List String)}
    (hdone : ((markScanSkipped env versionId providers).perform db x).outcome = .ok ()) :
    (db.afterMarkSkipped env.now versionId providers).StatusTracks versionId ↔
      (ScanRequest.markSkipped providers).Consistent env db v := by
  obtain ⟨selected, hsel⟩ := mark_completed h hv (.inr hdone)
  have hrow : (db.afterMarkSkipped env.now versionId providers).versions.lookup versionId =
      some (v.markedSkipped env.now selected (manuallySkippedOutcome db.config)) := by
    simp [Db.afterMarkSkipped, hv, hsel]
  have hconfig : (db.afterMarkSkipped env.now versionId providers).config = db.config := by
    simp [Db.afterMarkSkipped, hv, hsel]
  have hstatus : (v.markedSkipped env.now selected
      (manuallySkippedOutcome db.config)).buildStatus = if False then .scanning else .success := by
    rw [if_neg not_false, PluginVersion.markedSkipped_buildStatus env.now (h.artifacts _ v hv)]
  have hrest : ∀ p, p ∉ selected → (v.markedSkipped env.now selected
      (manuallySkippedOutcome db.config)).pendingFor p = (v.openScan env.now).pendingFor p := by
    intro p hp
    rw [PluginVersion.pendingFor, PluginVersion.markedSkipped, PluginVersion.finishScan_result,
      PluginVersion.markAll_result_ne hp, PluginVersion.pendingFor]
  have hself : ∀ p ∈ selected, ¬ (v.markedSkipped env.now selected
      (manuallySkippedOutcome db.config)).pendingFor p = true := by
    intro p hp
    rw [PluginVersion.pendingFor, PluginVersion.markedSkipped, PluginVersion.finishScan_result,
      PluginVersion.markAll_result hp]
    exact Bool.false_ne_true
  rw [statusTracks_iff hrow, hconfig, tracked_iff db.config hstatus hrest, ScanRequest.Consistent,
    Db.selection_of_ok hsel, false_iff, not_or, and_iff_right]
  rintro ⟨p, hp, -, hpend⟩
  exact hself p hp hpend

theorem polled_tracks (h : db.Sound) {versionId : VersionId}
    (hv : db.versions.lookup versionId = some v) {o : ScanOutcome}
    {track : SecurityScan → SecurityScan} (ht : KeepsLegacy track) :
    (db.polled now versionId o track).StatusTracks versionId ↔
      (o.mode = .pending ↔
        (.virustotal ∈ db.config.scanEnabledProviders ∧ o.mode = .pending) ∨
          db.config.StillPending v now [.virustotal]) := by
  have hself : (v.polled now o track).pendingFor .virustotal = true ↔ o.mode = .pending := by
    rw [PluginVersion.pendingFor, PluginVersion.polled, PluginVersion.finishScan_result,
      PluginVersion.record_result, Option.any_some, decide_eq_true_eq]
    rfl
  have hrest : ∀ p, p ∉ [Provider.virustotal] →
      (v.polled now o track).pendingFor p = (v.openScan now).pendingFor p := by
    intro p hp
    rw [List.mem_singleton] at hp
    rw [PluginVersion.pendingFor, PluginVersion.polled, PluginVersion.finishScan_result,
      PluginVersion.record_result_ne hp ht, PluginVersion.openPoll_result hp,
      PluginVersion.pendingFor]
  have hstatus := PluginVersion.polled_buildStatus now (h.artifacts _ v hv) o track
  have htracked := tracked_iff db.config hstatus hrest
  simp only [List.mem_singleton, exists_eq_left, hself] at htracked
  rw [statusTracks_iff (Db.polled_lookup now hv o track)]
  exact htracked

/-- Publishing after a poll never has a status to bring in step. -/
theorem afterPoll_tracks (h : db.Sound) {versionId : VersionId}
    (hv : db.versions.lookup versionId = some v) {o : ScanOutcome}
    {track : SecurityScan → SecurityScan} (caller : Caller) :
    ((db.polled env.now versionId o track).afterPoll env caller versionId o).StatusTracks
        versionId ↔ (db.polled env.now versionId o track).StatusTracks versionId := by
  have hrow := Db.polled_lookup env.now hv o track
  have hstatus := PluginVersion.polled_buildStatus env.now (h.artifacts _ v hv) o track
  unfold Db.afterPoll
  split
  · rename_i hgo
    rw [if_neg hgo.1] at hstatus
    rw [autoPublished_tracks hrow (.inl hstatus)]
    apply or_iff_left_of_imp
    intro hp
    rw [statusTracks_iff hrow, hstatus]
    exact (passes_tracked (.inl hstatus) (Db.autoPublishes_iff.mp hp).2).symm
  · exact Iff.rfl

/-- The same of a poll, which writes one provider and leaves the others as they stand. -/
theorem poll_tracks (h : db.Sound) {versionId : VersionId}
    (hv : db.versions.lookup versionId = some v)
    (hdone : ((pollVirustotalAnalysis env versionId).perform db x).outcome = .ok ()) :
    (db.pollResult env versionId).StatusTracks versionId ↔
      ScanRequest.poll.Consistent env db v := by
  have hrun := pollVirustotalAnalysis_run env x h versionId
  simp only [hv] at hrun
  rw [Work.perform, hrun] at hdone
  simp only [Db.pollResult, hv, ScanRequest.Consistent]
  have hcase := v.pollCase env db.config
  cases hd : v.pollDecision env db.config with
  | idle =>
    rw [hd] at hcase
    cases hcase with
    | idle hn => rw [if_pos hn, statusTracks_iff hv]
  | failed e =>
    rw [hd] at hdone
    cases hdone
  | complete o =>
    have ho := PluginVersion.complete_not_pending hd
    have hasks : ∀ analysisId, ¬ PollAsks env db.config v analysisId := by
      intro analysisId hask
      cases hans : env.pollAnswer with
      | error e => cases hd.symm.trans (hask.decision_failed hans)
      | ok answer => cases hd.symm.trans (hask.decision_recorded hans)
    have hstays : ¬ PollStays env db.config v := fun hs => hs.asks.elim hasks
    have hawaits : v.awaitedAnalysis env.now ≠ none := by
      rw [hd] at hcase
      cases hcase with
      | disabled hid hno ho => simp [hid]
      | unconfigured hid hen hk ho => simp [hid]
      | expired hid hen hk hdue ho => simp [hid]
    rw [if_neg hawaits, or_iff_right hstays]
    dsimp only
    rw [afterPoll_tracks h hv, polled_tracks h hv (PluginVersion.clear_keeps .virustotal)]
    simp only [ho, and_false, false_or, false_iff]
  | recorded o =>
    rw [hd] at hcase hdone
    cases hcase with
    | @recorded analysisId hask answer hans =>
      have hawaits : v.awaitedAnalysis env.now ≠ none := by simp [hask.awaits]
      have hlate : ¬ (v.isLatest = true ∧
          (pollOutcome env db.config.virustotal v analysisId answer).mode = .pending) := by
        intro hc
        dsimp only at hdone
        rw [if_pos hc] at hdone
        cases hdone
      have hstays : (pollOutcome env db.config.virustotal v analysisId answer).mode = .pending ↔
          PollStays env db.config v := by
        rw [pollOutcome_pending]
        constructor
        · rintro ⟨hp, hatt⟩
          exact ⟨⟨_, hask⟩, ⟨_, hans, hp⟩, hatt⟩
        · rintro ⟨-, ⟨answer', hans', hp⟩, hatt⟩
          rw [hans] at hans'
          cases hans'
          exact ⟨hp, hatt⟩
      dsimp only
      rw [if_neg hawaits, if_neg hlate, afterPoll_tracks h hv,
        polled_tracks h hv (PluginVersion.apply_keeps .virustotal _), ← hstays,
        and_iff_right hask.enabled]
      tauto

structure PluginVersion.Unpublished (v : PluginVersion) : Prop where
  artifact : v.hasArtifact = true
  built : v.buildStatus = .success ∨ v.buildStatus = .scanning
  notLatest : v.isLatest = false

def ScanRequest.Completes (request : ScanRequest) (env : Env) (versionId : VersionId) (w : World) :
    Prop :=
  ((request.operation versionId).perform env w.db w.outside).outcome = .ok ()

/-- One completed request leaves the status in step exactly when it is consistent. -/
theorem request_tracks {w : World} (h : w.db.Sound) {versionId : VersionId}
    (hv : w.db.versions.lookup versionId = some v) (hl : v.isLatest = false)
    (request : ScanRequest) (hdone : request.Completes env versionId w) :
    (w.perform (request.operation versionId) env).db.StatusTracks versionId ↔
      request.Consistent env w.db v := by
  have hrows : (w.perform (request.operation versionId) env).db =
      (request.operation versionId).rows env w.db :=
    ((request.operation versionId).performs env w.outside h).rows
  rw [hrows]
  cases request with
  | scan providers => exact scan_tracks h hv hdone
  | markPending providers => exact markPending_tracks h hv hl hdone
  | markSkipped providers => exact markSkipped_tracks h hv hdone
  | poll => exact poll_tracks h hv hdone

/-- A step of a run that requests something of an unpublished version and completes. -/
structure RequestedIn (config : RuntimeConfig) (events : List Event) (versionId : VersionId)
    (w : World) (request : ScanRequest) (env : Env) (v : PluginVersion) : Prop where
  step : (w, .perform (request.operation versionId) env) ∈
    (service config).steps (service config).init events
  row : w.db.versions.lookup versionId = some v
  unpublished : v.Unpublished
  completes : request.Completes env versionId w

/-- A run keeps the build status in step with the pending results exactly when
each of its requests is consistent. -/
theorem build_status_tracks_iff (config : RuntimeConfig) (events : List Event)
    (versionId : VersionId) :
    (∀ w request env v, RequestedIn config events versionId w request env v →
        (w.perform (request.operation versionId) env).db.StatusTracks versionId) ↔
      ∀ w request env v, RequestedIn config events versionId w request env v →
        request.Consistent env w.db v := by
  refine forall_congr' fun w => forall_congr' fun request => forall_congr' fun env =>
    forall_congr' fun v => forall_congr' fun h => ?_
  have hw : (service config).Reachable w := Machine.Reachable.init.of_mem_steps h.step
  exact request_tracks (reachable_sound hw) h.row h.unpublished.notLatest request h.completes

def subsetScanRun : List Event :=
  [.perform (.createPlugin .demo "") (.calm 0),
    .perform (.uploadVersion 0 .demo [] "") (.calm 1),
    .perform (.scanVersion 1 (some ["clamav"])) (.calm 2)]

/-- VirusTotal and the LLM agent, both enabled, stay pending, and the build is
successful all the same. -/
theorem subset_scan_not_tracked :
    ¬ ∀ (config : RuntimeConfig) (events : List Event) (versionId : VersionId) (w : World)
      (request : ScanRequest) (env : Env) (v : PluginVersion),
        RequestedIn config events versionId w request env v →
          (w.perform (request.operation versionId) env).db.StatusTracks versionId := by
  intro h
  have hstep : (World.run .default (subsetScanRun.take 2),
      Event.perform ((ScanRequest.scan (some ["clamav"])).operation 1) (.calm 2)) ∈
      (service .default).steps (service .default).init subsetScanRun :=
    List.mem_cons_of_mem _ (List.mem_cons_of_mem _ List.mem_cons_self)
  obtain ⟨v, hv, hin⟩ : ∃ v, (World.run .default (subsetScanRun.take 2)).db.versions.lookup 1 =
      some v ∧ decide (v.hasArtifact = true ∧ v.buildStatus = .success ∧ v.isLatest = false) =
        true := (Option.any_eq_true ..).mp (by decide +kernel)
  obtain ⟨ha, hb, hl⟩ := of_decide_eq_true hin
  obtain ⟨v', hv', hbad⟩ : ∃ v', (World.run .default subsetScanRun).db.versions.lookup 1 =
      some v' ∧ decide (v'.buildStatus ≠ (World.run .default
        subsetScanRun).db.config.trackedStatus v') = true :=
    (Option.any_eq_true ..).mp (by decide +kernel)
  have hdone : (ScanRequest.scan (some ["clamav"])).Completes (.calm 2) 1
      (World.run .default (subsetScanRun.take 2)) := by
    have hok : (((ScanRequest.scan (some ["clamav"])).operation 1).perform (.calm 2)
        (World.run .default (subsetScanRun.take 2)).db
        (World.run .default (subsetScanRun.take 2)).outside).outcome.isOk = true := by
      decide +kernel
    rw [ScanRequest.Completes]
    cases hc : (((ScanRequest.scan (some ["clamav"])).operation 1).perform (.calm 2)
        (World.run .default (subsetScanRun.take 2)).db
        (World.run .default (subsetScanRun.take 2)).outside).outcome with
    | ok u => rfl
    | error e =>
      rw [hc] at hok
      cases hok
  have htracks := h .default subsetScanRun 1 (World.run .default (subsetScanRun.take 2))
    (.scan (some ["clamav"])) (.calm 2) v ⟨hstep, hv, ⟨ha, .inl hb, hl⟩, hdone⟩
  exact of_decide_eq_true hbad ((statusTracks_iff hv').mp htracks)

end PluginRegistry
