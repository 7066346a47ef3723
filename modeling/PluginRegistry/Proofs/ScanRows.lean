import PluginRegistry.Proofs.Sound
import PluginRegistry.Services.ScanWrites

namespace PluginRegistry
open Lib

namespace PluginVersion

variable (v : PluginVersion) (now : Time)

def standing : Origin × VersionStatus × Bool :=
  (v.origin, v.versionStatus, v.isLatest)

theorem origin_of_standing {v w : PluginVersion} (h : v.standing = w.standing) :
    v.origin = w.origin :=
  congrArg Prod.fst h

theorem versionStatus_of_standing {v w : PluginVersion} (h : v.standing = w.standing) :
    v.versionStatus = w.versionStatus :=
  congrArg (·.2.1) h

theorem isLatest_of_standing {v w : PluginVersion} (h : v.standing = w.standing) :
    v.isLatest = w.isLatest :=
  congrArg (·.2.2) h

variable (b : BuildStatus)

@[simp] theorem openScan_standing : (v.openScan now).standing = v.standing := rfl
@[simp] theorem openScan_buildStatus : (v.openScan now).buildStatus = v.buildStatus := rfl

@[simp] theorem record_standing (p : Provider) (o : ScanOutcome)
    (track : SecurityScan → SecurityScan) : (v.record now p o track).standing = v.standing := rfl

@[simp] theorem record_buildStatus (p : Provider) (o : ScanOutcome)
    (track : SecurityScan → SecurityScan) :
    (v.record now p o track).buildStatus = v.buildStatus := rfl

@[simp] theorem scannedAt_standing : (v.scannedAt now).standing = v.standing := rfl
@[simp] theorem scannedAt_buildStatus : (v.scannedAt now).buildStatus = v.buildStatus := rfl

@[simp] theorem beginScan_standing : (v.beginScan now).standing = v.standing := by
  unfold beginScan
  split <;> rfl

@[simp] theorem finishScan_standing : (v.finishScan now b).standing = v.standing := by
  unfold finishScan
  dsimp only
  split <;> rfl

theorem finishScan_buildStatus {v : PluginVersion} (h : v.hasArtifact = true) :
    (v.finishScan now b).buildStatus = b := by
  unfold finishScan
  have ha : (v.scannedAt now).hasArtifact = true := h
  simp only [ha, if_true]

/-- Folding writes that keep a version's standing keeps it. -/
theorem foldl_standing {β : Type} (step : PluginVersion → β → PluginVersion)
    (hstep : ∀ v b, (step v b).standing = v.standing) (bs : List β) :
    (bs.foldl step v).standing = v.standing := by
  induction bs generalizing v with
  | nil => rfl
  | cons b bs ih => exact (ih (step v b)).trans (hstep v b)

theorem foldl_buildStatus {β : Type} (step : PluginVersion → β → PluginVersion)
    (hstep : ∀ v b, (step v b).buildStatus = v.buildStatus) (bs : List β) :
    (bs.foldl step v).buildStatus = v.buildStatus := by
  induction bs generalizing v with
  | nil => rfl
  | cons b bs ih => exact (ih (step v b)).trans (hstep v b)

@[simp] theorem recordAll_standing (outcomes : List (Provider × ScanOutcome)) :
    (v.recordAll now outcomes).standing = v.standing := by
  apply foldl_standing
  exact fun _ _ => rfl

@[simp] theorem markAll_standing (providers : List Provider) (o : ScanOutcome) :
    (v.markAll now providers o).standing = v.standing := by
  apply foldl_standing
  exact fun _ _ => rfl

@[simp] theorem markAll_buildStatus (providers : List Provider) (o : ScanOutcome) :
    (v.markAll now providers o).buildStatus = v.buildStatus := by
  apply foldl_buildStatus
  exact fun _ _ => rfl

@[simp] theorem markedPending_standing (providers : List Provider) :
    (v.markedPending now providers).standing = v.standing := by
  unfold markedPending
  dsimp only
  split
  · exact markAll_standing (v.openScan now) now providers scanQueuedOutcome
  · exact markAll_standing (v.openScan now) now providers scanQueuedOutcome

@[simp] theorem markedSkipped_standing (providers : List Provider) (o : ScanOutcome) :
    (v.markedSkipped now providers o).standing = v.standing :=
  (finishScan_standing ..).trans (markAll_standing (v.openScan now) now providers o)

@[simp] theorem openPoll_standing : (v.openPoll now).standing = v.standing := rfl
@[simp] theorem openPoll_buildStatus : (v.openPoll now).buildStatus = v.buildStatus := rfl

@[simp] theorem polled_standing (o : ScanOutcome) (track : SecurityScan → SecurityScan) :
    (v.polled now o track).standing = v.standing :=
  finishScan_standing ..

@[simp] theorem scanned_standing (outcomes : List (Provider × ScanOutcome)) :
    (v.scanned now outcomes).standing = v.standing := by
  simp [scanned]

theorem canMark_eq_false {v : PluginVersion} (hl : v.isLatest = true)
    (hs : v.versionStatus = .active) : canMarkBuildScanning v = false := by
  simp [canMarkBuildScanning, hl, hs]

theorem scanned_buildStatus {v : PluginVersion} (h : v.hasArtifact = true)
    (outcomes : List (Provider × ScanOutcome)) :
    (v.scanned now outcomes).buildStatus = scanBuildStatus outcomes := by
  refine finishScan_buildStatus _ _ ?_
  rw [hasArtifact_congr (origin_of_standing ((recordAll_standing ..).trans (beginScan_standing ..)))]
  exact h

theorem markedSkipped_buildStatus {v : PluginVersion} (h : v.hasArtifact = true)
    (providers : List Provider) (o : ScanOutcome) :
    (v.markedSkipped now providers o).buildStatus = .success := by
  refine finishScan_buildStatus _ _ ?_
  rw [hasArtifact_congr (origin_of_standing (markAll_standing (v.openScan now) now providers o))]
  exact h

theorem polled_buildStatus {v : PluginVersion} (h : v.hasArtifact = true) (o : ScanOutcome)
    (track : SecurityScan → SecurityScan) :
    (v.polled now o track).buildStatus = if o.mode = .pending then .scanning else .success :=
  finishScan_buildStatus _ _ h

theorem markedPending_buildStatus {v : PluginVersion} (hcan : canMarkBuildScanning v = false)
    (providers : List Provider) : (v.markedPending now providers).buildStatus = v.buildStatus := by
  simp only [markedPending, hcan, Bool.false_eq_true, if_false, scannedAt_buildStatus,
    markAll_buildStatus, openScan_buildStatus]

end PluginVersion

namespace Db.Sound

variable {db : Db} {versionId : VersionId} {f : PluginVersion → PluginVersion}

/-- A scan write keeps the rows sound unless it takes `success` from the latest version. -/
theorem scanWrite (h : db.Sound) (hf : ∀ v, (f v).standing = v.standing)
    (hb : ∀ v, db.versions.lookup versionId = some v → v.isLatest = true →
      (f v).buildStatus = .success) : (db.modifyVersion versionId f).Sound := by
  have hlatest : ∀ i v, (if i = versionId then f v else v).isLatest = v.isLatest := by
    intro i v
    split
    · exact PluginVersion.isLatest_of_standing (hf v)
    · rfl
  refine h.rewrite_demote (f := fun i v => if i = versionId then f v else v) (g := fun _ a => a)
    ⟨fun i => by simp, fun p => by simp⟩ rfl ?_ (fun _ _ => rfl) ?_
    (fun i v hl => (hlatest i v).symm.trans hl) ?_
  · intro i v
    split
    · exact PluginVersion.origin_of_standing (hf v)
    · rfl
  · intro i v hv hl
    have hold := (hlatest i v).symm.trans hl
    have hc := (h.constraints.checked i v hv).latestActiveSuccess hold
    split
    · rename_i hi
      subst hi
      exact ⟨(PluginVersion.versionStatus_of_standing (hf v)).trans hc.1, hb v hv hold⟩
    · exact hc
  · exact fun i v hv hl a ha => h.shown i v hv ((hlatest i v).symm.trans hl) a ha

/-- A write that leaves the build status alone. -/
theorem quietWrite (h : db.Sound) (hf : ∀ v, (f v).standing = v.standing)
    (hb : ∀ v, (f v).buildStatus = v.buildStatus) : (db.modifyVersion versionId f).Sound :=
  h.scanWrite hf fun v hv hl =>
    (hb v).trans ((h.constraints.checked _ v hv).latestActiveSuccess hl).2

theorem beginScan (h : db.Sound) (now : Time) :
    (db.modifyVersion versionId (·.beginScan now)).Sound := by
  refine h.scanWrite (fun v => v.beginScan_standing now) fun v hv hl => ?_
  have hc := (h.constraints.checked _ v hv).latestActiveSuccess hl
  rw [PluginVersion.beginScan, PluginVersion.canMark_eq_false hl hc.1]
  exact hc.2

/-- What the database refuses: the latest version without a successful build. -/
theorem scanWrite_refused (hf : ∀ v, (f v).standing = v.standing) {v : PluginVersion}
    (hv : db.versions.lookup versionId = some v) (hl : v.isLatest = true)
    (hb : (f v).buildStatus ≠ .success) : ¬ (db.modifyVersion versionId f).Constraints := by
  intro hc
  have hlook : (db.modifyVersion versionId f).versions.lookup versionId = some (f v) := by
    simp [hv]
  exact hb ((hc.checked _ _ hlook).latestActiveSuccess
    ((PluginVersion.isLatest_of_standing (hf v)).trans hl)).2

end Db.Sound

end PluginRegistry
