import PluginRegistry.Proofs.ClamavReplies

namespace PluginRegistry
open Lib

variable {env : Env} {db mid db' : Db} {x : Outside} {versionId : VersionId}
  {v w : PluginVersion} {now : Time} {p q : Provider} {o : ScanOutcome}

/-- The result row of a provider, if there is one, says what the legacy columns say. -/
def PluginVersion.InStepOn (v : PluginVersion) (p : Provider) : Prop :=
  ∀ row, v.providerResults (.machine p) = some row →
    v.scan.bind (·.legacyResult p) = some (providerResultPayload row)

structure PluginVersion.InStep (v : PluginVersion) : Prop where
  legacy : ∀ p : Provider, p.legacyPublic = true → v.InStepOn p

def PluginVersion.withoutRows (v : PluginVersion) : PluginVersion :=
  { v with providerResults := fun _ => none }

/-- Where the records agree, both ways to read them give one verdict. -/
theorem PluginVersion.InStepOn.reads {row : ReviewProviderResult} (h : v.InStepOn p)
    (hrow : v.providerResults (.machine p) = some row) :
    v.result p = some (providerResultPayload row) ∧
      v.withoutRows.result p = some (providerResultPayload row) := by
  have hlegacy := h row hrow
  refine ⟨?_, hlegacy⟩
  unfold PluginVersion.result scanProviderResults
  rw [if_pos (by rfl), hrow]
  dsimp only
  split
  · rfl
  · exact hlegacy

namespace PluginVersion.InStep

theorem of_same (h : v.InStep)
    (hr : ∀ p, w.providerResults (.machine p) = v.providerResults (.machine p))
    (hs : ∀ p, w.scan.bind (·.legacyResult p) = v.scan.bind (·.legacyResult p)) : w.InStep := by
  refine ⟨fun p hp row hrow => ?_⟩
  rw [hs]
  exact h.legacy p hp row (hr p ▸ hrow)

/-- Neither record is there. -/
theorem of_blank (h : ∀ p, v.providerResults (.machine p) = none) : v.InStep := by
  refine ⟨fun p _ row hrow => ?_⟩
  rw [h] at hrow
  cases hrow

theorem openScan (h : v.InStep) (now : Time) : (v.openScan now).InStep := by
  refine ⟨fun p hp row hrow => ?_⟩
  have hlegacy := h.legacy p hp row hrow
  cases hs : v.scan with
  | none =>
    rw [hs] at hlegacy
    cases hlegacy
  | some scan =>
    rw [hs] at hlegacy
    rw [PluginVersion.openScan, hs]
    exact hlegacy

/-- Recording an outcome writes both records; the other providers keep theirs. -/
theorem record {track : SecurityScan → SecurityScan} (ht : KeepsLegacy track)
    (h : ∀ q : Provider, q.legacyPublic = true → q ≠ p → v.InStepOn q)
    (hscan : v.scan.isSome = true) : (v.record now p o track).InStep := by
  obtain ⟨scan, hs⟩ := Option.isSome_iff_exists.mp hscan
  have hlegacy : ∀ q, (v.record now p o track).scan.bind (·.legacyResult q) =
      (scan.recordLegacy p o).legacyResult q := by
    intro q
    change (v.scan.map fun scan => track (scan.recordLegacy p o)).bind _ = _
    rw [hs]
    exact ht _ q
  refine ⟨fun q hq row hrow => ?_⟩
  rw [hlegacy]
  by_cases hqp : q = p
  · subst hqp
    rw [record_row] at hrow
    cases hrow
    rw [(setReviewProviderResult_payload now _).2]
    cases q with
    | clamav => cases hq
    | virustotal | llmAgent => rfl
  · rw [record_row_ne hqp] at hrow
    rw [scan.recordLegacy_ne o hqp]
    have hold := h q hq hqp row hrow
    rw [hs] at hold
    exact hold

theorem record_scan {track : SecurityScan → SecurityScan} (hscan : v.scan.isSome = true) :
    (v.record now p o track).scan.isSome = true := by
  change (v.scan.map _).isSome = true
  rwa [Option.isSome_map]

theorem recordAll (h : v.InStep) (hscan : v.scan.isSome = true)
    (outcomes : List (Provider × ScanOutcome)) : (v.recordAll now outcomes).InStep := by
  induction outcomes generalizing v with
  | nil => exact h
  | cons y ys ih =>
    have hfirst : (v.record now y.1 y.2 (·.applyTracking y.1 y.2)).InStep :=
      record (fun scan q => scan.applyTracking_legacy ..) (fun q hq _ => h.legacy q hq) hscan
    exact ih hfirst (record_scan hscan)

theorem markAll (h : v.InStep) (hscan : v.scan.isSome = true) (providers : List Provider)
    (o : ScanOutcome) : (v.markAll now providers o).InStep := by
  induction providers generalizing v with
  | nil => exact h
  | cons p ps ih =>
    have hfirst : (v.record now p o (·.clearTracking p)).InStep :=
      record (fun scan q => scan.clearTracking_legacy ..) (fun q hq _ => h.legacy q hq) hscan
    exact ih hfirst (record_scan hscan)

theorem scannedAt (h : v.InStep) (now : Time) : (v.scannedAt now).InStep := by
  refine h.of_same (fun _ => rfl) fun p => ?_
  change (v.scan.map fun scan => { scan with scannedAt := now }).bind _ = _
  cases v.scan with
  | none => rfl
  | some scan => cases p <;> rfl

theorem finishScan (h : v.InStep) (now : Time) (b : BuildStatus) : (v.finishScan now b).InStep := by
  have hat := h.scannedAt now
  unfold PluginVersion.finishScan
  dsimp only
  split
  · exact hat.of_same (fun _ => rfl) fun _ => rfl
  · exact hat

theorem beginScan (h : v.InStep) (now : Time) : (v.beginScan now).InStep := by
  have hopen := h.openScan now
  unfold PluginVersion.beginScan
  split
  · exact hopen.of_same (fun _ => rfl) fun _ => rfl
  · exact hopen

theorem scanned (h : v.InStep) (now : Time) (outcomes : List (Provider × ScanOutcome)) :
    (v.scanned now outcomes).InStep := by
  have hscan : (v.beginScan now).scan.isSome = true := by
    unfold PluginVersion.beginScan
    split <;> rfl
  exact ((h.beginScan now).recordAll hscan outcomes).finishScan now _

/-- A poll may find no row for VirusTotal, but then it writes one. -/
theorem polled {track : SecurityScan → SecurityScan} (h : v.InStep) (ht : KeepsLegacy track)
    (now : Time) (o : ScanOutcome) : (v.polled now o track).InStep := by
  have hopen := h.openScan now
  apply finishScan
  refine record ht (fun q hq hne row hrow => ?_) rfl
  have hrow' : (v.openScan now).providerResults (.machine q) = some row := by
    rw [← hrow]
    exact (Function.update_of_ne (fun hc => hne (Reviewer.machine.inj hc)) ..).symm
  exact hopen.legacy q hq row hrow'

theorem markedPending (h : v.InStep) (now : Time) (providers : List Provider) :
    (v.markedPending now providers).InStep := by
  have hmarked : (((v.openScan now).markAll now providers scanQueuedOutcome).scannedAt now).InStep :=
    ((h.openScan now).markAll rfl providers scanQueuedOutcome).scannedAt now
  unfold PluginVersion.markedPending
  dsimp only
  split
  · exact hmarked.of_same (fun _ => rfl) fun _ => rfl
  · exact hmarked

theorem markedSkipped (h : v.InStep) (now : Time) (providers : List Provider) (o : ScanOutcome) :
    (v.markedSkipped now providers o).InStep :=
  ((h.openScan now).markAll rfl providers o).finishScan now .success

theorem withoutLatest (h : v.InStep) (pluginId : PluginId) : (v.withoutLatest pluginId).InStep := by
  unfold PluginVersion.withoutLatest
  split
  · exact h.of_same (fun _ => rfl) fun _ => rfl
  · exact h

theorem activated (h : v.InStep) : v.activated.InStep := by
  unfold PluginVersion.activated PluginVersion.settleBuild
  split <;> exact h.of_same (fun _ => rfl) fun _ => rfl

theorem promoted (h : v.InStep) (pluginId : PluginId) : (v.promoted pluginId).InStep := by
  unfold PluginVersion.promoted PluginVersion.withoutLatest PluginVersion.settleBuild
  split <;> split <;> exact h.of_same (fun _ => rfl) fun _ => rfl

/-- The human review stands in a row of its own. -/
theorem published (h : v.InStep) (pluginId : PluginId) (now : Time) (reviewStatus : ReviewStatus) :
    (v.published pluginId now reviewStatus).InStep := by
  refine (h.activated.withoutLatest pluginId).of_same (fun p => ?_) fun _ => rfl
  simp [PluginVersion.published, modifyResult]

end PluginVersion.InStep

structure Db.InStep (db : Db) : Prop where
  versions : ∀ i v, db.versions.lookup i = some v → v.InStep

namespace Db.InStep

theorem restrict (h : db.InStep)
    (hv : ∀ i v, db'.versions.lookup i = some v → db.versions.lookup i = some v) : db'.InStep :=
  ⟨fun i v hi => h.versions i v (hv i v hi)⟩

theorem of_map (h : db.InStep) {f : VersionId → PluginVersion → PluginVersion}
    (hv : ∀ i, db'.versions.lookup i = (db.versions.lookup i).map (f i))
    (hf : ∀ (i : VersionId) (v : PluginVersion), v.InStep → (f i v).InStep) : db'.InStep := by
  refine ⟨fun i w hw => ?_⟩
  rw [hv] at hw
  obtain ⟨v, hi, rfl⟩ := Option.map_eq_some_iff.mp hw
  exact hf i v (h.versions i v hi)

theorem modifyVersion (h : db.InStep) {f : PluginVersion → PluginVersion}
    (hf : ∀ v : PluginVersion, v.InStep → (f v).InStep) (versionId : VersionId) :
    (db.modifyVersion versionId f).InStep := by
  refine h.of_map (fun i => Db.lookup_modifyVersion ..) fun i v hv => ?_
  split
  · exact hf v hv
  · exact hv

/-- A new version has neither record. -/
theorem addVersion (h : db.InStep) (hr : ∀ reviewer, v.providerResults reviewer = none) :
    (db.addVersion v).InStep := by
  refine ⟨fun i w hw => ?_⟩
  rw [Db.lookup_addVersion] at hw
  split at hw
  · cases hw
    exact .of_blank fun p => hr _
  · exact h.versions i w hw

theorem published (h : db.InStep) (now : Time) (pluginId : PluginId) (versionId : VersionId)
    (reviewStatus : ReviewStatus) : (db.published now pluginId versionId reviewStatus).InStep := by
  apply h.of_map (Db.published_rewritten ..).versions
  intro i v hv
  split
  · exact hv.published pluginId now reviewStatus
  · exact hv.withoutLatest pluginId

theorem autoPublished (h : db.InStep) (now : Time) (versionId : VersionId) :
    (db.autoPublished now versionId).InStep := by
  unfold Db.autoPublished
  split
  · exact h
  · split
    · exact h.published ..
    · exact h

theorem handled (hp : mid.InStep) (hc : db.InStep) (versionId : VersionId) (exc : PyErr) :
    (mid.handled db versionId exc).InStep := by
  unfold Db.handled
  split
  · exact hc
  · split
    · exact hc
    · apply hp.modifyVersion
      exact fun v hv => hv.of_same (fun _ => rfl) fun _ => rfl

theorem scanOpened (h : db.InStep) (now : Time) (versionId : VersionId) (v : PluginVersion) :
    (db.scanOpened now versionId v).InStep := by
  unfold Db.scanOpened
  split
  · exact h.modifyVersion (fun v hv => hv.beginScan now) versionId
  · exact h

theorem afterScan (h : db.InStep) (env : Env) (versionId : VersionId)
    (outcomes : List (Provider × ScanOutcome)) :
    ((db.scanned env.now versionId outcomes).afterScan env versionId outcomes).InStep := by
  have hscan : (db.scanned env.now versionId outcomes).InStep :=
    h.modifyVersion (fun v hv => hv.scanned env.now outcomes) versionId
  unfold Db.afterScan
  split
  · exact hscan.autoPublished ..
  · exact hscan

theorem scanResult (h : db.InStep) (env : Env) (versionId : VersionId)
    (providers : Option (List String)) : (db.scanResult env versionId providers).InStep := by
  unfold Db.scanResult
  split
  · split
    · exact h.scanOpened ..
    · split
      · exact h.scanOpened ..
      · exact h.afterScan ..
  · exact h

/-- A poll that ends early commits nothing; the others write both records. -/
theorem pollResult (h : db.InStep) (env : Env) (versionId : VersionId) :
    (db.pollResult env versionId).InStep := by
  have hpolled : ∀ o track caller, KeepsLegacy track →
      ((db.polled env.now versionId o track).afterPoll env caller versionId o).InStep := by
    intro o track caller ht
    have hpoll : (db.polled env.now versionId o track).InStep :=
      h.modifyVersion (fun v hv => hv.polled ht env.now o) versionId
    unfold Db.afterPoll
    split
    · exact hpoll.autoPublished ..
    · exact hpoll
  have hclear : KeepsLegacy (·.clearTracking .virustotal) :=
    fun scan q => scan.clearTracking_legacy ..
  have happly : ∀ o : ScanOutcome, KeepsLegacy (·.applyTracking .virustotal o) :=
    fun o scan q => scan.applyTracking_legacy ..
  unfold Db.pollResult
  split
  · exact h
  · split
    · exact h
    · exact h
    · exact hpolled _ _ _ hclear
    · split
      · exact h
      · exact hpolled _ _ _ (happly _)

end Db.InStep

/-- Every operation keeps the two records of a verdict in step. -/
theorem Operation.rows_inStep (h : db.Sound) (hin : db.InStep) (env : Env) (op : Operation) :
    (op.rows env db).InStep := by
  cases op with
  | scanVersion id providers => exact hin.scanResult ..
  | pollVirustotalAnalysis id => exact hin.pollResult ..
  | markScanPending id providers =>
    rw [Operation.rows, Db.afterMarkPending]
    split
    · exact hin.modifyVersion (fun v hv => hv.markedPending env.now _) id
    · exact hin
  | markScanSkipped id providers =>
    rw [Operation.rows, Db.afterMarkSkipped]
    split
    · exact hin.modifyVersion (fun v hv => hv.markedSkipped env.now _ _) id
    · exact hin
  | setVersionStatus id status =>
    rw [Operation.rows, Db.afterVersionStatus]
    split
    · exact hin
    · split
      · exact hin
      · apply hin.modifyVersion
        intro v hv
        split
        · exact hv.activated
        · exact hv.of_same (fun _ => rfl) fun _ => rfl
  | setLatestVersion pluginId id =>
    rw [Operation.rows, Db.afterLatest]
    split
    · apply hin.of_map (Db.latestSet_rewritten ..).versions
      intro i v hv
      split
      · exact hv.promoted pluginId
      · exact hv.withoutLatest pluginId
    · exact hin
  | publishPluginVersion pluginId id reviewStatus =>
    rw [Operation.rows, Db.afterPublish]
    split
    · exact hin.published ..
    · exact hin
  | uploadVersion pluginId metadata content version =>
    rw [Operation.rows, Db.afterUpload]
    split
    · exact hin.addVersion fun _ => rfl
    · exact hin
  | createPlugin | setPluginStatus | deletePlugin | deleteVersion | setConfig =>
    refine ⟨fun i v' hv' => ?_⟩
    obtain ⟨v, hv, rfl | ⟨pluginId, rfl⟩⟩ :=
      Operation.spares h _ (fun hc => by cases hc) (fun _ _ _ _ hc => by cases hc) v' hv'
    · exact hin.versions i _ hv
    · exact (hin.versions i v hv).withoutLatest pluginId

theorem BuildJob.rows_inStep (hin : db.InStep) (env : Env) (x : Outside) (job : BuildJob)
    (step : BuildStep) : (job.rows env db x step).InStep := by
  cases step with
  | pack =>
    unfold BuildJob.rows
    cases job.packError env with
    | none => exact hin
    | some e => exact hin.handled hin job.versionId e
  | upload =>
    unfold BuildJob.rows
    cases job.uploadError env x with
    | none => exact hin
    | some e => exact hin.handled hin job.versionId e
  | update =>
    have hbuilt : (job.builtRows db).InStep := by
      apply hin.modifyVersion
      exact fun v hv => hv.of_same (fun _ => rfl) fun _ => rfl
    rw [BuildJob.rows, BuildJob.updateRows]
    split
    · exact hin
    · cases env.fault (.refresh .updateVersionAfterBuild) with
      | none => exact hbuilt
      | some e => exact hbuilt.handled hbuilt job.versionId e
  | scan =>
    rw [BuildJob.rows, BuildJob.scanRows]
    cases db.versions.lookup job.versionId with
    | none => exact hin
    | some v =>
      have hsaved := hin.scanOpened env.now job.versionId v
      have hopen : (db.modifyVersion job.versionId (·.beginScan env.now)).InStep :=
        hin.modifyVersion (fun v hv => hv.beginScan env.now) job.versionId
      dsimp only
      cases scanSelectedProviders env db.config db.enabledProviders with
      | error e => exact hopen.handled hsaved job.versionId e
      | ok outcomes =>
        have hdone : (db.scanned env.now job.versionId outcomes).InStep :=
          hin.modifyVersion (fun v hv => hv.scanned env.now outcomes) job.versionId
        have hafter := Db.afterBuildScan_keeps hdone (hin.afterScan env job.versionId outcomes)
        dsimp only
        split
        · exact hsaved
        · cases (db.scanned env.now job.versionId outcomes).afterBuildScanError env job
              outcomes with
          | none => exact hafter
          | some e => exact hafter.handled hafter job.versionId e

/-- Every step of the service does. -/
theorem World.step_inStep {w : World} (h : w.db.Sound) (hin : w.db.InStep) (e : Event) :
    (w.step e).db.InStep := by
  cases e with
  | perform op env =>
    rw [step, perform_db h]
    exact Operation.rows_inStep h hin env op
  | startBuild pluginId version env =>
    rw [step, startBuild_eq h]
    cases w.db.plugins.lookup pluginId with
    | none => exact hin
    | some plugin =>
      dsimp only
      cases w.db.buildInputs env pluginId plugin version with
      | error e => exact hin
      | ok inputs => exact hin.addVersion fun _ => rfl
  | advance versionId env =>
    rw [step]
    cases hb : w.builds.lookup versionId with
    | none =>
      rw [advance_none hb]
      exact hin
    | some build =>
      obtain ⟨x', -, heq⟩ := advance_some h hb env
      rw [heq]
      exact build.job.rows_inStep hin env w.outside build.next

/-- In every reachable state, each result row of a provider with legacy columns says
what these say, and a version reads the same with its rows and without them. -/
theorem scan_tables_agree (config : RuntimeConfig) (events : List Event) :
    ∀ i v, (World.run config events).db.versions.lookup i = some v →
      ∀ (p : Provider) (row : ReviewProviderResult), p.legacyPublic = true →
        v.providerResults (.machine p) = some row →
          v.scan.bind (·.legacyResult p) = some (providerResultPayload row) ∧
            v.result p = some (providerResultPayload row) ∧
            v.withoutRows.result p = some (providerResultPayload row) := by
  have hin : (World.run config events).db.InStep := by
    refine Machine.Reachable.induct_with (fun w => w.db.Sound) (fun w => w.db.InStep)
      reachable_sound ⟨fun i v hv => ?_⟩ (fun w e h hin => World.step_inStep h hin e)
      (World.run_reachable config events)
    cases hv
  intro i v hv p row hp hrow
  have hon := (hin.versions i v hv).legacy p hp
  exact ⟨hon row hrow, hon.reads hrow⟩

/-- A scan that found nothing configured, in both tables. -/
theorem scan_tables_agree_published :
    ∃ v row, (World.run .default publishedRun).db.versions.lookup 1 = some v ∧
      v.providerResults (.machine .virustotal) = some row ∧
        v.scan.bind (·.legacyResult .virustotal) = some (providerResultPayload row) ∧
        v.result .virustotal = some (providerResultPayload row) ∧
        v.withoutRows.result .virustotal = some (providerResultPayload row) := by
  obtain ⟨v, hv, hrow⟩ : ∃ v, (World.run .default publishedRun).db.versions.lookup 1 = some v ∧
      (v.providerResults (.machine .virustotal)).isSome = true :=
    (Option.any_eq_true ..).mp (by decide +kernel)
  obtain ⟨row, hrow⟩ := Option.isSome_iff_exists.mp hrow
  exact ⟨v, row, hv, hrow, scan_tables_agree .default publishedRun 1 v hv .virustotal row rfl hrow⟩

end PluginRegistry
