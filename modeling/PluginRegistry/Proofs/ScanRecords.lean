import PluginRegistry.Proofs.ScanWait

namespace PluginRegistry
open Lib

variable {env : Env} {db mid db' : Db} {x : Outside} {versionId : VersionId}
  {v w u : PluginVersion} {now : Time} {p : Provider} {r : ScanPayload}
  {source : Provider → ScanPayload → Prop}

def PluginVersion.Records (v : PluginVersion) (p : Provider) (r : ScanPayload) : Prop :=
  (v.providerResults (.machine p)).map providerResultPayload = some r ∨
    v.scan.bind (·.legacyResult p) = some r

theorem PluginVersion.records_result (h : v.result p = some r) : v.Records p r := by
  unfold result scanProviderResults at h
  rw [if_pos (by rfl)] at h
  cases hrow : v.providerResults (.machine p) with
  | none =>
    rw [hrow] at h
    exact .inr h
  | some row =>
    rw [hrow] at h
    dsimp only at h
    split at h
    · left
      rw [hrow]
      exact h
    · exact .inr h

/-- Every real result of the second version is one of the first, or comes from
the source. -/
def PluginVersion.Extends (source : Provider → ScanPayload → Prop) (v w : PluginVersion) : Prop :=
  ∀ p r, w.Records p r → r.mode = .real → v.Records p r ∨ source p r

def Db.Extends (source : Provider → ScanPayload → Prop) (db db' : Db) : Prop :=
  ∀ i w, db'.versions.lookup i = some w → ∀ p r, w.Records p r → r.mode = .real →
    (∃ v, db.versions.lookup i = some v ∧ v.Records p r) ∨ source p r

def Env.Scanned (env : Env) (p : Provider) (r : ScanPayload) : Prop :=
  ∃ o, env.scanAnswer p = .ok o ∧ o.payload = r

def Env.Polled (env : Env) (p : Provider) (r : ScanPayload) : Prop :=
  p = .virustotal ∧ ∃ o, env.pollAnswer = .ok o ∧ o.payload = r

def Event.Source : Event → Provider → ScanPayload → Prop
  | .perform (.scanVersion _ _) env | .advance _ env => env.Scanned
  | .perform (.pollVirustotalAnalysis _) env => env.Polled
  | _ => fun _ _ => False

namespace PluginVersion.Extends

theorem of_same (hr : ∀ p, w.providerResults (.machine p) = v.providerResults (.machine p))
    (hs : w.scan = v.scan) : v.Extends source w := by
  intro p r h _
  rw [Records, hr p, hs] at h
  exact .inl h

theorem refl (v : PluginVersion) : v.Extends source v :=
  of_same (fun _ => rfl) rfl

theorem trans (h : v.Extends source w) (h' : w.Extends source u) : v.Extends source u := by
  intro p r hu hreal
  rcases h' p r hu hreal with hw | hs
  · exact h p r hw hreal
  · exact .inr hs

theorem openScan (v : PluginVersion) (now : Time) : v.Extends source (v.openScan now) := by
  intro p r h hreal
  rcases h with hrow | hscan
  · exact .inl (.inl hrow)
  · left
    cases hs : v.scan with
    | some scan =>
      right
      rw [← hscan, PluginVersion.openScan, hs]
      rfl
    | none =>
      -- The columns of a new row say that the result is still to come.
      rw [PluginVersion.openScan, hs] at hscan
      cases p with
      | clamav => cases hscan
      | virustotal | llmAgent =>
        cases hscan
        cases hreal

theorem openPoll (v : PluginVersion) (now : Time) : v.Extends source (v.openPoll now) := by
  refine (openScan v now).trans ?_
  intro p r h hreal
  rcases h with hrow | hscan
  · by_cases hp : p = .virustotal
    · subst hp
      have hnew : (v.openPoll now).providerResults (.machine .virustotal) =
          some (((v.openScan now).providerResults (.machine .virustotal)).getD (.new .scan)) := by
        simp [PluginVersion.openPoll, modifyResult]
      rw [hnew] at hrow
      cases hold : (v.openScan now).providerResults (.machine .virustotal) with
      | some row =>
        rw [hold] at hrow
        exact .inl (.inl (by rw [hold]; exact hrow))
      | none =>
        rw [hold] at hrow
        cases hrow
        cases hreal
    · have hother : (v.openPoll now).providerResults (.machine p) =
          (v.openScan now).providerResults (.machine p) :=
        Function.update_of_ne (fun hc => hp (Reviewer.machine.inj hc)) ..
      rw [hother] at hrow
      exact .inl (.inl hrow)
  · exact .inl (.inr hscan)

/-- Recording an outcome. -/
theorem record {o : ScanOutcome} {track : SecurityScan → SecurityScan} (ht : KeepsLegacy track)
    (ho : o.mode = .real → source p o.payload) : v.Extends source (v.record now p o track) := by
  intro q r h hreal
  by_cases hq : q = p
  · subst hq
    have hnew : o.payload = r → v.Records q r ∨ source q r := by
      intro hr
      subst hr
      exact .inr (ho hreal)
    rcases h with hrow | hscan
    · rw [record_row, Option.map_some, (setReviewProviderResult_payload now _).2] at hrow
      exact hnew (Option.some.inj hrow)
    · change (v.scan.map fun scan => track (scan.recordLegacy q o)).bind _ = _ at hscan
      cases hs : v.scan with
      | none =>
        rw [hs] at hscan
        cases hscan
      | some scan =>
        rw [hs] at hscan
        have hlegacy := (ht (scan.recordLegacy q o) q).symm.trans hscan
        cases q with
        | clamav => cases hlegacy
        | virustotal | llmAgent => exact hnew (Option.some.inj hlegacy)
  · left
    rcases h with hrow | hscan
    · rw [record_row_ne hq] at hrow
      exact .inl hrow
    · right
      rw [← hscan]
      change _ = (v.scan.map fun scan => track (scan.recordLegacy p o)).bind _
      cases v.scan with
      | none => rfl
      | some scan => exact ((ht _ q).trans (scan.recordLegacy_ne o hq)).symm

theorem recordAll {outcomes : List (Provider × ScanOutcome)}
    (h : ∀ p o, (p, o) ∈ outcomes → o.mode = .real → source p o.payload) :
    v.Extends source (v.recordAll now outcomes) := by
  induction outcomes generalizing v with
  | nil => exact refl v
  | cons y ys ih =>
    have hfirst : v.Extends source (v.record now y.1 y.2 (·.applyTracking y.1 y.2)) :=
      record (fun scan q => scan.applyTracking_legacy ..) (h _ _ List.mem_cons_self)
    exact hfirst.trans (ih fun p o ho => h p o (List.mem_cons_of_mem _ ho))

/-- Nothing that is recorded for a whole selection is real. -/
theorem markAll {o : ScanOutcome} (ho : o.mode ≠ .real) (providers : List Provider) :
    v.Extends source (v.markAll now providers o) := by
  induction providers generalizing v with
  | nil => exact refl v
  | cons p ps ih =>
    have hfirst : v.Extends source (v.record now p o (·.clearTracking p)) :=
      record (fun scan q => scan.clearTracking_legacy ..) fun hc => absurd hc ho
    exact hfirst.trans ih

theorem scannedAt (v : PluginVersion) (now : Time) : v.Extends source (v.scannedAt now) := by
  intro p r h _
  left
  rcases h with hrow | hscan
  · exact .inl hrow
  · right
    rw [← hscan]
    change _ = (v.scan.map fun scan => { scan with scannedAt := now }).bind _
    cases v.scan with
    | none => rfl
    | some scan => cases p <;> rfl

theorem finishScan (v : PluginVersion) (now : Time) (b : BuildStatus) :
    v.Extends source (v.finishScan now b) := by
  refine (scannedAt v now).trans ?_
  unfold PluginVersion.finishScan
  dsimp only
  split <;> exact of_same (fun _ => rfl) rfl

theorem beginScan (v : PluginVersion) (now : Time) : v.Extends source (v.beginScan now) := by
  refine (openScan v now).trans ?_
  unfold PluginVersion.beginScan
  split <;> exact of_same (fun _ => rfl) rfl

theorem scanned {outcomes : List (Provider × ScanOutcome)}
    (h : ∀ p o, (p, o) ∈ outcomes → o.mode = .real → source p o.payload) :
    v.Extends source (v.scanned now outcomes) :=
  ((beginScan v now).trans (recordAll h)).trans (finishScan _ _ _)

theorem polled {o : ScanOutcome} {track : SecurityScan → SecurityScan} (ht : KeepsLegacy track)
    (ho : o.mode = .real → source .virustotal o.payload) :
    v.Extends source (v.polled now o track) :=
  ((openPoll v now).trans (record ht ho)).trans (finishScan _ _ _)

theorem markedPending (v : PluginVersion) (now : Time) (providers : List Provider) :
    v.Extends source (v.markedPending now providers) := by
  have hmarked : v.Extends source
      (((v.openScan now).markAll now providers scanQueuedOutcome).scannedAt now) :=
    ((openScan v now).trans (markAll (fun hc => (by cases hc)) providers)).trans (scannedAt _ now)
  refine hmarked.trans ?_
  unfold PluginVersion.markedPending
  dsimp only
  split <;> exact of_same (fun _ => rfl) rfl

theorem markedSkipped (v : PluginVersion) (now : Time) (providers : List Provider)
    (cfg : RuntimeConfig) :
    v.Extends source (v.markedSkipped now providers (manuallySkippedOutcome cfg)) :=
  ((openScan v now).trans (markAll (fun hc => (by cases hc)) providers)).trans (finishScan _ _ _)

theorem withoutLatest (v : PluginVersion) (pluginId : PluginId) :
    v.Extends source (v.withoutLatest pluginId) := by
  unfold PluginVersion.withoutLatest
  split <;> exact of_same (fun _ => rfl) rfl

theorem activated (v : PluginVersion) : v.Extends source v.activated := by
  unfold PluginVersion.activated PluginVersion.settleBuild
  split <;> exact of_same (fun _ => rfl) rfl

theorem promoted (v : PluginVersion) (pluginId : PluginId) :
    v.Extends source (v.promoted pluginId) := by
  unfold PluginVersion.promoted PluginVersion.withoutLatest PluginVersion.settleBuild
  split <;> split <;> exact of_same (fun _ => rfl) rfl

/-- The human review stands in a row of its own. -/
theorem published (v : PluginVersion) (pluginId : PluginId) (now : Time)
    (reviewStatus : ReviewStatus) : v.Extends source (v.published pluginId now reviewStatus) := by
  refine ((activated v).trans (withoutLatest _ pluginId)).trans (of_same (fun p => ?_) rfl)
  simp [PluginVersion.published, modifyResult]

end PluginVersion.Extends

namespace Db.Extends

/-- Rows that are gone or rewritten. -/
theorem of_rows (h : ∀ i w, db'.versions.lookup i = some w →
    ∃ v, db.versions.lookup i = some v ∧ v.Extends source w) : db.Extends source db' := by
  intro i w hw p r hr hreal
  obtain ⟨v, hv, hext⟩ := h i w hw
  rcases hext p r hr hreal with hold | hs
  · exact .inl ⟨v, hv, hold⟩
  · exact .inr hs

theorem refl (db : Db) : db.Extends source db :=
  of_rows fun _ v hv => ⟨v, hv, .refl v⟩

theorem trans (h : db.Extends source mid) (h' : mid.Extends source db') :
    db.Extends source db' := by
  intro i w hw p r hr hreal
  rcases h' i w hw p r hr hreal with ⟨v, hv, hold⟩ | hs
  · exact h i v hv p r hold hreal
  · exact .inr hs

theorem modifyVersion {f : PluginVersion → PluginVersion}
    (hf : ∀ v : PluginVersion, v.Extends source (f v)) :
    db.Extends source (db.modifyVersion versionId f) := by
  apply of_rows
  intro i w hw
  rw [Db.lookup_modifyVersion] at hw
  obtain ⟨v, hv, rfl⟩ := Option.map_eq_some_iff.mp hw
  refine ⟨v, hv, ?_⟩
  split
  · exact hf v
  · exact .refl v

theorem of_map {f : VersionId → PluginVersion → PluginVersion}
    (h : ∀ i, db'.versions.lookup i = (db.versions.lookup i).map (f i))
    (hf : ∀ (i : VersionId) (v : PluginVersion), v.Extends source (f i v)) : db.Extends source db' := by
  apply of_rows
  intro i w hw
  rw [h] at hw
  obtain ⟨v, hv, rfl⟩ := Option.map_eq_some_iff.mp hw
  exact ⟨v, hv, hf i v⟩

/-- A new row has nothing on record. -/
theorem addVersion (hr : ∀ reviewer, v.providerResults reviewer = none) (hs : v.scan = none) :
    db.Extends source (db.addVersion v) := by
  intro i w hw p r h hreal
  rw [Db.lookup_addVersion] at hw
  split at hw
  · cases hw
    rw [PluginVersion.Records, hr, hs] at h
    rcases h with h | h <;> cases h
  · exact .inl ⟨w, hw, h⟩

theorem published (now : Time) (pluginId : PluginId) (reviewStatus : ReviewStatus) :
    db.Extends source (db.published now pluginId versionId reviewStatus) := by
  apply of_map (Db.published_rewritten ..).versions
  intro i v
  split
  · exact .published v pluginId now reviewStatus
  · exact .withoutLatest v pluginId

theorem autoPublished (db : Db) (now : Time) (versionId : VersionId) :
    db.Extends source (db.autoPublished now versionId) := by
  unfold Db.autoPublished
  cases db.versions.lookup versionId with
  | none => exact refl db
  | some v =>
    dsimp only
    split
    · exact published now v.pluginId .skipped
    · exact refl db

theorem handled (hp : db.Extends source mid) (hc : db.Extends source db') (versionId : VersionId)
    (exc : PyErr) : db.Extends source (mid.handled db' versionId exc) := by
  unfold Db.handled
  split
  · exact hc
  · split
    · exact hc
    · exact hp.trans (modifyVersion fun v => .of_same (fun _ => rfl) rfl)

theorem scanOpened (db : Db) (now : Time) (versionId : VersionId) (v : PluginVersion) :
    db.Extends source (db.scanOpened now versionId v) := by
  unfold Db.scanOpened
  split
  · exact modifyVersion fun v => .beginScan v now
  · exact refl db

/-- What a scan commits comes from the scanners it asked. -/
theorem scanned {cfg : RuntimeConfig} {selected : List Provider}
    {outcomes : List (Provider × ScanOutcome)} (db : Db) (versionId : VersionId)
    (h : scanSelectedProviders env cfg selected = .ok outcomes) :
    db.Extends env.Scanned (db.scanned env.now versionId outcomes) := by
  apply modifyVersion
  intro v
  apply PluginVersion.Extends.scanned
  intro p o ho hreal
  have hrep := ((scanSelectedProviders_reports h).1 p o ho).2
  unfold Reported at hrep
  split at hrep
  · exact ⟨o, hrep, rfl⟩
  · rw [hrep] at hreal
    cases hreal

theorem afterScan {cfg : RuntimeConfig} {selected : List Provider}
    {outcomes : List (Provider × ScanOutcome)} (db : Db) (versionId : VersionId)
    (h : scanSelectedProviders env cfg selected = .ok outcomes) :
    db.Extends env.Scanned
      ((db.scanned env.now versionId outcomes).afterScan env versionId outcomes) := by
  have hscanned := scanned db versionId h
  unfold Db.afterScan
  split
  · exact hscanned.trans (autoPublished _ _ _)
  · exact hscanned

theorem scanResult (db : Db) (versionId : VersionId) (providers : Option (List String)) :
    db.Extends env.Scanned (db.scanResult env versionId providers) := by
  unfold Db.scanResult
  split
  · rename_i selected v hsel hv
    cases hans : scanSelectedProviders env db.config selected with
    | error e => exact scanOpened db env.now versionId v
    | ok outcomes =>
      dsimp only
      split
      · exact scanOpened db env.now versionId v
      · exact afterScan db versionId hans
  · exact refl db

/-- What a poll commits is what VirusTotal answered, or it is not real. -/
theorem pollResult (db : Db) (versionId : VersionId) :
    db.Extends env.Polled (db.pollResult env versionId) := by
  have hpolled : ∀ o track caller, KeepsLegacy track →
      (o.mode = .real → env.Polled .virustotal o.payload) → db.Extends env.Polled
        ((db.polled env.now versionId o track).afterPoll env caller versionId o) := by
    intro o track caller ht ho
    have hrows : db.Extends env.Polled (db.polled env.now versionId o track) :=
      modifyVersion fun v => .polled ht ho
    unfold Db.afterPoll
    split
    · exact hrows.trans (autoPublished _ _ _)
    · exact hrows
  have happly : ∀ o : ScanOutcome, KeepsLegacy (·.applyTracking .virustotal o) :=
    fun o scan q => scan.applyTracking_legacy ..
  have hclear : KeepsLegacy (·.clearTracking .virustotal) :=
    fun scan q => scan.clearTracking_legacy ..
  unfold Db.pollResult
  cases db.versions.lookup versionId with
  | none => exact refl db
  | some v =>
    have hcase := v.pollCase env db.config
    dsimp only
    generalize v.pollDecision env db.config = decision at hcase ⊢
    cases hcase with
    | idle hn => exact refl db
    | failed ha he => exact refl db
    | disabled hid hno ho | unconfigured hid hen hk ho =>
      exact hpolled _ _ _ hclear fun hreal => by cases ho.symm.trans hreal
    | expired hid hen hk hdue ho =>
      exact hpolled _ _ _ hclear fun hreal => by cases ho.symm.trans hreal
    | recorded ha ho =>
      dsimp only
      split
      · exact refl db
      · apply hpolled _ _ _ (happly _)
        intro hreal
        unfold pollOutcome at hreal ⊢
        split at hreal
        · dsimp only at hreal
          split at hreal <;> cases hreal
        · rename_i hmode
          rw [if_neg hmode]
          exact ⟨rfl, _, ho, rfl⟩

end Db.Extends

/-- Every operation puts on record what its scanners report, and nothing else. -/
theorem Operation.rows_extends (h : db.Sound) (op : Operation) :
    db.Extends (Event.perform op env).Source (op.rows env db) := by
  cases op with
  | scanVersion id providers => exact .scanResult db id providers
  | pollVirustotalAnalysis id => exact .pollResult db id
  | markScanPending id providers =>
    rw [Operation.rows, Db.afterMarkPending]
    split
    · exact .modifyVersion fun v => .markedPending v env.now _
    · exact .refl db
  | markScanSkipped id providers =>
    rw [Operation.rows, Db.afterMarkSkipped]
    split
    · exact .modifyVersion fun v => .markedSkipped v env.now _ db.config
    · exact .refl db
  | setVersionStatus id status =>
    rw [Operation.rows, Db.afterVersionStatus]
    split
    · exact .refl db
    · split
      · exact .refl db
      · apply Db.Extends.modifyVersion
        intro v
        split
        · exact .activated v
        · exact .of_same (fun _ => rfl) rfl
  | setLatestVersion pluginId id =>
    rw [Operation.rows, Db.afterLatest]
    split
    · apply Db.Extends.of_map (Db.latestSet_rewritten ..).versions
      intro i v
      split
      · exact .promoted v pluginId
      · exact .withoutLatest v pluginId
    · exact .refl db
  | publishPluginVersion pluginId id reviewStatus =>
    rw [Operation.rows, Db.afterPublish]
    split
    · exact .published env.now pluginId reviewStatus
    · exact .refl db
  | uploadVersion pluginId metadata content version =>
    rw [Operation.rows, Db.afterUpload]
    split
    · exact .addVersion (fun _ => rfl) rfl
    · exact .refl db
  | createPlugin | setPluginStatus | deletePlugin | deleteVersion | setConfig =>
    apply Db.Extends.of_rows
    intro i v' hv'
    obtain ⟨v, hv, rfl | ⟨pluginId, rfl⟩⟩ :=
      Operation.spares h _ (fun hc => by cases hc) (fun _ _ _ _ hc => by cases hc) v' hv'
    · exact ⟨_, hv, .refl _⟩
    · exact ⟨v, hv, .withoutLatest v pluginId⟩

theorem BuildJob.rows_extends (db : Db) (job : BuildJob) (step : BuildStep) :
    db.Extends env.Scanned (job.rows env db x step) := by
  have hself : db.Extends env.Scanned db := .refl db
  cases step with
  | pack =>
    unfold BuildJob.rows
    cases job.packError env with
    | none => exact hself
    | some e => exact hself.handled hself job.versionId e
  | upload =>
    unfold BuildJob.rows
    cases job.uploadError env x with
    | none => exact hself
    | some e => exact hself.handled hself job.versionId e
  | update =>
    have hbuilt : db.Extends env.Scanned (job.builtRows db) :=
      .modifyVersion fun v => .of_same (fun _ => rfl) rfl
    rw [BuildJob.rows, BuildJob.updateRows]
    split
    · exact hself
    · cases env.fault (.refresh .updateVersionAfterBuild) with
      | none => exact hbuilt
      | some e => exact hbuilt.handled hbuilt job.versionId e
  | scan =>
    rw [BuildJob.rows, BuildJob.scanRows]
    cases db.versions.lookup job.versionId with
    | none => exact hself
    | some v =>
      have hsaved : db.Extends env.Scanned (db.scanOpened env.now job.versionId v) :=
        .scanOpened db env.now job.versionId v
      dsimp only
      cases hans : scanSelectedProviders env db.config db.enabledProviders with
      | error e =>
        have hopen : db.Extends env.Scanned
            (db.modifyVersion job.versionId (·.beginScan env.now)) :=
          .modifyVersion fun v => .beginScan v env.now
        exact hopen.handled hsaved job.versionId e
      | ok outcomes =>
        have hafter := Db.afterBuildScan_keeps (P := db.Extends env.Scanned)
          (Db.Extends.scanned db job.versionId hans) (Db.Extends.afterScan db job.versionId hans)
        dsimp only
        split
        · exact hsaved
        · cases (db.scanned env.now job.versionId outcomes).afterBuildScanError env job
              outcomes with
          | none => exact hafter
          | some e => exact hafter.handled hafter job.versionId e

/-- Whatever a step adds to the record is a report of that step. -/
theorem World.step_extends {w : World} (h : w.db.Sound) (e : Event) :
    w.db.Extends e.Source (w.step e).db := by
  cases e with
  | perform op env =>
    rw [step, perform_db h]
    exact Operation.rows_extends h op
  | startBuild pluginId version env =>
    rw [step, startBuild_eq h]
    cases w.db.plugins.lookup pluginId with
    | none => exact .refl w.db
    | some plugin =>
      dsimp only
      cases w.db.buildInputs env pluginId plugin version with
      | error e => exact .refl w.db
      | ok inputs => exact .addVersion (fun _ => rfl) rfl
  | advance versionId env =>
    rw [step]
    cases hb : w.builds.lookup versionId with
    | none =>
      rw [advance_none hb]
      exact .refl w.db
    | some build =>
      obtain ⟨x', -, heq⟩ := advance_some h hb env
      rw [heq]
      exact build.job.rows_extends w.db build.next

end PluginRegistry
