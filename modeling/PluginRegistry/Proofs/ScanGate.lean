import PluginRegistry.Proofs.ReleaseZip

namespace PluginRegistry
open Lib

variable {env : Env} {db mid db' : Db} {x : Outside} {versionId : VersionId}
  {v w : PluginVersion} {cfg : RuntimeConfig}

def PluginVersion.Cleared (v : PluginVersion) (cfg : RuntimeConfig) : Prop :=
  ∀ p ∈ cfg.scanEnabledProviders, ∃ r, v.result p = some r ∧
    (r.mode = .skipped ∨ r.mode = .real ∧ r.pass = some true)

theorem ScanPayload.passes_iff {r : ScanPayload} :
    r.passes = true ↔ r.mode = .skipped ∨ r.mode = .real ∧ r.pass = some true := by
  unfold passes
  cases r.mode <;> simp

theorem PluginVersion.cleared_iff :
    v.Cleared cfg ↔ scanProvidersPassed v (some cfg.scanEnabledProviders) = true := by
  have hpass : scanProvidersPassed v (some cfg.scanEnabledProviders) = true ↔
      ∀ p ∈ cfg.scanEnabledProviders, (v.result p).any ScanPayload.passes = true :=
    List.all_eq_true
  rw [hpass]
  refine forall₂_congr fun p _ => ?_
  simp only [Option.any_eq_true, ScanPayload.passes_iff]

theorem PluginVersion.Cleared.congr (h : v.Cleared cfg) (hr : ∀ p, w.result p = v.result p) :
    w.Cleared cfg := by
  intro p hp
  rw [hr p]
  exact h p hp

theorem Db.passes_cleared (h : db.passes v = true) : v.Cleared db.config :=
  PluginVersion.cleared_iff.mpr (Bool.and_eq_true_iff.mp h).2

def Db.Gates (db db' : Db) : Prop :=
  ∀ i v', db'.versions.lookup i = some v' → v'.Cleared db'.config ∨
    (v'.versionStatus = .active →
      ∃ v, db.versions.lookup i = some v ∧ v.versionStatus = .active) ∧
    (v'.isLatest = true → ∃ v, db.versions.lookup i = some v ∧ v.isLatest = true)

def Db.ListsCleared (db : Db) : Prop :=
  ∀ pluginKey entry, db.generateRegistryJson.lookup pluginKey = some entry →
    ∃ pluginId a v, db.plugins.lookup pluginId = some a ∧ a.pluginKey = pluginKey ∧
      db.Offers pluginId v ∧ v.Cleared db.config ∧
      entry = formatEntry a v db.config.scanEnabledProviders

def Operation.opens : Operation → Option VersionId
  | .setVersionStatus versionId .active | .setLatestVersion _ versionId
  | .publishPluginVersion _ versionId _ => some versionId
  | _ => none

def RuntimeConfig.unconfiguredPayload (cfg : RuntimeConfig) : ScanPayload :=
  ⟨some cfg.scanPassWhenUnconfigured, some cfg.scanUnconfiguredMessage, .skipped⟩

structure World.Gated (w : World) (e : Event) : Prop where
  opened : w.db.Gates (w.step e).db
  refused : ∀ op env i v, e = .perform op env → op.opens = some i →
    w.db.versions.lookup i = some v → ¬ v.Cleared w.db.config → (w.step e).db = w.db
  listed : (w.step e).db.ListsCleared
  recorded : ∀ versionId providers env v selected,
    e = .perform (.scanVersion versionId providers) env →
    ((scanVersion env versionId providers).perform w.db w.outside).outcome = .ok () →
    w.db.versions.lookup versionId = some v → w.db.selectedProviders providers = .ok selected →
    ∀ p ∈ selected, w.db.config.isConfigured p = false →
      ∃ v', (w.step e).db.versions.lookup versionId = some v' ∧
        v'.result p = some w.db.config.unconfiguredPayload

namespace Db.Gates

theorem of_kept (h : ∀ i v', db'.versions.lookup i = some v' → ∃ v, db.versions.lookup i = some v ∧
    (v'.versionStatus = .active → v.versionStatus = .active) ∧
    (v'.isLatest = true → v.isLatest = true)) : db.Gates db' := by
  intro i v' hv'
  obtain ⟨v, hv, hstatus, hlatest⟩ := h i v' hv'
  exact .inr ⟨fun hs => ⟨v, hv, hstatus hs⟩, fun hl => ⟨v, hv, hlatest hl⟩⟩

theorem refl (db : Db) : db.Gates db :=
  of_kept fun _ v hv => ⟨v, hv, id, id⟩

/-- Scan columns do not open anything. -/
theorem after_quiet (hq : db.Quiet mid versionId) (h : mid.Gates db') : db.Gates db' := by
  have hback : ∀ {i w}, mid.versions.lookup i = some w →
      ∃ v, db.versions.lookup i = some v ∧ v.standing = w.standing := by
    intro i w hw
    have hs := hq.standing i
    rw [hw] at hs
    exact Option.map_eq_some_iff.mp hs.symm
  intro i v' hv'
  rcases h i v' hv' with hc | ⟨hstatus, hlatest⟩
  · exact .inl hc
  · refine .inr ⟨fun hs => ?_, fun hl => ?_⟩
    · obtain ⟨w, hw, hs⟩ := hstatus hs
      obtain ⟨v, hv, hst⟩ := hback hw
      exact ⟨v, hv, (PluginVersion.versionStatus_of_standing hst).trans hs⟩
    · obtain ⟨w, hw, hl⟩ := hlatest hl
      obtain ⟨v, hv, hst⟩ := hback hw
      exact ⟨v, hv, (PluginVersion.isLatest_of_standing hst).trans hl⟩

theorem quiet (hq : db.Quiet db' versionId) : db.Gates db' :=
  after_quiet hq (refl db')

/-- Publishing a version that passes. -/
theorem published {pluginId : PluginId} (now : Time) (reviewStatus : ReviewStatus)
    (hp : ∀ v, db.versions.lookup versionId = some v → v.Cleared db.config) :
    db.Gates (db.published now pluginId versionId reviewStatus) := by
  intro i v' hv'
  rw [(Db.published_rewritten ..).versions] at hv'
  obtain ⟨v, hv, rfl⟩ := Option.map_eq_some_iff.mp hv'
  by_cases hi : i = versionId
  · subst hi
    rw [if_pos rfl]
    exact .inl ((hp v hv).congr fun p => PluginVersion.published_result)
  · rw [if_neg hi]
    refine .inr ⟨fun hs => ⟨v, hv, ?_⟩, fun hl => ⟨v, hv, ?_⟩⟩
    · exact (v.withoutLatest_versionStatus pluginId).symm.trans hs
    · exact ((v.withoutLatest_isLatest pluginId).mp hl).2

theorem autoPublished (db : Db) (now : Time) (versionId : VersionId) :
    db.Gates (db.autoPublished now versionId) := by
  unfold Db.autoPublished
  cases hv : db.versions.lookup versionId with
  | none => exact refl db
  | some v =>
    dsimp only
    split
    · rename_i hgo
      rw [Db.autoPublishes, Bool.and_eq_true] at hgo
      exact published now .skipped fun w hw => by
        rw [← Option.some.inj (hv.symm.trans hw)]
        exact Db.passes_cleared hgo.2
    · exact refl db

theorem handled {p c : Db} (hp : db.Gates p) (hc : db.Gates c) (versionId : VersionId)
    (exc : PyErr) : db.Gates (p.handled c versionId exc) := by
  unfold Db.handled
  split
  · exact hc
  · split
    · exact hc
    · intro i v' hv'
      rw [Db.lookup_modifyVersion] at hv'
      obtain ⟨u, hu, rfl⟩ := Option.map_eq_some_iff.mp hv'
      have hsame := hp i u hu
      split
      · exact hsame
      · exact hsame

theorem afterScan (env : Env) (db : Db) (versionId : VersionId)
    (outcomes : List (Provider × ScanOutcome)) :
    db.Gates ((db.scanned env.now versionId outcomes).afterScan env versionId outcomes) := by
  have hquiet : db.Quiet (db.scanned env.now versionId outcomes) versionId :=
    .modifyVersion fun w => w.scanned_standing env.now outcomes
  unfold Db.afterScan
  split
  · exact after_quiet hquiet (autoPublished _ _ _)
  · exact quiet hquiet

theorem scanResult (env : Env) (db : Db) (versionId : VersionId)
    (providers : Option (List String)) : db.Gates (db.scanResult env versionId providers) := by
  unfold Db.scanResult
  split
  · split
    · exact quiet Db.scanOpened_quiet
    · split
      · exact quiet Db.scanOpened_quiet
      · exact afterScan env db versionId _
  · exact refl db

theorem pollResult (env : Env) (db : Db) (versionId : VersionId) :
    db.Gates (db.pollResult env versionId) := by
  have hpolled : ∀ o track caller, db.Gates
      ((db.polled env.now versionId o track).afterPoll env caller versionId o) := by
    intro o track caller
    have hquiet : db.Quiet (db.polled env.now versionId o track) versionId :=
      .modifyVersion fun w => w.polled_standing env.now o track
    unfold Db.afterPoll
    split
    · exact after_quiet hquiet (autoPublished _ _ _)
    · exact quiet hquiet
  unfold Db.pollResult
  split
  · exact refl db
  · split
    · exact refl db
    · exact refl db
    · exact hpolled _ _ _
    · split
      · exact refl db
      · exact hpolled _ _ _

/-- The rows an operation is not about. -/
theorem of_spares {i : VersionId} (h : db.Spares db' i) {v' : PluginVersion}
    (hv' : db'.versions.lookup i = some v') :
    (v'.versionStatus = .active →
      ∃ v, db.versions.lookup i = some v ∧ v.versionStatus = .active) ∧
    (v'.isLatest = true → ∃ v, db.versions.lookup i = some v ∧ v.isLatest = true) := by
  obtain ⟨v, hv, rfl | ⟨p, rfl⟩⟩ := h v' hv'
  · exact ⟨fun hs => ⟨_, hv, hs⟩, fun hl => ⟨_, hv, hl⟩⟩
  · refine ⟨fun hs => ⟨v, hv, ?_⟩, fun hl => ⟨v, hv, ?_⟩⟩
    · exact (v.withoutLatest_versionStatus p).symm.trans hs
    · exact ((v.withoutLatest_isLatest p).mp hl).2

theorem versionStatus (db : Db) (id : VersionId) (status : VersionStatus) :
    db.Gates (db.afterVersionStatus id status) := by
  unfold Db.afterVersionStatus
  cases hv : db.versions.lookup id with
  | none => exact refl db
  | some u =>
    dsimp only
    split
    · exact refl db
    · rename_i hgo
      intro i v' hv'
      rw [(Db.versionStatusSet_rewritten ..).versions] at hv'
      obtain ⟨v, hrow, rfl⟩ := Option.map_eq_some_iff.mp hv'
      by_cases hi : i = id
      · subst hi
        cases hv.symm.trans hrow
        rw [if_pos rfl]
        by_cases hs : status = .active
        · rw [if_pos hs]
          have hpass : db.passes u = true := by simpa [hs] using hgo
          refine .inl ((Db.passes_cleared hpass).congr fun p => ?_)
          unfold PluginVersion.activated PluginVersion.settleBuild
          split <;> rfl
        · rw [if_neg hs]
          exact .inr ⟨fun hc => absurd hc hs, fun hl => (by cases hl)⟩
      · rw [if_neg hi]
        exact .inr ⟨fun hs => ⟨v, hrow, hs⟩, fun hl => ⟨v, hrow, hl⟩⟩

theorem latest (db : Db) (pluginId : PluginId) (id : VersionId) :
    db.Gates (db.afterLatest pluginId id) := by
  unfold Db.afterLatest
  split
  · rename_i hgo
    rw [Option.isNone_iff_eq_none] at hgo
    obtain ⟨-, u, -, -, hu, -, -, hpass⟩ := Db.latestRefusal_eq_none.mp hgo
    intro i v' hv'
    rw [(Db.latestSet_rewritten ..).versions] at hv'
    obtain ⟨v, hrow, rfl⟩ := Option.map_eq_some_iff.mp hv'
    by_cases hi : i = id
    · subst hi
      cases hu.symm.trans hrow
      rw [if_pos rfl]
      refine .inl ((Db.passes_cleared hpass).congr fun p => ?_)
      unfold PluginVersion.promoted PluginVersion.withoutLatest PluginVersion.settleBuild
      split <;> split <;> rfl
    · rw [if_neg hi]
      refine .inr ⟨fun hs => ⟨v, hrow, ?_⟩, fun hl => ⟨v, hrow, ?_⟩⟩
      · exact (v.withoutLatest_versionStatus pluginId).symm.trans hs
      · exact ((v.withoutLatest_isLatest pluginId).mp hl).2
  · exact refl db

/-- Every operation stays behind the gate. -/
theorem operation (env : Env) (h : db.Sound) (op : Operation) : db.Gates (op.rows env db) := by
  have hother : op.target = none → (∀ pluginId metadata content version,
      op ≠ .uploadVersion pluginId metadata content version) → db.Gates (op.rows env db) := by
    intro ht hno i v' hv'
    refine .inr (of_spares (Operation.spares h op ?_ ?_) hv')
    · intro hc
      rw [ht] at hc
      cases hc
    · exact fun pluginId metadata content version hc => absurd hc (hno _ _ _ _)
  cases op with
  | setVersionStatus id status => exact versionStatus db id status
  | setLatestVersion pluginId id => exact latest db pluginId id
  | publishPluginVersion pluginId id reviewStatus =>
    rw [Operation.rows, Db.afterPublish]
    split
    · rename_i hgo
      rw [Option.isNone_iff_eq_none] at hgo
      obtain ⟨-, -, u, hu, -, hpass⟩ := Db.publishRefusal_eq_none.mp hgo
      exact published env.now reviewStatus fun v hv => by
        rw [← Option.some.inj (hu.symm.trans hv)]
        exact Db.passes_cleared hpass
    · exact refl db
  | scanVersion id providers => exact scanResult env db id providers
  | pollVirustotalAnalysis id => exact pollResult env db id
  | markScanPending id providers =>
    rw [Operation.rows, Db.afterMarkPending]
    split
    · apply quiet
      exact .modifyVersion fun v => v.markedPending_standing ..
    · exact refl db
  | markScanSkipped id providers =>
    rw [Operation.rows, Db.afterMarkSkipped]
    split
    · apply quiet
      exact .modifyVersion fun v => v.markedSkipped_standing ..
    · exact refl db
  | uploadVersion pluginId metadata content version =>
    intro i v' hv'
    by_cases hi : i = db.nextId
    · subst hi
      rw [Operation.rows, Db.afterUpload] at hv'
      split at hv'
      · rw [Db.lookup_addVersion, if_pos rfl] at hv'
        cases hv'
        exact .inr ⟨fun hs => (by cases hs), fun hl => (by cases hl)⟩
      · exact .inr ⟨fun hs => ⟨v', hv', hs⟩, fun hl => ⟨v', hv', hl⟩⟩
    · exact .inr (of_spares (Operation.spares h _ (fun hc => by cases hc) fun _ _ _ _ _ => hi) hv')
  | createPlugin | setPluginStatus | deletePlugin | deleteVersion | setConfig =>
    exact hother rfl fun _ _ _ _ hc => by cases hc

theorem buildStep (db : Db) (job : BuildJob) (step : BuildStep) :
    db.Gates (job.rows env db x step) := by
  have hself := refl db
  cases step with
  | pack =>
    unfold BuildJob.rows
    cases job.packError env with
    | none => exact hself
    | some e => exact hself.handled hself job.versionId e
  | upload =>
    unfold BuildJob.rows
    cases job.uploadError env x with
    | none => exact hself
    | some e => exact hself.handled hself job.versionId e
  | update =>
    have hb : db.Gates (job.builtRows db) := by
      apply of_kept
      intro i v' hv'
      rw [BuildJob.builtRows, Db.lookup_modifyVersion] at hv'
      obtain ⟨v, hv, rfl⟩ := Option.map_eq_some_iff.mp hv'
      refine ⟨v, hv, ?_⟩
      split <;> exact ⟨id, id⟩
    rw [BuildJob.rows, BuildJob.updateRows]
    split
    · exact hself
    · cases env.fault (.refresh .updateVersionAfterBuild) with
      | none => exact hb
      | some e => exact hb.handled hb job.versionId e
  | scan =>
    rw [BuildJob.rows, BuildJob.scanRows]
    cases hv : db.versions.lookup job.versionId with
    | none => exact hself
    | some v =>
      have hsaved : db.Gates (db.scanOpened env.now job.versionId v) := quiet Db.scanOpened_quiet
      have hopen : db.Gates (db.modifyVersion job.versionId (·.beginScan env.now)) :=
        quiet (.modifyVersion fun v => v.beginScan_standing env.now)
      dsimp only
      cases scanSelectedProviders env db.config db.enabledProviders with
      | error e => exact hopen.handled hsaved job.versionId e
      | ok outcomes =>
        have hdone : db.Gates (db.scanned env.now job.versionId outcomes) :=
          quiet (.modifyVersion fun v => v.scanned_standing env.now outcomes)
        have hafter := Db.afterBuildScan_keeps hdone (afterScan env db job.versionId outcomes)
        dsimp only
        split
        · exact hsaved
        · cases (db.scanned env.now job.versionId outcomes).afterBuildScanError env job
              outcomes with
          | none => exact hafter
          | some e => exact hafter.handled hafter job.versionId e

end Db.Gates

/-- The admin's operations change nothing about a version that does not pass. -/
theorem Operation.rows_refused {op : Operation} {i : VersionId} (ho : op.opens = some i)
    (hv : db.versions.lookup i = some v) (hno : ¬ v.Cleared db.config) : op.rows env db = db := by
  have hpass : db.passes v = false := by
    rw [Bool.eq_false_iff]
    exact fun hp => hno (Db.passes_cleared hp)
  unfold Operation.opens at ho
  split at ho
  · cases ho
    rw [rows, Db.afterVersionStatus, hv]
    dsimp only
    rw [if_pos ⟨rfl, hpass⟩]
  · cases ho
    rw [rows, Db.afterLatest, if_neg]
    intro hgo
    rw [Option.isNone_iff_eq_none] at hgo
    obtain ⟨-, u, -, -, hu, -, -, hp⟩ := Db.latestRefusal_eq_none.mp hgo
    cases hv.symm.trans hu
    exact hno (Db.passes_cleared hp)
  · cases ho
    rw [rows, Db.afterPublish, if_neg]
    intro hgo
    rw [Option.isNone_iff_eq_none] at hgo
    obtain ⟨-, -, u, hu, -, hp⟩ := Db.publishRefusal_eq_none.mp hgo
    cases hv.symm.trans hu
    exact hno (Db.passes_cleared hp)
  · cases ho

theorem Db.Sound.listsCleared (h : db.Sound) : db.ListsCleared := by
  intro pluginKey entry he
  obtain ⟨pluginId, a, v, ha, hkey, -, ho, hentry⟩ := h.registry_iff.mp he
  obtain ⟨-, -, -, -, hpass⟩ := id ho
  exact ⟨pluginId, a, v, ha, hkey, ho, PluginVersion.cleared_iff.mpr hpass, hentry⟩

/-- Auto-publishing keeps every result. -/
theorem Db.autoPublished_result (hv : db.versions.lookup versionId = some v) (now : Time)
    (p : Provider) : ∃ v', (db.autoPublished now versionId).versions.lookup versionId = some v' ∧
      v'.result p = v.result p := by
  unfold Db.autoPublished
  rw [hv]
  dsimp only
  split
  · refine ⟨v.published v.pluginId now .skipped, ?_, PluginVersion.published_result⟩
    rw [(Db.published_rewritten ..).versions, hv, Option.map_some, if_pos rfl]
  · exact ⟨v, hv, rfl⟩

theorem Db.scanResult_unconfigured (h : db.Sound) {providers : Option (List String)}
    {selected : List Provider} (hv : db.versions.lookup versionId = some v)
    (hdone : ((scanVersion env versionId providers).perform db x).outcome = .ok ())
    (hsel : db.selectedProviders providers = .ok selected) {p : Provider} (hp : p ∈ selected)
    (hconf : db.config.isConfigured p = false) :
    ∃ v', (db.scanResult env versionId providers).versions.lookup versionId = some v' ∧
      v'.result p = some db.config.unconfiguredPayload := by
  obtain ⟨selected', outcomes, hsel', hans, hlate⟩ := scan_completed h hv hdone
  cases hsel.symm.trans hsel'
  obtain ⟨hrep, hmem, hdis⟩ := scanSelectedProviders_reports hans
  have hnd := db.selection_nodup providers
  rw [Db.selection_of_ok hsel] at hnd
  obtain ⟨o, ho⟩ := hmem p hp
  have hskip := (hrep p o ho).2
  rw [Reported, if_neg (by simp [hconf])] at hskip
  have hres : (v.scanned env.now outcomes).result p = some db.config.unconfiguredPayload := by
    have hrow : ((v.beginScan env.now).recordAll env.now outcomes).result p = some o.payload :=
      PluginVersion.recordAll_result (hdis hnd) ho
    rw [hskip] at hrow
    exact (PluginVersion.finishScan_result _).trans hrow
  have hrow := Db.scanned_lookup env.now hv outcomes
  rw [Db.scanResult, hsel, hv]
  dsimp only
  rw [hans]
  dsimp only
  rw [if_neg hlate, Db.afterScan]
  split
  · obtain ⟨v', hv', hkept⟩ := Db.autoPublished_result hrow env.now p
    exact ⟨v', hv', hkept.trans hres⟩
  · exact ⟨_, hrow, hres⟩

theorem World.step_gates {w : World} (h : w.db.Sound) (e : Event) :
    w.db.Gates (w.step e).db := by
  cases e with
  | perform op env =>
    rw [step, perform_db h]
    exact .operation env h op
  | startBuild pluginId version env =>
    rw [step, startBuild_eq h]
    cases w.db.plugins.lookup pluginId with
    | none => exact .refl w.db
    | some plugin =>
      dsimp only
      cases w.db.buildInputs env pluginId plugin version with
      | error e => exact .refl w.db
      | ok inputs =>
        intro i v' hv'
        change (w.db.buildStarted env.now pluginId plugin inputs.1).versions.lookup i = _ at hv'
        rw [Db.buildStarted, Db.lookup_addVersion] at hv'
        split at hv'
        · cases hv'
          exact .inr ⟨fun hs => (by cases hs), fun hl => (by cases hl)⟩
        · exact .inr ⟨fun hs => ⟨v', hv', hs⟩, fun hl => ⟨v', hv', hl⟩⟩
  | advance versionId env =>
    rw [step]
    cases hb : w.builds.lookup versionId with
    | none =>
      rw [advance_none hb]
      exact .refl w.db
    | some build =>
      obtain ⟨x', -, heq⟩ := advance_some h hb env
      rw [heq]
      exact .buildStep w.db build.job build.next

/-- After every run, every step stays behind the gate. -/
theorem scan_gate_holds (config : RuntimeConfig) (events : List Event) (e : Event) :
    (World.run config events).Gated e := by
  have h := reachable_sound (World.run_reachable config events)
  refine ⟨World.step_gates h e, ?_, (World.step_sound h e).listsCleared, ?_⟩
  · rintro op env i v rfl ho hv hno
    rw [World.step, World.perform_db h]
    exact Operation.rows_refused ho hv hno
  · rintro versionId providers env v selected rfl hdone hv hsel p hp hconf
    rw [World.step, World.perform_db h]
    exact Db.scanResult_unconfigured h hv hdone hsel hp hconf

def configWithoutPass : RuntimeConfig :=
  { RuntimeConfig.default with scanPassWhenUnconfigured := false }

def Event.scansOnly : Event → Bool
  | .perform (.markScanSkipped _ _) _ | .perform (.setConfig _) _ => false
  | _ => true

/-- No scanner is configured, nothing was skipped by an admin, and the version is
active and the latest. -/
theorem unconfigured_providers_published :
    ¬ ∀ (config : RuntimeConfig) (events : List Event), config.scanPassWhenUnconfigured = false →
      events.all Event.scansOnly = true →
      ∀ w ∈ (service config).states (service config).init events,
        ∀ i v, w.db.versions.lookup i = some v →
          (∃ p ∈ config.scanEnabledProviders, config.isConfigured p = false) →
          v.versionStatus ≠ .active ∧ v.isLatest = false := by
  intro h
  have hlatest : ((World.run configWithoutPass publishedRun).db.versions.lookup 1).any
      (·.isLatest) = true := by
    decide +kernel
  obtain ⟨v, hv, hlatest⟩ := (Option.any_eq_true ..).mp hlatest
  have hno := (h configWithoutPass publishedRun rfl rfl _ (Machine.run_mem_states _ _) 1 v hv
    (by decide)).2
  rw [hlatest] at hno
  cases hno

end PluginRegistry
