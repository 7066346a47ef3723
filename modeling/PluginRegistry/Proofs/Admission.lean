import PluginRegistry.Proofs.ServiceRuns

namespace PluginRegistry
open Lib

variable {env : Env} {db : Db} {x : Outside}

/-- A rescan of the latest version in which every scanner answers and one of
them only says to wait. -/
structure RescanWaits (env : Env) (db : Db) (versionId : VersionId)
    (providers : Option (List String)) : Prop where
  latest : (db.versions.lookup versionId).any (·.isLatest) = true
  answered : Answered env db.config (db.selection providers)
  waiting : Waiting env db.config (db.selection providers)

/-- The table refuses a scan exactly where it would set the latest version back to waiting. -/
theorem scanRefused_iff {versionId : VersionId} {providers : Option (List String)} :
    db.scanRefused env versionId providers = true ↔ RescanWaits env db versionId providers := by
  unfold Db.scanRefused
  cases hsel : db.selectedProviders providers with
  | error e =>
    have hnone : db.selection providers = [] := by rw [Db.selection, hsel]
    constructor
    · intro h
      cases h
    · rintro ⟨-, -, p, hp, -⟩
      rw [hnone] at hp
      cases hp
  | ok selected =>
    have hselection := Db.selection_of_ok hsel
    cases hv : db.versions.lookup versionId with
    | none =>
      constructor
      · intro h
        cases h
      · rintro ⟨hl, -, -⟩
        rw [hv] at hl
        cases hl
    | some v =>
      dsimp only
      cases hans : scanSelectedProviders env db.config selected with
      | error e =>
        constructor
        · intro h
          cases h
        · rintro ⟨-, ha, -⟩
          rw [hselection] at ha
          obtain ⟨outcomes, ho⟩ := scanSelectedProviders_ok.mpr ha
          rw [hans] at ho
          cases ho
      | ok outcomes =>
        have ha : Answered env db.config selected := scanSelectedProviders_ok.mp ⟨_, hans⟩
        dsimp only
        rw [Bool.and_eq_true, anyPending_iff hans]
        constructor
        · rintro ⟨hl, hw⟩
          exact ⟨by rw [hv]; exact hl, by rw [hselection]; exact ha, by rw [hselection]; exact hw⟩
        · rintro ⟨hl, -, hw⟩
          rw [hv] at hl
          rw [hselection] at hw
          exact ⟨hl, hw⟩

structure PollWaits (env : Env) (cfg : RuntimeConfig) (v : PluginVersion) : Prop where
  latest : v.isLatest = true
  asks : ∃ analysisId, PollAsks env cfg v analysisId
  pending : ∃ answer, env.pollAnswer = .ok answer ∧ answer.mode = .pending
  attempts : (v.pollAttempts env.now + 1 : Nat) < max 1 cfg.virustotal.maxPollAttempts

theorem pollOutcome_pending {config : VirusTotalConfig} {v : PluginVersion} {analysisId : String}
    {answer : ScanOutcome} :
    (pollOutcome env config v analysisId answer).mode = .pending ↔
      answer.mode = .pending ∧ (v.pollAttempts env.now + 1 : Nat) < max 1 config.maxPollAttempts := by
  unfold pollOutcome
  by_cases hp : answer.mode = .pending
  · rw [if_pos hp]
    dsimp only
    split
    · rename_i hmax
      constructor
      · intro h
        cases h
      · rintro ⟨-, hlt⟩
        omega
    · rename_i hmax
      exact iff_of_true rfl ⟨hp, by omega⟩
  · rw [if_neg hp]
    exact iff_of_false hp fun h => hp h.1

theorem pollRefused_iff {versionId : VersionId} :
    db.pollRefused env versionId = true ↔
      ∃ v, db.versions.lookup versionId = some v ∧ PollWaits env db.config v := by
  unfold Db.pollRefused
  cases hv : db.versions.lookup versionId with
  | none => simp
  | some v =>
    simp only [Option.some.injEq, exists_eq_left']
    constructor
    · intro h
      split at h
      · rename_i o ho
        have hcase := v.pollCase env db.config
        rw [ho] at hcase
        cases hcase with
        | recorded hask hans =>
          rw [Bool.and_eq_true, decide_eq_true_eq, pollOutcome_pending] at h
          exact ⟨h.1, ⟨_, hask⟩, ⟨_, hans, h.2.1⟩, h.2.2⟩
      · cases h
    · rintro ⟨hl, ⟨analysisId, hask⟩, ⟨answer, hans, hp⟩, hatt⟩
      rw [hask.decision_recorded hans]
      dsimp only
      rw [Bool.and_eq_true, decide_eq_true_eq, pollOutcome_pending]
      exact ⟨hl, hp, hatt⟩

/-- A scan that publishes its version and then fails to re-read it, with an
error that is no refusal to publish. -/
structure ScanLosesRefresh (env : Env) (cfg : RuntimeConfig) (selected : List Provider) :
    Prop where
  answered : Answered env cfg selected
  settled : ¬ FollowedUp env cfg selected
  refreshed : env.fault (.refresh .scanVersion) = none
  automatic : cfg.scanAutoPublishEnabled = true ∧ cfg.scanRequireHumanReview = false
  passing : ∀ p ∈ selected, cfg.isConfigured p = true →
    ∃ o, env.scanAnswer p = .ok o ∧ o.payload.passes = true
  raised : ∃ e, env.fault (.refresh .publishPluginVersion) = some e ∧ e.refusal = false

/-- A build that gets through to its scan, which then does that. The publication sees the
results only of a plugin that was not active before, and needs to where one is required. -/
structure BuildLosesRefresh (env : Env) (cfg : RuntimeConfig) (job : BuildJob)
    (selected : List Provider) : Prop extends ScanLosesRefresh env cfg selected where
  seen : job.plugin.status ≠ .active ∨ cfg.scanEnabledProviders = []
  created : env.fault (.refresh .createVersion) = none
  packed : job.packError env = none
  uploaded : env.fault .uploadFile = none
  updated : env.fault (.refresh .updateVersionAfterBuild) = none

variable {job : BuildJob}

def BuildJob.steps (env : Env) (job : BuildJob) : Op Unit := do
  job.step env .pack
  job.step env .upload
  job.step env .update
  let job ← Work.query (job.after .update)
  job.step env .scan

theorem Db.seesResults_iff {resultsLoaded : Bool} : db.seesResults resultsLoaded = true ↔
    resultsLoaded ≠ true ∨ db.config.scanEnabledProviders = [] := by
  simp [Db.seesResults]

theorem Db.autoPublished_row {versionId : VersionId} {v : PluginVersion} {now : Time}
    (hv : db.versions.lookup versionId = some v) (hl : v.isLatest = false) :
    (db.autoPublished now versionId).handledRefused versionId = db.autoPublishes v := by
  simp only [Db.handledRefused, Db.autoPublished, hv]
  cases hp : db.autoPublishes v with
  | true =>
    rw [if_pos rfl, (Db.published_rewritten ..).versions, hv]
    simp [PluginVersion.published, PluginVersion.modifyResult]
  | false =>
    simp only [Bool.false_eq_true, if_false, hv, Option.any_some, hl]

structure Stops (w : Op Unit) (db : Db) (x : Outside) (versionId : VersionId) (refused : Prop) :
    Prop where
  ends : (∃ s, w.run (Session.start db x) = .ok () s ∧ s.rejected = false ∧
      s.committed.Sound ∧ ¬ refused) ∨
    ∃ e p c x', w.run (Session.start db x) = .error e ⟨p, c, x', false, false⟩ ∧ p.Sound ∧
      c.Sound ∧ (p.handledRefused versionId = true ↔ refused)

/-- Under the default selection every required provider is scanned. -/
theorem passing_enabled {v : PluginVersion} :
    (∀ p ∈ db.config.scanEnabledProviders, Passing env db.config db.enabledProviders v p) ↔
      ∀ p ∈ db.enabledProviders, db.config.isConfigured p = true →
        ∃ o, env.scanAnswer p = .ok o ∧ o.payload.passes = true := by
  have hmem : ∀ p, p ∈ db.enabledProviders ↔ p ∈ db.config.scanEnabledProviders := by
    intro p
    simp [Db.enabledProviders, Provider.mem_names]
  constructor
  · intro h p hp
    have hpass := h p ((hmem p).mp hp)
    rwa [Passing, if_pos hp] at hpass
  · intro h p hp
    rw [Passing, if_pos ((hmem p).mpr hp)]
    exact h p ((hmem p).mpr hp)

theorem autoPublishes_iff (job : BuildJob) {v : PluginVersion}
    {outcomes : List (Provider × ScanOutcome)}
    (hart : v.hasArtifact = true)
    (hans : scanSelectedProviders env db.config db.enabledProviders = .ok outcomes) :
    (db.scanned env.now job.versionId outcomes).autoPublishes (v.scanned env.now outcomes) = true ↔
      (db.config.scanAutoPublishEnabled = true ∧ db.config.scanRequireHumanReview = false) ∧
        ∀ p ∈ db.enabledProviders, db.config.isConfigured p = true →
          ∃ o, env.scanAnswer p = .ok o ∧ o.payload.passes = true := by
  have hnd : db.enabledProviders.Nodup := Provider.names_nodup.filter _
  rw [Db.autoPublishes_iff, ← passing_enabled, ← scanned_passes hart hnd hans]
  rfl

/-- A recorded scan that raises leaves the version as the latest one only if
it has published it. -/
theorem afterScan_loses {versionId : VersionId} {v : PluginVersion}
    (hv : db.versions.lookup versionId = some v) (hl : v.isLatest = false)
    (outcomes : List (Provider × ScanOutcome)) :
    ((db.afterScan env versionId outcomes).handledRefused versionId = true ∧
        (db.afterScanError env versionId outcomes).isSome = true) ↔
      (followupTask env outcomes).isSome = false ∧ env.fault (.refresh .scanVersion) = none ∧
        db.autoPublishes v = true ∧
        ∃ e, env.fault (.refresh .publishPluginVersion) = some e ∧ e.refusal = false := by
  have hquiet : db.handledRefused versionId = false := by
    simp [Db.handledRefused, hv, hl]
  unfold Db.afterScan Db.afterScanError
  cases hf : followupTask env outcomes with
  | some delay => simp [hquiet]
  | none =>
    cases hr : env.fault (.refresh .scanVersion) with
    | some e => simp [hquiet]
    | none =>
      simp only [and_self, if_true, Db.autoPublished_row hv hl, Option.isSome_none,
        Bool.false_eq_true, if_false, Option.orElse_eq_orElse, Option.orElse_none, true_and,
        Db.publishError, hv, Option.any_some]
      cases db.autoPublishes v with
      | false => simp
      | true =>
        cases env.fault (.refresh .publishPluginVersion) with
        | none => simp
        | some e => cases hc : e.refusal <;> simp [Option.filter, hc]

/-- The scan of a version loses it to the handler only if it publishes it. -/
theorem scan_loses (job : BuildJob) (h : db.Sound) {v : PluginVersion}
    (hv : db.versions.lookup job.versionId = some v) (hl : v.isLatest = false)
    {outcomes : List (Provider × ScanOutcome)}
    (hans : scanSelectedProviders env db.config db.enabledProviders = .ok outcomes) :
    (((db.scanned env.now job.versionId outcomes).afterScan env job.versionId
          outcomes).handledRefused job.versionId = true ∧
        ((db.scanned env.now job.versionId outcomes).afterScanError env job.versionId
          outcomes).isSome = true) ↔ ScanLosesRefresh env db.config db.enabledProviders := by
  have hrow := Db.scanned_lookup env.now hv outcomes
  have hfresh : (v.scanned env.now outcomes).isLatest = false :=
    (PluginVersion.isLatest_of_standing (v.scanned_standing env.now outcomes)).trans hl
  have hauto := autoPublishes_iff job (h.artifacts _ v hv) hans
  rw [afterScan_loses hrow hfresh, hauto, ← Bool.not_eq_true, followupTask_iff hans]
  constructor
  · rintro ⟨hset, href, ⟨hpol, hpass⟩, hraise⟩
    exact ⟨scanSelectedProviders_ok.mp ⟨_, hans⟩, hset, href, hpol, hpass, hraise⟩
  · rintro ⟨-, hset, href, hpol, hpass, hraise⟩
    exact ⟨hset, href, ⟨hpol, hpass⟩, hraise⟩

/-- The scan of a build that does not see its results publishes nothing. -/
theorem buildScan_loses (job : BuildJob) (h : db.Sound) {v : PluginVersion}
    (hv : db.versions.lookup job.versionId = some v) (hl : v.isLatest = false)
    {outcomes : List (Provider × ScanOutcome)}
    (hans : scanSelectedProviders env db.config db.enabledProviders = .ok outcomes) :
    (((db.scanned env.now job.versionId outcomes).afterBuildScan env job
          outcomes).handledRefused job.versionId = true ∧
        ((db.scanned env.now job.versionId outcomes).afterBuildScanError env job
          outcomes).isSome = true) ↔
      ScanLosesRefresh env db.config db.enabledProviders ∧
        db.seesResults job.resultsLoaded = true := by
  have hsame : (db.scanned env.now job.versionId outcomes).seesResults job.resultsLoaded =
      db.seesResults job.resultsLoaded := rfl
  unfold Db.afterBuildScan Db.afterBuildScanError
  rw [hsame]
  cases hsees : db.seesResults job.resultsLoaded with
  | true =>
    rw [← scan_loses job h hv hl hans]
    simp
  | false =>
    have hrow := Db.scanned_lookup env.now hv outcomes
    have hfresh : (v.scanned env.now outcomes).isLatest = false :=
      (PluginVersion.isLatest_of_standing (v.scanned_standing env.now outcomes)).trans hl
    have hquiet : (db.scanned env.now job.versionId outcomes).handledRefused job.versionId =
        false := by
      simp [Db.handledRefused, hrow, hfresh]
    simp [hquiet]

/-- The scan of a build whose version is not the latest. The commit of its failure is
refused exactly where the hook has published and its refresh fails. -/
theorem scan_stops (job : BuildJob) (h : db.Sound) {v : PluginVersion}
    (hv : db.versions.lookup job.versionId = some v) (hl : v.isLatest = false) :
    Stops (job.step env .scan) db x job.versionId
      (ScanLosesRefresh env db.config db.enabledProviders ∧
        db.seesResults job.resultsLoaded = true) := by
  have hrun := scanVersion_run env x h job.versionId none job.resultsLoaded
  have hsel : db.selectedProviders none = .ok db.enabledProviders := rfl
  rw [hsel] at hrun
  simp only [hv] at hrun
  refine ⟨?_⟩
  cases hans : scanSelectedProviders env db.config db.enabledProviders with
  | error e =>
    rw [hans] at hrun
    refine .inr ⟨e, _, _, x, hrun, h.beginScan env.now, h.scanOpened env.now job.versionId v,
      iff_of_false ?_ ?_⟩
    · have hrow := PluginVersion.isLatest_of_standing (v.beginScan_standing env.now)
      simp [Db.handledRefused, hv, hrow, hl]
    · rintro ⟨hlose, -⟩
      obtain ⟨outcomes, ho⟩ := scanSelectedProviders_ok.mpr hlose.answered
      rw [hans] at ho
      cases ho
  | ok outcomes =>
    rw [hans] at hrun
    have hlate : ¬ (v.isLatest = true ∧ anyPending outcomes = true) := by simp [hl]
    dsimp only at hrun
    rw [if_neg hlate] at hrun
    have hdone := h.scanned env hv outcomes hlate
    have hrow := Db.scanned_lookup env.now hv outcomes
    obtain ⟨x', -, hafter⟩ := afterBuildScan_done env x hdone job hrow outcomes
    rw [hafter] at hrun
    have hlose := buildScan_loses job h hv hl hans
    have hrows := hdone.afterBuildScan env job outcomes
    cases he : (db.scanned env.now job.versionId outcomes).afterBuildScanError env job
        outcomes with
    | none =>
      rw [he] at hrun hlose
      refine .inl ⟨_, hrun, rfl, hrows, fun hc => ?_⟩
      cases (hlose.mpr hc).2
    | some e =>
      rw [he] at hrun hlose
      refine .inr ⟨e, _, _, _, hrun, hrows, hrows, ?_⟩
      simpa using hlose

/-- A program whose first part ends well stops where the rest does. -/
theorem Stops.bind_ok {α : Type} {a : Op α} {f : α → Op Unit} {u : α} {db₁ : Db} {x₁ : Outside}
    {versionId : VersionId} {refused refused' : Prop}
    (h : a.run (Session.start db x) = .ok u (Session.start db₁ x₁)) (hr : refused' ↔ refused)
    (hs : Stops (f u) db₁ x₁ versionId refused') : Stops (a >>= f) db x versionId refused := by
  refine ⟨?_⟩
  rw [Work.bind_run, h, ← hr]
  exact hs.ends

/-- A program whose first part raises over sound rows, away from the latest version. -/
theorem Stops.bind_error {α : Type} {a : Op α} {f : α → Op Unit} {e : PyErr} {db₁ : Db}
    {x₁ : Outside} {versionId : VersionId} {refused : Prop}
    (h : a.run (Session.start db x) = .error e (Session.start db₁ x₁)) (hs : db₁.Sound)
    (hl : db₁.handledRefused versionId = false) (hr : ¬ refused) :
    Stops (a >>= f) db x versionId refused := by
  refine ⟨.inr ⟨e, db₁, db₁, x₁, ?_, hs, hs, iff_of_false (by simp [hl]) hr⟩⟩
  rw [Work.bind_run, h]
  rfl

theorem archive_packed (hp : job.packError env = none) :
    job.archive (job.packFiles env x) =
      some (createZip job.checkout job.maxReleaseZipBytes).1 := by
  have hopen : env.fault .openZipFile = none := by
    unfold BuildJob.packError at hp
    cases hf : env.fault .openZipFile with
    | none => rfl
    | some e =>
      rw [hf] at hp
      cases hp
  simp [BuildJob.archive, BuildJob.packFiles, hopen]

/-- The steps of a build that has just created its version. -/
theorem steps_stops (job : BuildJob) (h : db.Sound) {v : PluginVersion}
    (hv : db.versions.lookup job.versionId = some v) (hl : v.isLatest = false)
    (hnew : db.commitTaken job.versionId job.commitSha = false)
    (hplugin : db.plugins.lookup job.pluginId = some job.plugin)
    (hcreated : env.fault (.refresh .createVersion) = none) :
    Stops (job.steps env) db x job.versionId
      (BuildLosesRefresh env db.config job db.enabledProviders) := by
  have hquiet : db.handledRefused job.versionId = false := by
    simp [Db.handledRefused, hv, hl]
  have hpack := packStep_run env job (Session.start db x)
  cases hp : job.packError env with
  | some e =>
    rw [hp] at hpack
    refine .bind_error hpack h hquiet fun hc => ?_
    have := hc.packed
    rw [hp] at this
    cases this
  | none =>
    rw [hp] at hpack
    refine .bind_ok hpack Iff.rfl ?_
    have hup := uploadStep_run env job db (job.packFiles env x)
    simp only [BuildJob.uploadError, archive_packed hp] at hup
    cases hu : env.fault .uploadFile with
    | some e =>
      rw [hu] at hup
      refine .bind_error hup h hquiet fun hc => ?_
      have := hc.uploaded
      rw [hu] at this
      cases this
    | none =>
      rw [hu] at hup
      refine .bind_ok hup Iff.rfl ?_
      have hb := BuildJob.builtRows_sound h hv hnew
      have hrow : (job.builtRows db).versions.lookup job.versionId =
          some (v.built job.s3Key job.publicUrl job.commitSha) := by
        simp [BuildJob.builtRows, hv]
      have hquiet' : (job.builtRows db).handledRefused job.versionId = false := by
        simp [Db.handledRefused, hrow, PluginVersion.built, hl]
      have hupd := updateStep_run env job
        { job.packFiles env x with bucket := job.uploadBucket env (job.packFiles env x) } h
      simp only [hv, hnew, Bool.false_eq_true, if_false, call_run] at hupd
      cases hf : env.fault (.refresh .updateVersionAfterBuild) with
      | some e =>
        rw [hf] at hupd
        refine .bind_error hupd hb hquiet' fun hc => ?_
        have := hc.updated
        rw [hf] at this
        cases this
      | none =>
        rw [hf] at hupd
        refine .bind_ok hupd Iff.rfl ?_
        refine .bind_ok (query_run (job.after .update) hb.constraints) ?_
          (scan_stops (job.after .update (job.builtRows db)) hb hrow hl)
        have hloaded : (job.after .update (job.builtRows db)).resultsLoaded =
            decide (job.plugin.status = .active) := by
          change (((job.builtRows db).plugins.lookup job.pluginId).any fun p =>
            p.status = .active) = _
          rw [show (job.builtRows db).plugins.lookup job.pluginId = some job.plugin from hplugin]
          rfl
        have hconfig : (job.builtRows db).config = db.config := rfl
        rw [Db.seesResults_iff, hloaded, hconfig]
        constructor
        · rintro ⟨hs, hsees⟩
          exact ⟨hs, by simpa using hsees, hcreated, hp, hu, hf⟩
        · intro hc
          exact ⟨hc.toScanLosesRefresh, by simpa using hc.seen⟩

/-- The handler settles what a program that stops leaves open. -/
theorem Stops.handled {w : Op Unit} {versionId : VersionId} {refused : Prop}
    (h : Stops w db x versionId refused) :
    ∃ s, (tryCatch w (buildFailed versionId)).after (Session.start db x) = s ∧
      s.committed.Sound ∧ (s.rejected = true ↔ refused) := by
  rcases h.ends with ⟨s, hrun, hr, hs, hno⟩ | ⟨e, p, c, x', hrun, hp, hc, hiff⟩
  · refine ⟨s, Work.after_of_run (.inl ⟨(), ?_⟩), hs, ?_⟩
    · rw [Work.try_run, hrun]
    · rw [hr]
      exact iff_of_false (by simp) hno
  · obtain ⟨e', s, hend, hrows, -, hr⟩ := buildFailed_ends (c := c) (x := x') (r := false) hp
      versionId e
    refine ⟨s, Work.after_of_run (.inr ⟨e', ?_⟩), ?_, ?_⟩
    · rw [Work.try_run, hrun]
      exact hend
    · rw [hrows]
      exact hp.handled hc versionId e
    · rw [hr, Bool.false_or]
      exact hiff

theorem buildStarted_commitTaken {now : Time} {pluginId : PluginId} {plugin : Plugin}
    {version : String} {commitSha : CommitSha} (h : db.hasCommit pluginId commitSha = false) :
    (db.buildStarted now pluginId plugin version).commitTaken db.nextId commitSha = false := by
  unfold Db.hasCommit at h
  rw [Option.isSome_eq_false_iff, Option.isNone_iff_eq_none] at h
  have hall := Table.first_none.mp h
  have hnone : (db.buildStarted now pluginId plugin version).versions.first (fun i w =>
      i ≠ db.nextId && w.pluginId = pluginId && w.sourceType = .gitAuto &&
        w.commitSha = some commitSha) = none := by
    refine Table.first_none.mpr fun i w hw => ?_
    rw [Db.buildStarted, Db.lookup_addVersion] at hw
    by_cases hi : i = db.nextId
    · simp [hi]
    · rw [if_neg hi] at hw
      have := hall i w hw
      simp only [hi, ne_eq, not_false_eq_true, decide_true, Bool.true_and]
      exact this
  have hrow : (db.buildStarted now pluginId plugin version).versions.lookup db.nextId =
      some (db.placeholder now pluginId plugin version) := by
    simp [Db.buildStarted]
  rw [Db.commitTaken, hrow, Option.any_some, Bool.and_eq_false_iff]
  exact .inr (congrArg Option.isSome hnone)

def Db.LosesBuild (db : Db) (env : Env) (pluginId : PluginId) (version : Option String) : Prop :=
  ∃ plugin inputs, db.plugins.lookup pluginId = some plugin ∧
    db.buildInputs env pluginId plugin version = .ok inputs ∧
    BuildLosesRefresh env db.config (db.buildJob env pluginId plugin inputs) db.enabledProviders

/-- A whole build task: the state it leaves is sound, and a commit is refused exactly in the
cases that `LosesBuild` lists. -/
theorem buildTask_handled (env : Env) (x : Outside) (h : db.Sound) (pluginId : PluginId)
    (version : Option String) :
    ∃ s, (buildTask env pluginId version).after (Session.start db x) = s ∧ s.committed.Sound ∧
      (s.rejected = true ↔ db.LosesBuild env pluginId version) := by
  have hget : (getPlugin pluginId).run (Session.start db x) =
      .ok (db.plugins.lookup pluginId) (Session.start db x) := getPlugin_run h.constraints _
  unfold Db.LosesBuild
  cases ha : db.plugins.lookup pluginId with
  | none =>
    refine ⟨Session.start db x, Work.after_of_run (.inl ⟨(), ?_⟩), h, ?_⟩
    · rw [buildTask, Work.bind_run, hget, ha]
      rfl
    · simp [Session.start]
  | some plugin =>
    have hown : (db.plugins.lookup pluginId).isSome := by rw [ha]; rfl
    have hrun := startBuild_run env x h plugin hown version
    have htask : (buildTask env pluginId version).after (Session.start db x) =
        (buildFromRepo env pluginId plugin version).after (Session.start db x) := by
      rw [ha] at hget
      exact (Work.after_bind_ok hget).trans (Work.after_discard ..)
    rw [htask]
    cases hin : db.buildInputs env pluginId plugin version with
    | error e =>
      rw [hin] at hrun
      refine ⟨Session.start db x, Work.after_of_run (.inr ⟨e, ?_⟩), h, ?_⟩
      · rw [buildFromRepo, Work.bind_run, hrun]
      · simp [Session.start, hin]
    | ok inputs =>
      rw [hin] at hrun
      have hstart := h.buildStarted plugin hown env.now inputs.1
      have hex : (∃ plugin' inputs', some plugin = some plugin' ∧
          db.buildInputs env pluginId plugin' version = .ok inputs' ∧
          BuildLosesRefresh env db.config (db.buildJob env pluginId plugin' inputs')
            db.enabledProviders) ↔
          BuildLosesRefresh env db.config (db.buildJob env pluginId plugin inputs)
            db.enabledProviders := by
        constructor
        · rintro ⟨_, _, heq, hin', hl⟩
          cases heq
          rw [hin] at hin'
          cases hin'
          exact hl
        · exact fun hl => ⟨plugin, inputs, rfl, hin, hl⟩
      rw [hex]
      cases hf : env.fault (.refresh .createVersion) with
      | some e =>
        rw [hf] at hrun
        refine ⟨Session.start (db.buildStarted env.now pluginId plugin inputs.1) x,
          Work.after_of_run (.inr ⟨e, ?_⟩), hstart, iff_of_false ?_ fun hc => ?_⟩
        · rw [buildFromRepo, Work.bind_run, hrun]
        · simp [Session.start]
        · have := hc.created
          rw [hf] at this
          cases this
      | none =>
        rw [hf] at hrun
        have hnew : db.hasCommit pluginId inputs.2 = false := Db.buildInputs_new hin
        have hstops := steps_stops (db.buildJob env pluginId plugin inputs)
          (x := x) (v := db.placeholder env.now pluginId plugin inputs.1) hstart
          (by simp [Db.buildStarted, Db.buildJob]) rfl (buildStarted_commitTaken hnew) ha hf
        obtain ⟨s, hafter, hs, hiff⟩ := hstops.handled
        exact ⟨s, ((Work.after_bind_ok hrun).trans (Work.after_bind_pure ..)).trans hafter, hs,
          hiff⟩

/-- The tasks that run into a constraint, by the state they start from and what
they are told. -/
def Task.RunsIntoConstraint (env : Env) (db : Db) : Task → Prop
  | .operation (.scanVersion versionId providers) => RescanWaits env db versionId providers
  | .operation (.pollVirustotalAnalysis versionId) =>
    ∃ v, db.versions.lookup versionId = some v ∧ PollWaits env db.config v
  | .operation _ => False
  | .build pluginId version => db.LosesBuild env pluginId version

theorem Operation.refused_iff (op : Operation) :
    op.refused env db = true ↔ (Task.operation op).RunsIntoConstraint env db := by
  cases op with
  | scanVersion versionId providers => exact scanRefused_iff
  | pollVirustotalAnalysis versionId => exact pollRefused_iff
  | createPlugin _ _ | setPluginStatus _ _ _ | deletePlugin _ | uploadVersion _ _ _ _
  | deleteVersion _ _ | setVersionStatus _ _ | setLatestVersion _ _ | publishPluginVersion _ _ _
  | markScanPending _ _ | markScanSkipped _ _ | setConfig _ =>
    exact iff_of_false (by simp [Operation.refused]) id

/-- From every reachable state, a task's commits are all admitted unless it is
one of those, and what it commits satisfies the constraints again. -/
theorem commits_admitted_iff {config : RuntimeConfig} {w : World}
    (hw : (service config).Reachable w) (task : Task) (env : Env) :
    ((task.perform env w.db w.outside).rejected = false ∧
        (task.perform env w.db w.outside).db.Constraints) ↔
      ¬ task.RunsIntoConstraint env w.db := by
  have hs := reachable_sound hw
  have hiff : ∀ {b : Bool} {p : Prop}, (b = true ↔ p) → (b = false ↔ ¬ p) := by
    intro b p h
    rw [← h, Bool.not_eq_true]
  cases task with
  | operation op =>
    have hp := op.performs env w.outside hs
    rw [Task.perform, hp.refused, hp.rows, and_iff_left (hs.operation op).constraints]
    exact hiff (op.refused_iff)
  | build pluginId version =>
    obtain ⟨s, hafter, hsound, href⟩ :=
      buildTask_handled env w.outside hs pluginId version
    rw [Task.perform, Work.perform_rejected, Work.perform_db, hafter,
      and_iff_left hsound.constraints]
    exact hiff href

def publishedRun : List Event :=
  [.perform (.createPlugin .demo "") (.calm 0),
    .perform (.uploadVersion 0 .demo [] "") (.calm 1),
    .perform (.scanVersion 1 none) (.calm 2),
    .perform (.publishPluginVersion 0 1 .approved) (.calm 3)]

def configWithVirustotal : RuntimeConfig :=
  { RuntimeConfig.default with
    virustotal := { RuntimeConfig.default.virustotal with apiKey := "key" } }

def queuedAnswer : ScanOutcome :=
  ⟨none, "queued", .pending, some "analysis", none, none, none, some 100, some 0⟩

def Env.queued (now : Time) : Env :=
  { Env.calm now with scanAnswer := fun _ => .ok queuedAnswer }

theorem commits_admitted_iff_published :
    ((Task.perform (.calm 4) (World.run configWithVirustotal publishedRun).db
        (World.run configWithVirustotal publishedRun).outside
        (.operation (.scanVersion 1 none))).rejected = false ∧
      (Task.perform (.calm 4) (World.run configWithVirustotal publishedRun).db
        (World.run configWithVirustotal publishedRun).outside
        (.operation (.scanVersion 1 none))).db.Constraints) ↔
      ¬ Task.RunsIntoConstraint (.calm 4) (World.run configWithVirustotal publishedRun).db
        (.operation (.scanVersion 1 none)) :=
  commits_admitted_iff (World.run_reachable _ _) (.operation (.scanVersion 1 none)) (.calm 4)

/-- Rescanning the published version while VirusTotal has only queued the file
makes the database refuse the commit. -/
theorem rescan_of_latest_rejected :
    ¬ ∀ (config : RuntimeConfig) (w : World), (service config).Reachable w →
      ∀ (task : Task) (env : Env), (task.perform env w.db w.outside).rejected = false ∧
        (task.perform env w.db w.outside).db.Constraints := by
  intro h
  have hno := (h configWithVirustotal _ (World.run_reachable _ publishedRun)
    (.operation (.scanVersion 1 none)) (.queued 4)).1
  revert hno
  decide +kernel

end PluginRegistry
