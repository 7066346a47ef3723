import PluginRegistry.Proofs.Retries

namespace PluginRegistry
open Lib

variable {env : Env} {db p c : Db} {x : Outside} {r : Bool} {job : BuildJob}

/-- The committed row says that the build has failed and why, and the caller
sees the error that the step raised. -/
structure FailureRecorded {α : Type} (report : Report PyErr Db Outside α) (versionId : VersionId)
    (e : PyErr) : Prop where
  raised : report.outcome = .error e
  row : ∃ v, report.db.versions.lookup versionId = some v ∧ v.buildStatus = .failed ∧
    v.buildLog = some e.text

/-- The rows under which the handler can record what a step raises: the version
is still there and not the latest one, no other build has taken the commit, and
the scan does not publish the version and then fail to re-read it. -/
def BuildJob.Recordable (job : BuildJob) (env : Env) (db : Db) (step : BuildStep) : Prop :=
  (∃ v, db.versions.lookup job.versionId = some v ∧ v.isLatest = false) ∧
    match step with
    | .pack | .upload => True
    | .update => db.commitTaken job.versionId job.commitSha = false
    | .scan => ¬ ScanLosesRefresh env db.config db.enabledProviders

theorem buildFailed_perform {w : Op Unit} {e e' : PyErr} {s s' : Session Db Outside}
    {versionId : VersionId} (h : w.run (Session.start db x) = .error e s)
    (hf : (buildFailed versionId e).run s = .error e' s') :
    ((tryCatch w (buildFailed versionId)).perform db x).outcome = .error e' ∧
      ((tryCatch w (buildFailed versionId)).perform db x).db = s'.committed := by
  have hrun : (tryCatch w (buildFailed versionId)).run (Session.start db x) = .error e' s' := by
    rw [Work.try_run, h]
    exact hf
  simp only [Work.perform, hrun, and_self]

/-- From a session that is not broken the handler succeeds exactly when the row
it finds is there and not the latest one. -/
theorem handled_recorded {w : Op Unit} {e : PyErr} {versionId : VersionId} {x' : Outside}
    (hp : p.Sound) (hc : c.Sound)
    (hpc : (c.versions.lookup versionId).map (·.isLatest) =
      (p.versions.lookup versionId).map (·.isLatest))
    (h : w.run (Session.start db x) = .error e ⟨p, c, x', false, r⟩) :
    FailureRecorded ((tryCatch w (buildFailed versionId)).perform db x) versionId e ↔
      ∃ v, p.versions.lookup versionId = some v ∧ v.isLatest = false := by
  cases hv : p.versions.lookup versionId with
  | none =>
    obtain ⟨-, hdb⟩ := buildFailed_perform h (buildFailed_missing hv)
    constructor
    · rintro ⟨-, v, hrow, -⟩
      rw [hdb] at hrow
      rw [hv, Option.map_none, Option.map_eq_none_iff] at hpc
      rw [hpc] at hrow
      cases hrow
    · rintro ⟨v, hrow, -⟩
      cases hrow
  | some v =>
    cases hl : v.isLatest with
    | true =>
      obtain ⟨-, hdb⟩ := buildFailed_perform h (buildFailed_refused hv hl)
      constructor
      · rintro ⟨-, u, hrow, hfailed, -⟩
        rw [hdb] at hrow
        change c.versions.lookup versionId = some u at hrow
        rw [hv, hrow, Option.map_some, Option.map_some, Option.some.injEq, hl] at hpc
        have hsuccess := ((hc.constraints.checked _ _ hrow).latestActiveSuccess hpc).2
        rw [hfailed] at hsuccess
        cases hsuccess
      · rintro ⟨u, hrow, hno⟩
        cases hrow
        rw [hl] at hno
        cases hno
    | false =>
      obtain ⟨hout, hdb⟩ := buildFailed_perform h
        (buildFailed_run hv (hp.failedWith hv hl e).constraints)
      refine iff_of_true ⟨hout, v.failedWith e, ?_, rfl, rfl⟩ ⟨v, rfl, hl⟩
      rw [hdb]
      simp [hv]

/-- From a broken session the handler raises an error of its own. -/
theorem broken_not_recorded {w : Op Unit} {e : PyErr} {versionId : VersionId} {x' : Outside}
    (hne : e ≠ Schema.inactive Db)
    (h : w.run (Session.start db x) = .error e ⟨p, c, x', true, r⟩) :
    ¬ FailureRecorded ((tryCatch w (buildFailed versionId)).perform db x) versionId e := by
  rintro ⟨hraised, -⟩
  obtain ⟨hout, -⟩ := buildFailed_perform h buildFailed_broken
  rw [hout] at hraised
  cases hraised
  exact hne rfl

variable {e : PyErr} {s : Session Db Outside}

theorem packStep_recorded_iff (h : db.Sound)
    (hrun : (job.step env .pack).run (Session.start db x) = .error e s) :
    FailureRecorded ((job.guarded env .pack).perform db x) job.versionId e ↔
      job.Recordable env db .pack := by
  have hpack := packStep_run env job (Session.start db x)
  rw [hrun] at hpack
  rw [BuildJob.Recordable, and_iff_left trivial]
  cases he : job.packError env with
  | none =>
    rw [he] at hpack
    cases hpack
  | some e' =>
    rw [he] at hpack
    cases hpack
    exact handled_recorded h h rfl hrun

theorem uploadStep_recorded_iff (h : db.Sound)
    (hrun : (job.step env .upload).run (Session.start db x) = .error e s) :
    FailureRecorded ((job.guarded env .upload).perform db x) job.versionId e ↔
      job.Recordable env db .upload := by
  have hup := uploadStep_run env job db x
  rw [hrun] at hup
  rw [BuildJob.Recordable, and_iff_left trivial]
  cases he : job.uploadError env x with
  | none =>
    rw [he] at hup
    cases hup
  | some e' =>
    rw [he] at hup
    cases hup
    exact handled_recorded h h rfl hrun

/-- Another build of the commit makes the flush of this one fail, and a session
whose flush has failed commits nothing more. -/
theorem updateStep_recorded_iff (h : db.Sound)
    (hrun : (job.step env .update).run (Session.start db x) = .error e s) :
    FailureRecorded ((job.guarded env .update).perform db x) job.versionId e ↔
      job.Recordable env db .update := by
  have hupd := updateStep_run env job x h
  rw [hrun] at hupd
  unfold BuildJob.Recordable
  cases hv : db.versions.lookup job.versionId with
  | none =>
    rw [hv] at hupd
    cases hupd
    refine iff_of_false (broken_not_recorded (by decide) hrun) ?_
    rintro ⟨⟨v, hrow, -⟩, -⟩
    cases hrow
  | some v =>
    rw [hv] at hupd
    dsimp only at hupd
    by_cases hold : db.commitTaken job.versionId job.commitSha = true
    · rw [if_pos hold] at hupd
      cases hupd
      refine iff_of_false (broken_not_recorded (by decide) hrun) ?_
      rintro ⟨-, hnew⟩
      rw [hold] at hnew
      cases hnew
    · rw [if_neg hold, call_run] at hupd
      rw [Bool.not_eq_true] at hold
      have hb := BuildJob.builtRows_sound h hv hold
      rw [and_iff_left hold]
      cases hf : env.fault (.refresh .updateVersionAfterBuild) with
      | none =>
        rw [hf] at hupd
        cases hupd
      | some e' =>
        rw [hf] at hupd
        cases hupd
        refine (handled_recorded hb hb rfl hrun).trans ?_
        simp [BuildJob.builtRows, hv, PluginVersion.built]

theorem Db.scanOpened_lookup {versionId : VersionId} {v : PluginVersion} (now : Time)
    (hv : db.versions.lookup versionId = some v) :
    ((db.scanOpened now versionId v).versions.lookup versionId).map (·.isLatest) =
      some v.isLatest := by
  unfold Db.scanOpened
  split
  · rw [Db.lookup_modifyVersion, hv, Option.map_some, Option.map_some, if_pos rfl,
      PluginVersion.isLatest_of_standing (v.beginScan_standing now)]
  · rw [hv, Option.map_some]

/-- Where a build's scan raises, it does not lose its version unseen: a hook that sees no
result is refused without raising. -/
theorem afterBuildScanError_seen {outcomes : List (Provider × ScanOutcome)}
    (hans : scanSelectedProviders env db.config db.enabledProviders = .ok outcomes)
    (hlose : ScanLosesRefresh env db.config db.enabledProviders)
    (he : (p.afterBuildScanError env job outcomes).isSome) :
    p.seesResults job.resultsLoaded = true := by
  have hsettled : ¬ (followupTask env outcomes).isSome = true := fun hf =>
    hlose.settled ((followupTask_iff hans).mp hf)
  cases hsees : p.seesResults job.resultsLoaded with
  | true => rfl
  | false =>
    simp [Db.afterBuildScanError, hsees, hsettled, hlose.refreshed] at he

/-- The scan step, the last that can raise: its failure is lost where the version became the
latest before. -/
theorem scanStep_recorded_iff (h : db.Sound)
    (hrun : (job.step env .scan).run (Session.start db x) = .error e s) :
    FailureRecorded ((job.guarded env .scan).perform db x) job.versionId e ↔
      job.Recordable env db .scan := by
  have hscan := scanVersion_run env x h job.versionId none job.resultsLoaded
  have hsel : db.selectedProviders none = .ok db.enabledProviders := rfl
  change (scanVersion env job.versionId none job.resultsLoaded).run (Session.start db x) =
    .error e s at hrun
  rw [hsel, hrun] at hscan
  unfold BuildJob.Recordable
  cases hv : db.versions.lookup job.versionId with
  | none =>
    rw [hv] at hscan
    cases hscan
    refine (handled_recorded h h rfl hrun).trans (iff_of_false ?_ ?_)
    · rintro ⟨v, hrow, -⟩
      rw [hv] at hrow
      cases hrow
    · rintro ⟨⟨v, hrow, -⟩, -⟩
      cases hrow
  | some v =>
    rw [hv] at hscan
    dsimp only at hscan
    have hlatest : (∃ u, some v = some u ∧ u.isLatest = false) ↔ v.isLatest = false := by simp
    rw [hlatest]
    cases hans : scanSelectedProviders env db.config db.enabledProviders with
    | error broken =>
      rw [hans] at hscan
      cases hscan
      have hopen : (db.modifyVersion job.versionId (·.beginScan env.now)).Sound :=
        h.beginScan env.now
      have hrow : (db.modifyVersion job.versionId (·.beginScan env.now)).versions.lookup
          job.versionId = some (v.beginScan env.now) := by simp [hv]
      have hsame := PluginVersion.isLatest_of_standing (v.beginScan_standing env.now)
      have hsaved := Db.scanOpened_lookup env.now hv
      rw [← hsame, ← Option.map_some (f := fun u : PluginVersion => u.isLatest), ← hrow] at hsaved
      refine (handled_recorded hopen (h.scanOpened env.now job.versionId v) hsaved hrun).trans ?_
      simp only [hrow, Option.some.injEq, exists_eq_left', hsame]
      refine (and_iff_left fun hlose => ?_).symm
      obtain ⟨outcomes, ho⟩ := scanSelectedProviders_ok.mpr hlose.answered
      rw [hans] at ho
      cases ho
    | ok outcomes =>
      rw [hans] at hscan
      dsimp only at hscan
      by_cases hlate : v.isLatest = true ∧ anyPending outcomes = true
      · rw [if_pos hlate] at hscan
        cases hscan
        refine iff_of_false (broken_not_recorded (by decide) hrun) ?_
        rintro ⟨hno, -⟩
        rw [hlate.1] at hno
        cases hno
      · rw [if_neg hlate] at hscan
        have hdone := h.scanned env hv outcomes hlate
        have hscanned := Db.scanned_lookup env.now hv outcomes
        obtain ⟨x', -, hafter⟩ := afterBuildScan_done env x hdone job hscanned outcomes
        rw [hafter] at hscan
        cases he : (db.scanned env.now job.versionId outcomes).afterBuildScanError env job
            outcomes with
        | none =>
          rw [he] at hscan
          cases hscan
        | some broken =>
          rw [he] at hscan
          cases hscan
          have hrows := hdone.afterBuildScan env job outcomes
          refine (handled_recorded hrows hrows rfl hrun).trans ?_
          have hsame := PluginVersion.isLatest_of_standing (v.scanned_standing env.now outcomes)
          obtain ⟨w, hw, -, -, hkept⟩ := Db.afterBuildScan_lookup env job hscanned outcomes
          simp only [hw, Option.some.injEq, exists_eq_left']
          cases hl : v.isLatest with
          | true =>
            have hmark := hkept (hsame.trans hl)
            simp [hmark]
          | false =>
            have hlose := buildScan_loses job h hv hl hans
            have hraised : ((db.scanned env.now job.versionId outcomes).afterBuildScanError env job
                outcomes).isSome = true := by rw [he]; rfl
            have hseen (hc : ScanLosesRefresh env db.config db.enabledProviders) :
                db.seesResults job.resultsLoaded = true :=
              afterBuildScanError_seen (p := db.scanned env.now job.versionId outcomes) hans hc
                hraised
            rw [and_iff_left_of_imp hseen] at hlose
            rw [he, Db.handledRefused, hw] at hlose
            simp only [Option.any_some, Option.isSome_some, and_true] at hlose
            rw [← hlose, Bool.not_eq_true]
            exact (and_iff_right rfl).symm

/-- A step that raises is recorded exactly under its condition. -/
theorem step_recorded_iff (h : db.Sound) {step : BuildStep}
    (hrun : (job.step env step).run (Session.start db x) = .error e s) :
    FailureRecorded ((job.guarded env step).perform db x) job.versionId e ↔
      job.Recordable env db step := by
  cases step with
  | pack => exact packStep_recorded_iff h hrun
  | upload => exact uploadStep_recorded_iff h hrun
  | update => exact updateStep_recorded_iff h hrun
  | scan => exact scanStep_recorded_iff h hrun

/-- A build whose version is created but cannot be re-read never reaches the handler. -/
theorem startBuild_not_recorded (h : db.Sound) {pluginId : PluginId} {plugin : Plugin}
    (hown : (db.plugins.lookup pluginId).isSome) {version : Option String}
    (hrun : (startBuild env pluginId plugin version).run (Session.start db x) = .error e s)
    (hnew : s.committed.nextId ≠ db.nextId) :
    ¬ FailureRecorded ((startBuild env pluginId plugin version).perform db x) db.nextId e := by
  rintro ⟨-, v, hrow, hfailed, -⟩
  have hstart := startBuild_run env x h plugin hown version
  rw [hrun] at hstart
  have hdb : ((startBuild env pluginId plugin version).perform db x).db = s.committed := by
    simp only [Work.perform, hrun]
  rw [hdb] at hrow
  cases hin : db.buildInputs env pluginId plugin version with
  | error broken =>
    rw [hin] at hstart
    cases hstart
    exact hnew rfl
  | ok inputs =>
    rw [hin] at hstart
    cases hf : env.fault (.refresh .createVersion) with
    | none =>
      rw [hf] at hstart
      cases hstart
    | some broken =>
      rw [hf] at hstart
      cases hstart
      have hbuilding : (db.buildStarted env.now pluginId plugin inputs.1).versions.lookup db.nextId =
          some (db.placeholder env.now pluginId plugin inputs.1) := by
        simp [Db.buildStarted]
      have heq := Option.some.inj (hbuilding.symm.trans hrow)
      rw [← heq] at hfailed
      cases hfailed

namespace World

def StepRaises (w : World) (build : Build) (env : Env) (e : PyErr) : Prop :=
  ∃ s, (build.job.step env build.next).run (Session.start w.db w.outside) = .error e s

def stepReport (w : World) (build : Build) (env : Env) : Report PyErr Db Outside Unit :=
  (build.job.guarded env build.next).perform w.db w.outside

def StartRaises (w : World) (pluginId : PluginId) (plugin : Plugin) (version : Option String)
    (env : Env) (e : PyErr) : Prop :=
  ∃ s, (PluginRegistry.startBuild env pluginId plugin version).run
    (Session.start w.db w.outside) = .error e s ∧ s.committed.nextId ≠ w.db.nextId

def startReport (w : World) (pluginId : PluginId) (plugin : Plugin) (version : Option String)
    (env : Env) : Report PyErr Db Outside BuildJob :=
  (PluginRegistry.startBuild env pluginId plugin version).perform w.db w.outside

end World

def raceRun : List Event :=
  [.perform (.createPlugin .demo "") (.calm 0), .startBuild 0 none (.calm 1),
    .startBuild 0 none (.calm 2), .advance 1 (.calm 3), .advance 1 (.calm 4),
    .advance 1 (.calm 5), .advance 2 (.calm 6), .advance 2 (.calm 7)]

end PluginRegistry
