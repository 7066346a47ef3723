import PluginRegistry.Proofs.WorkerLoop

namespace PluginRegistry
open Lib

variable {env : Env} {db : Db} {x : Outside}

/-- No step of a build of this commit fails: every call goes through, the
repository is the plugin's, its archive fits, and every scanner answers. -/
structure Env.Smooth (env : Env) (cfg : RuntimeConfig) (plugin : Plugin) (commitSha : CommitSha) :
    Prop where
  repoUrl : truthy plugin.repoUrl = true
  faults : ∀ site, env.fault site = none
  metadata : ∃ metadata, env.metadata = .ok metadata ∧
    assertMetadataMatchesPlugin env metadata plugin = .ok ()
  commit : env.commitSha = .ok commitSha
  fits : (createZip env.checkout cfg.maxReleaseZipBytes).2 = none
  answers : ∀ p ∈ cfg.scanEnabledProviders, cfg.isConfigured p = true →
    ∃ o, env.scanAnswer p = .ok o

def Db.attempt (db : Db) (env : Env) (x : Outside) (pluginId : PluginId) (plugin : Plugin)
    (version : Option String) : Report PyErr Db Outside VersionId :=
  (buildFromRepo env pluginId plugin version).perform db x

def Db.Builds (db : Db) (report : Report PyErr Db Outside VersionId) (pluginId : PluginId)
    (commitSha : CommitSha) : Prop :=
  ∃ versionId v, report.outcome = .ok versionId ∧ db.versions.lookup versionId = none ∧
    report.db.versions.lookup versionId = some v ∧ v.pluginId = pluginId ∧
    v.commitSha = some commitSha ∧ (v.buildStatus = .success ∨ v.buildStatus = .scanning)

theorem Env.Smooth.buildInputs {plugin : Plugin} {commitSha : CommitSha}
    (hs : env.Smooth db.config plugin commitSha) (pluginId : PluginId) (version : Option String) :
    ∃ label, db.buildInputs env pluginId plugin version =
      if db.hasCommit pluginId commitSha then
        .error (conflict ("Commit " ++ textPrefix 12 commitSha.text ++
          " already exists for plugin " ++ plugin.pluginKey))
      else .ok (label, commitSha) := by
  obtain ⟨metadata, hm, hmatch⟩ := hs.metadata
  refine ⟨buildLabel version metadata, ?_⟩
  simp only [Db.buildInputs, hs.repoUrl, Bool.not_true, Bool.false_eq_true, if_false,
    hs.faults, hm, hmatch, hs.commit]

/-- Once a version of the plugin has the commit every later attempt raises an
error that no worker retries. -/
theorem attempt_refused (h : db.Sound) {pluginId : PluginId} {plugin : Plugin}
    (hown : (db.plugins.lookup pluginId).isSome) {commitSha : CommitSha}
    (hs : env.Smooth db.config plugin commitSha) (version : Option String)
    (hold : db.hasCommit pluginId commitSha = true) :
    ∃ e, (db.attempt env x pluginId plugin version).outcome = .error e ∧
      isRetryableTaskError e = false := by
  obtain ⟨label, hin⟩ := hs.buildInputs pluginId version
  have hrun := startBuild_run env x h plugin hown version
  rw [hin, if_pos hold] at hrun
  refine ⟨conflict ("Commit " ++ textPrefix 12 commitSha.text ++ " already exists for plugin " ++
    plugin.pluginKey), ?_, rfl⟩
  simp only [Db.attempt, Work.perform, buildFromRepo, Work.bind_run, hrun]

/-- An attempt to publish touches neither a version's origin nor, unless it
publishes, its build status, and takes the latest mark from no version it is for. -/
theorem Db.autoPublished_lookup {versionId : VersionId} {v : PluginVersion} (now : Time)
    (hv : db.versions.lookup versionId = some v) :
    ∃ w, (db.autoPublished now versionId).versions.lookup versionId = some w ∧
      w.origin = v.origin ∧ (w.buildStatus = v.buildStatus ∨ w.buildStatus = .success) ∧
      (v.isLatest = true → w.isLatest = true) := by
  simp only [Db.autoPublished, hv]
  split
  · rename_i hp
    have hsettled := (Db.autoPublishes_iff.mp hp).2
    rw [Db.passes, Bool.and_eq_true] at hsettled
    refine ⟨v.published v.pluginId now .skipped, ?_, v.published_origin .., .inr ?_, fun _ => rfl⟩
    · rw [(Db.published_rewritten ..).versions, hv, Option.map_some, if_pos rfl]
    · exact (v.activated.withoutLatest_buildStatus v.pluginId).trans
        (PluginVersion.settleBuild_success hsettled.1)
  · exact ⟨v, hv, rfl, .inl rfl, id⟩

theorem Db.afterScan_lookup {versionId : VersionId} {v : PluginVersion} (env : Env)
    (hv : db.versions.lookup versionId = some v) (outcomes : List (Provider × ScanOutcome)) :
    ∃ w, (db.afterScan env versionId outcomes).versions.lookup versionId = some w ∧
      w.origin = v.origin ∧ (w.buildStatus = v.buildStatus ∨ w.buildStatus = .success) ∧
      (v.isLatest = true → w.isLatest = true) := by
  unfold Db.afterScan
  split
  · exact Db.autoPublished_lookup env.now hv
  · exact ⟨v, hv, rfl, .inl rfl, id⟩

theorem Db.afterBuildScan_lookup {v : PluginVersion} (env : Env) (job : BuildJob)
    (hv : db.versions.lookup job.versionId = some v) (outcomes : List (Provider × ScanOutcome)) :
    ∃ w, (db.afterBuildScan env job outcomes).versions.lookup job.versionId = some w ∧
      w.origin = v.origin ∧ (w.buildStatus = v.buildStatus ∨ w.buildStatus = .success) ∧
      (v.isLatest = true → w.isLatest = true) := by
  rcases Db.afterBuildScan_cases db env job outcomes with h | h
  · rw [h]
    exact Db.afterScan_lookup env hv outcomes
  · rw [h]
    exact ⟨v, hv, rfl, .inl rfl, id⟩

theorem scanBuildStatus_cases (outcomes : List (Provider × ScanOutcome)) :
    PluginVersion.scanBuildStatus outcomes = .success ∨
      PluginVersion.scanBuildStatus outcomes = .scanning := by
  unfold PluginVersion.scanBuildStatus
  split
  · exact .inr rfl
  · exact .inl rfl

/-- A scan in which nothing fails ends well and leaves the build finished or
waiting for a result. -/
theorem scanStep_smooth (job : BuildJob) (h : db.Sound) {v : PluginVersion}
    (hv : db.versions.lookup job.versionId = some v) (hl : v.isLatest = false)
    (hfaults : ∀ site, env.fault site = none) (hans : Answered env db.config db.enabledProviders) :
    ∃ db' x' w, (job.step env .scan).run (Session.start db x) =
        .ok () (Session.start db' x') ∧ db'.versions.lookup job.versionId = some w ∧
      w.origin = v.origin ∧ (w.buildStatus = .success ∨ w.buildStatus = .scanning) := by
  obtain ⟨outcomes, ho⟩ := scanSelectedProviders_ok.mpr hans
  have hlate : ¬ (v.isLatest = true ∧ anyPending outcomes = true) := by simp [hl]
  have hrun := scanVersion_run env x h job.versionId none job.resultsLoaded
  have hsel : db.selectedProviders none = .ok db.enabledProviders := rfl
  simp only [hsel, hv, ho, if_neg hlate] at hrun
  have hdone := h.scanned env hv outcomes hlate
  have hrow := Db.scanned_lookup env.now hv outcomes
  obtain ⟨x', -, hafter⟩ := afterBuildScan_done env x hdone job hrow outcomes
  have herror : (db.scanned env.now job.versionId outcomes).afterBuildScanError env job outcomes =
      none := by
    simp [Db.afterBuildScanError, Db.afterScanError, Db.publishError, hfaults]
  rw [herror] at hafter
  obtain ⟨w, hw, horigin, hstatus, -⟩ := Db.afterBuildScan_lookup env job hrow outcomes
  refine ⟨_, x', w, hrun.trans hafter, hw, ?_, ?_⟩
  · exact horigin.trans (PluginVersion.origin_of_standing (v.scanned_standing env.now outcomes))
  · rw [PluginVersion.scanned_buildStatus _ (h.artifacts _ v hv)] at hstatus
    rcases hstatus with hstatus | hstatus
    · rw [hstatus]
      exact scanBuildStatus_cases outcomes
    · exact .inl hstatus

/-- The four steps of a build of a new commit in which nothing fails. -/
theorem steps_smooth (env : Env) (x : Outside) (job : BuildJob) (h : db.Sound) {v : PluginVersion}
    (hv : db.versions.lookup job.versionId = some v) (hl : v.isLatest = false)
    (hnew : db.commitTaken job.versionId job.commitSha = false)
    (hfaults : ∀ site, env.fault site = none) (hans : Answered env db.config db.enabledProviders)
    (hfits : (createZip job.checkout job.maxReleaseZipBytes).2 = none) :
    ∃ db' x' w, (job.steps env).run (Session.start db x) = .ok () (Session.start db' x') ∧
      db'.versions.lookup job.versionId = some w ∧
      w.origin = (v.built job.s3Key job.publicUrl job.commitSha).origin ∧
      (w.buildStatus = .success ∨ w.buildStatus = .scanning) := by
  have hp : job.packError env = none := by
    simp [BuildJob.packError, hfaults, hfits]
  have hpack := packStep_run env job (Session.start db x)
  rw [hp] at hpack
  have hup := uploadStep_run env job db (job.packFiles env x)
  simp only [BuildJob.uploadError, archive_packed hp, hfaults] at hup
  have hupd := updateStep_run env job
    { job.packFiles env x with bucket := job.uploadBucket env (job.packFiles env x) } h
  simp only [hv, hnew, Bool.false_eq_true, if_false, call_run, hfaults] at hupd
  have hb := BuildJob.builtRows_sound h hv hnew
  have hrow : (job.builtRows db).versions.lookup job.versionId =
      some (v.built job.s3Key job.publicUrl job.commitSha) := by
    simp [BuildJob.builtRows, hv]
  obtain ⟨db', x', w, hscan, hw⟩ := scanStep_smooth
    (x := { job.packFiles env x with bucket := job.uploadBucket env (job.packFiles env x) })
    (job.after .update (job.builtRows db)) hb hrow hl hfaults hans
  refine ⟨db', x', w, ?_, hw⟩
  have hpack' : (job.step env .pack).run (Session.start db x) =
      .ok () (Session.start db (job.packFiles env x)) := hpack
  have hload := query_run (c := job.builtRows db) (x := { job.packFiles env x with
    bucket := job.uploadBucket env (job.packFiles env x) }) (r := false) (job.after .update)
    hb.constraints
  simp only [BuildJob.steps, Work.bind_run, hpack', hup, hupd]
  rw [Session.start, hload]
  exact hscan

/-- An attempt without faults builds a commit that the plugin does not have. -/
theorem attempt_builds (h : db.Sound) {pluginId : PluginId} {plugin : Plugin}
    (hown : (db.plugins.lookup pluginId).isSome) {commitSha : CommitSha}
    (hs : env.Smooth db.config plugin commitSha) (version : Option String)
    (hnew : db.hasCommit pluginId commitSha = false) :
    db.Builds (db.attempt env x pluginId plugin version) pluginId commitSha := by
  obtain ⟨label, hin⟩ := hs.buildInputs pluginId version
  rw [hnew] at hin
  have hrun := startBuild_run env x h plugin hown version
  simp only [hin, Bool.false_eq_true, if_false, hs.faults] at hrun
  have hstart := h.buildStarted plugin hown env.now label
  let job := db.buildJob env pluginId plugin (label, commitSha)
  have hans : Answered env db.config db.enabledProviders := by
    intro p hp
    exact hs.answers p (List.contains_iff_mem.mp (List.mem_filter.mp hp).2)
  obtain ⟨db', x', w, hsteps, hw, horigin, hstatus⟩ := steps_smooth env x job hstart
    (v := db.placeholder env.now pluginId plugin label)
    (by simp [Db.buildStarted, job, Db.buildJob]) rfl (buildStarted_commitTaken hnew) hs.faults hans
    hs.fits
  have hfrom : (buildFromRepo env pluginId plugin version).run (Session.start db x) =
      .ok job.versionId (Session.start db' x') := by
    have htry : (tryCatch (job.steps env) (buildFailed job.versionId)).run
        (Session.start (db.buildStarted env.now pluginId plugin label) x) =
        .ok () (Session.start db' x') := by
      rw [Work.try_run, hsteps]
    rw [buildFromRepo, Work.bind_run, hrun]
    change ((tryCatch (job.steps env) (buildFailed job.versionId)) >>= fun _ =>
      pure job.versionId).run _ = _
    rw [Work.bind_run, htry]
    rfl
  have hrecord : w.pluginId = pluginId ∧ w.commitSha = some commitSha :=
    ⟨congrArg Origin.pluginId horigin, congrArg Origin.commitSha horigin⟩
  refine ⟨job.versionId, w, ?_, (h.numbered _ (Nat.le_refl _)).1, ?_, hrecord.1, hrecord.2, hstatus⟩
  · rw [Db.attempt, Work.perform, hfrom]
  · rw [Db.attempt, Work.perform, hfrom]
    exact hw

/-- In every reachable state, after whatever failed attempts, an attempt in which
no step fails builds the commit exactly when no version of the plugin has been
given the commit before. -/
theorem retry_converges_iff {config : RuntimeConfig} {w : World}
    (hw : (service config).Reachable w) {pluginId : PluginId} {plugin : Plugin}
    (hp : w.db.plugins.lookup pluginId = some plugin) {commitSha : CommitSha} {env : Env}
    (hs : env.Smooth w.db.config plugin commitSha) (version : Option String) :
    w.db.Builds (w.db.attempt env w.outside pluginId plugin version) pluginId commitSha ↔
      w.db.hasCommit pluginId commitSha = false := by
  have h := reachable_sound hw
  have hown : (w.db.plugins.lookup pluginId).isSome := by rw [hp]; rfl
  constructor
  · rintro ⟨versionId, v, hok, -⟩
    rw [← Bool.not_eq_true]
    intro hold
    obtain ⟨e, he, -⟩ := attempt_refused (x := w.outside) h hown hs version hold
    rw [he] at hok
    cases hok
  · exact attempt_builds h hown hs version

theorem Env.calm_smooth (now : Time) (cfg : RuntimeConfig) {plugin : Plugin}
    (hrepo : truthy plugin.repoUrl = true) (hkey : plugin.pluginKey = "demo")
    (hauthor : plugin.author = "alice") : (Env.calm now).Smooth cfg plugin .zero where
  repoUrl := hrepo
  faults := fun _ => rfl
  metadata := by
    refine ⟨.demo, rfl, ?_⟩
    have hname : inferPluginKey (.calm now) "demo" = "demo" := by
      simp only [inferPluginKey, Env.calm]
      decide +kernel
    simp [assertMetadataMatchesPlugin, hname, hkey, hauthor, PluginMetadata.demo]
  commit := rfl
  fits := rfl
  answers := fun _ _ _ => ⟨_, rfl⟩

def Env.failing (now : Time) (site : Site) : Env :=
  { Env.calm now with
    fault := fun s => if s = site then some ⟨.osError, "connection reset", 0⟩ else none }

def failedUploadRun : List Event :=
  [.perform (.createPlugin .demo "") (.calm 0), .startBuild 0 none (.calm 1),
    .advance 1 (.calm 2), .advance 1 (.failing 3 .uploadFile)]

def failedScanRun : List Event :=
  [.perform (.createPlugin .demo "") (.calm 0), .startBuild 0 none (.calm 1),
    .advance 1 (.calm 2), .advance 1 (.calm 3), .advance 1 (.calm 4),
    .advance 1 (.failing 5 (.refresh .scanVersion))]

theorem retry_converges_iff_upload :
    (World.run .default failedUploadRun).db.Builds
      ((World.run .default failedUploadRun).db.attempt (.calm 4)
        (World.run .default failedUploadRun).outside 0 (.new "demo" .demo "") none) 0 .zero ↔
      (World.run .default failedUploadRun).db.hasCommit 0 .zero = false :=
  retry_converges_iff (World.run_reachable _ _) (by rfl)
    (Env.calm_smooth 4 _ (by decide) rfl rfl) none

/-- The failed scan has left the commit on its row, and the next attempt, in
which nothing fails, is refused. -/
theorem failed_scan_blocks_commit :
    ¬ ∀ (config : RuntimeConfig) (w : World), (service config).Reachable w →
      ∀ (pluginId : PluginId) (plugin : Plugin), w.db.plugins.lookup pluginId = some plugin →
      ∀ commitSha : CommitSha, (∀ i v, w.db.versions.lookup i = some v →
        v.pluginId = pluginId → v.commitSha = some commitSha → v.buildStatus = .failed) →
      ∀ (env : Env) (version : Option String), env.Smooth w.db.config plugin commitSha →
        w.db.Builds (w.db.attempt env w.outside pluginId plugin version) pluginId commitSha := by
  intro h
  have hfailed : ∀ i v, (World.run .default failedScanRun).db.versions.lookup i = some v →
      v.pluginId = 0 → v.commitSha = some CommitSha.zero → v.buildStatus = .failed := by
    decide +kernel
  have hsmooth : (Env.calm 6).Smooth (World.run .default failedScanRun).db.config
      (.new "demo" .demo "") .zero := Env.calm_smooth 6 _ (by decide) rfl rfl
  have hbuilds := h .default _ (World.run_reachable _ failedScanRun) 0 (.new "demo" .demo "")
    (by rfl) .zero hfailed (.calm 6) none hsmooth
  obtain ⟨versionId, v, hok, -⟩ := hbuilds
  have hold : (World.run .default failedScanRun).db.hasCommit 0 .zero = true := by
    decide +kernel
  obtain ⟨e, he, -⟩ := attempt_refused (x := (World.run .default failedScanRun).outside)
    (reachable_sound (World.run_reachable .default failedScanRun)) (by rfl) hsmooth none hold
  rw [he] at hok
  cases hok

end PluginRegistry
