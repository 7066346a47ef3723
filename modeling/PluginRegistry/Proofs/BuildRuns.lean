import PluginRegistry.Proofs.ScanOutcomes

namespace PluginRegistry
open Lib

variable {env : Env} {db p c : Db} {x : Outside} {r : Bool}

def Db.placeholder (db : Db) (now : Time) (pluginId : PluginId) (plugin : Plugin)
    (version : String) : PluginVersion :=
  let s3Key := buildS3KeyWithLayout plugin version .gitAuto none db.config.s3Layout
  .new now pluginId version (some s3Key)
    (some (buildPublicUrlWithBase s3Key db.config.s3PublicUrl)) .gitAuto none .building

def PluginVersion.built (v : PluginVersion) (s3Key downloadUrl : String) (commitSha : CommitSha) :
    PluginVersion :=
  { v with
    s3Key := some s3Key
    downloadUrl := some downloadUrl
    commitSha := some commitSha
    buildStatus := .success }

def PluginVersion.failedWith (v : PluginVersion) (exc : PyErr) : PluginVersion :=
  { v with buildStatus := .failed, buildLog := some exc.text }

theorem truthy_iff {s : String} : truthy (some s) = true ↔ s ≠ "" := by
  rw [truthy, Bool.not_eq_true', Bool.eq_false_iff, ne_eq, String.isEmpty_iff]

theorem truthy_s3Key (plugin : Plugin) (version : String) (sourceType : SourceType)
    (commitSha : Option CommitSha) (layout : S3Layout) :
    truthy (some (buildS3KeyWithLayout plugin version sourceType commitSha layout)) = true := by
  rw [truthy_iff]
  simp [buildS3KeyWithLayout]

theorem truthy_publicUrl (s3Key publicUrl : String) :
    truthy (some (buildPublicUrlWithBase s3Key publicUrl)) = true := by
  rw [truthy_iff]
  simp [buildPublicUrlWithBase]

/-- A commit another version of the plugin already has is never built again. -/
theorem Db.Sound.built (h : db.Sound) {versionId : VersionId} {v : PluginVersion}
    (hv : db.versions.lookup versionId = some v) {s3Key downloadUrl : String}
    (hkey : truthy (some s3Key) = true)
    (hurl : truthy (some downloadUrl) = true) {commitSha : CommitSha}
    (hnew : v.sourceType = .gitAuto → ∀ i w, db.versions.lookup i = some w → i ≠ versionId →
      w.pluginId = v.pluginId → w.sourceType = .gitAuto → w.commitSha ≠ some commitSha) :
    (db.modifyVersion versionId (·.built s3Key downloadUrl commitSha)).Sound := by
  let f := fun i (w : PluginVersion) =>
    if i = versionId then w.built s3Key downloadUrl commitSha else w
  have hrow : ∀ i w, db.versions.lookup i = some w → i = versionId → w = v := by
    rintro i w hw rfl
    exact Option.some.inj (hw.symm.trans hv)
  have hart : (v.built s3Key downloadUrl commitSha).hasArtifact = true := by
    rw [PluginVersion.hasArtifact, Bool.and_eq_true]
    exact ⟨hkey, hurl⟩
  have hlook : ∀ i w', (db.modifyVersion versionId
      (·.built s3Key downloadUrl commitSha)).versions.lookup i = some w' →
      ∃ w, db.versions.lookup i = some w ∧ w' = f i w := by
    intro i w' hw'
    rw [Db.lookup_modifyVersion] at hw'
    obtain ⟨w, hw, rfl⟩ := Option.map_eq_some_iff.mp hw'
    exact ⟨w, hw, rfl⟩
  have hlatest : ∀ i w, (f i w).isLatest = w.isLatest := by
    intro i w
    dsimp only [f]
    split <;> rfl
  have hpid : ∀ i w, (f i w).pluginId = w.pluginId := by
    intro i w
    dsimp only [f]
    split <;> rfl
  refine ⟨?_, ?_, ?_, ?_⟩
  · refine h.constraints.rewrite (f := f) (g := fun _ a => a) ⟨fun i => by simp [f], fun p => by simp⟩
      (fun i w _ => hpid i w) (fun _ _ _ => rfl) ?_ ?_
    · intro i w hw
      by_cases hi : i = versionId
      · obtain rfl := hrow i w hw hi
        simp only [f, hi, if_true]
        exact PluginVersion.checked_of_artifact hart fun hl =>
          ⟨((h.constraints.checked i w hw).latestActiveSuccess hl).1, rfl⟩
      · simp only [f, hi, if_false]
        exact h.constraints.checked i w hw
    · intro i w hw j u hu hij
      refine ⟨?_, ?_⟩
      · rw [hpid, hpid, hlatest, hlatest]
        exact (h.constraints.apart i w hw j u hu hij).latest
      · by_cases hi : i = versionId
        · obtain rfl := hrow i w hw hi
          have hj : j ≠ versionId := fun hj => hij (hi.trans hj.symm)
          simp only [f, hi, hj, if_true, if_false]
          intro hp hself hs _ hc
          exact hnew hself j u hu hj hp.symm hs hc.symm
        · by_cases hj : j = versionId
          · obtain rfl := hrow j u hu hj
            simp only [f, hi, hj, if_true, if_false]
            intro hp hs hself _ hc
            exact hnew hself i w hw hi hp hs hc
          · simp only [f, hi, hj, if_false]
            exact (h.constraints.apart i w hw j u hu hij).commit
  · intro i w' hw'
    obtain ⟨w, hw, rfl⟩ := hlook i w' hw'
    by_cases hi : i = versionId
    · obtain rfl := hrow i w hw hi
      simpa only [f, hi, if_true] using hart
    · simpa only [f, hi, if_false] using h.artifacts i w hw
  · intro i w' hw' hl' a ha
    obtain ⟨w, hw, rfl⟩ := hlook i w' hw'
    rw [hpid] at ha
    exact h.shown i w hw ((hlatest i w).symm.trans hl') a ha
  · intro i hi
    obtain ⟨hv', hp'⟩ := h.numbered i hi
    exact ⟨by simp [hv'], hp'⟩

theorem Db.Sound.failedWith (h : db.Sound) {versionId : VersionId} {v : PluginVersion}
    (hv : db.versions.lookup versionId = some v) (hl : v.isLatest = false) (exc : PyErr) :
    (db.modifyVersion versionId (·.failedWith exc)).Sound :=
  h.scanWrite (fun _ => rfl) fun w hw hlw => by
    obtain rfl := Option.some.inj (hv.symm.trans hw)
    simp [hl] at hlw

theorem Db.failedWith_refused {versionId : VersionId} {v : PluginVersion}
    (hv : db.versions.lookup versionId = some v) (hl : v.isLatest = true) (exc : PyErr) :
    ¬ (db.modifyVersion versionId (·.failedWith exc)).Constraints :=
  Db.Sound.scanWrite_refused (fun _ => rfl) hv hl fun hb => by cases hb

def buildLabel (version : Option String) (metadata : PluginMetadata) : String :=
  if truthy version then version.getD "" else metadata.version

def Db.hasCommit (db : Db) (pluginId : PluginId) (commitSha : CommitSha) : Bool :=
  (db.versions.first fun _ v =>
    v.pluginId = pluginId && v.sourceType = .gitAuto && v.commitSha = some commitSha).isSome

def Db.buildInputs (db : Db) (env : Env) (pluginId : PluginId) (plugin : Plugin)
    (version : Option String) : Except PyErr (String × CommitSha) :=
  if !truthy plugin.repoUrl then .error (invalidState "Plugin has no repository URL")
  else match env.fault .preflightRepoSize, env.fault .cloneRepo with
    | some e, _ => .error e
    | none, some e => .error e
    | none, none => match env.metadata with
      | .error e => .error e
      | .ok metadata => match assertMetadataMatchesPlugin env metadata plugin with
        | .error e => .error e
        | .ok _ => match env.commitSha with
          | .error e => .error e
          | .ok commitSha =>
            if db.hasCommit pluginId commitSha then
              .error (conflict ("Commit " ++ textPrefix 12 commitSha.text ++
                " already exists for plugin " ++ plugin.pluginKey))
            else .ok (buildLabel version metadata, commitSha)

/-- A build starts only from a commit that no version of the plugin has. -/
theorem Db.buildInputs_new {pluginId : PluginId} {plugin : Plugin} {version : Option String}
    {inputs : String × CommitSha}
    (h : db.buildInputs env pluginId plugin version = .ok inputs) :
    db.hasCommit pluginId inputs.2 = false := by
  unfold Db.buildInputs at h
  split at h
  · cases h
  · split at h
    · cases h
    · cases h
    · split at h
      · cases h
      · split at h
        · cases h
        · split at h
          · cases h
          · split at h
            · cases h
            · rename_i hnew
              cases h
              rwa [Bool.not_eq_true] at hnew

def Db.buildJob (db : Db) (env : Env) (pluginId : PluginId) (plugin : Plugin)
    (inputs : String × CommitSha) : BuildJob where
  pluginId
  plugin
  versionId := db.nextId
  version := inputs.1
  commitSha := inputs.2
  checkout := env.checkout
  s3Layout := db.config.s3Layout
  s3PublicUrl := db.config.s3PublicUrl
  maxReleaseZipBytes := db.config.maxReleaseZipBytes
  resultsLoaded := false

def Db.buildStarted (db : Db) (now : Time) (pluginId : PluginId) (plugin : Plugin)
    (version : String) : Db :=
  db.addVersion (db.placeholder now pluginId plugin version)

theorem Db.Sound.buildStarted (h : db.Sound) {pluginId : PluginId} (plugin : Plugin)
    (hown : (db.plugins.lookup pluginId).isSome) (now : Time) (version : String) :
    (db.buildStarted now pluginId plugin version).Sound := by
  refine h.addVersion hown ?_ rfl rfl
  rw [PluginVersion.hasArtifact, Bool.and_eq_true]
  exact ⟨truthy_s3Key .., truthy_publicUrl ..⟩

/-- The first step of a build as one run. -/
theorem startBuild_run (env : Env) (x : Outside) (h : db.Sound) {pluginId : PluginId} (plugin : Plugin)
    (hown : (db.plugins.lookup pluginId).isSome) (version : Option String) :
    (startBuild env pluginId plugin version).run (Session.start db x) =
      match db.buildInputs env pluginId plugin version with
      | .error e => .error e (Session.start db x)
      | .ok inputs =>
        let s := Session.start (db.buildStarted env.now pluginId plugin inputs.1) x
        match env.fault (.refresh .createVersion) with
        | none => .ok (db.buildJob env pluginId plugin inputs) s
        | some e => .error e s := by
  have hex : ∀ commitSha, (getVersionByPluginAndCommit pluginId commitSha).run
      (Session.start db x) = .ok (db.versions.first fun _ v => v.pluginId = pluginId &&
        v.sourceType = .gitAuto && v.commitSha = some commitSha) (Session.start db x) :=
    fun _ => query_run _ h.constraints
  have hcfg : runtimeConfig.run (Session.start db x) = .ok db.config (Session.start db x) :=
    runtimeConfig_run h.constraints
  simp only [startBuild, Work.bind_run, Work.refuse_run, Db.buildInputs]
  by_cases hrepo : (!truthy plugin.repoUrl) = true
  · simp only [hrepo, if_true]
  simp only [hrepo, if_false, Bool.false_eq_true, hcfg, call_run]
  cases env.fault .preflightRepoSize with
  | some e => rfl
  | none =>
    cases env.fault .cloneRepo with
    | some e => rfl
    | none =>
      dsimp only
      cases env.metadata with
      | error e => rfl
      | ok metadata =>
        simp only [Work.lift_ok]
        cases assertMetadataMatchesPlugin env metadata plugin with
        | error e => rfl
        | ok _ =>
          simp only [Work.lift_ok]
          cases env.commitSha with
          | error e => rfl
          | ok commitSha =>
            simp only [Work.lift_ok, hex, Db.hasCommit]
            by_cases hold : (db.versions.first fun _ v => v.pluginId = pluginId &&
                v.sourceType = .gitAuto && v.commitSha = some commitSha).isSome = true
            · simp only [hold, if_true]
            · simp only [hold, if_false, Bool.false_eq_true, createVersion_run h pluginId _ _ _ _ _
                hown ⟨truthy_s3Key .., truthy_publicUrl ..⟩]
              cases env.fault (.refresh .createVersion) <;> rfl

theorem failedWith_run (versionId : VersionId) (exc : PyErr) (b : Bool) :
    (updateVersion versionId fun v =>
        { v with buildStatus := .failed, buildLog := some exc.text }).run ⟨p, c, x, b, r⟩ =
      .ok () ⟨p.modifyVersion versionId (·.failedWith exc), c, x, b, r⟩ := rfl

def staleRow : PyErr :=
  ⟨.staleDataError, "UPDATE statement on table 'plugin_versions' matched no row", 0⟩

theorem requireRow_run (versionId : VersionId) :
    (requireRow versionId).run ⟨p, c, x, false, r⟩ =
      match p.versions.lookup versionId with
      | some _ => .ok () ⟨p, c, x, false, r⟩
      | none => .error staleRow ⟨p, c, x, true, r⟩ := by
  cases hv : p.versions.lookup versionId <;> simp [requireRow, EStateM.run, hv, staleRow]

theorem buildFailed_run {versionId : VersionId} {v : PluginVersion} {exc : PyErr}
    (hv : p.versions.lookup versionId = some v)
    (hc : (p.modifyVersion versionId (·.failedWith exc)).Constraints) :
    (buildFailed versionId exc).run ⟨p, c, x, false, r⟩ =
      .error exc (⟨p.modifyVersion versionId (·.failedWith exc),
        p.modifyVersion versionId (·.failedWith exc), x, false, r⟩ : Session Db Outside) := by
  simp only [buildFailed, Work.bind_run, failedWith_run, requireRow_run, Db.lookup_modifyVersion,
    hv, Option.map_some, commit_run hc, Work.throw_run]

theorem buildFailed_refused {versionId : VersionId} {v : PluginVersion} {exc : PyErr}
    (hv : p.versions.lookup versionId = some v) (hl : v.isLatest = true) :
    (buildFailed versionId exc).run ⟨p, c, x, false, r⟩ =
      .error (Schema.refused Db)
        (Session.refused (p.modifyVersion versionId (·.failedWith exc)) c x) := by
  have hcommit := Work.commit_refused (ε := PyErr) (c := c) (x := x) (r := r)
    (Db.failedWith_refused hv hl exc)
  simp only [buildFailed, Work.bind_run, failedWith_run, requireRow_run, Db.lookup_modifyVersion,
    hv, Option.map_some, hcommit]

/-- The version is gone. -/
theorem buildFailed_missing {versionId : VersionId} {exc : PyErr}
    (hv : p.versions.lookup versionId = none) :
    (buildFailed versionId exc).run ⟨p, c, x, false, r⟩ = .error staleRow
      (⟨p.modifyVersion versionId (·.failedWith exc), c, x, true, r⟩ : Session Db Outside) := by
  simp only [buildFailed, Work.bind_run, failedWith_run, requireRow_run, Db.lookup_modifyVersion,
    hv, Option.map_none]

/-- A session whose flush has failed commits nothing more. -/
theorem buildFailed_broken {versionId : VersionId} {exc : PyErr} :
    (buildFailed versionId exc).run ⟨p, c, x, true, r⟩ = .error (Schema.inactive Db)
      (⟨p.modifyVersion versionId (·.failedWith exc), c, x, true, r⟩ : Session Db Outside) := by
  have hrow : ∀ p : Db, (requireRow versionId).run ⟨p, c, x, true, r⟩ =
      .ok () ⟨p, c, x, true, r⟩ := fun _ => rfl
  have hcommit : ∀ p : Db, (Work.commit : Op Unit).run ⟨p, c, x, true, r⟩ =
      .error (Schema.inactive Db) ⟨p, c, x, true, r⟩ := fun _ => rfl
  simp only [buildFailed, Work.bind_run, failedWith_run, hrow, hcommit]

end PluginRegistry
