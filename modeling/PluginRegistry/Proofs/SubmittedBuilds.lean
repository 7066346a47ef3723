import PluginRegistry.Proofs.MetadataFiles

namespace PluginRegistry
open Lib

variable {env : Env} {db : Db} {x : Outside} {job : BuildJob}

structure Shipped (report : Report PyErr Db Outside VersionId) (versionId : VersionId)
    (v : PluginVersion) (zip : Blob) : Prop where
  row : report.db.versions.lookup versionId = some v
  object : ∃ s3Key, v.s3Key = some s3Key ∧ report.outside.bucket.lookup s3Key = some zip

theorem Shipped.unique {report : Report PyErr Db Outside VersionId} {versionId : VersionId}
    {v w : PluginVersion} {zip zip' : Blob} (h : Shipped report versionId v zip)
    (h' : Shipped report versionId w zip') : v = w ∧ zip = zip' := by
  obtain rfl := Option.some.inj (h.row.symm.trans h'.row)
  obtain ⟨s3Key, hkey, hzip⟩ := h.object
  obtain ⟨s3Key', hkey', hzip'⟩ := h'.object
  rw [hkey] at hkey'
  cases hkey'
  rw [hzip] at hzip'
  cases hzip'
  exact ⟨rfl, rfl⟩

/-- A scan of a build that returns keeps the origin of its version and touches no object. -/
theorem scanStep_ok (job : BuildJob) (h : db.Sound) {v : PluginVersion}
    (hv : db.versions.lookup job.versionId = some v) {s : Session Db Outside}
    (hrun : (job.step env .scan).run (Session.start db x) = .ok () s) :
    (∃ w, s.committed.versions.lookup job.versionId = some w ∧ w.origin = v.origin) ∧
      s.outside.files = x.files := by
  have hspec := scanVersion_run env x h job.versionId none job.resultsLoaded
  have hsel : db.selectedProviders none = .ok db.enabledProviders := rfl
  change (scanVersion env job.versionId none job.resultsLoaded).run (Session.start db x) =
    .ok () s at hrun
  rw [hrun, hsel, hv] at hspec
  dsimp only at hspec
  cases ho : scanSelectedProviders env db.config db.enabledProviders with
  | error e =>
    rw [ho] at hspec
    cases hspec
  | ok outcomes =>
    rw [ho] at hspec
    dsimp only at hspec
    by_cases hlate : v.isLatest = true ∧ anyPending outcomes = true
    · rw [if_pos hlate] at hspec
      cases hspec
    · rw [if_neg hlate] at hspec
      have hrow := Db.scanned_lookup env.now hv outcomes
      obtain ⟨x', hx, hafter⟩ := afterBuildScan_done env x (h.scanned env hv outcomes hlate) job
        hrow outcomes
      rw [hafter] at hspec
      cases he : (db.scanned env.now job.versionId outcomes).afterBuildScanError env job
          outcomes with
      | some e =>
        rw [he] at hspec
        cases hspec
      | none =>
        rw [he] at hspec
        cases hspec
        obtain ⟨w, hw, horigin, -⟩ := Db.afterBuildScan_lookup env job hrow outcomes
        exact ⟨⟨w, hw, horigin.trans
          (PluginVersion.origin_of_standing (v.scanned_standing env.now outcomes))⟩, hx⟩

theorem fits_of_packError (h : job.packError env = none) :
    (createZip job.checkout job.maxReleaseZipBytes).2 = none := by
  unfold BuildJob.packError at h
  cases ho : env.fault .openZipFile with
  | none =>
    rw [ho] at h
    exact h
  | some e =>
    rw [ho] at h
    cases h

/-- The four steps of a build that return have stored the archive of its
checkout under the key of its row. -/
theorem steps_ok (h : db.Sound) {v : PluginVersion}
    (hv : db.versions.lookup job.versionId = some v) {s : Session Db Outside}
    (hrun : (job.steps env).run (Session.start db x) = .ok () s) :
    (createZip job.checkout job.maxReleaseZipBytes).2 = none ∧
      (∃ w, s.committed.versions.lookup job.versionId = some w ∧
        w.origin = (v.built job.s3Key job.publicUrl job.commitSha).origin) ∧
      s.outside.bucket.lookup job.s3Key =
        some (createZip job.checkout job.maxReleaseZipBytes).1 := by
  obtain ⟨_, s₁, hpack, hrun⟩ := Work.bind_ok hrun
  obtain ⟨_, s₂, hupload, hrun⟩ := Work.bind_ok hrun
  obtain ⟨_, s₃, hupdate, hscan⟩ := Work.bind_ok hrun
  rw [packStep_run] at hpack
  cases hp : job.packError env with
  | some e =>
    rw [hp] at hpack
    cases hpack
  | none =>
    rw [hp] at hpack
    cases hpack
    change (job.step env .upload).run (Session.start db (job.packFiles env x)) = _ at hupload
    rw [uploadStep_run] at hupload
    cases hu : job.uploadError env (job.packFiles env x) with
    | some e =>
      rw [hu] at hupload
      cases hupload
    | none =>
      rw [hu] at hupload
      cases hupload
      have hbucket : job.uploadBucket env (job.packFiles env x) = AList.insert job.s3Key
          (createZip job.checkout job.maxReleaseZipBytes).1 (job.packFiles env x).bucket := by
        unfold BuildJob.uploadError at hu
        simp only [archive_packed hp] at hu
        simp only [BuildJob.uploadBucket, archive_packed hp, hu]
      rw [updateStep_run env job _ h, hv] at hupdate
      dsimp only at hupdate
      by_cases hold : db.commitTaken job.versionId job.commitSha = true
      · rw [if_pos hold] at hupdate
        cases hupdate
      · rw [if_neg hold] at hupdate
        rw [Bool.not_eq_true] at hold
        obtain rfl := of_call_ok hupdate
        have hrow : (job.builtRows db).versions.lookup job.versionId =
            some (v.built job.s3Key job.publicUrl job.commitSha) := by
          simp [BuildJob.builtRows, hv]
        have hbuilt := BuildJob.builtRows_sound h hv hold
        obtain ⟨loaded, s₄, hload, hscan⟩ := Work.bind_ok hscan
        rw [Session.start, query_run _ hbuilt.constraints] at hload
        cases hload
        obtain ⟨hw, hfiles⟩ := scanStep_ok (job.after .update (job.builtRows db)) hbuilt
          hrow hscan
        refine ⟨fits_of_packError hp, hw, ?_⟩
        rw [show s.outside.bucket = job.uploadBucket env (job.packFiles env x) from
          congrArg Prod.fst hfiles, hbucket, AList.lookup_insert]

/-- The handler never returns. -/
theorem buildFailed_not_ok (versionId : VersionId) (exc : PyErr) (s : Session Db Outside) :
    ∃ e s', (buildFailed versionId exc).run s = .error e s' := by
  have hthrow : ∀ (w : Op Unit) (t : Session Db Outside),
      ∃ e s', (w >>= fun _ => (throw exc : Op Unit)).run t = .error e s' := by
    intro w t
    rw [Work.bind_run]
    cases w.run t with
    | ok a t' => exact ⟨exc, t', rfl⟩
    | error e t' => exact ⟨e, t', rfl⟩
  obtain ⟨e, s', h⟩ := hthrow (do
    updateVersion versionId fun v =>
      { v with buildStatus := .failed, buildLog := some exc.text }
    requireRow versionId
    Work.commit) s
  refine ⟨e, s', ?_⟩
  rw [← h]
  simp only [buildFailed, Work.bind_run]
  cases (updateVersion versionId fun v =>
      { v with buildStatus := .failed, buildLog := some exc.text }).run s with
  | error e t => rfl
  | ok a t =>
    dsimp only
    cases (requireRow versionId).run t <;> rfl

/-- What a build has been told when it creates its version. -/
theorem buildInputs_ok {pluginId : PluginId} {plugin : Plugin} {version : Option String}
    {inputs : String × CommitSha} (h : db.buildInputs env pluginId plugin version = .ok inputs) :
    truthy plugin.repoUrl = true ∧ env.fault .preflightRepoSize = none ∧
      ∃ metadata, env.metadata = .ok metadata ∧
        assertMetadataMatchesPlugin env metadata plugin = .ok () ∧
        env.commitSha = .ok inputs.2 ∧ inputs.1 = buildLabel version metadata := by
  unfold Db.buildInputs at h
  split at h
  · cases h
  · rename_i hrepo
    rw [Bool.not_eq_true', Bool.not_eq_false] at hrepo
    split at h
    · cases h
    · cases h
    · rename_i hpreflight _
      split at h
      · cases h
      · rename_i metadata hm
        split at h
        · cases h
        · rename_i hmatch
          split at h
          · cases h
          · rename_i hsha
            split at h
            · cases h
            · cases h
              exact ⟨hrepo, hpreflight, metadata, hm, hmatch, hsha, rfl⟩

/-- What a build that returns has been told and what it leaves. -/
theorem buildFromRepo_ok (h : db.Sound) {pluginId : PluginId} {plugin : Plugin}
    (hown : (db.plugins.lookup pluginId).isSome) {version : Option String} {versionId : VersionId}
    (hok : ((buildFromRepo env pluginId plugin version).perform db x).outcome = .ok versionId) :
    ∃ inputs v, db.buildInputs env pluginId plugin version = .ok inputs ∧
      v.version = inputs.1 ∧ v.commitSha = some inputs.2 ∧
      (createZip env.checkout db.config.maxReleaseZipBytes).2 = none ∧
      Shipped ((buildFromRepo env pluginId plugin version).perform db x) versionId v
        (createZip env.checkout db.config.maxReleaseZipBytes).1 := by
  cases hrun : (buildFromRepo env pluginId plugin version).run (Session.start db x) with
  | error e s =>
    rw [Work.perform, hrun] at hok
    cases hok
  | ok id s =>
    rw [Work.perform, hrun] at hok ⊢
    obtain rfl := Except.ok.inj hok
    have hstart := startBuild_run env x h plugin hown version
    rw [buildFromRepo, Work.bind_run, hstart] at hrun
    cases hin : db.buildInputs env pluginId plugin version with
    | error e =>
      rw [hin] at hrun
      cases hrun
    | ok inputs =>
      rw [hin] at hrun
      dsimp only at hrun
      cases hf : env.fault (.refresh .createVersion) with
      | some e =>
        rw [hf] at hrun
        cases hrun
      | none =>
        rw [hf] at hrun
        let job := db.buildJob env pluginId plugin inputs
        change ((tryCatch (job.steps env) (buildFailed job.versionId)) >>= fun _ =>
          pure job.versionId).run _ = _ at hrun
        rw [Work.bind_run, Work.try_run] at hrun
        cases hsteps : (job.steps env).run
            (Session.start (db.buildStarted env.now pluginId plugin inputs.1) x) with
        | error e t =>
          obtain ⟨e', t', hfailed⟩ := buildFailed_not_ok job.versionId e t
          simp only [hsteps, hfailed] at hrun
          cases hrun
        | ok a t =>
          simp only [hsteps] at hrun
          cases hrun
          have hrow : (db.buildStarted env.now pluginId plugin inputs.1).versions.lookup
              job.versionId = some (db.placeholder env.now pluginId plugin inputs.1) := by
            simp [Db.buildStarted, job, Db.buildJob]
          obtain ⟨hfits, ⟨w, hw, horigin⟩, hobject⟩ :=
            steps_ok (h.buildStarted plugin hown env.now inputs.1) hrow hsteps
          refine ⟨inputs, w, rfl, ?_, ?_, hfits, hw, job.s3Key, ?_, hobject⟩
          · exact congrArg Origin.version horigin
          · exact congrArg Origin.commitSha horigin
          · exact congrArg Origin.s3Key horigin

variable {settings : GitSettings} {yaml : Yaml} {pluginId : PluginId} {plugin : Plugin}
  {version ref : Option String} {versionId : VersionId}

structure BuiltFrom (yaml : Yaml) (maxReleaseZipBytes : Int) (version : Option String)
    (report : Report PyErr Db Outside VersionId) (versionId : VersionId) (v : PluginVersion)
    (clone : Clone) : Prop where
  commit : ∃ commitSha, clone.commitSha = .ok commitSha ∧ v.commitSha = some commitSha
  archive : ∃ metadata checkout, clone.prepare yaml version = .ok (metadata, checkout) ∧
    Shipped report versionId v (createZip checkout maxReleaseZipBytes).1

structure Buildable (settings : GitSettings) (yaml : Yaml) (env : Env) (db : Db)
    (pluginId : PluginId) (plugin : Plugin) (version : Option String) (clone : Clone) : Prop where
  repoUrl : truthy plugin.repoUrl = true
  url : urlRefusal settings (plugin.repoUrl.getD "") = none
  commit : ∃ commitSha, clone.commitSha = .ok commitSha ∧
    db.hasCommit pluginId commitSha = false
  packs : ∃ metadata checkout, clone.prepare yaml version = .ok (metadata, checkout) ∧
    assertMetadataMatchesPlugin env metadata plugin = .ok () ∧
    (createZip checkout db.config.maxReleaseZipBytes).2 = none

/-- The check of the metadata lowers text and looks at nothing else outside. -/
theorem assertMetadata_congr {env env' : Env} (h : env.lower = env'.lower)
    (metadata : PluginMetadata) (plugin : Plugin) :
    assertMetadataMatchesPlugin env metadata plugin =
      assertMetadataMatchesPlugin env' metadata plugin := by
  simp only [assertMetadataMatchesPlugin, inferPluginKey, h]
  rfl

/-- A build that returns has cloned and built what its row says. -/
theorem buildFromClone_ok (h : db.Sound) (hyaml : yaml.RoundTrips) {moment : Moment}
    (hown : (db.plugins.lookup pluginId).isSome)
    (hok : ((buildFromClone settings yaml moment pluginId plugin version ref).perform db
      x).outcome = .ok versionId) :
    ∃ clone metadata v,
      cloneRepo settings moment.hosts (plugin.repoUrl.getD "") ref = .ok clone ∧
      clone.metadata yaml = .ok metadata ∧ v.version = buildLabel version metadata ∧
      Buildable settings yaml moment.env db pluginId plugin version clone ∧
      BuiltFrom yaml db.config.maxReleaseZipBytes version
        ((buildFromClone settings yaml moment pluginId plugin version ref).perform db x)
        versionId v clone := by
  let repoUrl := plugin.repoUrl.getD ""
  let env := moment.env.atClone settings yaml repoUrl
    (cloneRepo settings moment.hosts repoUrl ref) version
  have hbuilt : ((buildFromRepo env pluginId plugin version).perform db x).outcome =
      .ok versionId := hok
  obtain ⟨inputs, v, hin, hlabel, hcommit, hfits, hshipped⟩ := buildFromRepo_ok h hown hbuilt
  obtain ⟨hrepo, hpreflight, metadata, hm, hmatch, hsha, hinputs⟩ := buildInputs_ok hin
  have hnew := Db.buildInputs_new hin
  have hurl : urlRefusal settings repoUrl = none := by
    have hor : (urlRefusal settings repoUrl).or (moment.env.fault .preflightRepoSize) = none :=
      hpreflight
    exact (Option.or_eq_none_iff.mp hor).1
  cases hclone : cloneRepo settings moment.hosts repoUrl ref with
  | error e =>
    simp only [env, Env.atClone, hclone, Except.bind, Except.map] at hm
    cases hm
  | ok clone =>
    have hshaOf : clone.commitSha = .ok inputs.2 := by
      simpa only [env, Env.atClone, hclone, Except.bind] using hsha
    cases hprepare : clone.prepare yaml version with
    | error e =>
      simp only [env, Env.atClone, hclone, Except.bind, hprepare, Except.map] at hm
      cases hm
    | ok prepared =>
      obtain ⟨found, checkout⟩ := prepared
      have hcheckout : env.checkout = checkout := by
        simp only [env, Env.atClone, hclone, Except.bind, hprepare]
      simp only [env, Env.atClone, hclone, Except.bind, hprepare, Except.map] at hm
      obtain rfl := Except.ok.inj hm
      obtain ⟨read, hread⟩ := metadata_of_prepare hprepare
      obtain ⟨packed, hpacked, -⟩ := prepare_spec hyaml hread version
      rw [hprepare] at hpacked
      cases hpacked
      rw [hcheckout] at hfits hshipped
      exact ⟨clone, found, v, rfl, hread, hlabel.trans hinputs,
        ⟨hrepo, hurl, ⟨inputs.2, hshaOf, hnew⟩, ⟨found, checkout, hprepare, hmatch, hfits⟩⟩,
        ⟨⟨inputs.2, hshaOf, hcommit⟩, ⟨found, checkout, hprepare, hshipped⟩⟩⟩

/-- A build of such a clone returns when no call outside fails. -/
theorem buildFromClone_smooth (h : db.Sound) {moment : Moment}
    (hown : (db.plugins.lookup pluginId).isSome) {clone : Clone}
    (hclone : cloneRepo settings moment.hosts (plugin.repoUrl.getD "") ref = .ok clone)
    (hb : Buildable settings yaml moment.env db pluginId plugin version clone)
    (hfaults : ∀ site, moment.env.fault site = none)
    (hans : ∀ p, ∃ o, moment.env.scanAnswer p = .ok o) :
    ∃ versionId, ((buildFromClone settings yaml moment pluginId plugin version ref).perform db
      x).outcome = .ok versionId := by
  obtain ⟨commitSha, hsha, hnew⟩ := hb.commit
  obtain ⟨metadata, checkout, hprepare, hmatch, hfits⟩ := hb.packs
  let env := moment.env.atClone settings yaml (plugin.repoUrl.getD "")
    (cloneRepo settings moment.hosts (plugin.repoUrl.getD "") ref) version
  have hcheckout : env.checkout = checkout := by
    simp only [env, Env.atClone, hclone, Except.bind, hprepare]
  have hmetadata : env.metadata = .ok metadata := by
    simp only [env, Env.atClone, hclone, Except.bind, hprepare, Except.map]
  have hcommit : env.commitSha = .ok commitSha := by
    simpa only [env, Env.atClone, hclone, Except.bind] using hsha
  have hsmooth : env.Smooth db.config plugin commitSha := by
    refine ⟨hb.repoUrl, ?_, ⟨metadata, hmetadata, hmatch⟩, hcommit, ?_, fun p _ _ => hans p⟩
    · intro site
      simp only [env, Env.atClone, hb.url, hfaults, Option.or_none, ite_self]
    · rw [hcheckout]
      exact hfits
  obtain ⟨versionId, v, hok, -⟩ := attempt_builds (x := x) h hown hsmooth version hnew
  exact ⟨versionId, hok⟩

end PluginRegistry
