import PluginRegistry.Proofs.PluginRows

namespace PluginRegistry
open Lib

variable {env : Env} {db : Db} {x : Outside}

def Db.passRefusal (db : Db) (v : PluginVersion) (buildText scanText : String) : Option PyErr :=
  if !buildReadyForScanPolicy v (some db.config.scanEnabledProviders) then
    some (invalidState buildText)
  else if !scanProvidersPassed v (some db.config.scanEnabledProviders) then
    some (invalidState scanText)
  else none

theorem Db.passRefusal_eq_none {v : PluginVersion} {buildText scanText : String} :
    db.passRefusal v buildText scanText = none ↔ db.passes v = true := by
  unfold Db.passRefusal Db.passes
  cases buildReadyForScanPolicy v (some db.config.scanEnabledProviders) <;>
    cases scanProvidersPassed v (some db.config.scanEnabledProviders) <;> simp

theorem requirePassed_run {p c : Db} {r : Bool} (h : p.Constraints) (v : PluginVersion)
    (buildText scanText : String) :
    (requirePassed v buildText scanText).run ⟨p, c, x, false, r⟩ =
      match p.passRefusal v buildText scanText with
      | none => .ok () ⟨p, c, x, false, r⟩
      | some e => .error e ⟨p, c, x, false, r⟩ := by
  simp only [requirePassed, Work.bind_run, runtimeConfig_run h, Work.refuse_run, Db.passRefusal]
  cases buildReadyForScanPolicy v (some p.config.scanEnabledProviders) <;>
    cases scanProvidersPassed v (some p.config.scanEnabledProviders) <;> rfl

def Db.latestRefusal (db : Db) (pluginId : PluginId) (versionId : VersionId) : Option PyErr :=
  match db.plugins.lookup pluginId with
  | none => some (notFound "Plugin not found")
  | some a =>
    if a.status ≠ .active then some (invalidState "Plugin must be active before setting latest")
    else match (db.versions.lookup versionId).filter fun v => v.pluginId = pluginId with
      | none => some (notFound "Version not found")
      | some v =>
        if v.versionStatus ≠ .active then
          some (invalidState "Version must be active to be set as latest")
        else db.passRefusal v "Version build must be successful to be set as latest"
          "Version security scan must pass before setting latest"

def Db.publishRefusal (db : Db) (pluginId : PluginId) (versionId : VersionId)
    (reviewStatus : ReviewStatus) : Option PyErr :=
  if reviewStatus ≠ .approved ∧ reviewStatus ≠ .skipped then
    some (validation "Invalid review status for publishing")
  else match db.plugins.lookup pluginId with
    | none => some (notFound "Plugin not found")
    | some _ => match (db.versions.lookup versionId).filter fun v => v.pluginId = pluginId with
      | none => some (notFound "Version not found")
      | some v => db.passRefusal v "Version build must be successful before publishing"
          "Version security scan must pass before publishing"

theorem Db.latestRefusal_eq_none {pluginId : PluginId} {versionId : VersionId} :
    db.latestRefusal pluginId versionId = none ↔
      ∃ a v, db.plugins.lookup pluginId = some a ∧ a.status = .active ∧
        db.versions.lookup versionId = some v ∧ v.pluginId = pluginId ∧
        v.versionStatus = .active ∧ db.passes v = true := by
  unfold Db.latestRefusal
  cases ha : db.plugins.lookup pluginId with
  | none => simp
  | some a =>
    by_cases hs : a.status = .active
    · cases hv : (db.versions.lookup versionId).filter fun v => v.pluginId = pluginId with
      | none =>
        rw [Option.filter_eq_none_iff] at hv
        simp only [hs, ne_eq, not_true_eq_false, if_false, reduceCtorEq, false_iff]
        rintro ⟨_, v, _, _, hlook, hown, -⟩
        exact hv v hlook (decide_eq_true hown)
      | some v =>
        obtain ⟨hlook, hown⟩ := Option.filter_eq_some_iff.mp hv
        have hown : v.pluginId = pluginId := by simpa using hown
        by_cases hst : v.versionStatus = .active
        · simp [hs, hst, Db.passRefusal_eq_none, hlook, hown]
        · simp [hs, hst, hlook]
    · simp [hs]

/-- When a publication goes through, read off its checks. -/
theorem Db.publishRefusal_eq_none {pluginId : PluginId} {versionId : VersionId}
    {reviewStatus : ReviewStatus} :
    db.publishRefusal pluginId versionId reviewStatus = none ↔
      (reviewStatus = .approved ∨ reviewStatus = .skipped) ∧
        (db.plugins.lookup pluginId).isSome ∧ ∃ v, db.versions.lookup versionId = some v ∧
          v.pluginId = pluginId ∧ db.passes v = true := by
  unfold Db.publishRefusal
  by_cases hrev : reviewStatus ≠ .approved ∧ reviewStatus ≠ .skipped
  · simp [hrev]
  · have hyes : reviewStatus = .approved ∨ reviewStatus = .skipped := by
      by_contra hc
      exact hrev (not_or.mp hc)
    rw [if_neg hrev]
    cases ha : db.plugins.lookup pluginId with
    | none => simp
    | some a =>
      cases hv : (db.versions.lookup versionId).filter fun v => v.pluginId = pluginId with
      | none =>
        rw [Option.filter_eq_none_iff] at hv
        simp only [reduceCtorEq, false_iff]
        rintro ⟨_, _, v, hlook, hown, -⟩
        exact hv v hlook (decide_eq_true hown)
      | some v =>
        obtain ⟨hlook, hown⟩ := Option.filter_eq_some_iff.mp hv
        have hown : v.pluginId = pluginId := by simpa using hown
        simp [hyes, Db.passRefusal_eq_none, hlook, hown]

theorem setPluginStatus_run (env : Env) (x : Outside) (h : db.Sound) (pluginId : PluginId)
    (status : PluginStatus)
    (reviewStatus : Option ReviewStatus) :
    (setPluginStatus env pluginId status reviewStatus).run (Session.start db x) =
      match db.plugins.lookup pluginId with
      | none => .error (notFound "Plugin not found") (Session.start db x)
      | some _ => (call env (.refresh .setPluginStatus)).run
          (Session.start (db.pluginStatusSet pluginId status reviewStatus) x) := by
  have h1 := Db.Sound.withStatus_constraints h.constraints pluginId status reviewStatus
  have h2 := (h.pluginStatusSet pluginId status reviewStatus).constraints
  simp only [setPluginStatus, Session.start, Work.bind_run, getPlugin_run h.constraints]
  cases db.plugins.lookup pluginId with
  | none => rfl
  | some a =>
    simp only [Db.pluginStatusSet, Plugin.withStatus] at h1 h2 ⊢
    simp only [Work.bind_run, updatePlugin_run, Work.when_run, execute_run _ h1]
    by_cases hs : status = .disabled ∨ status = .deleted
    · simp only [hs, if_true] at h2 ⊢
      simp only [commit_run h2]
    · simp only [hs, if_false, commit_run h1]

/-- `set_version_status` as one run: which error it raises, and the state it commits before
the refresh. -/
theorem setVersionStatus_run (env : Env) (x : Outside) (h : db.Sound) (versionId : VersionId)
    (status : VersionStatus) :
    (setVersionStatus env versionId status).run (Session.start db x) =
      match db.versions.lookup versionId with
      | none => .error (notFound "Version not found") (Session.start db x)
      | some v =>
        match (if status = .active then
            db.passRefusal v "Version build must be successful before activation"
              "Version security scan must pass before activation" else none) with
        | some e => .error e (Session.start db x)
        | none => (call env (.refresh .setVersionStatus)).run
            (Session.start (db.versionStatusSet versionId status) x) := by
  simp only [setVersionStatus, Session.start, Work.bind_run, getVersion_run h.constraints]
  cases hv : db.versions.lookup versionId with
  | none => rfl
  | some v =>
    simp only [Work.bind_run, Work.when_run, requirePassed_run h.constraints]
    by_cases hs : status = .active
    · subst hs
      simp only [if_true]
      cases hr : db.passRefusal v "Version build must be successful before activation"
          "Version security scan must pass before activation" with
      | some e => rfl
      | none =>
        have h1 : (db.versionStatusSet versionId .active).Sound := by
          refine h.versionStatusSet fun _ w hw => ?_
          obtain rfl := Option.some.inj (hv.symm.trans hw)
          exact Db.passRefusal_eq_none.mp hr
        have he : (db.modifyVersion versionId (·.settleBuild)).modifyVersion versionId
            (fun v => { v with versionStatus := .active }) = db.versionStatusSet versionId .active :=
          Db.modifyVersion_modifyVersion ..
        simp only [updateVersion_run, he, reduceCtorEq, or_self, if_false,
          commit_run h1.constraints]
    · have h1 : (db.versionStatusSet versionId status).Sound :=
        h.versionStatusSet fun ha => absurd ha hs
      have hd : status = .draft ∨ status = .deprecated ∨ status = .deleted := by
        cases status <;> simp_all
      have he : (db.modifyVersion versionId fun v => { v with versionStatus := status }).modifyVersion
          versionId (fun v => { v with isLatest := false }) =
            db.versionStatusSet versionId status := by
        rw [Db.modifyVersion_modifyVersion, Db.versionStatusSet]
        simp only [hs, if_false]
        rfl
      simp only [hs, hd, if_false, if_true, updateVersion_run, he, commit_run h1.constraints]

/-- `set_latest_version` as one run. -/
theorem setLatestVersion_run (env : Env) (x : Outside) (h : db.Sound) (pluginId : PluginId)
    (versionId : VersionId) :
    (setLatestVersion env pluginId versionId).run (Session.start db x) =
      match db.latestRefusal pluginId versionId with
      | some e => .error e (Session.start db x)
      | none => (call env (.refresh .setLatestVersion)).run
          (Session.start (db.latestSet pluginId versionId) x) := by
  simp only [setLatestVersion, Session.start, Work.bind_run, getPlugin_run h.constraints,
    Db.latestRefusal]
  cases ha : db.plugins.lookup pluginId with
  | none => rfl
  | some a =>
    by_cases hs : a.status = .active
    · simp only [Work.bind_run, Work.refuse_run, getVersionOf_run h.constraints, hs, ne_eq,
        not_true_eq_false, if_false]
      cases hv : (db.versions.lookup versionId).filter fun v => v.pluginId = pluginId with
      | none => rfl
      | some v =>
        obtain ⟨hlook, hown⟩ := Option.filter_eq_some_iff.mp hv
        have hown : v.pluginId = pluginId := by simpa using hown
        by_cases hst : v.versionStatus = .active
        · simp only [Work.bind_run, Work.refuse_run, hst, not_true_eq_false, if_false,
            requirePassed_run h.constraints]
          cases hr : db.passRefusal v "Version build must be successful to be set as latest"
              "Version security scan must pass before setting latest" with
          | some e => rfl
          | none =>
            have hp := Db.passRefusal_eq_none.mp hr
            have h1 := h.settleBuild hlook hp
            have h2 := h.latestSet ha hs hlook hown hst hp
            simp only [updateVersion_run, execute_run _ h1]
            simp only [Db.latestSet] at h2 ⊢
            simp only [commit_run h2.constraints]
        · simp only [Work.bind_run, Work.refuse_run, hst, not_false_eq_true, if_true]
    · simp only [Work.bind_run, Work.refuse_run, hs, ne_eq, not_false_eq_true, if_true]

/-- `publish_plugin_version` as one run. Of its two commits the first cannot be refused on a
sound table. -/
theorem publishPluginVersion_run (env : Env) (x : Outside) (h : db.Sound) (pluginId : PluginId)
    (versionId : VersionId)
    (reviewStatus : ReviewStatus) :
    (publishPluginVersion env pluginId versionId reviewStatus).run (Session.start db x) =
      match db.publishRefusal pluginId versionId reviewStatus with
      | some e => .error e (Session.start db x)
      | none => (call env (.refresh .publishPluginVersion)).run
          (Session.start (db.published env.now pluginId versionId reviewStatus) x) := by
  simp only [publishPluginVersion, Session.start, Work.bind_run, Work.refuse_run,
    Db.publishRefusal]
  by_cases hrev : reviewStatus ≠ .approved ∧ reviewStatus ≠ .skipped
  · simp only [hrev, ne_eq, not_false_eq_true, and_self, if_true]
  simp only [hrev, if_false, getPlugin_run h.constraints]
  cases ha : db.plugins.lookup pluginId with
  | none => rfl
  | some a =>
    simp only [Work.bind_run, getVersionOf_run h.constraints]
    cases hv : (db.versions.lookup versionId).filter fun v => v.pluginId = pluginId with
    | none => rfl
    | some v =>
      obtain ⟨hlook, hown⟩ := Option.filter_eq_some_iff.mp hv
      have hown : v.pluginId = pluginId := by simpa using hown
      simp only [Work.bind_run, PluginVersion.selected_false, requirePassed_run h.constraints]
      cases hr : db.passRefusal v "Version build must be successful before publishing"
          "Version security scan must pass before publishing" with
      | some e => rfl
      | none =>
        have hp := Db.passRefusal_eq_none.mp hr
        have h1 := h.activating_constraints pluginId reviewStatus hlook hp
        have h2 := h.promoting reviewStatus hlook hown hp
        have h3 := h.published env.now reviewStatus hlook hown hp
        have he : ((db.modifyVersion versionId (·.settleBuild)).modifyPlugin pluginId fun a =>
            { a with status := .active, reviewStatus }).modifyVersion versionId
              (fun v => { v with versionStatus := .active }) =
            db.activating pluginId versionId reviewStatus :=
          congrArg (fun d => Db.modifyPlugin d pluginId fun a =>
            { a with status := .active, reviewStatus }) (Db.modifyVersion_modifyVersion ..)
        simp only [updateVersion_run, updatePlugin_run, he, execute_run _ h1, setHumanReviewResult,
          Work.bind_run]
        simp only [Db.published, Db.promoting] at h2 h3 ⊢
        simp only [flush_run h2.constraints, updateVersion_run, commit_run h3.constraints]

theorem createPlugin_run (h : db.Sound) (metadata : PluginMetadata) (repoUrl : String) :
    (createPlugin env metadata repoUrl).run (Session.start db x) =
      if (db.plugins.first fun _ p => p.pluginKey = inferPluginKey env metadata.name).isSome then
        .error (conflict ("Plugin key already exists: " ++ inferPluginKey env metadata.name))
          (Session.start db x)
      else
        let db' := db.addPlugin (.new (inferPluginKey env metadata.name) metadata repoUrl)
        match env.fault (.refresh .createPlugin) with
        | none => .ok db.nextId (Session.start db' x)
        | some e => .error e (Session.start db' x) := by
  simp only [createPlugin, Session.start, Work.bind_run, getPluginByKey, query_run _ h.constraints,
    Work.refuse_run]
  by_cases hk : (db.plugins.first fun _ p => p.pluginKey = inferPluginKey env metadata.name).isSome
  · simp only [hk, if_true]
  · have h1 : (db.addPlugin (.new (inferPluginKey env metadata.name) metadata repoUrl)).Sound := by
      refine h.addPlugin fun p b hp hkey => ?_
      rw [Option.not_isSome_iff_eq_none] at hk
      exact absurd hkey (of_decide_eq_false (Table.first_none.mp hk p b hp))
    simp only [hk, Bool.false_eq_true, if_false, add_run, flush_run h1.constraints,
      commit_run h1.constraints, call_run]
    cases env.fault (.refresh .createPlugin) <;> rfl

theorem createVersion_run (h : db.Sound) (pluginId : PluginId) (version : String)
    (s3Key downloadUrl : Option String) (sourceType : SourceType) (buildStatus : BuildStatus)
    (hown : (db.plugins.lookup pluginId).isSome)
    (ha : truthy s3Key = true ∧ truthy downloadUrl = true) :
    (createVersion env pluginId version s3Key downloadUrl sourceType none buildStatus).run
        (Session.start db x) =
      let db' := db.addVersion
        (.new env.now pluginId version s3Key downloadUrl sourceType none buildStatus)
      match env.fault (.refresh .createVersion) with
      | none => .ok db.nextId (Session.start db' x)
      | some e => .error e (Session.start db' x) := by
  have h1 : (db.addVersion
      (.new env.now pluginId version s3Key downloadUrl sourceType none buildStatus)).Sound := by
    refine h.addVersion hown ?_ rfl rfl
    rw [PluginVersion.hasArtifact, Bool.and_eq_true]
    exact ha
  simp only [createVersion, Session.start, Work.bind_run, add_run, commit_run h1.constraints,
    call_run]
  cases env.fault (.refresh .createVersion) <;> rfl

theorem deleteVersion_run (env : Env) (x : Outside) (h : db.Sound) (pluginId : PluginId)
    (versionId : VersionId) :
    (deleteVersion env pluginId versionId).run (Session.start db x) =
      match (db.versions.lookup versionId).filter fun v => v.pluginId = pluginId with
      | none => .error (notFound "Version not found") (Session.start db x)
      | some v => match (deleteFile env (v.s3Key.getD "")).run (Session.start db x) with
        | .error e s => .error e s
        | .ok _ s => (call env (.refresh .deleteVersion)).run
            (Session.start (db.deleteVersionRow versionId) s.outside) := by
  simp only [deleteVersion, Session.start, Work.bind_run, getVersion_run h.constraints]
  cases hv : db.versions.lookup versionId with
  | none => rfl
  | some v =>
    by_cases hown : v.pluginId = pluginId
    · have hkey : truthy v.s3Key = true := (Bool.and_eq_true_iff.mp (h.artifacts _ v hv)).1
      have h1 := h.deleteVersionRow versionId
      simp only [Option.filter, hown, Work.bind_run, Work.refuse_run, Work.when_run, hkey,
        deleteFile_run, if_true, ne_eq, not_true_eq_false, if_false, decide_true]
      cases env.fault (.deleteFile (v.s3Key.getD "")) with
      | some e => rfl
      | none => simp only [execute_run _ h.constraints, commit_run h1.constraints]
    · simp only [Option.filter, hown, Work.bind_run, Work.refuse_run, ne_eq, not_false_eq_true,
        if_true, decide_false, Bool.false_eq_true, if_false]

/-- The objects that a sequence of deletions removes: those before the first failure. -/
def Env.deletedKeys (env : Env) (keys : List String) : List String :=
  keys.takeWhile fun k => (env.fault (.deleteFile k)).isNone

def Bucket.without (bucket : Bucket) (keys : List String) : Bucket :=
  keys.foldl (fun b k => AList.erase k b) bucket

theorem deleteFiles_run (keys : List String) :
    (keys.forM (deleteFile env)).run (Session.start db x) =
      let s := Session.start db { x with bucket := x.bucket.without (env.deletedKeys keys) }
      match keys.findSome? fun k => env.fault (.deleteFile k) with
      | none => .ok () s
      | some e => .error e s := by
  induction keys generalizing x with
  | nil => rfl
  | cons k keys ih =>
    rw [Work.forM_cons_run, Session.start, deleteFile_run, List.findSome?_cons]
    simp only [Env.deletedKeys, List.takeWhile_cons]
    cases env.fault (.deleteFile k) with
    | some e => rfl
    | none => exact ih (x := { x with bucket := AList.erase k x.bucket })

/-- `delete_plugin` as one run: the objects go first, so a failure among them leaves every row. -/
theorem deletePlugin_run (env : Env) (x : Outside) (h : db.Sound) (pluginId : PluginId) :
    (deletePlugin env pluginId).run (Session.start db x) =
      match db.plugins.lookup pluginId with
      | none => .error (notFound "Plugin not found") (Session.start db x)
      | some _ =>
        let x' := { x with bucket := x.bucket.without (env.deletedKeys (db.s3Keys pluginId)) }
        match (db.s3Keys pluginId).findSome? fun k => env.fault (.deleteFile k) with
        | some e => .error e (Session.start db x')
        | none => (call env (.refresh .deletePlugin)).run
            (Session.start (db.withoutPlugin pluginId) x') := by
  have hkeys : (Work.query (·.s3Keys pluginId)).run (Session.start db x) =
      (.ok (db.s3Keys pluginId) (Session.start db x) : EStateM.Result PyErr _ _) :=
    query_run _ h.constraints
  have hget : (getPlugin pluginId).run (Session.start db x) =
      .ok (db.plugins.lookup pluginId) (Session.start db x) :=
    getPlugin_run h.constraints _
  have h1 := h.clearLatest pluginId
  have h2 := h.withoutPlugin pluginId
  simp only [deletePlugin, Work.bind_run, hget]
  cases db.plugins.lookup pluginId with
  | none => rfl
  | some a =>
    simp only [Work.bind_run, hkeys, deleteFiles_run]
    cases (db.s3Keys pluginId).findSome? fun k => env.fault (.deleteFile k) with
    | some e => rfl
    | none =>
      simp only [Session.start, execute_run _ h.constraints, execute_run _ h1.constraints,
        Work.change_run]
      have hrow : ((db.clearLatest pluginId).deleteVersionsOf pluginId).deletePluginRow pluginId =
          db.withoutPlugin pluginId := rfl
      simp only [hrow, commit_run h2.constraints]

end PluginRegistry
