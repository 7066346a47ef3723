import PluginRegistry.Proofs.CacheCoherence
import PluginRegistry.Proofs.PowProtocol
import PluginRegistry.Services.ServedRegistry

namespace PluginRegistry
open Lib

variable {env : Env} {db db' d : Db} {x x' : Outside} {w : Env → Op Unit} {caller : Caller}
  {versionId : VersionId} {md5 : Registry → String}

structure Env.Reliable (env : Env) : Prop where
  refresh : ∀ caller, env.fault (.refresh caller) = none
  queue : env.fault .enqueueTask = none

theorem Env.refusing_same (env : Env) (caller : Caller) (e : PyErr) :
    (env.refusing caller e).fault (.refresh caller) = some e :=
  Function.update_self ..

theorem Env.refusing_other {site : Site} (h : site ≠ .refresh caller) (e : PyErr) :
    (env.refusing caller e).fault site = env.fault site :=
  Function.update_of_ne h ..

@[simp] theorem Env.refusing_now (caller : Caller) (e : PyErr) :
    (env.refusing caller e).now = env.now := rfl

@[simp] theorem Outside.queued_refusing (caller : Caller) (e : PyErr) (task : QueuedTask) :
    x.queued (env.refusing caller e) task = x.queued env task := rfl

theorem Env.Reliable.refusing (h : env.Reliable) {other : Caller} (hne : other ≠ caller)
    (e : PyErr) : (env.refusing caller e).fault (.refresh other) = none := by
  rw [Env.refusing_other (by simpa using hne)]
  exact h.refresh other

theorem Env.Reliable.refusing_queue (h : env.Reliable) (caller : Caller) (e : PyErr) :
    (env.refusing caller e).fault .enqueueTask = none := by
  rw [Env.refusing_other (by simp)]
  exact h.queue

theorem Caller.mem_latestFirst (caller : Caller) : caller ∈ Caller.latestFirst := by
  cases caller <;> decide

/-- A program that no refresh can change refreshes nothing. -/
theorem refreshedRows_none
    (h : ∀ caller e e', (w (env.refusing caller e)).run (Session.start db x) =
      (w (env.refusing caller e')).run (Session.start db x)) :
    refreshedRows w env db x = none := by
  unfold refreshedRows
  rw [List.findSome?_eq_none_iff]
  exact fun caller _ => Work.committedAt_of_eq (h caller _ _)

/-- A program that goes on as one refresh has refreshed with what is committed there. -/
theorem refreshedRows_call (hrel : env.Reliable)
    (h : ∀ other e, (w (env.refusing other e)).run (Session.start db x) =
      (call (env.refusing other e) (.refresh caller)).run (Session.start d x')) :
    refreshedRows w env db x = some d := by
  refine findSome?_of_only (a := caller) ?_ ?_ caller.mem_latestFirst
  · refine Work.committedAt_of_error (s := fun _ => Session.start d x') fun e _ => ?_
    rw [h, call_run, Env.refusing_same]
  · intro other hne
    apply Work.committedAt_of_eq
    rw [h, h, call_run, call_run, hrel.refusing hne.symm, hrel.refusing hne.symm]

theorem refreshProbe_refusal {e : PyErr} (h : e = refreshProbe.first ∨ e = refreshProbe.second) :
    e.refusal = false := by
  rcases h with rfl | rfl <;> rfl

/-- An attempt to publish that succeeds refreshes with the published rows. -/
theorem autoPublish_fails (hd : d.Sound) {v : PluginVersion}
    (hv : d.versions.lookup versionId = some v) (hp : d.autoPublishes v = true) {e : PyErr}
    (he : e.refusal = false) :
    (discard (tryAutoPublishAfterScan (env.refusing .publishPluginVersion e) versionId)).run
        (Session.start d x) =
      .error e (Session.start (d.autoPublished env.now versionId) x) := by
  have hsome : d.publishError (env.refusing .publishPluginVersion e) versionId = some e := by
    unfold Db.publishError
    rw [hv, Env.refusing_same]
    simp [hp, he, Option.filter]
  rw [autoPublish_run _ _ hd hv, hsome]
  rfl

theorem autoPublish_refused (hd : d.Sound) {v : PluginVersion}
    (hv : d.versions.lookup versionId = some v) (hp : ¬ d.autoPublishes v = true) (env : Env) :
    (discard (tryAutoPublishAfterScan env versionId)).run (Session.start d x) =
      .ok () (Session.start d x) := by
  have hnone : d.publishError env versionId = none := by
    unfold Db.publishError
    rw [hv, Option.any_some, if_neg hp]
  have hrows : d.autoPublished env.now versionId = d := by
    unfold Db.autoPublished
    rw [hv]
    exact if_neg hp
  rw [autoPublish_run _ _ hd hv, hnone, hrows]

theorem refreshThenPublish_run (env : Env) (caller : Caller) (s : Session Db Outside) :
    (refreshThenPublish env caller versionId).run s =
      match env.fault (.refresh caller) with
      | none => (discard (tryAutoPublishAfterScan env versionId)).run s
      | some e => .error e s := by
  rw [refreshThenPublish, Work.bind_run, call_run]
  cases env.fault (.refresh caller) <;> rfl

/-- A program that goes on as a refresh and an attempt to publish has refreshed with the
rows that the attempt leaves. -/
theorem refreshedRows_publish (hrel : env.Reliable) (hd : d.Sound) {v : PluginVersion}
    (hv : d.versions.lookup versionId = some v) (hcaller : caller ≠ .publishPluginVersion)
    (h : ∀ other e, (w (env.refusing other e)).run (Session.start db x) =
      (refreshThenPublish (env.refusing other e) caller versionId).run (Session.start d x')) :
    refreshedRows w env db x = some (d.autoPublished env.now versionId) := by
  have hown : ∀ e, (w (env.refusing caller e)).run (Session.start db x) =
      .error e (Session.start d x') := by
    intro e
    rw [h, refreshThenPublish_run, Env.refusing_same]
  have hother : ∀ other e, other ≠ caller → (w (env.refusing other e)).run (Session.start db x) =
      (discard (tryAutoPublishAfterScan (env.refusing other e) versionId)).run
        (Session.start d x') := by
    intro other e hne
    rw [h, refreshThenPublish_run, hrel.refusing hne.symm]
  by_cases hp : d.autoPublishes v = true
  · have hlast : Work.committedAt refreshProbe
        (fun e => w (env.refusing .publishPluginVersion e)) db x =
          some (d.autoPublished env.now versionId) := by
      refine Work.committedAt_of_error
        (s := fun _ => Session.start (d.autoPublished env.now versionId) x') fun e he => ?_
      rw [hother _ e hcaller.symm]
      exact autoPublish_fails hd hv hp (refreshProbe_refusal he)
    rw [refreshedRows, Caller.latestFirst, List.findSome?_cons, hlast]
  · have hrows : d.autoPublished env.now versionId = d := by
      unfold Db.autoPublished
      rw [hv]
      exact if_neg hp
    rw [hrows]
    refine findSome?_of_only (a := caller) ?_ ?_ caller.mem_latestFirst
    · exact Work.committedAt_of_error (s := fun _ => Session.start d x') fun e _ => hown e
    · intro other hne
      apply Work.committedAt_of_eq
      rw [hother other _ hne, hother other _ hne, autoPublish_refused hd hv hp,
        autoPublish_refused hd hv hp]

theorem Db.generate_congr (hplugins : db'.plugins = db.plugins)
    (hproviders : db'.config.scanEnabledProviders = db.config.scanEnabledProviders)
    (hlatest : ∀ pluginId, db'.getLatest pluginId db.config.scanEnabledProviders =
      db.getLatest pluginId db.config.scanEnabledProviders) :
    db'.generateRegistryJson = db.generateRegistryJson := by
  have hlist : db'.listPlugin = db.listPlugin := by
    funext registry row
    unfold Db.listPlugin
    rw [hproviders, hlatest]
  rw [Db.generateRegistryJson, Db.generateRegistryJson, hplugins, hlist]

namespace Db.Sound

/-- Two databases that differ in one version, which is the latest in neither, give one
document. -/
theorem generate_unlisted (versionId : VersionId) (h : db.Sound) (h' : db'.Sound)
    (hplugins : db'.plugins = db.plugins) (hconfig : db'.config = db.config)
    (hrest : ∀ i, i ≠ versionId → db'.versions.lookup i = db.versions.lookup i)
    (hold : ∀ v, db.versions.lookup versionId = some v → v.isLatest = false)
    (hnew : ∀ v, db'.versions.lookup versionId = some v → v.isLatest = false) :
    db'.generateRegistryJson = db.generateRegistryJson := by
  have hoffers : ∀ pluginId v, db'.Offers pluginId v ↔ db.Offers pluginId v := by
    intro pluginId v
    unfold Db.Offers
    rw [hconfig]
    constructor
    · rintro ⟨i, hv, hown, hl, hpass⟩
      have hi : i ≠ versionId := by
        rintro rfl
        rw [hnew v hv] at hl
        cases hl
      exact ⟨i, hrest i hi ▸ hv, hown, hl, hpass⟩
    · rintro ⟨i, hv, hown, hl, hpass⟩
      have hi : i ≠ versionId := by
        rintro rfl
        rw [hold v hv] at hl
        cases hl
      exact ⟨i, (hrest i hi).trans hv, hown, hl, hpass⟩
  refine Db.generate_congr hplugins (congrArg _ hconfig) fun pluginId => ?_
  apply Option.ext
  intro v
  rw [h.getLatest_iff, ← hoffers, ← h'.getLatest_iff, hconfig]

/-- A version that can be marked as scanning is not its plugin's latest. -/
theorem not_latest_of_canMark (h : db.Sound) {v : PluginVersion}
    (hv : db.versions.lookup versionId = some v) (hcan : canMarkBuildScanning v = true) :
    v.isLatest = false := by
  cases hl : v.isLatest with
  | false => rfl
  | true =>
    have hactive := ((h.constraints.checked versionId v hv).latestActiveSuccess hl).1
    rw [PluginVersion.canMark_eq_false hl hactive] at hcan
    cases hcan

theorem generate_scanOpened (h : db.Sound) {v : PluginVersion}
    (hv : db.versions.lookup versionId = some v) (now : Time) :
    (db.scanOpened now versionId v).generateRegistryJson = db.generateRegistryJson := by
  have hsound := h.scanOpened now versionId v
  unfold Db.scanOpened at hsound ⊢
  split
  · rename_i hcan
    rw [if_pos hcan] at hsound
    have hl := h.not_latest_of_canMark hv hcan
    refine h.generate_unlisted versionId hsound rfl rfl ?_ ?_ ?_
    · intro i hi
      simp [hi]
    · intro u hu
      rwa [← Option.some.inj (hv.symm.trans hu)]
    · intro u hu
      simp only [Db.lookup_modifyVersion, hv, if_true, Option.map_some] at hu
      rw [← Option.some.inj hu, PluginVersion.isLatest_of_standing (v.beginScan_standing now), hl]
  · rfl

/-- The handler of a failed build marks a version only if it is not its plugin's latest. -/
theorem generate_handled (h : db.Sound) (versionId : VersionId)
    {f : PluginVersion → PluginVersion} (hf : ∀ v, (f v).standing = v.standing)
    (hp : (db.modifyVersion versionId f).Sound)
    (hc : d.Sound) (hsame : d.generateRegistryJson = db.generateRegistryJson) (exc : PyErr) :
    ((db.modifyVersion versionId f).handled d versionId exc).generateRegistryJson =
      db.generateRegistryJson := by
  have hsound := hp.handled hc versionId exc
  cases hv : db.versions.lookup versionId with
  | none =>
    have hnone : (db.modifyVersion versionId f).handled d versionId exc = d := by
      simp [Db.handled, hv]
    rw [hnone, hsame]
  | some v =>
    have hl : (f v).isLatest = v.isLatest := PluginVersion.isLatest_of_standing (hf v)
    by_cases hlatest : v.isLatest = true
    · have hkept : (db.modifyVersion versionId f).handled d versionId exc = d := by
        simp [Db.handled, hv, hl, hlatest]
      rw [hkept, hsame]
    · have hmarked : (db.modifyVersion versionId f).handled d versionId exc =
          (db.modifyVersion versionId f).modifyVersion versionId (·.failedWith exc) := by
        simp [Db.handled, hv, hl, hlatest]
      rw [hmarked] at hsound ⊢
      rw [Bool.not_eq_true] at hlatest
      refine h.generate_unlisted versionId hsound rfl rfl ?_ ?_ ?_
      · intro i hi
        simp [hi]
      · intro u hu
        rwa [← Option.some.inj (hv.symm.trans hu)]
      · intro u hu
        simp only [Db.lookup_modifyVersion, hv, if_true, Option.map_some] at hu
        rw [← Option.some.inj hu]
        exact hl.trans hlatest

theorem generate_failed (h : db.Sound) (versionId : VersionId) (exc : PyErr) :
    (db.handled db versionId exc).generateRegistryJson = db.generateRegistryJson := by
  have hkept := h.generate_handled versionId (f := fun v => v) (fun _ => rfl)
    (by rwa [Db.modifyVersion_id]) h rfl exc
  rwa [Db.modifyVersion_id] at hkept

end Db.Sound

/-- The rows that a program leaves give the document of its last refresh, or if it comes to
none, the document of the rows before. -/
def KeepsUp (w : Env → Op Unit) (env : Env) (db : Db) (x : Outside) (db' : Db) : Prop :=
  ((refreshedRows w env db x).getD db).generateRegistryJson = db'.generateRegistryJson

namespace KeepsUp

/-- A program that ends alike whatever its refreshes do. -/
theorem alike {r : EStateM.Result PyErr (Session Db Outside) Unit}
    (h : ∀ caller e, (w (env.refusing caller e)).run (Session.start db x) = r)
    (hsame : db'.generateRegistryJson = db.generateRegistryJson) : KeepsUp w env db x db' := by
  unfold KeepsUp
  rw [refreshedRows_none fun caller e e' => (h caller e).trans (h caller e').symm]
  exact hsame.symm

theorem call (caller : Caller) (x' : Outside) (hrel : env.Reliable)
    (h : ∀ other e, (w (env.refusing other e)).run (Session.start db x) =
      (PluginRegistry.call (env.refusing other e) (.refresh caller)).run
        (Session.start db' x')) : KeepsUp w env db x db' := by
  unfold KeepsUp
  rw [refreshedRows_call hrel h]
  rfl

theorem publish (caller : Caller) (x' : Outside) (hrel : env.Reliable) (hd : d.Sound)
    {v : PluginVersion}
    (hv : d.versions.lookup versionId = some v) (hcaller : caller ≠ .publishPluginVersion)
    (h : ∀ other e, (w (env.refusing other e)).run (Session.start db x) =
      (refreshThenPublish (env.refusing other e) caller versionId).run (Session.start d x')) :
    KeepsUp w env db x (d.autoPublished env.now versionId) := by
  unfold KeepsUp
  rw [refreshedRows_publish hrel hd hv hcaller h]
  rfl

end KeepsUp

section Operations
variable (hrel : env.Reliable) (h : db.Sound)
include hrel h

theorem setPluginStatus_keepsUp (pluginId : PluginId) (status : PluginStatus)
    (reviewStatus : Option ReviewStatus) :
    KeepsUp (fun env => setPluginStatus env pluginId status reviewStatus) env db x
      (db.afterPluginStatus pluginId status reviewStatus) := by
  have hrun := fun caller e =>
    setPluginStatus_run (env.refusing caller e) x h pluginId status reviewStatus
  unfold Db.afterPluginStatus
  cases ha : db.plugins.lookup pluginId with
  | none =>
    simp only [ha] at hrun
    exact .alike hrun rfl
  | some a =>
    simp only [ha] at hrun
    exact .call _ _ hrel hrun

theorem setVersionStatus_keepsUp (versionId : VersionId) (status : VersionStatus) :
    KeepsUp (fun env => setVersionStatus env versionId status) env db x
      (db.afterVersionStatus versionId status) := by
  have hrun := fun caller e => setVersionStatus_run (env.refusing caller e) x h versionId status
  unfold Db.afterVersionStatus
  cases hv : db.versions.lookup versionId with
  | none =>
    simp only [hv] at hrun
    exact .alike hrun rfl
  | some v =>
    simp only [hv] at hrun
    dsimp only
    by_cases hs : status = .active
    · simp only [hs, if_true] at hrun
      cases hr : db.passRefusal v "Version build must be successful before activation"
          "Version security scan must pass before activation" with
      | none =>
        simp only [hr] at hrun
        rw [if_neg (by simp [Db.passRefusal_eq_none.mp hr]), hs]
        exact .call _ _ hrel hrun
      | some e =>
        simp only [hr] at hrun
        have hp : db.passes v = false := by
          rw [Bool.eq_false_iff]
          intro hp
          rw [Db.passRefusal_eq_none.mpr hp] at hr
          cases hr
        rw [if_pos ⟨hs, hp⟩, hs]
        exact .alike hrun rfl
    · simp only [hs, if_false] at hrun
      rw [if_neg fun hc => hs hc.1]
      exact .call _ _ hrel hrun

theorem setLatestVersion_keepsUp (pluginId : PluginId) (versionId : VersionId) :
    KeepsUp (fun env => setLatestVersion env pluginId versionId) env db x
      (db.afterLatest pluginId versionId) := by
  have hrun := fun caller e => setLatestVersion_run (env.refusing caller e) x h pluginId versionId
  unfold Db.afterLatest
  cases hr : db.latestRefusal pluginId versionId with
  | none =>
    simp only [hr] at hrun
    exact .call _ _ hrel hrun
  | some e =>
    simp only [hr] at hrun
    exact .alike hrun rfl

theorem publishPluginVersion_keepsUp (pluginId : PluginId) (versionId : VersionId)
    (reviewStatus : ReviewStatus) :
    KeepsUp (fun env => publishPluginVersion env pluginId versionId reviewStatus) env db x
      (db.afterPublish env.now pluginId versionId reviewStatus) := by
  have hrun := fun caller e =>
    publishPluginVersion_run (env.refusing caller e) x h pluginId versionId reviewStatus
  unfold Db.afterPublish
  cases hr : db.publishRefusal pluginId versionId reviewStatus with
  | none =>
    simp only [hr] at hrun
    exact .call _ _ hrel hrun
  | some e =>
    simp only [hr] at hrun
    exact .alike hrun rfl

omit hrel in
theorem createPlugin_call (env : Env) (metadata : PluginMetadata) (repoUrl : String) :
    (discard (createPlugin env metadata repoUrl)).run (Session.start db x) =
      if (db.plugins.first fun _ p => p.pluginKey = inferPluginKey env metadata.name).isSome then
        .error (conflict ("Plugin key already exists: " ++ inferPluginKey env metadata.name))
          (Session.start db x)
      else (call env (.refresh .createPlugin)).run
        (Session.start (db.addPlugin (.new (inferPluginKey env metadata.name) metadata repoUrl))
          x) := by
  rw [Work.discard_run, createPlugin_run h, call_run]
  by_cases hk : (db.plugins.first fun _ p => p.pluginKey = inferPluginKey env metadata.name).isSome
  · rw [if_pos hk, if_pos hk]
  · rw [if_neg hk, if_neg hk]
    cases env.fault (.refresh .createPlugin) <;> rfl

theorem createPlugin_keepsUp (metadata : PluginMetadata) (repoUrl : String) :
    KeepsUp (fun env => discard (createPlugin env metadata repoUrl)) env db x
      (db.afterCreate env metadata repoUrl) := by
  have hrun := fun caller e =>
    createPlugin_call (x := x) h (env.refusing caller e) metadata repoUrl
  have hkey : ∀ caller e, inferPluginKey (env.refusing caller e) metadata.name =
      inferPluginKey env metadata.name := fun _ _ => rfl
  simp only [hkey] at hrun
  unfold Db.afterCreate
  split
  · rename_i hk
    refine .alike (fun caller e => (hrun caller e).trans (if_pos hk)) rfl
  · rename_i hk
    exact .call _ _ hrel fun caller e => (hrun caller e).trans (if_neg hk)

theorem uploadVersion_keepsUp (pluginId : PluginId) (metadata : PluginMetadata) (content : Blob)
    (version : String) :
    KeepsUp (fun env => uploadVersion env pluginId metadata content version) env db x
      (db.afterUpload env ∅ pluginId metadata content version).1 := by
  have hrun := fun caller e =>
    uploadVersion_run (env.refusing caller e) x h pluginId metadata content version
  have hinputs : ∀ caller e, db.uploadInputs (env.refusing caller e) pluginId metadata version =
      db.uploadInputs env pluginId metadata version := fun _ _ => rfl
  have hfault : ∀ caller e, (env.refusing caller e).fault .uploadFile = env.fault .uploadFile :=
    fun _ e => Env.refusing_other (by simp) e
  simp only [hinputs, hfault] at hrun
  unfold Db.afterUpload
  cases hi : db.uploadInputs env pluginId metadata version with
  | error e =>
    simp only [hi] at hrun
    exact .alike hrun rfl
  | ok inputs =>
    simp only [hi] at hrun
    cases hf : env.fault .uploadFile with
    | some e =>
      simp only [hf] at hrun
      exact .alike hrun rfl
    | none =>
      simp only [hf] at hrun
      exact .call _ _ hrel hrun

theorem deleteVersion_keepsUp (pluginId : PluginId) (versionId : VersionId) :
    KeepsUp (fun env => deleteVersion env pluginId versionId) env db x
      (db.afterDeleteVersion env ∅ pluginId versionId).1 := by
  have hrun := fun caller e => deleteVersion_run (env.refusing caller e) x h pluginId versionId
  have hfault : ∀ caller e key, (env.refusing caller e).fault (.deleteFile key) =
      env.fault (.deleteFile key) := fun _ e _ => Env.refusing_other (by simp) e
  simp only [Session.start, deleteFile_run, hfault] at hrun
  unfold Db.afterDeleteVersion
  cases hv : (db.versions.lookup versionId).filter fun v => v.pluginId = pluginId with
  | none =>
    simp only [hv] at hrun
    exact .alike hrun rfl
  | some v =>
    simp only [hv] at hrun
    dsimp only
    cases hf : env.fault (.deleteFile (v.s3Key.getD "")) with
    | some e =>
      simp only [hf] at hrun
      rw [if_neg (by simp)]
      exact .alike hrun rfl
    | none =>
      simp only [hf] at hrun
      rw [if_pos rfl]
      exact .call _ { x with bucket := AList.erase (v.s3Key.getD "") x.bucket } hrel hrun

theorem deletePlugin_keepsUp (pluginId : PluginId) :
    KeepsUp (fun env => deletePlugin env pluginId) env db x
      (db.afterDeletePlugin env ∅ pluginId).1 := by
  have hrun := fun caller e => deletePlugin_run (env.refusing caller e) x h pluginId
  have hfault : ∀ caller e key, (env.refusing caller e).fault (.deleteFile key) =
      env.fault (.deleteFile key) := fun _ e _ => Env.refusing_other (by simp) e
  simp only [Env.deletedKeys, hfault] at hrun
  unfold Db.afterDeletePlugin
  cases ha : db.plugins.lookup pluginId with
  | none =>
    simp only [ha] at hrun
    exact .alike hrun rfl
  | some a =>
    simp only [ha] at hrun
    simp only [Option.isNone_some, Bool.false_eq_true, if_false]
    cases hf : (db.s3Keys pluginId).findSome? fun k => env.fault (.deleteFile k) with
    | some e =>
      simp only [hf] at hrun
      exact .alike hrun rfl
    | none =>
      simp only [hf] at hrun
      exact .call _ _ hrel hrun

theorem markScanPending_keepsUp (versionId : VersionId) (providers : Option (List String)) :
    KeepsUp (fun env => markScanPending env versionId providers) env db x
      (db.afterMarkPending env.now versionId providers) := by
  have hrun := fun caller e => markScanPending_run (env.refusing caller e) x h versionId providers
  simp only [Env.refusing_now] at hrun
  unfold Db.afterMarkPending
  cases hv : db.versions.lookup versionId with
  | none =>
    simp only [hv] at hrun
    exact .alike hrun rfl
  | some v =>
    simp only [hv] at hrun
    cases hsel : db.selectedProviders providers with
    | error e =>
      simp only [hsel] at hrun
      exact .alike hrun rfl
    | ok selected =>
      simp only [hsel] at hrun
      exact .call _ _ hrel hrun

theorem markScanSkipped_keepsUp (versionId : VersionId) (providers : Option (List String)) :
    KeepsUp (fun env => markScanSkipped env versionId providers) env db x
      (db.afterMarkSkipped env.now versionId providers) := by
  have hrun := fun caller e => markScanSkipped_run (env.refusing caller e) x h versionId providers
  simp only [Env.refusing_now] at hrun
  unfold Db.afterMarkSkipped
  cases hv : db.versions.lookup versionId with
  | none =>
    simp only [hv] at hrun
    exact .alike hrun rfl
  | some v =>
    simp only [hv] at hrun
    cases hsel : db.selectedProviders providers with
    | error e =>
      simp only [hsel] at hrun
      exact .alike hrun rfl
    | ok selected =>
      simp only [hsel] at hrun
      exact .call _ _ hrel hrun

omit h in
/-- The end of a scan keeps up: the version that waits for another poll refreshes once its
poll is queued, and every other refreshes before it may be published. -/
theorem afterScan_keepsUp (hd : d.Sound) {v : PluginVersion}
    (hv : d.versions.lookup versionId = some v) (outcomes : List (Provider × ScanOutcome))
    (hrun : ∀ caller e, (w (env.refusing caller e)).run (Session.start db x) =
      (afterScan (env.refusing caller e) versionId outcomes).run (Session.start d x')) :
    KeepsUp w env db x (d.afterScan env versionId outcomes) := by
  have hfollow : ∀ caller e, followupTask (env.refusing caller e) outcomes =
      followupTask env outcomes := fun _ _ => rfl
  simp only [afterScan_run, hfollow, hrel.refusing_queue, Outside.queued_refusing] at hrun
  unfold Db.afterScan
  rw [hrel.refresh]
  cases hf : followupTask env outcomes with
  | some delay =>
    simp only [hf] at hrun
    rw [if_neg (by simp)]
    exact .call _ _ hrel hrun
  | none =>
    simp only [hf] at hrun
    rw [if_pos ⟨rfl, rfl⟩]
    refine .publish .scanVersion x' hrel hd hv (by simp) fun other e => ?_
    rw [hrun, refreshThenPublish_run]
    cases (env.refusing other e).fault (.refresh .scanVersion) <;> rfl

theorem scanVersion_keepsUp (versionId : VersionId) (providers : Option (List String)) :
    KeepsUp (fun env => scanVersion env versionId providers) env db x
      (db.scanResult env versionId providers) := by
  have hrun := fun caller e => scanVersion_run (env.refusing caller e) x h versionId providers
  have hscan : ∀ caller e selected, scanSelectedProviders (env.refusing caller e) db.config
      selected = scanSelectedProviders env db.config selected := fun _ _ _ => rfl
  simp only [hscan, Env.refusing_now] at hrun
  unfold Db.scanResult
  cases hsel : db.selectedProviders providers with
  | error e =>
    simp only [hsel] at hrun
    exact .alike hrun rfl
  | ok selected =>
    simp only [hsel] at hrun
    cases hv : db.versions.lookup versionId with
    | none =>
      simp only [hv] at hrun
      exact .alike hrun rfl
    | some v =>
      simp only [hv] at hrun
      dsimp only
      cases hans : scanSelectedProviders env db.config selected with
      | error e =>
        simp only [hans] at hrun
        exact .alike hrun (h.generate_scanOpened hv env.now)
      | ok outcomes =>
        simp only [hans] at hrun
        dsimp only
        by_cases hlate : v.isLatest = true ∧ anyPending outcomes = true
        · rw [if_pos hlate]
          exact .alike (fun caller e => (hrun caller e).trans (if_pos hlate))
            (h.generate_scanOpened hv env.now)
        · rw [if_neg hlate]
          exact afterScan_keepsUp hrel (h.scanned env hv outcomes hlate)
            (Db.scanned_lookup _ hv outcomes) outcomes
            fun caller e => (hrun caller e).trans (if_neg hlate)

omit h in
theorem refreshThenPublish_keepsUp (x' : Outside) (hd : d.Sound) {v : PluginVersion}
    (hv : d.versions.lookup versionId = some v) (hcaller : caller ≠ .publishPluginVersion)
    {o : ScanOutcome} (ho : o.mode ≠ .pending)
    (hrun : ∀ other e, (w (env.refusing other e)).run (Session.start db x) =
      (refreshThenPublish (env.refusing other e) caller versionId).run (Session.start d x')) :
    KeepsUp w env db x (d.afterPoll env caller versionId o) := by
  unfold Db.afterPoll
  rw [if_pos ⟨ho, hrel.refresh caller⟩]
  exact .publish caller x' hrel hd hv hcaller hrun

omit h in
theorem afterPoll_keepsUp (hd : d.Sound) {v : PluginVersion}
    (hv : d.versions.lookup versionId = some v) (o : ScanOutcome)
    (hrun : ∀ caller e, (w (env.refusing caller e)).run (Session.start db x) =
      (afterPoll (env.refusing caller e) versionId o).run (Session.start d x)) :
    KeepsUp w env db x (d.afterPoll env .pollVirustotalAnalysis versionId o) := by
  by_cases ho : o.mode = .pending
  · have hdb : d.afterPoll env .pollVirustotalAnalysis versionId o = d :=
      if_neg fun hc => hc.1 ho
    rw [hdb]
    by_cases hnext : o.virustotalNextPollAt.isSome = true
    · simp only [repoll_run _ _ _ _ ho hnext, hrel.refusing_queue, Outside.queued_refusing,
        Env.refusing_now] at hrun
      exact .call _ _ hrel hrun
    · refine .call .pollVirustotalAnalysis x hrel fun other e => ?_
      rw [hrun, afterPoll, Work.bind_run, Work.when_run, if_neg fun hc => hnext hc.2]
      exact pendingPoll_run ho _
  · refine refreshThenPublish_keepsUp hrel x hd hv (by simp) ho fun other e => ?_
    rw [hrun, afterPoll, Work.bind_run, Work.when_run, if_neg fun hc => ho hc.1,
      refreshThenPublish]
    simp only [Work.bind_run, Work.when_run, ne_eq, ho, not_false_eq_true, if_true]

theorem pollVirustotalAnalysis_keepsUp (versionId : VersionId) :
    KeepsUp (fun env => pollVirustotalAnalysis env versionId) env db x
      (db.pollResult env versionId) := by
  have hrun := fun caller e => pollVirustotalAnalysis_run (env.refusing caller e) x h versionId
  have hdecision : ∀ caller e (v : PluginVersion), v.pollDecision (env.refusing caller e)
      db.config = v.pollDecision env db.config := fun _ _ _ => rfl
  simp only [hdecision, Env.refusing_now] at hrun
  unfold Db.pollResult
  cases hv : db.versions.lookup versionId with
  | none =>
    simp only [hv] at hrun
    exact .alike hrun rfl
  | some v =>
    simp only [hv] at hrun
    dsimp only
    cases hd : v.pollDecision env db.config with
    | idle =>
      simp only [hd] at hrun
      exact .alike hrun rfl
    | failed e =>
      simp only [hd] at hrun
      exact .alike hrun rfl
    | complete o =>
      simp only [hd] at hrun
      have ho := PluginVersion.complete_not_pending hd
      exact refreshThenPublish_keepsUp hrel _ (h.polled _ hv o _ fun hc => ho hc.2)
        (Db.polled_lookup _ hv o _) (by simp) ho hrun
    | recorded o =>
      simp only [hd] at hrun
      dsimp only
      by_cases hlate : v.isLatest = true ∧ o.mode = .pending
      · rw [if_pos hlate]
        exact .alike (fun caller e => (hrun caller e).trans (if_pos hlate)) rfl
      · rw [if_neg hlate]
        exact afterPoll_keepsUp hrel (h.polled _ hv o _ hlate) (Db.polled_lookup _ hv o _) o
          fun caller e => (hrun caller e).trans (if_neg hlate)

/-- Every operation keeps up, a change of the enabled providers apart. -/
theorem Operation.keepsUp (op : Operation)
    (hconfig : ∀ config, op = .setConfig config →
      config.scanEnabledProviders = db.config.scanEnabledProviders) :
    KeepsUp (fun env => op.work env) env db x (op.rows env db) := by
  cases op with
  | createPlugin metadata repoUrl => exact createPlugin_keepsUp hrel h metadata repoUrl
  | setPluginStatus pluginId status reviewStatus =>
    exact setPluginStatus_keepsUp hrel h pluginId status reviewStatus
  | deletePlugin pluginId => exact deletePlugin_keepsUp hrel h pluginId
  | uploadVersion pluginId metadata content version =>
    exact uploadVersion_keepsUp hrel h pluginId metadata content version
  | deleteVersion pluginId versionId => exact deleteVersion_keepsUp hrel h pluginId versionId
  | setVersionStatus versionId status => exact setVersionStatus_keepsUp hrel h versionId status
  | setLatestVersion pluginId versionId => exact setLatestVersion_keepsUp hrel h pluginId versionId
  | publishPluginVersion pluginId versionId reviewStatus =>
    exact publishPluginVersion_keepsUp hrel h pluginId versionId reviewStatus
  | scanVersion versionId providers => exact scanVersion_keepsUp hrel h versionId providers
  | markScanPending versionId providers => exact markScanPending_keepsUp hrel h versionId providers
  | markScanSkipped versionId providers => exact markScanSkipped_keepsUp hrel h versionId providers
  | pollVirustotalAnalysis versionId => exact pollVirustotalAnalysis_keepsUp hrel h versionId
  | setConfig config =>
    refine .alike (fun _ _ => rfl) ?_
    exact Db.generate_congr rfl (hconfig config rfl) fun _ => rfl

omit hrel h in
theorem Db.buildInputs_refusing (pluginId : PluginId) (plugin : Plugin) (version : Option String)
    (caller : Caller) (e : PyErr) :
    db.buildInputs (env.refusing caller e) pluginId plugin version =
      db.buildInputs env pluginId plugin version := by
  have hpreflight : (env.refusing caller e).fault .preflightRepoSize =
      env.fault .preflightRepoSize := Env.refusing_other (by simp) e
  have hclone : (env.refusing caller e).fault .cloneRepo = env.fault .cloneRepo :=
    Env.refusing_other (by simp) e
  unfold Db.buildInputs
  rw [hpreflight, hclone]
  rfl

/-- A build that cannot start leaves no row, and one that starts refreshes once its
version exists. -/
theorem startBuild_keepsUp {pluginId : PluginId} (plugin : Plugin)
    (hown : (db.plugins.lookup pluginId).isSome) (version : Option String) :
    (∀ e, db.buildInputs env pluginId plugin version = .error e →
      KeepsUp (fun env => discard (startBuild env pluginId plugin version)) env db x db) ∧
      ∀ inputs, db.buildInputs env pluginId plugin version = .ok inputs →
        KeepsUp (fun env => discard (startBuild env pluginId plugin version)) env db x
          (db.buildStarted env.now pluginId plugin inputs.1) := by
  have hrun := fun caller e => startBuild_run (env.refusing caller e) x h plugin hown version
  simp only [Db.buildInputs_refusing, Env.refusing_now] at hrun
  constructor
  · intro e he
    simp only [he] at hrun
    refine .alike (r := .error e (Session.start db x)) (fun caller e => ?_) rfl
    rw [Work.discard_run, hrun]
  · intro inputs hi
    simp only [hi] at hrun
    refine .call .createVersion x hrel fun caller e => ?_
    rw [Work.discard_run, hrun, call_run]
    cases (env.refusing caller e).fault (.refresh .createVersion) <;> rfl

theorem updateStep_keepsUp (job : BuildJob) :
    KeepsUp (fun env => job.step env .update) env db x (job.updateRows env db) := by
  have hrun := fun caller e => updateStep_run (env.refusing caller e) job x h
  unfold BuildJob.updateRows
  rw [hrel.refresh]
  cases hv : db.versions.lookup job.versionId with
  | none =>
    simp only [hv] at hrun
    exact .alike hrun rfl
  | some v =>
    simp only [hv] at hrun
    by_cases hold : db.commitTaken job.versionId job.commitSha = true
    · rw [if_pos (by simp [hold])]
      exact .alike (fun caller e => (hrun caller e).trans (if_pos hold)) rfl
    · rw [if_neg (by simp [hold])]
      exact .call _ _ hrel fun caller e => (hrun caller e).trans (if_neg hold)

omit h in
/-- The end of a build's scan keeps up, whether or not its publication sees the results. -/
theorem afterBuildScan_keepsUp (hd : d.Sound) (job : BuildJob) {v : PluginVersion}
    (hv : d.versions.lookup job.versionId = some v) (outcomes : List (Provider × ScanOutcome))
    (hrun : ∀ caller e, (w (env.refusing caller e)).run (Session.start db x) =
      (afterScan (env.refusing caller e) job.versionId outcomes job.resultsLoaded).run
        (Session.start d x')) :
    KeepsUp w env db x (d.afterBuildScan env job outcomes) := by
  unfold Db.afterBuildScan
  cases hsees : d.seesResults job.resultsLoaded with
  | true =>
    simp only [afterScan_seen hd hv hsees] at hrun
    exact afterScan_keepsUp hrel hd hv outcomes hrun
  | false =>
    have hfollow : ∀ caller e, followupTask (env.refusing caller e) outcomes =
        followupTask env outcomes := fun _ _ => rfl
    simp only [afterScan_unseen hd hv hsees, hfollow, hrel.refusing_queue,
      Outside.queued_refusing] at hrun
    cases hf : followupTask env outcomes with
    | some delay =>
      simp only [hf] at hrun
      exact .call _ _ hrel hrun
    | none =>
      simp only [hf] at hrun
      exact .call _ _ hrel hrun

/-- The handler adds nothing to the document that the last step of a build leaves. -/
theorem scanStep_keepsUp (job : BuildJob) :
    KeepsUp (fun env => job.step env .scan) env db x (job.scanRows env db) := by
  have hrun := fun caller e =>
    scanVersion_run (env.refusing caller e) x h job.versionId none job.resultsLoaded
  have hscan : ∀ caller e selected, scanSelectedProviders (env.refusing caller e) db.config
      selected = scanSelectedProviders env db.config selected := fun _ _ _ => rfl
  have hsel : db.selectedProviders none = .ok db.enabledProviders := rfl
  simp only [hsel, hscan, Env.refusing_now] at hrun
  unfold BuildJob.scanRows
  cases hv : db.versions.lookup job.versionId with
  | none =>
    simp only [hv] at hrun
    exact .alike hrun rfl
  | some v =>
    simp only [hv] at hrun
    have hopened := h.generate_scanOpened hv env.now
    dsimp only
    cases hans : scanSelectedProviders env db.config db.enabledProviders with
    | error e =>
      simp only [hans] at hrun
      exact .alike hrun (h.generate_handled job.versionId
        (fun v => v.beginScan_standing env.now) (h.beginScan env.now)
        (h.scanOpened env.now job.versionId v) hopened e)
    | ok outcomes =>
      simp only [hans] at hrun
      dsimp only
      by_cases hlate : v.isLatest = true ∧ anyPending outcomes = true
      · rw [if_pos hlate]
        exact .alike (fun caller e => (hrun caller e).trans (if_pos hlate)) hopened
      · rw [if_neg hlate]
        have hnone : (db.scanned env.now job.versionId outcomes).afterBuildScanError env job
            outcomes = none := by
          simp [Db.afterBuildScanError, Db.afterScanError, Db.publishError, hrel.queue,
            hrel.refresh]
        rw [hnone]
        exact afterBuildScan_keepsUp hrel (h.scanned env hv outcomes hlate) job
          (Db.scanned_lookup _ hv outcomes) outcomes
          fun caller e => (hrun caller e).trans (if_neg hlate)

theorem BuildJob.keepsUp (job : BuildJob) (step : BuildStep) :
    KeepsUp (fun env => job.step env step) env db x (job.rows env db x step) := by
  cases step with
  | pack =>
    refine .alike (r := (job.step env .pack).run (Session.start db x)) (fun caller e => ?_) ?_
    · have hopen : (env.refusing caller e).fault .openZipFile = env.fault .openZipFile :=
        Env.refusing_other (by simp) e
      simp only [packStep_run, BuildJob.packError, BuildJob.packFiles, hopen]
    · unfold BuildJob.rows
      cases job.packError env with
      | none => rfl
      | some e => exact h.generate_failed job.versionId e
  | upload =>
    refine .alike (r := (job.step env .upload).run (Session.start db x)) (fun caller e => ?_) ?_
    · have hupload : (env.refusing caller e).fault .uploadFile = env.fault .uploadFile :=
        Env.refusing_other (by simp) e
      simp only [uploadStep_run, BuildJob.uploadError, BuildJob.uploadBucket, hupload]
    · unfold BuildJob.rows
      cases job.uploadError env x with
      | none => rfl
      | some e => exact h.generate_failed job.versionId e
  | update => exact updateStep_keepsUp hrel h job
  | scan => exact scanStep_keepsUp hrel h job

end Operations

/-- A step in which the refreshes and the queue work, and that leaves the enabled
providers as they are. -/
structure Event.Reliable (db : Db) (e : Event) : Prop where
  env : e.env.Reliable
  providers : ∀ config env, e = .perform (.setConfig config) env →
    config.scanEnabledProviders = db.config.scanEnabledProviders

/-- Every reliable step leaves rows that give the document of its last refresh. -/
theorem World.keepsUp {w : World} (h : w.db.Sound) {e : Event} (he : e.Reliable w.db) :
    KeepsUp (w.program e) e.env w.db w.outside (w.step e).db := by
  cases e with
  | perform op env =>
    rw [World.step, World.perform_db h]
    refine Operation.keepsUp he.env h op fun config hop => ?_
    exact he.providers config env (by rw [hop])
  | startBuild pluginId version env =>
    rw [World.step, World.startBuild_eq h]
    cases ha : w.db.plugins.lookup pluginId with
    | none =>
      have hprogram : w.program (.startBuild pluginId version env) = fun _ => pure () := by
        funext env
        simp only [World.program, ha]
      rw [hprogram]
      exact .alike (fun _ _ => rfl) rfl
    | some plugin =>
      have hprogram : w.program (.startBuild pluginId version env) =
          fun env => discard (PluginRegistry.startBuild env pluginId plugin version) := by
        funext env
        simp only [World.program, ha]
      obtain ⟨hrefused, hstarted⟩ := startBuild_keepsUp (x := w.outside) he.env h plugin
        (by rw [ha]; rfl) version
      rw [hprogram]
      dsimp only
      cases hi : w.db.buildInputs env pluginId plugin version with
      | error e => exact hrefused e hi
      | ok inputs => exact hstarted inputs hi
  | advance versionId env =>
    rw [World.step]
    cases hb : w.builds.lookup versionId with
    | none =>
      have hprogram : w.program (.advance versionId env) = fun _ => pure () := by
        funext env
        simp only [World.program, hb]
      rw [World.advance_none hb, hprogram]
      exact .alike (fun _ _ => rfl) rfl
    | some build =>
      have hprogram : w.program (.advance versionId env) =
          fun env => build.job.step env build.next := by
        funext env
        simp only [World.program, hb]
      obtain ⟨x', -, hstep⟩ := World.advance_some h hb env
      rw [hstep, hprogram]
      exact BuildJob.keepsUp he.env h build.job build.next

namespace CacheState

variable {j : Option Registry} {m : Option String} {calls : Table Nat CacheCall}
  {session : SessionRows} {after : AfterGenerate} {registry : Registry}

theorem advance_reread :
    ((⟨db, j, m, calls⟩ : CacheState).setCall 0 ⟨session, .reread .nothing⟩).advance md5 0 =
      (⟨db, j, m, calls⟩ : CacheState).setCall 0 ⟨session, .deleteKeys⟩ := by
  simp [advance, setCall, AList.insert_insert, SessionRows.reread]

theorem advance_deleteKeys :
    ((⟨db, j, m, calls⟩ : CacheState).setCall 0 ⟨session, .deleteKeys⟩).advance md5 0 =
      (⟨db, none, none, calls⟩ : CacheState).setCall 0 ⟨session, .getJson .refreshMd5⟩ := by
  simp [advance, setCall, AList.insert_insert]

theorem advance_getJson_hit :
    ((⟨db, some registry, m, calls⟩ : CacheState).setCall 0 ⟨session, .getJson after⟩).advance md5 0 =
      (⟨db, some registry, m, calls⟩ : CacheState).setCall 0 ⟨session, after.stage registry⟩ := by
  simp [advance, setCall, AList.insert_insert]

/-- Nothing comes between the reads of a call that runs alone. -/
theorem advance_getJson_miss (h : session.Agrees db) :
    ((((⟨db, none, m, calls⟩ : CacheState).setCall 0 ⟨session, .getJson after⟩).advance md5 0).advance
        md5 0).advance md5 0 =
      (⟨db, none, m, calls⟩ : CacheState).setCall 0
        ⟨session.fetch db, .setJson db.generateRegistryJson after⟩ := by
  simp [advance, setCall, AList.insert_insert, SessionRows.view_eq h]

theorem advance_setJson :
    ((⟨db, j, m, calls⟩ : CacheState).setCall 0 ⟨session, .setJson registry after⟩).advance md5 0 =
      (⟨db, some registry, m, calls⟩ : CacheState).setCall 0 ⟨session, after.stage registry⟩ := by
  simp [advance, setCall, AList.insert_insert]

theorem advance_getMd5_hit {text : String} :
    ((⟨db, j, some text, calls⟩ : CacheState).setCall 0 ⟨session, .getMd5⟩).advance md5 0 =
      (⟨db, j, some text, calls⟩ : CacheState).setCall 0 ⟨session, .finished⟩ := by
  simp [advance, setCall, AList.insert_insert]

theorem advance_getMd5_miss :
    ((⟨db, j, none, calls⟩ : CacheState).setCall 0 ⟨session, .getMd5⟩).advance md5 0 =
      (⟨db, j, none, calls⟩ : CacheState).setCall 0 ⟨session, .getJson .digest⟩ := by
  simp [advance, setCall, AList.insert_insert]

theorem advance_setMd5 :
    ((⟨db, j, m, calls⟩ : CacheState).setCall 0 ⟨session, .setMd5 registry⟩).advance md5 0 =
      (⟨db, j, some (md5 registry), calls⟩ : CacheState).setCall 0 ⟨session, .finished⟩ := by
  simp [advance, setCall, AList.insert_insert]

theorem advance_finished (c : CacheState) :
    (c.setCall 0 ⟨session, .finished⟩).advance md5 0 = c.setCall 0 ⟨session, .finished⟩ := by
  simp [advance, setCall]

end CacheState

namespace Served
open CacheState

variable {s : Served} {session : SessionRows}

/-- A refresh by a session that is up to date leaves the document of the rows it reads, and
its checksum. -/
theorem call_write (s : Served) (h : session.Agrees db) :
    s.call md5 db (.write 0 db session .nothing) =
      { s with
        json := some db.generateRegistryJson
        md5 := some (md5 db.generateRegistryJson) } := by
  have hstart : CacheState.step md5 ⟨db, s.json, s.md5, ∅⟩ (.write 0 db session .nothing) =
      (⟨db, s.json, s.md5, ∅⟩ : CacheState).setCall 0 ⟨session, .reread .nothing⟩ := rfl
  simp only [call, Machine.runFrom, cacheService, List.replicate, List.foldl_cons, List.foldl_nil,
    hstart]
  simp only [CacheState.step, advance_reread, advance_deleteKeys, advance_getJson_miss h,
    advance_setJson, AfterGenerate.stage, advance_getMd5_miss, advance_getJson_hit,
    advance_setMd5, advance_finished]
  rfl

theorem call_generate (s : Served) (db : Db) :
    s.call md5 db (.generate 0) =
      { s with json := some (s.json.getD db.generateRegistryJson) } := by
  have hstart : CacheState.step md5 ⟨db, s.json, s.md5, ∅⟩ (.generate 0) =
      (⟨db, s.json, s.md5, ∅⟩ : CacheState).setCall 0 ⟨.empty, .getJson .finish⟩ := rfl
  simp only [call, Machine.runFrom, cacheService, List.replicate, List.foldl_cons, List.foldl_nil,
    hstart]
  cases s.json with
  | none =>
    simp only [CacheState.step, advance_getJson_miss (SessionRows.empty_agrees db),
      advance_setJson, AfterGenerate.stage, advance_finished]
    rfl
  | some registry =>
    simp only [CacheState.step, advance_getJson_hit, AfterGenerate.stage, advance_finished]
    rfl

theorem call_getMd5_hit {text : String} (s : Served) (db : Db) (h : s.md5 = some text) :
    s.call md5 db (.getMd5 0) = s := by
  have hstart : CacheState.step md5 ⟨db, s.json, s.md5, ∅⟩ (.getMd5 0) =
      (⟨db, s.json, s.md5, ∅⟩ : CacheState).setCall 0 ⟨.empty, .getMd5⟩ := rfl
  simp only [call, Machine.runFrom, cacheService, List.replicate, List.foldl_cons, List.foldl_nil,
    hstart]
  simp only [h, CacheState.step, advance_getMd5_hit, advance_finished]
  rw [CacheState.setCall, ← h]

theorem call_getMd5_miss (s : Served) (db : Db) (h : s.md5 = none) :
    s.call md5 db (.getMd5 0) =
      { s with
        json := some (s.json.getD db.generateRegistryJson)
        md5 := some (md5 (s.json.getD db.generateRegistryJson)) } := by
  have hstart : CacheState.step md5 ⟨db, s.json, s.md5, ∅⟩ (.getMd5 0) =
      (⟨db, s.json, s.md5, ∅⟩ : CacheState).setCall 0 ⟨.empty, .getMd5⟩ := rfl
  simp only [call, Machine.runFrom, cacheService, List.replicate, List.foldl_cons, List.foldl_nil,
    hstart]
  rw [h]
  cases s.json with
  | none =>
    simp only [CacheState.step, advance_getMd5_miss,
      advance_getJson_miss (SessionRows.empty_agrees db), advance_setJson,
      AfterGenerate.stage, advance_setMd5, advance_finished]
    rfl
  | some registry =>
    simp only [CacheState.step, advance_getMd5_miss, advance_getJson_hit, AfterGenerate.stage,
      advance_setMd5, advance_finished]
    rfl

structure Current (md5 : Registry → String) (s : Served) : Prop where
  json : ∀ registry, s.json = some registry → registry = s.world.db.generateRegistryJson
  digest : ∀ text, s.md5 = some text → text = md5 s.world.db.generateRegistryJson

def Serves (md5 : Registry → String) (s : Served) : Prop :=
  s.document = s.world.db.generateRegistryJson ∧
    s.checksum md5 = md5 s.world.db.generateRegistryJson

theorem Current.document (h : s.Current md5) :
    s.document = s.world.db.generateRegistryJson := by
  unfold Served.document
  cases hj : s.json with
  | none => rfl
  | some registry => exact h.json registry hj

theorem Current.serves (h : s.Current md5) : s.Serves md5 := by
  refine ⟨h.document, ?_⟩
  unfold Served.checksum
  cases hm : s.md5 with
  | none => exact congrArg md5 h.document
  | some text => exact h.digest text hm

theorem current_of_refresh {world : World} (hread : session.Agrees db)
    (h : db.generateRegistryJson = world.db.generateRegistryJson) :
    Current md5 { s.call md5 db (.write 0 db session .nothing) with world } := by
  rw [call_write s hread]
  constructor
  · rintro registry ⟨⟩
    exact h
  · rintro text ⟨⟩
    exact congrArg md5 h

theorem call_world (s : Served) (db : Db) (event : CacheEvent) :
    (s.call md5 db event).world = s.world := by
  unfold call
  rfl

theorem act_world (md5 : Registry → String) (s : Served) (e : Event) (session : SessionRows) :
    (s.act md5 e session).world = s.world.step e := by
  unfold act
  split <;> rfl

/-- Every step of the machine moves the service as its own step does, or not at all. -/
theorem step_world (md5 : Registry → String) (s : Served) (e : ServedEvent) :
    (s.step md5 e).world = s.world ∨ ∃ event, (s.step md5 e).world = s.world.step event := by
  cases e with
  | act event session => exact .inr ⟨event, act_world md5 s event session⟩
  | generate => exact .inl (call_world ..)
  | getMd5 => exact .inl (call_world ..)
  | refresh => exact .inl (call_world ..)
  | expire key => cases key <;> exact .inl rfl

theorem step_sound (md5 : Registry → String) (h : s.world.db.Sound) (e : ServedEvent) :
    (s.step md5 e).world.db.Sound := by
  rcases step_world md5 s e with hw | ⟨event, hw⟩
  · rwa [hw]
  · rw [hw]
    exact World.step_sound h event

/-- The objects that the session of a step keeps are what the step's last refresh finds. -/
def UpToDate (s : Served) (e : Event) (session : SessionRows) : Prop :=
  ∀ rows, refreshedRows (s.world.program e) e.env s.world.db s.world.outside = some rows →
    session.Agrees rows

/-- A reliable step refreshes the cache, or changes neither the document nor the cache. -/
theorem act_cases (h : s.world.db.Sound) {e : Event} (he : e.Reliable s.world.db)
    (hread : s.UpToDate e session) :
    (s.act md5 e session).Current md5 ∨
      s.act md5 e session = { s with world := s.world.step e } ∧
        (s.world.step e).db.generateRegistryJson = s.world.db.generateRegistryJson := by
  have hkeeps := World.keepsUp h he
  unfold KeepsUp at hkeeps
  unfold act
  cases hr : refreshedRows (s.world.program e) e.env s.world.db s.world.outside with
  | none =>
    rw [hr] at hkeeps
    exact .inr ⟨rfl, hkeeps.symm⟩
  | some rows =>
    rw [hr] at hkeeps
    exact .inl (current_of_refresh (hread rows hr) hkeeps)

/-- The steps whose refreshes and queue work, in a session that is up to date. The reads and
the admin's refresh always are. -/
def Reliable (s : Served) : ServedEvent → Prop
  | .act event session => event.Reliable s.world.db ∧ s.UpToDate event session
  | _ => True

theorem Current.generate (h : s.Current md5) :
    (s.call md5 s.world.db (.generate 0)).Current md5 := by
  rw [call_generate]
  constructor
  · rintro registry ⟨⟩
    exact h.document
  · exact h.digest

theorem Current.getMd5 (h : s.Current md5) :
    (s.call md5 s.world.db (.getMd5 0)).Current md5 := by
  cases hm : s.md5 with
  | some text => rwa [call_getMd5_hit s _ hm]
  | none =>
    rw [call_getMd5_miss s _ hm]
    constructor
    · rintro registry ⟨⟩
      exact h.document
    · rintro text ⟨⟩
      exact congrArg md5 h.document

theorem current_of_write (s : Served) :
    (s.call md5 s.world.db (.write 0 s.world.db .empty .nothing)).Current md5 := by
  rw [call_write s (SessionRows.empty_agrees _)]
  constructor
  · rintro registry ⟨⟩
    rfl
  · rintro text ⟨⟩
    rfl

/-- A reliable step keeps the cached document current. -/
theorem Current.step (hs : s.world.db.Sound) (h : s.Current md5) {e : ServedEvent}
    (he : s.Reliable e) : (s.step md5 e).Current md5 := by
  cases e with
  | act event session =>
    rcases act_cases hs he.1 he.2 with hcurrent | ⟨heq, hsame⟩
    · exact hcurrent
    · change (s.act md5 event session).Current md5
      rw [heq]
      constructor
      · intro registry hj
        exact (h.json registry hj).trans hsame.symm
      · intro text hm
        exact (h.digest text hm).trans (congrArg md5 hsame.symm)
  | generate => exact h.generate
  | getMd5 => exact h.getMd5
  | refresh => exact current_of_write s
  | expire key =>
    cases key with
    | json =>
      refine ⟨?_, h.digest⟩
      rintro registry ⟨⟩
    | md5 =>
      refine ⟨h.json, ?_⟩
      rintro text ⟨⟩

end Served

/-- While every step is reliable, a client gets the document of the current rows and its
checksum. After any run at all, a refresh makes up for what was missed, and so does the
next reliable step that changes the document. -/
theorem served_registry_is_current (md5 : Registry → String) (config : RuntimeConfig) :
    (∀ events, (∀ x ∈ (servedService md5 config).steps (servedService md5 config).init events,
        x.1.Reliable x.2) →
      ∀ s ∈ (servedService md5 config).states (servedService md5 config).init events,
        s.Serves md5) ∧
      ∀ s, (servedService md5 config).Reachable s → (s.step md5 .refresh).Serves md5 ∧
        ∀ e session, s.Reliable (.act e session) →
          (s.world.step e).db.generateRegistryJson ≠ s.world.db.generateRegistryJson →
            (s.step md5 (.act e session)).Serves md5 := by
  have hempty : (servedService md5 config).init.world.db.Sound := Db.Sound.empty config
  constructor
  · intro events hevents s hs
    have hrun := Machine.guarded_run (m := servedService md5 config)
      (fun s => s.world.db.Sound ∧ s.Current md5) Served.Reliable
      (fun s e hs he => ⟨Served.step_sound md5 hs.1 e, hs.2.step hs.1 he⟩)
      ⟨hempty, by rintro _ ⟨⟩, by rintro _ ⟨⟩⟩ hevents
    exact (hrun s hs).2.serves
  · intro s hs
    have hsound : s.world.db.Sound :=
      Machine.Reachable.induct (fun s => s.world.db.Sound) hempty
        (fun s e h => Served.step_sound md5 h e) hs
    refine ⟨(Served.current_of_write s).serves, fun e session he hchange => ?_⟩
    rcases Served.act_cases hsound he.1 he.2 with hcurrent | ⟨-, hsame⟩
    · exact hcurrent.serves
    · exact absurd hsame hchange

theorem Env.calm_reliable (now : Time) : (Env.calm now).Reliable :=
  ⟨fun _ => rfl, rfl⟩

/-- A document is cached before the plugin is published. -/
def servedRun : List ServedEvent :=
  .generate :: publishedRun.map fun event => .act event .empty

theorem served_registry_is_current_published :
    let m := servedService (fun _ => "") .default
    (m.runFrom m.init servedRun).Serves (fun _ => "") ∧
      ((m.runFrom m.init servedRun).document.lookup "demo").isSome = true := by
  intro m
  have hreliable : ∀ x ∈ m.steps m.init servedRun, x.1.Reliable x.2 := by
    intro x hx
    simp only [servedRun, publishedRun, List.map_cons, List.map_nil, Machine.steps, List.mem_cons,
      List.not_mem_nil, or_false] at hx
    rcases hx with rfl | rfl | rfl | rfl | rfl
    · trivial
    all_goals exact ⟨⟨Env.calm_reliable _, fun _ _ h => by cases h⟩,
      fun rows _ => SessionRows.empty_agrees rows⟩
  have hserves := (served_registry_is_current (fun _ => "") .default).1 servedRun hreliable _
    (Machine.run_mem_states m.init servedRun)
  refine ⟨hserves, ?_⟩
  rw [hserves.1]
  decide +kernel

end PluginRegistry
