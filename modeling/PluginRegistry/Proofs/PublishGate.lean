import PluginRegistry.Clients.Dashboard
import PluginRegistry.Proofs.ProviderSwitches

namespace PluginRegistry
open Lib

namespace Dashboard

variable {version : PluginVersion} {required : List Provider} {scannedAt : Option String}

def summaryFields (version : PluginVersion) (required : List Provider)
    (scannedAt : Option String) : JsonObject :=
  scanEntries version (some required) ++
    [("scanned_at", scannedAt.elim .null .str),
      ("required_providers", .arr (required.map fun p => .str p.name))]

theorem get_scanEntries {key : String} (hkey : ∀ p : Provider, p.name ≠ key)
    (providers : Option (List Provider)) :
    JsonObject.get (scanEntries version providers) key = none := by
  rw [JsonObject.get, Option.map_eq_none_iff, List.find?_eq_none]
  intro entry he
  obtain ⟨p, -, hp⟩ := List.mem_filterMap.mp he
  obtain ⟨result, -, rfl⟩ := Option.map_eq_some_iff.mp hp
  simpa using hkey p

theorem set_missing {d : JsonObject} {key : String} (value : Json) (h : d.get key = none) :
    d.set key value = d ++ [(key, value)] := by
  simp [JsonObject.set, h]

theorem get_cons (field : String × Json) (d : JsonObject) (key : String) :
    JsonObject.get (field :: d) key = if field.1 = key then some field.2 else d.get key := by
  by_cases h : field.1 = key
  · simp [JsonObject.get, h]
  · simp [JsonObject.get, h]

theorem summary_scan (version : PluginVersion) (required : List Provider)
    (scannedAt : Option String) :
    (versionSummary version (some required) scannedAt).scan =
      .obj (summaryFields version required scannedAt) := by
  have hscanned : JsonObject.get (scanEntries version (some required)) "scanned_at" = none :=
    get_scanEntries (fun p => by cases p <;> decide) _
  have hrequired : JsonObject.get (scanEntries version (some required) ++
      [("scanned_at", scannedAt.elim .null .str)]) "required_providers" = none := by
    rw [JsonObject.get_append, get_scanEntries (fun p => by cases p <;> decide) _, get_cons]
    rfl
  simp only [versionSummary, versionScanSummary, Option.isNone_some, Bool.and_false,
    Bool.false_eq_true, if_false, Option.getD_some, set_missing _ hscanned,
    set_missing _ hrequired, summaryFields, List.append_assoc]
  rfl

theorem enabled_summary :
    enabledScanProviders (.obj (summaryFields version required scannedAt)) =
      some (required.map Provider.name) := by
  have hrequired : JsonObject.get (scanEntries version (some required)) "required_providers" =
      none :=
    get_scanEntries (fun p => by cases p <;> decide) _
  have hget : property (.obj (summaryFields version required scannedAt)) "required_providers" =
      some (.arr (required.map fun p => .str p.name)) := by
    rw [property, summaryFields, JsonObject.get_append, hrequired, Option.none_or, get_cons,
      if_neg (show ¬ "scanned_at" = "required_providers" by decide), get_cons, if_pos rfl]
  have hnames : (required.map fun p => Json.str p.name).filterMap asString =
      required.map Provider.name := by
    rw [List.filterMap_map]
    exact congrFun (List.filterMap_eq_map' (f := Provider.name)) required
  simp only [enabledScanProviders, hget, hnames]

theorem isScanProviderResult_json (result : ScanPayload) :
    isScanProviderResult result.json = true := by
  simp [isScanProviderResult, property, ScanPayload.json, get_cons, asString]

/-- A result is recorded for a selected provider only. -/
theorem mem_of_result {providers : List Provider} {p : Provider} {result : ScanPayload}
    (h : scanProviderResults version (some providers) p = some result) : p ∈ providers := by
  unfold scanProviderResults at h
  split at h
  · rename_i hp
    simpa using hp
  · cases h

/-- The entries of one provider in a summary. -/
theorem filter_scanEntries (providers : Option (List Provider)) (p : Provider) :
    (scanEntries version providers).filter (fun entry => entry.1 = p.name) =
      ((scanProviderResults version providers p).map fun result =>
        (p.name, result.json)).toList := by
  have horder : Provider.names.filter (·.legacyPublic) ++
      Provider.names.filter (fun p => !p.legacyPublic) = [.virustotal, .llmAgent, .clamav] := rfl
  rw [scanEntries, horder]
  cases hv : scanProviderResults version providers .virustotal <;>
    cases hl : scanProviderResults version providers .llmAgent <;>
    cases hc : scanProviderResults version providers .clamav <;>
    cases p <;> simp [hv, hl, hc, Provider.name]

/-- Only one entry of a summary names a given provider. -/
theorem filter_summaryFields (p : Provider) :
    (summaryFields version required scannedAt).filter (fun entry => entry.1 = p.name) =
      ((scanProviderResults version (some required) p).map fun result =>
        (p.name, result.json)).toList := by
  have hscanned : "scanned_at" ≠ p.name := by
    cases p <;> decide
  have hrequired : "required_providers" ≠ p.name := by
    cases p <;> decide
  rw [summaryFields, List.filter_append, filter_scanEntries]
  simp [hscanned, hrequired]

/-- What the dashboard finds for a required provider is what is recorded for it. -/
theorem mapGet_summary {p : Provider} (hp : p ∈ required) :
    mapGet (scanProviderEntries (.obj (summaryFields version required scannedAt))) p.name =
      (scanProviderResults version (some required) p).map ScanPayload.json := by
  have hkept : ∀ entry ∈ (summaryFields version required scannedAt).filter
      (fun entry => entry.1 = p.name),
      (((enabledScanProviders (.obj (summaryFields version required scannedAt))).all
        fun enabled => enabled.contains entry.1) && entry.1 ≠ "scanned_at" &&
          isScanProviderResult entry.2) = true := by
    intro entry he
    rw [filter_summaryFields, Option.mem_toList, Option.map_eq_some_iff] at he
    obtain ⟨result, -, rfl⟩ := he
    have hname : p.name ≠ "scanned_at" := by
      cases p <;> decide
    have henabled : (required.map Provider.name).contains p.name = true :=
      List.contains_iff_mem.mpr (List.mem_map_of_mem hp)
    simp only [enabled_summary, Option.all_some, henabled, isScanProviderResult_json,
      decide_eq_true hname, Bool.and_true]
  have hperm : ((scanProviderEntries (.obj (summaryFields version required scannedAt))).filter
      fun entry => entry.1 = p.name).Perm
        ((scanProviderResults version (some required) p).map fun result =>
          (p.name, result.json)).toList := by
    refine ((List.mergeSort_perm _ _).filter _).trans (.of_eq ?_)
    rw [List.filter_comm, List.filter_eq_self.mpr hkept, filter_summaryFields]
  rw [mapGet]
  cases hr : scanProviderResults version (some required) p with
  | none =>
    rw [hr] at hperm
    rw [List.Perm.eq_nil hperm]
    rfl
  | some result =>
    rw [hr] at hperm
    rw [List.perm_singleton.mp hperm]
    rfl

theorem hasMode_json (result : ScanPayload) (mode : ScanMode) :
    hasMode result.json mode.text = decide (result.mode = mode) := by
  have hget : property result.json "mode" = some (.str result.mode.text) := by
    simp [property, ScanPayload.json, get_cons]
  rw [hasMode, hget]
  cases result.mode <;> cases mode <;> decide

/-- The dashboard lets a result pass exactly when the policy does. -/
theorem blocks_json (result : ScanPayload) : blocks (some result.json) = !result.passes := by
  have hpass : property result.json "pass" = some (result.pass.elim .null .bool) := by
    simp [property, ScanPayload.json, get_cons]
  have hskipped := hasMode_json result .skipped
  have hpending := hasMode_json result .pending
  have herror := hasMode_json result .error
  simp only [ScanMode.text] at hskipped hpending herror
  simp only [blocks, hskipped, hpending, herror, hpass, ScanPayload.passes]
  cases result.mode with
  | pending => rfl
  | skipped => rfl
  | error => rfl
  | real =>
    cases result.pass with
    | none => rfl
    | some pass => cases pass <;> rfl

theorem requiredProviderResults_summary :
    requiredProviderResults (.obj (summaryFields version required scannedAt)) =
      some (required.map fun p =>
        (scanProviderResults version (some required) p).map ScanPayload.json) := by
  rw [requiredProviderResults, enabled_summary, Option.map_some, List.map_map]
  congr 1
  exact List.map_congr_left fun p hp => mapGet_summary hp

/-- A required provider's result is the one that the policy looks at. -/
theorem result_of_required {p : Provider} (hp : p ∈ required) :
    scanProviderResults version (some required) p = scanProviderResults version none p := by
  have hcontains : required.contains p = true := List.contains_iff_mem.mpr hp
  simp only [scanProviderResults, Option.all_some, Option.all_none, hcontains]

/-- The dashboard sees a blocking result exactly when the scans have not passed. -/
theorem scanHasBlockingResult_summary :
    scanHasBlockingResult (.obj (summaryFields version required scannedAt)) =
      !scanProvidersPassed version (some required) := by
  have hpassed : scanProvidersPassed version (some required) =
      required.all fun p => (scanProviderResults version none p).any ScanPayload.passes := rfl
  rw [scanHasBlockingResult, requiredProviderResults_summary, Option.getD_some, List.any_map,
    hpassed, List.not_all_eq_any_not, Bool.eq_iff_iff, List.any_eq_true, List.any_eq_true]
  refine exists_congr fun p => and_congr_right fun hp => ?_
  rw [Function.comp_apply, result_of_required hp]
  cases scanProviderResults version none p with
  | none => simp [blocks]
  | some result => simp [blocks_json]

/-- A missing or pending result is a blocking one. -/
theorem blocking_of_pending
    (h : scanHasPending (.obj (summaryFields version required scannedAt)) = true) :
    scanHasBlockingResult (.obj (summaryFields version required scannedAt)) = true := by
  simp only [scanHasPending, requiredProviderResults_summary, List.any_map] at h
  obtain ⟨p, hp, hpending⟩ := List.any_eq_true.mp h
  simp only [scanHasBlockingResult, requiredProviderResults_summary, Option.getD_some,
    List.any_map]
  refine List.any_eq_true.mpr ⟨p, hp, ?_⟩
  rw [Function.comp_apply] at hpending ⊢
  cases hr : scanProviderResults version (some required) p with
  | none => rfl
  | some result =>
    rw [hr] at hpending
    have hmode : result.mode = .pending := by
      have heq := hasMode_json result .pending
      simp only [ScanMode.text] at heq
      simpa [heq] using hpending
    rw [Option.map_some, blocks_json, ScanPayload.passes, hmode]
    rfl

theorem buildStatus_summary :
    (versionSummary version (some required) scannedAt).buildStatus = "success" ↔
      buildReadyForScanPolicy version (some required) = true := by
  simp only [versionSummary, effectiveBuildStatus, buildReadyForScanPolicy]
  cases version.buildStatus <;> cases scanProvidersPending version (some required) <;> decide

/-- The dashboard's check of the build and the scans is the policy's. -/
theorem gates_summary :
    ((versionSummary version (some required) scannedAt).buildStatus = "success" ∧
        scanHasPending (versionSummary version (some required) scannedAt).scan = false ∧
        scanHasBlockingResult (versionSummary version (some required) scannedAt).scan = false) ↔
      buildReadyForScanPolicy version (some required) = true ∧
        scanProvidersPassed version (some required) = true := by
  rw [buildStatus_summary, summary_scan, scanHasBlockingResult_summary, Bool.not_eq_false']
  refine and_congr_right fun _ => and_iff_right_of_imp fun hpassed => ?_
  rw [← Bool.not_eq_true]
  intro hpending
  have hblocking := blocking_of_pending hpending
  rw [scanHasBlockingResult_summary, hpassed] at hblocking
  cases hblocking

theorem canActivateVersion_iff {summary : VersionSummary} :
    (canActivateVersion summary).ok = true ↔ summary.buildStatus = "success" ∧
      scanHasPending summary.scan = false ∧ scanHasBlockingResult summary.scan = false := by
  unfold canActivateVersion
  by_cases hb : summary.buildStatus = "success" <;> cases scanHasPending summary.scan <;>
    cases scanHasBlockingResult summary.scan <;> simp [hb]

theorem eraseDups_eq_nil {l : List String} : l.eraseDups = [] ↔ l = [] := by
  cases l with
  | nil => simp
  | cons a l => simp [List.eraseDups_cons]

/-- The gate of the dashboard, check by check. -/
theorem getVersionBlockers_iff {pluginStatus : String} {summary : VersionSummary} :
    getVersionBlockers pluginStatus summary {} = [] ↔
      pluginStatus = "active" ∧ summary.versionStatus = "active" ∧
        summary.buildStatus = "success" ∧ scanHasPending summary.scan = false ∧
        scanHasBlockingResult summary.scan = false := by
  have hbuild : (if summary.buildStatus = "building" ∨ summary.buildStatus = "pending" then
      ["构建仍在进行"]
      else if summary.buildStatus = "scanning" then ["扫描仍在进行"]
      else if summary.buildStatus ≠ "success" then ["构建未成功"]
      else []) = [] ↔ summary.buildStatus = "success" := by
    by_cases hb : summary.buildStatus = "success"
    · simp [hb]
    · simp only [hb, ne_eq, not_false_eq_true, if_true, iff_false]
      split
      · simp
      · split <;> simp
  have hscan : (if scanHasPending summary.scan = true then ["扫描仍在进行"]
      else if scanHasBlockingResult summary.scan = true then ["扫描未通过"]
      else []) = [] ↔
        scanHasPending summary.scan = false ∧ scanHasBlockingResult summary.scan = false := by
    cases scanHasPending summary.scan <;> cases scanHasBlockingResult summary.scan <;> simp
  simp only [getVersionBlockers, eraseDups_eq_nil, List.append_eq_nil_iff, Bool.true_and,
    decide_eq_true_eq, Bool.or_eq_true, hbuild, hscan, ite_eq_right_iff, reduceCtorEq, imp_false,
    not_not, ne_eq, and_assoc]

end Dashboard

def RaisesInvalidState (work : Op Unit) (db : Db) (x : Outside) : Prop :=
  ∃ e, (work.perform db x).outcome = .error e ∧ e.cls = .invalidStateError

/-- What `refresh_cache` is assumed to raise: errors of Redis and of reading the
configuration, never the one that the services raise themselves. -/
def Env.RefreshRaisesOther (env : Env) : Prop :=
  ∀ caller e, env.fault (.refresh caller) = some e → e.cls ≠ .invalidStateError

variable {env : Env} {db p c : Db} {x : Outside} {r : Bool}

theorem raisesInvalidState_iff {work : Op Unit} :
    RaisesInvalidState work db x ↔
      ∃ e s, work.run (Session.start db x) = .error e s ∧ e.cls = .invalidStateError := by
  unfold RaisesInvalidState Work.perform
  cases work.run (Session.start db x) with
  | ok a s => simp
  | error e s => simp

/-- Storing the rows and refreshing the cache raises something else. -/
theorem commit_refresh_other (hother : env.RefreshRaisesOther) (caller : Caller) :
    ¬ ∃ e s, (do Work.commit; call env (.refresh caller) : Op Unit).run ⟨p, c, x, false, r⟩ =
      .error e s ∧ e.cls = .invalidStateError := by
  rintro ⟨e, s, hrun, he⟩
  rw [Work.bind_run] at hrun
  by_cases hp : p.Constraints
  · rw [commit_run hp] at hrun
    simp only [call_run] at hrun
    cases hf : env.fault (.refresh caller) with
    | none =>
      rw [hf] at hrun
      cases hrun
    | some raised =>
      rw [hf] at hrun
      cases hrun
      exact hother caller _ hf he
  · rw [Work.commit_refused hp] at hrun
    cases hrun
    cases he

/-- The gates raise an `InvalidStateError` exactly when they refuse. -/
theorem passRefusal_iff (v : PluginVersion) (buildText scanText : String) :
    (∃ e, db.passRefusal v buildText scanText = some e) ↔ ¬ db.passes v = true := by
  have hnone : db.passRefusal v buildText scanText = none ↔ db.passes v = true :=
    Db.passRefusal_eq_none
  rw [← hnone]
  cases db.passRefusal v buildText scanText <;> simp

theorem passRefusal_cls {v : PluginVersion} {buildText scanText : String} {e : PyErr}
    (h : db.passRefusal v buildText scanText = some e) : e.cls = .invalidStateError := by
  unfold Db.passRefusal at h
  split at h
  · cases h
    rfl
  · split at h
    · cases h
      rfl
    · cases h

theorem setVersionStatus_active_raises (hc : db.Constraints) (hother : env.RefreshRaisesOther)
    {versionId : VersionId} {v : PluginVersion} (hv : db.versions.lookup versionId = some v) :
    RaisesInvalidState (setVersionStatus env versionId .active) db x ↔ ¬ db.passes v = true := by
  rw [raisesInvalidState_iff, ← passRefusal_iff v
    "Version build must be successful before activation"
    "Version security scan must pass before activation"]
  simp only [setVersionStatus, Session.start, Work.bind_run, getVersion_run hc, hv,
    Work.when_run, if_true, requirePassed_run hc]
  cases hr : db.passRefusal v "Version build must be successful before activation"
      "Version security scan must pass before activation" with
  | some e =>
    refine iff_of_true ⟨e, _, rfl, passRefusal_cls hr⟩ ⟨e, rfl⟩
  | none =>
    refine iff_of_false ?_ (by simp)
    simp only [updateVersion_run, reduceCtorEq, or_self, if_false]
    have hcommit := commit_refresh_other (p := (db.modifyVersion versionId
      (·.settleBuild)).modifyVersion versionId fun v => { v with versionStatus := .active })
      (c := db) (x := x) (r := false) hother .setVersionStatus
    rwa [Work.bind_run] at hcommit

/-- The gate of the server, on a version that the plugin owns. -/
theorem setLatestVersion_raises (hc : db.Constraints) (hother : env.RefreshRaisesOther)
    {pluginId : PluginId} {versionId : VersionId} {a : Plugin} {v : PluginVersion}
    (ha : db.plugins.lookup pluginId = some a) (hv : db.versions.lookup versionId = some v)
    (hown : v.pluginId = pluginId) :
    RaisesInvalidState (setLatestVersion env pluginId versionId) db x ↔
      ¬ (a.status = .active ∧ v.versionStatus = .active ∧ db.passes v = true) := by
  have hof : (db.versions.lookup versionId).filter (fun v => v.pluginId = pluginId) = some v := by
    rw [hv, Option.filter_some, if_pos (by simpa using hown)]
  rw [raisesInvalidState_iff]
  simp only [setLatestVersion, Session.start, Work.bind_run, getPlugin_run hc, ha]
  by_cases hs : a.status = .active
  · simp only [Work.bind_run, Work.refuse_run, getVersionOf_run hc, hs, ne_eq,
      not_true_eq_false, if_false, hof]
    by_cases hst : v.versionStatus = .active
    · simp only [hst, not_true_eq_false, if_false, requirePassed_run hc, true_and]
      rw [← passRefusal_iff v "Version build must be successful to be set as latest"
        "Version security scan must pass before setting latest"]
      cases hr : db.passRefusal v "Version build must be successful to be set as latest"
          "Version security scan must pass before setting latest" with
      | some e => exact iff_of_true ⟨e, _, rfl, passRefusal_cls hr⟩ ⟨e, rfl⟩
      | none =>
        refine iff_of_false ?_ (by simp)
        simp only [updateVersion_run]
        by_cases hp : (db.modifyVersion versionId (·.settleBuild)).Constraints
        · simp only [execute_run _ hp, updateVersion_run]
          have hcommit := commit_refresh_other (p := ((db.modifyVersion versionId
            (·.settleBuild)).clearLatest pluginId).modifyVersion versionId
              fun v => { v with isLatest := true })
            (c := db) (x := x) (r := false) hother .setLatestVersion
          rwa [Work.bind_run] at hcommit
        · have hadmits : ¬ Schema.admits PyErr (db.modifyVersion versionId (·.settleBuild)) := hp
          rintro ⟨e, s, hrun, he⟩
          simp only [execute, Work.bind_run, Work.flush_refused hadmits] at hrun
          cases hrun
          cases he
    · simp only [hst, not_false_eq_true, if_true, false_and, and_false, iff_true]
      exact ⟨_, _, rfl, rfl⟩
  · simp only [Work.refuse_run, hs, ne_eq, not_false_eq_true, if_true, false_and, iff_true]
    exact ⟨_, _, rfl, rfl⟩

theorem PluginStatus.text_eq_active {status : PluginStatus} :
    status.text = "active" ↔ status = .active := by
  cases status <;> decide

theorem VersionStatus.text_eq_active {status : VersionStatus} :
    status.text = "active" ↔ status = .active := by
  cases status <;> decide

/-- On the summary that the API returns, the dashboard's two gates open exactly
when the server's do. -/
theorem publish_gates_agree (db : Db) (hc : db.Constraints) (env : Env)
    (hother : env.RefreshRaisesOther) (x : Outside) (pluginId : PluginId)
    (versionId : VersionId) (a : Plugin) (v : PluginVersion)
    (ha : db.plugins.lookup pluginId = some a) (hv : db.versions.lookup versionId = some v)
    (hown : v.pluginId = pluginId) (scannedAt : Option String) :
    ((Dashboard.canActivateVersion (versionSummary v (some db.config.scanEnabledProviders)
        scannedAt)).ok = true ↔
      ¬ RaisesInvalidState (setVersionStatus env versionId .active) db x) ∧
    (Dashboard.getVersionBlockers a.status.text
        (versionSummary v (some db.config.scanEnabledProviders) scannedAt) {} = [] ↔
      ¬ RaisesInvalidState (setLatestVersion env pluginId versionId) db x) := by
  have hpasses : db.passes v = true ↔
      buildReadyForScanPolicy v (some db.config.scanEnabledProviders) = true ∧
        scanProvidersPassed v (some db.config.scanEnabledProviders) = true := by
    rw [Db.passes, Bool.and_eq_true]
  constructor
  · rw [setVersionStatus_active_raises hc hother hv, not_not, hpasses,
      Dashboard.canActivateVersion_iff, Dashboard.gates_summary]
  · rw [setLatestVersion_raises hc hother ha hv hown, not_not, hpasses,
      Dashboard.getVersionBlockers_iff, ← PluginStatus.text_eq_active,
      ← VersionStatus.text_eq_active, Dashboard.gates_summary]
    rfl

/-- Both gates over a release that is out. -/
theorem publish_gates_agree_published :
    ∃ a v, (World.run .default publishedRun).db.plugins.lookup 0 = some a ∧
      (World.run .default publishedRun).db.versions.lookup 1 = some v ∧
      ((Dashboard.canActivateVersion (versionSummary v
          (some (World.run .default publishedRun).db.config.scanEnabledProviders) none)).ok = true ↔
        ¬ RaisesInvalidState (setVersionStatus (.calm 4) 1 .active)
          (World.run .default publishedRun).db (World.run .default publishedRun).outside) ∧
      (Dashboard.getVersionBlockers a.status.text (versionSummary v
          (some (World.run .default publishedRun).db.config.scanEnabledProviders) none) {} = [] ↔
        ¬ RaisesInvalidState (setLatestVersion (.calm 4) 0 1)
          (World.run .default publishedRun).db (World.run .default publishedRun).outside) := by
  have hc := (reachable_sound (World.run_reachable .default publishedRun)).constraints
  have hother : (Env.calm 4).RefreshRaisesOther := fun _ _ h => by cases h
  obtain ⟨a, ha⟩ : ∃ a, (World.run .default publishedRun).db.plugins.lookup 0 = some a :=
    Option.isSome_iff_exists.mp (by decide +kernel)
  obtain ⟨v, hv, hown⟩ : ∃ v, (World.run .default publishedRun).db.versions.lookup 1 = some v ∧
      decide (v.pluginId = 0) = true :=
    (Option.any_eq_true ..).mp (by decide +kernel)
  exact ⟨a, v, ha, hv, publish_gates_agree _ hc _ hother _ 0 1 a v ha hv (of_decide_eq_true hown)
    none⟩

end PluginRegistry
