import PluginRegistry.Proofs.PluginRuns
import PluginRegistry.Proofs.ScanRows

namespace PluginRegistry
open Lib

variable {env : Env} {db p c : Db} {x : Outside} {r : Bool}

theorem Db.modifyVersion_id (db : Db) (id : VersionId) :
    (db.modifyVersion id fun v => v) = db := by
  rw [Db.modifyVersion, Table.modify_id]

theorem Db.modifyVersion_congr {id : VersionId} {f g : PluginVersion → PluginVersion}
    (h : ∀ v, db.versions.lookup id = some v → f v = g v) :
    db.modifyVersion id f = db.modifyVersion id g := by
  rw [Db.modifyVersion, Table.modify_congr h, Db.modifyVersion]

theorem getOrCreateScan_run (h : p.Constraints) (versionId : VersionId) :
    (getOrCreateScan env versionId).run ⟨p, c, x, false, r⟩ =
      match p.versions.lookup versionId with
      | none => .error (valueError "Version not found") ⟨p, c, x, false, r⟩
      | some v => .ok (v.openScan env.now)
          ⟨p.modifyVersion versionId (·.openScan env.now), c, x, false, r⟩ := by
  simp only [getOrCreateScan, Work.bind_run, getVersion_run h]
  cases p.versions.lookup versionId <;> rfl

theorem recordOutcome_run (h : p.Constraints) (versionId : VersionId) (provider : Provider)
    (outcome : ScanOutcome) (track : SecurityScan → SecurityScan) :
    (recordOutcome env versionId provider outcome track).run ⟨p, c, x, false, r⟩ =
      .ok () ⟨p.modifyVersion versionId (·.record env.now provider outcome track),
        c, x, false, r⟩ := by
  rw [recordOutcome, Work.bind_run, flush_run h]
  rfl

/-- A loop of outcomes recorded on one row is one write to that row. -/
theorem recordLoop_run {β : Type} (versionId : VersionId) (provider : β → Provider)
    (outcome : β → ScanOutcome) (track : β → SecurityScan → SecurityScan) (bs : List β)
    (h : p.Sound) :
    (bs.forM fun b => recordOutcome env versionId (provider b) (outcome b) (track b)).run
        ⟨p, c, x, false, r⟩ =
      .ok () ⟨p.modifyVersion versionId fun v =>
        bs.foldl (fun v b => v.record env.now (provider b) (outcome b) (track b)) v,
          c, x, false, r⟩ := by
  induction bs generalizing p with
  | nil => simp only [Work.forM_nil_run, List.foldl_nil, Db.modifyVersion_id]
  | cons b bs ih =>
    have hnext : (p.modifyVersion versionId
        (·.record env.now (provider b) (outcome b) (track b))).Sound :=
      h.quietWrite (fun _ => rfl) (fun _ => rfl)
    rw [Work.forM_cons_run, recordOutcome_run h.constraints]
    simp only [ih hnext, Db.modifyVersion_modifyVersion]
    rfl

def Db.autoPublishes (db : Db) (v : PluginVersion) : Bool :=
  db.config.scanAutoPublishEnabled && !db.config.scanRequireHumanReview && db.passes v

def Db.autoPublished (db : Db) (now : Time) (versionId : VersionId) : Db :=
  match db.versions.lookup versionId with
  | none => db
  | some v =>
    if db.autoPublishes v then db.published now v.pluginId versionId .skipped else db

def PyErr.refusal (e : PyErr) : Bool :=
  e.isA [.invalidStateError, .notFoundError, .validationError]

theorem Db.passRefusal_refusal {v : PluginVersion} {buildText scanText : String} {e : PyErr}
    (h : db.passRefusal v buildText scanText = some e) : e.refusal = true := by
  unfold Db.passRefusal at h
  split at h
  · cases h
    rfl
  · split at h
    · cases h
      rfl
    · cases h

/-- A version that exists can only be refused by the two gates. -/
theorem Db.publishRefusal_eq (h : db.Constraints) {versionId : VersionId} {v : PluginVersion}
    (hv : db.versions.lookup versionId = some v) :
    db.publishRefusal v.pluginId versionId .skipped =
      db.passRefusal v "Version build must be successful before publishing"
        "Version security scan must pass before publishing" := by
  obtain ⟨a, ha⟩ := Option.isSome_iff_exists.mp (h.owned versionId v hv)
  simp [Db.publishRefusal, ha, hv, Option.filter]

theorem tryAutoPublishAfterScan_run (h : db.Sound) {versionId : VersionId} {v : PluginVersion}
    (hv : db.versions.lookup versionId = some v) :
    (tryAutoPublishAfterScan env versionId).run (Session.start db x) =
      if db.autoPublishes v then
        let s := Session.start (db.published env.now v.pluginId versionId .skipped) x
        match env.fault (.refresh .publishPluginVersion) with
        | none => .ok true s
        | some e => if e.refusal then .ok false s else .error e s
      else .ok false (Session.start db x) := by
  have hpub := publishPluginVersion_run env x h v.pluginId versionId .skipped
  rw [Db.publishRefusal_eq h.constraints hv] at hpub
  simp only [tryAutoPublishAfterScan, Work.bind_run, Session.start,
    runtimeConfig_run h.constraints, Work.ite_run, Work.pure_run] at hpub ⊢
  by_cases hoff : (!db.config.scanAutoPublishEnabled || db.config.scanRequireHumanReview) = true
  · have hno : db.autoPublishes v = false := by
      unfold Db.autoPublishes
      cases hauto : db.config.scanAutoPublishEnabled <;>
        cases hhuman : db.config.scanRequireHumanReview <;> simp_all
    simp only [hoff, if_true, hno, Bool.false_eq_true, if_false]
  · have hyes : db.autoPublishes v = db.passes v := by
      unfold Db.autoPublishes
      cases hauto : db.config.scanAutoPublishEnabled <;>
        cases hhuman : db.config.scanRequireHumanReview <;> simp_all
    simp only [hoff, Bool.false_eq_true, if_false, hyes, Work.bind_run,
      getVersion_run h.constraints, hv, Work.try_run, hpub]
    cases hr : db.passRefusal v "Version build must be successful before publishing"
        "Version security scan must pass before publishing" with
    | some e =>
      have hnp : ¬ db.passes v = true := fun hp => by
        rw [Db.passRefusal_eq_none.mpr hp] at hr
        cases hr
      have hcaught := Db.passRefusal_refusal hr
      simp only [PyErr.refusal] at hcaught
      simp only [hcaught, if_true, hnp, Bool.false_eq_true, if_false, Work.pure_run]
    | none =>
      simp only [Db.passRefusal_eq_none.mp hr, if_true, call_run, PyErr.refusal]
      cases env.fault (.refresh .publishPluginVersion) with
      | none => rfl
      | some e => exact Work.ite_run ..

/-- What the gates of a publication make of a version whose results were loaded before
its scan. -/
def Db.seesResults (db : Db) (resultsLoaded : Bool) : Bool :=
  !resultsLoaded || db.config.scanEnabledProviders.isEmpty

/-- Where no provider is required, the results make no difference. -/
theorem Db.passRefusal_selected {resultsLoaded : Bool} (h : db.seesResults resultsLoaded = true)
    (v : PluginVersion) (buildText scanText : String) :
    db.passRefusal (v.selected resultsLoaded) buildText scanText =
      db.passRefusal v buildText scanText := by
  cases resultsLoaded with
  | false => rfl
  | true =>
    have hnone : db.config.scanEnabledProviders = [] := List.isEmpty_iff.mp h
    have hpending : ∀ w : PluginVersion, scanProvidersPending w (some []) = false := by
      intro w
      simp [scanProvidersPending, scanProviderResults]
    unfold Db.passRefusal buildReadyForScanPolicy
    simp only [hnone, hpending]
    rfl

/-- Where one is required, the second gate misses its result. -/
theorem Db.passRefusal_unseen {resultsLoaded : Bool} (h : db.seesResults resultsLoaded = false)
    (v : PluginVersion) (buildText scanText : String) :
    ∃ e, db.passRefusal (v.selected resultsLoaded) buildText scanText = some e := by
  unfold Db.seesResults at h
  rw [Bool.or_eq_false_iff, Bool.not_eq_false'] at h
  obtain ⟨rfl, hsome⟩ := h
  cases hp : db.config.scanEnabledProviders with
  | nil =>
    rw [hp] at hsome
    cases hsome
  | cons p ps =>
    have hfail : scanProvidersPassed (v.selected true) (some (p :: ps)) = false := rfl
    unfold Db.passRefusal
    rw [hp, hfail]
    split
    · exact ⟨_, rfl⟩
    · exact ⟨_, rfl⟩

theorem publishPluginVersion_seen (env : Env) (x : Outside) (h : db.Sound) {resultsLoaded : Bool}
    (hsees : db.seesResults resultsLoaded = true) (pluginId : PluginId) (versionId : VersionId)
    (reviewStatus : ReviewStatus) :
    (publishPluginVersion env pluginId versionId reviewStatus resultsLoaded).run
        (Session.start db x) =
      (publishPluginVersion env pluginId versionId reviewStatus).run (Session.start db x) := by
  simp only [publishPluginVersion, Session.start, Work.bind_run, Work.refuse_run]
  by_cases hrev : reviewStatus ≠ .approved ∧ reviewStatus ≠ .skipped
  · simp only [hrev, ne_eq, not_false_eq_true, and_self, if_true]
  simp only [hrev, if_false, getPlugin_run h.constraints]
  cases db.plugins.lookup pluginId with
  | none => rfl
  | some a =>
    simp only [Work.bind_run, getVersionOf_run h.constraints]
    cases (db.versions.lookup versionId).filter fun v => v.pluginId = pluginId with
    | none => rfl
    | some v =>
      simp only [Work.bind_run, PluginVersion.selected_false, requirePassed_run h.constraints,
        Db.passRefusal_selected hsees]

theorem publishPluginVersion_unseen (env : Env) (x : Outside) (h : db.Sound) {resultsLoaded : Bool}
    (hsees : db.seesResults resultsLoaded = false) {versionId : VersionId} {v : PluginVersion}
    (hv : db.versions.lookup versionId = some v) :
    ∃ e, e.refusal = true ∧
      (publishPluginVersion env v.pluginId versionId .skipped resultsLoaded).run
        (Session.start db x) = .error e (Session.start db x) := by
  obtain ⟨a, ha⟩ := Option.isSome_iff_exists.mp (h.constraints.owned versionId v hv)
  obtain ⟨e, he⟩ := Db.passRefusal_unseen hsees v
    "Version build must be successful before publishing"
    "Version security scan must pass before publishing"
  have hown : (db.versions.lookup versionId).filter (fun w => w.pluginId = v.pluginId) =
      some v := by
    simp [hv, Option.filter]
  have hrev : ¬ (ReviewStatus.skipped ≠ .approved ∧ ReviewStatus.skipped ≠ .skipped) := by
    decide
  refine ⟨e, Db.passRefusal_refusal he, ?_⟩
  simp only [publishPluginVersion, Session.start, Work.bind_run, Work.refuse_run, if_neg hrev,
    getPlugin_run h.constraints, ha, getVersionOf_run h.constraints, hown,
    requirePassed_run h.constraints, he]

/-- An attempt to publish that misses the results publishes nothing. -/
theorem tryAutoPublishAfterScan_loaded (env : Env) (x : Outside) (h : db.Sound)
    {versionId : VersionId} {v : PluginVersion} (hv : db.versions.lookup versionId = some v)
    (resultsLoaded : Bool) :
    (tryAutoPublishAfterScan env versionId resultsLoaded).run (Session.start db x) =
      if db.seesResults resultsLoaded then
        (tryAutoPublishAfterScan env versionId).run (Session.start db x)
      else .ok false (Session.start db x) := by
  cases hsees : db.seesResults resultsLoaded with
  | true =>
    have hpub := publishPluginVersion_seen env x h hsees v.pluginId versionId .skipped
    simp only [Session.start] at hpub
    simp only [tryAutoPublishAfterScan, Work.bind_run, Session.start,
      runtimeConfig_run h.constraints, Work.ite_run, Work.pure_run, getVersion_run h.constraints,
      hv, Work.try_run, hpub, if_true]
  | false =>
    obtain ⟨e, hcaught, hpub⟩ := publishPluginVersion_unseen env x h hsees hv
    simp only [Session.start] at hpub
    simp only [PyErr.refusal] at hcaught
    simp only [tryAutoPublishAfterScan, Work.bind_run, Session.start,
      runtimeConfig_run h.constraints, Work.ite_run, Work.pure_run, getVersion_run h.constraints,
      hv, Work.try_run, hpub, hcaught, Bool.false_eq_true, if_false, if_true, ite_self]

theorem afterScan_run (versionId : VersionId) (outcomes : List (Provider × ScanOutcome))
    (resultsLoaded : Bool) :
    (afterScan env versionId outcomes resultsLoaded).run (Session.start db x) =
      match followupTask env outcomes with
      | some delay => match env.fault .enqueueTask with
        | some e => .error e (Session.start db x)
        | none => (call env (.refresh .scanVersion)).run
            (Session.start db (x.queued env ⟨"virustotal_poll", versionId, delay⟩))
      | none => match env.fault (.refresh .scanVersion) with
        | some e => .error e (Session.start db x)
        | none => (discard (tryAutoPublishAfterScan env versionId resultsLoaded)).run
            (Session.start db x) := by
  unfold afterScan
  cases followupTask env outcomes with
  | some delay =>
    simp only [Work.bind_run, Session.start, enqueueTask_run]
    cases env.fault .enqueueTask <;> rfl
  | none =>
    simp only [Work.bind_run, call_run]
    cases env.fault (.refresh .scanVersion) <;> rfl

theorem afterScan_seen (h : db.Sound) {versionId : VersionId} {v : PluginVersion}
    (hv : db.versions.lookup versionId = some v) {resultsLoaded : Bool}
    (hsees : db.seesResults resultsLoaded = true) (outcomes : List (Provider × ScanOutcome)) :
    (afterScan env versionId outcomes resultsLoaded).run (Session.start db x) =
      (afterScan env versionId outcomes).run (Session.start db x) := by
  have hhook := tryAutoPublishAfterScan_loaded env x h hv resultsLoaded
  rw [if_pos hsees] at hhook
  rw [afterScan_run, afterScan_run, Work.discard_run, Work.discard_run, hhook]

/-- The end of a scan whose publication misses the results. -/
theorem afterScan_unseen (h : db.Sound) {versionId : VersionId} {v : PluginVersion}
    (hv : db.versions.lookup versionId = some v) {resultsLoaded : Bool}
    (hsees : db.seesResults resultsLoaded = false) (outcomes : List (Provider × ScanOutcome)) :
    (afterScan env versionId outcomes resultsLoaded).run (Session.start db x) =
      match followupTask env outcomes with
      | some delay => match env.fault .enqueueTask with
        | some e => .error e (Session.start db x)
        | none => (call env (.refresh .scanVersion)).run
            (Session.start db (x.queued env ⟨"virustotal_poll", versionId, delay⟩))
      | none => (call env (.refresh .scanVersion)).run (Session.start db x) := by
  have hhook := tryAutoPublishAfterScan_loaded env x h hv resultsLoaded
  rw [hsees] at hhook
  rw [afterScan_run, Work.discard_run, hhook, call_run]
  cases followupTask env outcomes with
  | some delay => rfl
  | none => cases env.fault (.refresh .scanVersion) <;> rfl

def Db.selectedProviders (db : Db) : Option (List String) → Except PyErr (List Provider)
  | none => .ok (Provider.names.filter db.config.scanEnabledProviders.contains)
  | some names => Provider.validate names

theorem selectedScanProviders_run (h : p.Constraints) (providers : Option (List String)) :
    (selectedScanProviders providers).run ⟨p, c, x, false, r⟩ =
      match p.selectedProviders providers with
      | .ok selected => .ok selected ⟨p, c, x, false, r⟩
      | .error e => .error e ⟨p, c, x, false, r⟩ := by
  cases providers with
  | none =>
    simp only [selectedScanProviders, Work.bind_run, runtimeConfig_run h]
    rfl
  | some names =>
    simp only [selectedScanProviders, Db.selectedProviders]
    cases Provider.validate names <;> rfl

def Db.scanned (db : Db) (now : Time) (versionId : VersionId)
    (outcomes : List (Provider × ScanOutcome)) : Db :=
  db.modifyVersion versionId (·.scanned now outcomes)

def anyPending (outcomes : List (Provider × ScanOutcome)) : Bool :=
  outcomes.any fun o => o.2.mode = .pending

theorem Db.Sound.scanned (env : Env) (h : db.Sound) {versionId : VersionId} {v : PluginVersion}
    (hv : db.versions.lookup versionId = some v) (outcomes : List (Provider × ScanOutcome))
    (hlate : ¬ (v.isLatest = true ∧ anyPending outcomes = true)) :
    (db.scanned env.now versionId outcomes).Sound := by
  refine h.scanWrite (fun w => w.scanned_standing env.now outcomes) fun w hw hl => ?_
  obtain rfl := Option.some.inj (hv.symm.trans hw)
  have hdone : anyPending outcomes = false := by
    cases hp : anyPending outcomes with
    | false => rfl
    | true => exact absurd ⟨hl, hp⟩ hlate
  rw [PluginVersion.scanned_buildStatus _ (h.artifacts _ v hv), PluginVersion.scanBuildStatus]
  rw [anyPending] at hdone
  simp [hdone]

theorem Db.Sound.scanned_refused (env : Env) (h : db.Sound) {versionId : VersionId} {v : PluginVersion}
    (hv : db.versions.lookup versionId = some v) {outcomes : List (Provider × ScanOutcome)}
    (hl : v.isLatest = true) (hp : anyPending outcomes = true) :
    ¬ (db.scanned env.now versionId outcomes).Constraints := by
  refine Db.Sound.scanWrite_refused (fun w => w.scanned_standing env.now outcomes) hv hl ?_
  rw [PluginVersion.scanned_buildStatus _ (h.artifacts _ v hv), PluginVersion.scanBuildStatus]
  rw [anyPending] at hp
  simp [hp]

/-- The opened row is marked as scanning, if it can be. -/
theorem markScanning_run (h : db.Sound) {versionId : VersionId} {v : PluginVersion}
    (hv : db.versions.lookup versionId = some v) :
    (Work.when (canMarkBuildScanning (v.openScan env.now)) do
        updateVersion versionId fun v => { v with buildStatus := .scanning }
        Work.commit : Op Unit).run
      ⟨db.modifyVersion versionId (·.openScan env.now), db, x, false, false⟩ =
      .ok () ⟨db.modifyVersion versionId (·.beginScan env.now),
        if canMarkBuildScanning v then db.modifyVersion versionId (·.beginScan env.now) else db,
        x, false, false⟩ := by
  have hopen : (db.modifyVersion versionId (·.beginScan env.now)).Sound := h.beginScan env.now
  have hcan : canMarkBuildScanning (v.openScan env.now) = canMarkBuildScanning v := rfl
  rw [Work.when_run, hcan]
  by_cases hmark : canMarkBuildScanning v = true
  · have hrow : (db.modifyVersion versionId (·.openScan env.now)).modifyVersion versionId
        (fun v => { v with buildStatus := .scanning }) =
        db.modifyVersion versionId (·.beginScan env.now) := by
      rw [Db.modifyVersion_modifyVersion]
      refine Db.modifyVersion_congr fun w hw => ?_
      obtain rfl := Option.some.inj (hv.symm.trans hw)
      simp only [Function.comp, PluginVersion.beginScan, hmark, if_true]
    simp only [hmark, if_true, Work.bind_run, updateVersion_run, hrow, commit_run hopen.constraints]
  · have hrow : db.modifyVersion versionId (·.openScan env.now) =
        db.modifyVersion versionId (·.beginScan env.now) := by
      refine Db.modifyVersion_congr fun w hw => ?_
      obtain rfl := Option.some.inj (hv.symm.trans hw)
      simp only [PluginVersion.beginScan, hmark, Bool.false_eq_true, if_false]
    simp only [hmark, Bool.false_eq_true, if_false, hrow]

theorem scanVersion_run (env : Env) (x : Outside) (h : db.Sound) (versionId : VersionId)
    (providers : Option (List String)) (resultsLoaded : Bool := false) :
    (scanVersion env versionId providers resultsLoaded).run (Session.start db x) =
      match db.selectedProviders providers with
      | .error e => .error e (Session.start db x)
      | .ok selected => match db.versions.lookup versionId with
        | none => .error (valueError "Version not found") (Session.start db x)
        | some v =>
          let opened := db.modifyVersion versionId (·.beginScan env.now)
          let saved := if canMarkBuildScanning v then opened else db
          match scanSelectedProviders env db.config selected with
          | .error e => .error e ⟨opened, saved, x, false, false⟩
          | .ok outcomes =>
            if v.isLatest ∧ anyPending outcomes then
              .error (Schema.refused Db)
                (Session.refused (db.scanned env.now versionId outcomes) saved x)
            else (afterScan env versionId outcomes resultsLoaded).run
              (Session.start (db.scanned env.now versionId outcomes) x) := by
  have hopen : (db.modifyVersion versionId (·.beginScan env.now)).Sound := h.beginScan env.now
  simp only [scanVersion, Work.bind_run, Session.start, selectedScanProviders_run h.constraints]
  cases db.selectedProviders providers with
  | error e => rfl
  | ok selected =>
    simp only [getOrCreateScan_run h.constraints]
    cases hv : db.versions.lookup versionId with
    | none => rfl
    | some v =>
      simp only [markScanning_run h hv, runtimeConfig_run hopen.constraints,
        Db.modifyVersion_config]
      cases scanSelectedProviders env db.config selected with
      | error e => rfl
      | ok outcomes =>
        have hrow : ((db.modifyVersion versionId (·.beginScan env.now)).modifyVersion versionId
            fun v => outcomes.foldl (fun v o => v.record env.now o.1 o.2
              (·.applyTracking o.1 o.2)) v).modifyVersion versionId
            (·.finishScan env.now (PluginVersion.scanBuildStatus outcomes)) =
            db.scanned env.now versionId outcomes := by
          simp only [Db.modifyVersion_modifyVersion]
          rfl
        simp only [Work.lift_ok, recordLoop_run versionId Prod.fst Prod.snd
          (fun o scan => scan.applyTracking o.1 o.2) outcomes hopen, updateVersion_run]
        rw [PluginVersion.scanBuildStatus] at hrow
        rw [hrow]
        by_cases hlate : v.isLatest = true ∧ anyPending outcomes = true
        · have hno := h.scanned_refused env hv hlate.1 hlate.2
          have hrun := Work.commit_refused (ε := PyErr) (c := if canMarkBuildScanning v then
            db.modifyVersion versionId (·.beginScan env.now) else db) (x := x) (r := false) hno
          simp only [hlate, and_self, if_true, hrun]
        · have hyes := h.scanned env hv outcomes hlate
          simp only [hlate, if_false, commit_run hyes.constraints]

@[simp] theorem Db.selectedProviders_modifyVersion (id : VersionId)
    (f : PluginVersion → PluginVersion) (providers : Option (List String)) :
    (db.modifyVersion id f).selectedProviders providers = db.selectedProviders providers := by
  cases providers <;> rfl

theorem markScan_run (h : db.Sound) (versionId : VersionId) (providers : Option (List String))
    (outcome : RuntimeConfig → ScanOutcome) :
    (markScan env versionId providers outcome).run ⟨db, db, x, false, false⟩ =
      match db.versions.lookup versionId with
      | none => .error (valueError "Version not found") ⟨db, db, x, false, false⟩
      | some v => match db.selectedProviders providers with
        | .error e =>
          .error e ⟨db.modifyVersion versionId (·.openScan env.now), db, x, false, false⟩
        | .ok selected => .ok (v.openScan env.now) ⟨db.modifyVersion versionId fun w =>
            (w.openScan env.now).markAll env.now selected (outcome db.config),
            db, x, false, false⟩ := by
  have hopen : (db.modifyVersion versionId (·.openScan env.now)).Sound :=
    h.quietWrite (fun _ => rfl) (fun _ => rfl)
  simp only [markScan, Work.bind_run, getOrCreateScan_run h.constraints]
  cases db.versions.lookup versionId with
  | none => rfl
  | some v =>
    simp only [runtimeConfig_run hopen.constraints, selectedScanProviders_run hopen.constraints,
      Db.selectedProviders_modifyVersion, Db.modifyVersion_config]
    cases db.selectedProviders providers with
    | error e => rfl
    | ok selected =>
      simp only [recordLoop_run versionId (fun p => p) (fun _ => outcome db.config)
        (fun p scan => scan.clearTracking p) selected hopen, Db.modifyVersion_modifyVersion]
      rfl

theorem Db.Sound.markedPending (h : db.Sound) (versionId : VersionId) (now : Time)
    (providers : List Provider) :
    (db.modifyVersion versionId (·.markedPending now providers)).Sound := by
  refine h.scanWrite (fun v => v.markedPending_standing now providers) fun v hv hl => ?_
  have hc := (h.constraints.checked _ v hv).latestActiveSuccess hl
  rw [PluginVersion.markedPending_buildStatus _ (PluginVersion.canMark_eq_false hl hc.1)]
  exact hc.2

theorem Db.Sound.markedSkipped (h : db.Sound) (versionId : VersionId) (now : Time)
    (providers : List Provider) (o : ScanOutcome) :
    (db.modifyVersion versionId (·.markedSkipped now providers o)).Sound :=
  h.scanWrite (fun v => v.markedSkipped_standing now providers o) fun v hv _ =>
    PluginVersion.markedSkipped_buildStatus _ (h.artifacts _ v hv) providers o

theorem markScanPending_run (env : Env) (x : Outside) (h : db.Sound) (versionId : VersionId)
    (providers : Option (List String)) :
    (markScanPending env versionId providers).run (Session.start db x) =
      match db.versions.lookup versionId with
      | none => .error (valueError "Version not found") (Session.start db x)
      | some _ => match db.selectedProviders providers with
        | .error e =>
          .error e ⟨db.modifyVersion versionId (·.openScan env.now), db, x, false, false⟩
        | .ok selected => (call env (.refresh .markScanPending)).run
            (Session.start (db.modifyVersion versionId (·.markedPending env.now selected)) x) := by
  simp only [markScanPending, Work.bind_run, Session.start, markScan_run h]
  cases hv : db.versions.lookup versionId with
  | none => rfl
  | some v =>
    cases db.selectedProviders providers with
    | error e => rfl
    | ok selected =>
      have hdone := h.markedPending versionId env.now selected
      have hcan : canMarkBuildScanning (v.openScan env.now) = canMarkBuildScanning v := rfl
      simp only [updateVersion_run, Work.when_run, hcan, Db.modifyVersion_modifyVersion]
      by_cases hmark : canMarkBuildScanning v = true
      · have hrow : db.modifyVersion versionId ((fun w => { w with buildStatus := .scanning }) ∘
            (·.scannedAt env.now) ∘ fun w =>
              (w.openScan env.now).markAll env.now selected scanQueuedOutcome) =
            db.modifyVersion versionId (·.markedPending env.now selected) := by
          refine Db.modifyVersion_congr fun w hw => ?_
          obtain rfl := Option.some.inj (hv.symm.trans hw)
          simp only [Function.comp, PluginVersion.markedPending, hmark, if_true]
        simp only [hmark, if_true, hrow, commit_run hdone.constraints]
      · have hrow : db.modifyVersion versionId ((·.scannedAt env.now) ∘ fun w =>
              (w.openScan env.now).markAll env.now selected scanQueuedOutcome) =
            db.modifyVersion versionId (·.markedPending env.now selected) := by
          refine Db.modifyVersion_congr fun w hw => ?_
          obtain rfl := Option.some.inj (hv.symm.trans hw)
          simp only [Function.comp, PluginVersion.markedPending, hmark, Bool.false_eq_true,
            if_false]
        simp only [hmark, Bool.false_eq_true, if_false, hrow, commit_run hdone.constraints]

theorem markScanSkipped_run (env : Env) (x : Outside) (h : db.Sound) (versionId : VersionId)
    (providers : Option (List String)) :
    (markScanSkipped env versionId providers).run (Session.start db x) =
      match db.versions.lookup versionId with
      | none => .error (valueError "Version not found") (Session.start db x)
      | some _ => match db.selectedProviders providers with
        | .error e =>
          .error e ⟨db.modifyVersion versionId (·.openScan env.now), db, x, false, false⟩
        | .ok selected => (call env (.refresh .markScanSkipped)).run
            (Session.start (db.modifyVersion versionId
              (·.markedSkipped env.now selected (manuallySkippedOutcome db.config))) x) := by
  simp only [markScanSkipped, Work.bind_run, Session.start, markScan_run h]
  cases db.versions.lookup versionId with
  | none => rfl
  | some v =>
    cases db.selectedProviders providers with
    | error e => rfl
    | ok selected =>
      have hdone := h.markedSkipped versionId env.now selected (manuallySkippedOutcome db.config)
      have hrow : db.modifyVersion versionId ((·.finishScan env.now .success) ∘ fun w =>
            (w.openScan env.now).markAll env.now selected (manuallySkippedOutcome db.config)) =
          db.modifyVersion versionId
            (·.markedSkipped env.now selected (manuallySkippedOutcome db.config)) := rfl
      simp only [updateVersion_run, Db.modifyVersion_modifyVersion, hrow,
        commit_run hdone.constraints]

end PluginRegistry
