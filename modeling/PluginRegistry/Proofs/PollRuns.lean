import PluginRegistry.Proofs.ScanRuns

namespace PluginRegistry
open Lib

variable {env : Env} {db p c : Db} {x : Outside} {r : Bool}

structure PollAsks (env : Env) (cfg : RuntimeConfig) (v : PluginVersion) (analysisId : String) :
    Prop where
  awaits : v.awaitedAnalysis env.now = some analysisId
  enabled : Provider.virustotal ∈ cfg.scanEnabledProviders
  keyed : cfg.virustotal.apiKey ≠ ""
  early : env.now < v.pollDeadline env.now cfg.virustotal

namespace PollAsks

variable {cfg : RuntimeConfig} {v : PluginVersion} {analysisId : String}

theorem guards (h : PollAsks env cfg v analysisId) :
    cfg.scanEnabledProviders.contains .virustotal = true ∧ cfg.virustotal.apiKey.isEmpty = false ∧
      ¬ v.pollDeadline env.now cfg.virustotal ≤ env.now := by
  refine ⟨List.contains_iff_mem.mpr h.enabled, ?_, Nat.not_le.mpr h.early⟩
  rw [Bool.eq_false_iff, ne_eq, String.isEmpty_iff]
  exact h.keyed

theorem decision_failed (h : PollAsks env cfg v analysisId) {error : PyErr}
    (hans : env.pollAnswer = .error error) : v.pollDecision env cfg = .failed error := by
  obtain ⟨hen, hkey, hearly⟩ := h.guards
  simp only [PluginVersion.pollDecision, h.awaits, hen, hkey, hearly, hans, Bool.not_true,
    Bool.false_eq_true, if_false]

theorem decision_recorded (h : PollAsks env cfg v analysisId) {answer : ScanOutcome}
    (hans : env.pollAnswer = .ok answer) :
    v.pollDecision env cfg = .recorded (pollOutcome env cfg.virustotal v analysisId answer) := by
  obtain ⟨hen, hkey, hearly⟩ := h.guards
  simp only [PluginVersion.pollDecision, h.awaits, hen, hkey, hearly, hans, Bool.not_true,
    Bool.false_eq_true, if_false]

end PollAsks

inductive PollCase (env : Env) (cfg : RuntimeConfig) (v : PluginVersion) : PollDecision → Prop
  | idle (hn : v.awaitedAnalysis env.now = none) : PollCase env cfg v .idle
  | disabled {analysisId : String} (hid : v.awaitedAnalysis env.now = some analysisId)
      (hno : Provider.virustotal ∉ cfg.scanEnabledProviders) {o : ScanOutcome}
      (ho : o.mode = .skipped) : PollCase env cfg v (.complete o)
  | unconfigured {analysisId : String} (hid : v.awaitedAnalysis env.now = some analysisId)
      (hen : Provider.virustotal ∈ cfg.scanEnabledProviders) (hk : cfg.virustotal.apiKey = "")
      {o : ScanOutcome} (ho : o.mode = .skipped) : PollCase env cfg v (.complete o)
  | expired {analysisId : String} (hid : v.awaitedAnalysis env.now = some analysisId)
      (hen : Provider.virustotal ∈ cfg.scanEnabledProviders) (hk : cfg.virustotal.apiKey ≠ "")
      (hdue : v.pollDeadline env.now cfg.virustotal ≤ env.now) {o : ScanOutcome}
      (ho : o.mode = .error) : PollCase env cfg v (.complete o)
  | failed {analysisId : String} (ha : PollAsks env cfg v analysisId) {e : PyErr}
      (he : env.pollAnswer = .error e) : PollCase env cfg v (.failed e)
  | recorded {analysisId : String} (ha : PollAsks env cfg v analysisId) {answer : ScanOutcome}
      (ho : env.pollAnswer = .ok answer) :
    PollCase env cfg v (.recorded (pollOutcome env cfg.virustotal v analysisId answer))

theorem PluginVersion.pollCase (v : PluginVersion) (env : Env) (cfg : RuntimeConfig) :
    PollCase env cfg v (v.pollDecision env cfg) := by
  cases hid : v.awaitedAnalysis env.now with
  | none =>
    rw [pollDecision, hid]
    exact .idle hid
  | some analysisId =>
    by_cases hen : Provider.virustotal ∈ cfg.scanEnabledProviders
    · by_cases hk : cfg.virustotal.apiKey = ""
      · simp only [pollDecision, hid, List.contains_iff_mem.mpr hen, hk, Bool.not_true,
          Bool.false_eq_true, if_false]
        exact .unconfigured hid hen hk rfl
      · by_cases hdue : v.pollDeadline env.now cfg.virustotal ≤ env.now
        · have hkey : cfg.virustotal.apiKey.isEmpty = false := by
            rw [Bool.eq_false_iff, ne_eq, String.isEmpty_iff]
            exact hk
          simp only [pollDecision, hid, List.contains_iff_mem.mpr hen, hkey, hdue, Bool.not_true,
            Bool.false_eq_true, if_false, if_true]
          exact .expired hid hen hk hdue rfl
        · have hask : PollAsks env cfg v analysisId := ⟨hid, hen, hk, Nat.not_le.mp hdue⟩
          cases hans : env.pollAnswer with
          | error e =>
            rw [hask.decision_failed hans]
            exact .failed hask hans
          | ok answer =>
            rw [hask.decision_recorded hans]
            exact .recorded hask hans
    · have hno : cfg.scanEnabledProviders.contains .virustotal = false := by simpa using hen
      simp only [pollDecision, hid, hno, Bool.not_false, if_true]
      exact .disabled hid hen rfl

/-- A poll that completes does so with a final result. -/
theorem PluginVersion.complete_not_pending {v : PluginVersion} {cfg : RuntimeConfig}
    {o : ScanOutcome} (h : v.pollDecision env cfg = .complete o) : o.mode ≠ .pending := by
  have hcase := v.pollCase env cfg
  rw [h] at hcase
  intro hp
  cases hcase with
  | disabled hid hno ho => cases ho.symm.trans hp
  | unconfigured hid hen hk ho => cases ho.symm.trans hp
  | expired hid hen hk hdue ho => cases ho.symm.trans hp

def Db.polled (db : Db) (now : Time) (versionId : VersionId) (outcome : ScanOutcome)
    (track : SecurityScan → SecurityScan) : Db :=
  db.modifyVersion versionId (·.polled now outcome track)

theorem Db.Sound.polled (env : Env) (h : db.Sound) {versionId : VersionId} {v : PluginVersion}
    (hv : db.versions.lookup versionId = some v) (o : ScanOutcome)
    (track : SecurityScan → SecurityScan) (hlate : ¬ (v.isLatest = true ∧ o.mode = .pending)) :
    (db.polled env.now versionId o track).Sound := by
  refine h.scanWrite (fun w => w.polled_standing env.now o track) fun w hw hl => ?_
  obtain rfl := Option.some.inj (hv.symm.trans hw)
  rw [PluginVersion.polled_buildStatus _ (h.artifacts _ v hv),
    if_neg fun hp => hlate ⟨hl, hp⟩]

theorem Db.Sound.polled_refused (env : Env) (h : db.Sound) {versionId : VersionId} {v : PluginVersion}
    (hv : db.versions.lookup versionId = some v) {o : ScanOutcome}
    (track : SecurityScan → SecurityScan) (hl : v.isLatest = true) (hp : o.mode = .pending) :
    ¬ (db.polled env.now versionId o track).Constraints := by
  refine Db.Sound.scanWrite_refused (fun w => w.polled_standing env.now o track) hv hl ?_
  rw [PluginVersion.polled_buildStatus _ (h.artifacts _ v hv), if_pos hp]
  exact fun hb => by cases hb

def refreshThenPublish (env : Env) (site : Caller) (versionId : VersionId) : Op Unit := do
  call env (.refresh site)
  discard (tryAutoPublishAfterScan env versionId)

theorem completeProviderOutcome_run (h : db.Sound) {versionId : VersionId} {o : ScanOutcome}
    (ho : o.mode ≠ .pending) :
    (completeProviderOutcome env versionId .virustotal o).run
        ⟨db.modifyVersion versionId (·.openPoll env.now), c, x, false, r⟩ =
      (refreshThenPublish env .completeProviderOutcome versionId).run
        ⟨db.polled env.now versionId o (·.clearTracking .virustotal),
          db.polled env.now versionId o (·.clearTracking .virustotal), x, false, r⟩ := by
  have hopen : (db.modifyVersion versionId (·.openPoll env.now)).Sound :=
    h.quietWrite (fun _ => rfl) (fun _ => rfl)
  have hdone : (db.polled env.now versionId o (·.clearTracking .virustotal)).Sound := by
    refine h.scanWrite (fun w => w.polled_standing env.now o _) fun w hw _ => ?_
    rw [PluginVersion.polled_buildStatus _ (h.artifacts _ w hw), if_neg ho]
  have hrow : ((db.modifyVersion versionId (·.openPoll env.now)).modifyVersion versionId
      (·.record env.now .virustotal o (·.clearTracking .virustotal))).modifyVersion versionId
      (·.finishScan env.now .success) =
      db.polled env.now versionId o (·.clearTracking .virustotal) := by
    simp only [Db.modifyVersion_modifyVersion, Db.polled]
    refine Db.modifyVersion_congr fun w _ => ?_
    simp only [Function.comp, PluginVersion.polled, ho, if_false]
  simp only [completeProviderOutcome, Work.bind_run, recordOutcome_run hopen.constraints, ho,
    if_false, updateVersion_run, hrow, commit_run hdone.constraints, refreshThenPublish,
    Work.when_run, ne_eq, not_false_eq_true, if_true]

/-- `poll_virustotal_analysis` as one run, through the decision it takes on the row. -/
theorem pollVirustotalAnalysis_run (env : Env) (x : Outside) (h : db.Sound) (versionId : VersionId) :
    (pollVirustotalAnalysis env versionId).run (Session.start db x) =
      match db.versions.lookup versionId with
      | none => .error (valueError "Version not found") (Session.start db x)
      | some v =>
        let opened := db.modifyVersion versionId (·.openPoll env.now)
        match v.pollDecision env db.config with
        | .idle => .ok () ⟨opened, db, x, false, false⟩
        | .failed e => .error e ⟨opened, db, x, false, false⟩
        | .complete o => (refreshThenPublish env .completeProviderOutcome versionId).run
            (Session.start (db.polled env.now versionId o (·.clearTracking .virustotal)) x)
        | .recorded o =>
          let done := db.polled env.now versionId o (·.applyTracking .virustotal o)
          if v.isLatest ∧ o.mode = .pending then
            .error (Schema.refused Db) (Session.refused done db x)
          else (afterPoll env versionId o).run (Session.start done x) := by
  have hscan : (db.modifyVersion versionId (·.openScan env.now)).Sound :=
    h.quietWrite (fun _ => rfl) (fun _ => rfl)
  have hopen : (db.modifyVersion versionId (·.openPoll env.now)).Sound :=
    h.quietWrite (fun _ => rfl) (fun _ => rfl)
  have hrow : (db.modifyVersion versionId (·.openScan env.now)).modifyVersion versionId
      (·.modifyResult (.machine .virustotal) .scan id) =
      db.modifyVersion versionId (·.openPoll env.now) :=
    Db.modifyVersion_modifyVersion ..
  simp only [pollVirustotalAnalysis, Work.bind_run, Session.start,
    getOrCreateScan_run h.constraints]
  cases hv : db.versions.lookup versionId with
  | none => rfl
  | some v =>
    simp only [flush_run hscan.constraints, updateVersion_run, hrow]
    have hawait : (v.openScan env.now).awaitedAnalysis env.now = v.awaitedAnalysis env.now := rfl
    have hattempts : (v.openScan env.now).pollAttempts env.now = v.pollAttempts env.now := rfl
    have hdeadline : ∀ config, (v.openScan env.now).pollDeadline env.now config =
      v.pollDeadline env.now config := fun _ => rfl
    have hout : ∀ config analysisId answer,
      pollOutcome env config (v.openScan env.now) analysisId answer =
        pollOutcome env config v analysisId answer := fun _ _ _ => rfl
    simp only [hawait, hattempts, hdeadline, hout, PluginVersion.pollDecision]
    cases v.awaitedAnalysis env.now with
    | none => rfl
    | some analysisId =>
      simp only [Work.bind_run, runtimeConfig_run hopen.constraints, Db.modifyVersion_config,
        Work.ite_run]
      by_cases hen : (!db.config.scanEnabledProviders.contains .virustotal) = true
      · simp only [hen, if_true]
        exact completeProviderOutcome_run h (fun hm => by cases hm)
      by_cases hkey : db.config.virustotal.apiKey.isEmpty = true
      · simp only [hen, hkey, if_true, Bool.false_eq_true, if_false]
        exact completeProviderOutcome_run h (fun hm => by cases hm)
      by_cases hdue : v.pollDeadline env.now db.config.virustotal ≤ env.now
      · simp only [hen, hkey, hdue, if_true, Bool.false_eq_true, if_false]
        exact completeProviderOutcome_run h (fun hm => by cases hm)
      simp only [hen, hkey, hdue, Bool.false_eq_true, if_false]
      cases env.pollAnswer with
      | error e => rfl
      | ok answer =>
        simp only [Work.lift_ok, updateVersion_run]
        generalize pollOutcome env db.config.virustotal v analysisId answer = o
        have hdone : ((db.modifyVersion versionId (·.openPoll env.now)).modifyVersion versionId
            (·.record env.now .virustotal o (·.applyTracking .virustotal o))).modifyVersion
            versionId (·.finishScan env.now (if o.mode = .pending then .scanning else .success)) =
            db.polled env.now versionId o (·.applyTracking .virustotal o) := by
          simp only [Db.modifyVersion_modifyVersion, Db.polled]
          rfl
        rw [hdone]
        by_cases hlate : v.isLatest = true ∧ o.mode = .pending
        · have hno := h.polled_refused env hv (·.applyTracking .virustotal o)
            hlate.1 hlate.2
          have hrun := Work.commit_refused (ε := PyErr) (c := db) (x := x) (r := false) hno
          simp only [hlate, and_self, if_true, hrun]
        · have hyes := h.polled env hv o (·.applyTracking .virustotal o) hlate
          simp only [hlate, if_false, commit_run hyes.constraints]

end PluginRegistry
