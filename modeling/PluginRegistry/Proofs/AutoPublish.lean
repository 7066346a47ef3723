import PluginRegistry.Proofs.Admission

namespace PluginRegistry
open Lib

inductive Completion
  | scan (versionId : VersionId) (providers : Option (List String))
  | poll (versionId : VersionId)

namespace Completion

def versionId : Completion → VersionId
  | scan versionId _ => versionId
  | poll versionId => versionId

def op : Completion → Operation
  | scan versionId providers => .scanVersion versionId providers
  | poll versionId => .pollVirustotalAnalysis versionId

end Completion

variable {env : Env} {db mid db' : Db} {x : Outside}

structure Db.Quiet (db db' : Db) (versionId : VersionId) : Prop where
  plugins : db'.plugins = db.plugins
  standing : ∀ i, (db'.versions.lookup i).map (·.standing) =
    (db.versions.lookup i).map (·.standing)
  others : ∀ i, i ≠ versionId → db'.versions.lookup i = db.versions.lookup i

variable {versionId : VersionId}

theorem Db.Quiet.refl (db : Db) (versionId : VersionId) : db.Quiet db versionId :=
  ⟨rfl, fun _ => rfl, fun _ _ => rfl⟩

theorem Db.Quiet.modifyVersion {f : PluginVersion → PluginVersion}
    (hf : ∀ v, (f v).standing = v.standing) :
    db.Quiet (db.modifyVersion versionId f) versionId := by
  refine ⟨rfl, fun i => ?_, fun i hi => by simp [hi]⟩
  rw [Db.lookup_modifyVersion, Option.map_map]
  congr 1
  funext v
  simp only [Function.comp]
  split
  · exact hf v
  · rfl

theorem Db.Quiet.lookup (h : db.Quiet db' versionId) {i : VersionId} {v : PluginVersion}
    (hv : db.versions.lookup i = some v) :
    ∃ w, db'.versions.lookup i = some w ∧ w.standing = v.standing := by
  have hs := h.standing i
  rw [hv] at hs
  exact Option.map_eq_some_iff.mp hs

def Db.PublishedBy (db db' : Db) (now : Time) (pluginId : PluginId) (versionId : VersionId) :
    Prop :=
  ∃ mid, db.Quiet mid versionId ∧ db' = mid.published now pluginId versionId .skipped

/-- What a scan needs to publish its version: the scanners answer, none of them
asks for a later look, auto-publish is on, and every required provider passes. -/
structure ScanPublishes (env : Env) (db : Db) (providers : Option (List String))
    (v : PluginVersion) : Prop where
  known : ∃ selected, db.selectedProviders providers = .ok selected
  answered : Answered env db.config (db.selection providers)
  settled : ¬ FollowedUp env db.config (db.selection providers)
  admitted : ¬ (v.isLatest = true ∧ Waiting env db.config (db.selection providers))
  refreshed : env.fault (.refresh .scanVersion) = none
  automatic : db.config.scanAutoPublishEnabled = true ∧ db.config.scanRequireHumanReview = false
  passing : ∀ p ∈ db.config.scanEnabledProviders,
    Passing env db.config (db.selection providers) v p

theorem autoPublished_cases (env : Env) {v w : PluginVersion} (hq : db.Quiet mid versionId)
    (hv : mid.versions.lookup versionId = some w) (hw : w.standing = v.standing) :
    if mid.autoPublishes w then
      db.PublishedBy (mid.autoPublished env.now versionId) env.now v.pluginId versionId
    else db.Quiet (mid.autoPublished env.now versionId) versionId := by
  have hown : w.pluginId = v.pluginId :=
    PluginVersion.pluginId_congr (PluginVersion.origin_of_standing hw)
  simp only [Db.autoPublished, hv]
  cases mid.autoPublishes w with
  | true =>
    simp only [if_true]
    exact ⟨mid, hq, by rw [hown]⟩
  | false =>
    simp only [Bool.false_eq_true, if_false]
    exact hq

theorem Db.scanOpened_quiet {v : PluginVersion} {now : Time} :
    db.Quiet (db.scanOpened now versionId v) versionId := by
  unfold Db.scanOpened
  split
  · exact .modifyVersion fun v => v.beginScan_standing now
  · exact .refl db versionId

/-- A recorded scan goes on to publish exactly when its inputs say so. -/
theorem scanPublishes_iff (h : db.Sound) {versionId : VersionId} {v : PluginVersion}
    (hv : db.versions.lookup versionId = some v) {providers : Option (List String)}
    {selected : List Provider} (hsel : db.selectedProviders providers = .ok selected)
    {outcomes : List (Provider × ScanOutcome)}
    (hans : scanSelectedProviders env db.config selected = .ok outcomes)
    (hlate : ¬ (v.isLatest = true ∧ anyPending outcomes = true)) :
    ScanPublishes env db providers v ↔
      (followupTask env outcomes = none ∧ env.fault (.refresh .scanVersion) = none) ∧
        (db.scanned env.now versionId outcomes).autoPublishes (v.scanned env.now outcomes) =
          true := by
  have hselection := Db.selection_of_ok hsel
  have hnd := db.selection_nodup providers
  rw [hselection] at hnd
  have hpend := anyPending_iff hans
  have hfollow := followupTask_iff hans
  have hauto : (db.scanned env.now versionId outcomes).autoPublishes
      (v.scanned env.now outcomes) = true ↔
      (db.config.scanAutoPublishEnabled = true ∧ db.config.scanRequireHumanReview = false) ∧
        ∀ p ∈ db.config.scanEnabledProviders, Passing env db.config selected v p := by
    rw [Db.autoPublishes_iff, ← scanned_passes (h.artifacts _ v hv) hnd hans]
    rfl
  rw [hauto, ← Option.not_isSome_iff_eq_none, hfollow]
  constructor
  · rintro ⟨-, -, hset, -, href, hpol, hpass⟩
    rw [hselection] at hset hpass
    exact ⟨⟨hset, href⟩, hpol, hpass⟩
  · rintro ⟨⟨hset, href⟩, hpol, hpass⟩
    refine ⟨⟨selected, hsel⟩, ?_, ?_, ?_, href, hpol, ?_⟩
    · rw [hselection]
      exact scanSelectedProviders_ok.mp ⟨_, hans⟩
    · rw [hselection]
      exact hset
    · rw [hselection, ← hpend]
      exact hlate
    · rw [hselection]
      exact hpass

/-- A scan publishes its version or leaves every standing alone. -/
theorem scanResult_cases (env : Env) (h : db.Sound) {versionId : VersionId} {v : PluginVersion}
    (hv : db.versions.lookup versionId = some v) (providers : Option (List String)) :
    (ScanPublishes env db providers v →
        db.PublishedBy (db.scanResult env versionId providers) env.now v.pluginId versionId) ∧
      (¬ ScanPublishes env db providers v →
        db.Quiet (db.scanResult env versionId providers) versionId) := by
  unfold Db.scanResult
  cases hsel : db.selectedProviders providers with
  | error e =>
    refine ⟨fun hp => ?_, fun _ => .refl db versionId⟩
    obtain ⟨selected, hk⟩ := hp.known
    rw [hsel] at hk
    cases hk
  | ok selected =>
    have hselection := Db.selection_of_ok hsel
    rw [hv]
    dsimp only
    cases hans : scanSelectedProviders env db.config selected with
    | error e =>
      refine ⟨fun hp => ?_, fun _ => Db.scanOpened_quiet⟩
      have ha := hp.answered
      rw [hselection] at ha
      obtain ⟨outcomes, ho⟩ := scanSelectedProviders_ok.mpr ha
      rw [hans] at ho
      cases ho
    | ok outcomes =>
      have hpend := anyPending_iff hans
      dsimp only
      by_cases hlate : v.isLatest = true ∧ anyPending outcomes = true
      · rw [if_pos hlate]
        refine ⟨fun hp => ?_, fun _ => Db.scanOpened_quiet⟩
        exact absurd ⟨hlate.1, hselection ▸ hpend.mp hlate.2⟩ hp.admitted
      · rw [if_neg hlate, scanPublishes_iff h hv hsel hans hlate]
        have hquiet : db.Quiet (db.scanned env.now versionId outcomes) versionId :=
          .modifyVersion fun w => w.scanned_standing env.now outcomes
        have hcases := autoPublished_cases env hquiet
          (Db.scanned_lookup env.now hv outcomes) (v.scanned_standing env.now outcomes)
        unfold Db.afterScan
        constructor
        · rintro ⟨hgo, hyes⟩
          rw [if_pos hgo]
          rwa [if_pos hyes] at hcases
        · intro hno
          split
          · rename_i hgo
            rwa [if_neg fun hyes => hno ⟨hgo, hyes⟩] at hcases
          · exact hquiet

/-- How a poll comes to a result that lets VirusTotal pass, and the function
that then re-reads the version. -/
inductive PollPasses (env : Env) (cfg : RuntimeConfig) (v : PluginVersion) : Caller → Prop
  | disabled (h : Provider.virustotal ∉ cfg.scanEnabledProviders) :
    PollPasses env cfg v .completeProviderOutcome
  | unconfigured (he : Provider.virustotal ∈ cfg.scanEnabledProviders)
      (hk : cfg.virustotal.apiKey = "") : PollPasses env cfg v .completeProviderOutcome
  | answered {analysisId : String} {answer : ScanOutcome} (ha : PollAsks env cfg v analysisId)
      (ho : env.pollAnswer = .ok answer) (hp : answer.payload.passes = true) :
    PollPasses env cfg v .pollVirustotalAnalysis

structure PollPublishes (env : Env) (db : Db) (v : PluginVersion) : Prop where
  awaits : (v.awaitedAnalysis env.now).isSome = true
  passes : ∃ caller, PollPasses env db.config v caller ∧ env.fault (.refresh caller) = none
  automatic : db.config.scanAutoPublishEnabled = true ∧ db.config.scanRequireHumanReview = false
  others : ∀ p ∈ db.config.scanEnabledProviders, p ≠ .virustotal → v.resultPasses p = true

structure PollReady (env : Env) (db : Db) (v : PluginVersion) (caller : Caller)
    (o : ScanOutcome) : Prop where
  final : o.mode ≠ .pending
  refreshed : env.fault (.refresh caller) = none
  automatic : db.config.scanAutoPublishEnabled = true ∧ db.config.scanRequireHumanReview = false
  virustotal : .virustotal ∈ db.config.scanEnabledProviders → o.payload.passes = true
  others : ∀ p ∈ db.config.scanEnabledProviders, p ≠ .virustotal → v.resultPasses p = true

/-- A poll publishes its version or leaves what is served alone. -/
theorem polled_cases (env : Env) {versionId : VersionId} {v : PluginVersion} {o : ScanOutcome}
    {track : SecurityScan → SecurityScan} (h : db.Sound) (ht : KeepsLegacy track)
    (hv : db.versions.lookup versionId = some v) (caller : Caller) :
    (PollReady env db v caller o →
        db.PublishedBy ((db.polled env.now versionId o track).afterPoll env caller versionId o)
          env.now v.pluginId versionId) ∧
      (¬ PollReady env db v caller o →
        db.Quiet ((db.polled env.now versionId o track).afterPoll env caller versionId o)
          versionId) := by
  have hquiet : db.Quiet (db.polled env.now versionId o track) versionId :=
    .modifyVersion fun w => w.polled_standing env.now o track
  have hcases := autoPublished_cases env hquiet
    (Db.polled_lookup env.now hv o track) (v.polled_standing env.now o track)
  have hauto : (db.polled env.now versionId o track).autoPublishes (v.polled env.now o track) =
      true ↔ (db.config.scanAutoPublishEnabled = true ∧
        db.config.scanRequireHumanReview = false) ∧
        (.virustotal ∈ db.config.scanEnabledProviders → o.payload.passes = true) ∧
        ∀ p ∈ db.config.scanEnabledProviders, p ≠ .virustotal → v.resultPasses p = true := by
    rw [Db.autoPublishes_iff, ← polled_passes (h.artifacts _ v hv) ht]
    rfl
  unfold Db.afterPoll
  constructor
  · rintro ⟨hmode, href, hpol, hvt, hoth⟩
    rw [if_pos ⟨hmode, href⟩]
    rwa [if_pos (hauto.mpr ⟨hpol, hvt, hoth⟩)] at hcases
  · intro hno
    split
    · rename_i hgo
      rw [if_neg] at hcases
      · exact hcases
      · intro hyes
        obtain ⟨hpol, hvt, hoth⟩ := hauto.mp hyes
        exact hno ⟨hgo.1, hgo.2, hpol, hvt, hoth⟩
    · exact hquiet

theorem pollOutcome_final {config : VirusTotalConfig} {v : PluginVersion} {analysisId : String}
    {answer : ScanOutcome} (h : answer.mode ≠ .pending) :
    pollOutcome env config v analysisId answer = answer :=
  if_neg h

/-- A poll whose answer is still pending, or whose time is up, passes nothing. -/
theorem pollOutcome_passes {config : VirusTotalConfig} {v : PluginVersion} {analysisId : String}
    {answer : ScanOutcome} :
    (pollOutcome env config v analysisId answer).payload.passes = true ↔
      answer.payload.passes = true := by
  by_cases hp : answer.mode = .pending
  · have hno : answer.payload.passes = false := by
      simp [ScanPayload.passes, ScanOutcome.payload, hp]
    rw [pollOutcome, if_pos hp, hno]
    dsimp only
    split <;> exact iff_of_false (by simp [ScanPayload.passes, ScanOutcome.payload,
      virustotalTimeoutOutcome, pollPendingOutcome]) (by simp)
  · rw [pollOutcome_final hp]

theorem PluginVersion.clear_keeps (p : Provider) : KeepsLegacy (·.clearTracking p) :=
  fun scan q => scan.clearTracking_legacy p q

theorem PluginVersion.apply_keeps (p : Provider) (o : ScanOutcome) :
    KeepsLegacy (·.applyTracking p o) :=
  fun scan q => scan.applyTracking_legacy p q o

/-- The two callers stand for two ways a poll can end, one of which it takes. -/
theorem pollReady_iff {v : PluginVersion} {caller : Caller} {o : ScanOutcome}
    (hid : (v.awaitedAnalysis env.now).isSome = true)
    (hcaller : ∀ c, PollPasses env db.config v c → c = caller)
    (hpass : (o.mode ≠ .pending ∧
        (.virustotal ∈ db.config.scanEnabledProviders → o.payload.passes = true)) ↔
      PollPasses env db.config v caller) :
    PollReady env db v caller o ↔ PollPublishes env db v := by
  constructor
  · rintro ⟨hmode, href, hpol, hvt, hoth⟩
    exact ⟨hid, ⟨caller, hpass.mp ⟨hmode, hvt⟩, href⟩, hpol, hoth⟩
  · rintro ⟨-, ⟨c, hc, href⟩, hpol, hoth⟩
    obtain rfl := hcaller c hc
    obtain ⟨hmode, hvt⟩ := hpass.mpr hc
    exact ⟨hmode, href, hpol, hvt, hoth⟩

theorem ScanOutcome.skipped_passes {o : ScanOutcome} (h : o.mode = .skipped) :
    o.payload.passes = true := by
  simp [ScanPayload.passes, ScanOutcome.payload, h]

/-- What a completed poll needs to publish is what the poll needs. -/
theorem pollReady_complete {v : PluginVersion} {o : ScanOutcome}
    (h : v.pollDecision env db.config = .complete o) :
    PollReady env db v .completeProviderOutcome o ↔ PollPublishes env db v := by
  have hcase := v.pollCase env db.config
  rw [h] at hcase
  cases hcase with
  | disabled hid hno ho =>
    refine pollReady_iff (by simp [hid]) ?_ ⟨fun _ => .disabled hno, fun _ => ⟨by simp [ho], ?_⟩⟩
    · intro c hc
      cases hc with
      | disabled => rfl
      | unconfigured => rfl
      | answered ha => exact absurd ha.enabled hno
    · exact fun hin => absurd hin hno
  | unconfigured hid hen hk ho =>
    refine pollReady_iff (by simp [hid]) ?_
      ⟨fun _ => .unconfigured hen hk, fun _ => ⟨by simp [ho], fun _ => ScanOutcome.skipped_passes ho⟩⟩
    intro c hc
    cases hc with
    | disabled => rfl
    | unconfigured => rfl
    | answered ha => exact absurd hk ha.keyed
  | expired hid hen hk hdue ho =>
    have hnone : ∀ c, ¬ PollPasses env db.config v c := by
      intro c hc
      cases hc with
      | disabled hno => exact hno hen
      | unconfigured _ hkey => exact hk hkey
      | answered ha => exact absurd hdue (Nat.not_le.mpr ha.early)
    refine pollReady_iff (by simp [hid]) (fun c hc => absurd hc (hnone c))
      (iff_of_false ?_ (hnone _))
    rintro ⟨-, hvt⟩
    have := hvt hen
    simp [ScanPayload.passes, ScanOutcome.payload, ho] at this

theorem pollReady_recorded {v : PluginVersion} {o : ScanOutcome}
    (h : v.pollDecision env db.config = .recorded o) :
    PollReady env db v .pollVirustotalAnalysis o ↔ PollPublishes env db v := by
  have hcase := v.pollCase env db.config
  rw [h] at hcase
  cases hcase with
  | @recorded analysisId hask answer hans =>
    refine pollReady_iff (by simp [hask.awaits]) ?_ ⟨?_, ?_⟩
    · intro c hc
      cases hc with
      | disabled hno => exact absurd hask.enabled hno
      | unconfigured _ hkey => exact absurd hkey hask.keyed
      | answered => rfl
    · rintro ⟨-, hvt⟩
      exact .answered hask hans (pollOutcome_passes.mp (hvt hask.enabled))
    · intro hc
      cases hc with
      | answered _ hans' hp =>
        rw [hans] at hans'
        cases hans'
        have hpass : (pollOutcome env db.config.virustotal v analysisId answer).payload.passes =
            true := pollOutcome_passes.mpr hp
        exact ⟨passes_result hpass, fun _ => hpass⟩

/-- A poll publishes its version or leaves every standing alone. -/
theorem pollResult_cases (h : db.Sound) {versionId : VersionId} {v : PluginVersion}
    (hv : db.versions.lookup versionId = some v) :
    (PollPublishes env db v →
        db.PublishedBy (db.pollResult env versionId) env.now v.pluginId versionId) ∧
      (¬ PollPublishes env db v → db.Quiet (db.pollResult env versionId) versionId) := by
  unfold Db.pollResult
  rw [hv]
  dsimp only
  have hcase := v.pollCase env db.config
  cases hd : v.pollDecision env db.config with
  | idle =>
    refine ⟨fun hp => ?_, fun _ => .refl db versionId⟩
    rw [hd] at hcase
    cases hcase with
    | idle hn =>
      have := hp.awaits
      rw [hn] at this
      cases this
  | failed e =>
    refine ⟨fun hp => ?_, fun _ => .refl db versionId⟩
    rw [hd] at hcase
    cases hcase with
    | failed hask he =>
      obtain ⟨c, hc, -⟩ := hp.passes
      cases hc with
      | disabled hno => exact absurd hask.enabled hno
      | unconfigured _ hkey => exact absurd hkey hask.keyed
      | answered _ hans _ =>
        rw [he] at hans
        cases hans
  | complete o =>
    have hcases := polled_cases env (o := o) h (PluginVersion.clear_keeps .virustotal) hv
      .completeProviderOutcome
    rwa [pollReady_complete hd] at hcases
  | recorded o =>
    have hcases := polled_cases env (o := o) h (PluginVersion.apply_keeps .virustotal o)
      hv .pollVirustotalAnalysis
    dsimp only
    split
    · rename_i hlate
      refine ⟨fun hp => ?_, fun _ => .refl db versionId⟩
      exact absurd hlate.2 ((pollReady_recorded hd).mpr hp).final
    · rwa [pollReady_recorded hd] at hcases

namespace Completion

def Publishes (env : Env) (db : Db) (v : PluginVersion) : Completion → Prop
  | scan _ providers => ScanPublishes env db providers v
  | poll _ => PollPublishes env db v

def after (c : Completion) (env : Env) (w : World) : Db :=
  (c.op.perform env w.db w.outside).db

theorem cases (env : Env) (c : Completion) {w : World} (h : w.db.Sound) {v : PluginVersion}
    (hv : w.db.versions.lookup c.versionId = some v) :
    (c.Publishes env w.db v →
        w.db.PublishedBy (c.after env w) env.now v.pluginId c.versionId) ∧
      (¬ c.Publishes env w.db v → w.db.Quiet (c.after env w) c.versionId) := by
  rw [after, (c.op.performs _ _ h).rows]
  cases c with
  | scan versionId providers => exact scanResult_cases _ h hv providers
  | poll versionId => exact pollResult_cases h hv

end Completion

namespace Db.PublishedBy

variable {now : Time} {pluginId : PluginId} {v : PluginVersion}

theorem version (h : db.PublishedBy db' now pluginId versionId)
    (hv : db.versions.lookup versionId = some v) :
    ∃ v', db'.versions.lookup versionId = some v' ∧ v'.versionStatus = .active ∧
      v'.isLatest = true ∧ v'.pluginId = v.pluginId := by
  obtain ⟨mid, hq, rfl⟩ := h
  obtain ⟨w, hw, hst⟩ := hq.lookup hv
  refine ⟨w.published pluginId now .skipped, ?_, ?_, rfl, ?_⟩
  · rw [(Db.published_rewritten ..).versions, hw, Option.map_some, if_pos rfl]
  · exact w.activated.withoutLatest_versionStatus pluginId
  · rw [PluginVersion.pluginId_congr (w.published_origin pluginId now .skipped)]
    exact PluginVersion.pluginId_congr (PluginVersion.origin_of_standing hst)

theorem plugin {a : Plugin} (h : db.PublishedBy db' now pluginId versionId)
    (ha : db.plugins.lookup pluginId = some a) :
    ∃ a', db'.plugins.lookup pluginId = some a' ∧ a'.status = .active := by
  obtain ⟨mid, hq, rfl⟩ := h
  refine ⟨{ a with status := .active, reviewStatus := .skipped }, ?_, rfl⟩
  rw [(Db.published_rewritten ..).plugins, hq.plugins, ha, Option.map_some, if_pos rfl]

/-- Every other version loses the flag if it belongs to the plugin, and stays
as it is if not. -/
theorem other {i : VersionId} (h : db.PublishedBy db' now pluginId versionId)
    (hi : i ≠ versionId) :
    db'.versions.lookup i = (db.versions.lookup i).map (·.withoutLatest pluginId) := by
  obtain ⟨mid, hq, rfl⟩ := h
  rw [(Db.published_rewritten ..).versions, hq.others i hi]
  simp only [hi, if_false]

end Db.PublishedBy

def Db.PluginStopped (db : Db) (v : PluginVersion) : Prop :=
  ∃ a, db.plugins.lookup v.pluginId = some a ∧ (a.status = .disabled ∨ a.status = .deleted)

def PluginVersion.Withdrawn (v : PluginVersion) : Prop :=
  v.versionStatus = .deprecated ∨ v.versionStatus = .deleted

def Db.Decided (db : Db) (v : PluginVersion) : Prop :=
  db.PluginStopped v ∨ v.Withdrawn

def Db.PluginDown (db' : Db) (v : PluginVersion) : Prop :=
  ∀ a, db'.plugins.lookup v.pluginId = some a → a.status ≠ .active

/-- What the admin has decided about a version still holds afterwards: a
stopped plugin is not active and the version not its latest, and a withdrawn
version is neither active nor the latest. -/
structure DecisionKept (db db' : Db) (versionId : VersionId) (v : PluginVersion) : Prop where
  plugin : db.PluginStopped v → db'.PluginDown v ∧
    ∀ v', db'.versions.lookup versionId = some v' → v'.isLatest = false
  version : v.Withdrawn → ∀ v', db'.versions.lookup versionId = some v' →
    v'.versionStatus ≠ .active ∧ v'.isLatest = false

/-- After either decision, the plugin is not active and the version neither
active nor the latest. -/
def DecisionStrict (db db' : Db) (versionId : VersionId) (v : PluginVersion) : Prop :=
  db.Decided v → db'.PluginDown v ∧ ∀ v', db'.versions.lookup versionId = some v' →
    v'.versionStatus ≠ .active ∧ v'.isLatest = false

theorem Db.Sound.decided_not_latest (h : db.Sound) {versionId : VersionId} {v : PluginVersion}
    (hv : db.versions.lookup versionId = some v) (hd : db.Decided v) : v.isLatest = false := by
  rw [Bool.eq_false_iff]
  intro hl
  rcases hd with ⟨a, ha, hs⟩ | hw
  · have hshown := h.shown versionId v hv hl a ha
    rcases hs with hs | hs <;> rcases hshown with hc | hc <;> cases hs.symm.trans hc
  · have hact := ((h.constraints.checked versionId v hv).latestActiveSuccess hl).1
    rcases hw with hw | hw <;> cases hw.symm.trans hact

theorem quiet_kept (h : db.Sound) (hq : db.Quiet db' versionId) {v : PluginVersion}
    (hv : db.versions.lookup versionId = some v) : DecisionKept db db' versionId v := by
  have hrow : ∀ v', db'.versions.lookup versionId = some v' → v'.standing = v.standing := by
    intro v' hv'
    obtain ⟨w, hw, hst⟩ := hq.lookup hv
    obtain rfl := Option.some.inj (hw.symm.trans hv')
    exact hst
  have hlatest : db.Decided v → ∀ v', db'.versions.lookup versionId = some v' →
      v'.isLatest = false := fun hd v' hv' =>
    (PluginVersion.isLatest_of_standing (hrow v' hv')).trans (h.decided_not_latest hv hd)
  refine ⟨fun hs => ⟨?_, hlatest (.inl hs)⟩, fun hw v' hv' => ⟨?_, hlatest (.inr hw) v' hv'⟩⟩
  · obtain ⟨a, ha, hs⟩ := hs
    intro a' ha'
    rw [hq.plugins, ha] at ha'
    cases ha'
    rcases hs with hs | hs <;> simp [hs]
  · rw [PluginVersion.versionStatus_of_standing (hrow v' hv')]
    rcases hw with hw | hw <;> simp [hw]

theorem published_overrides {now : Time} {versionId : VersionId} {v : PluginVersion}
    (hp : db.PublishedBy db' now v.pluginId versionId)
    (hv : db.versions.lookup versionId = some v) (hd : db.Decided v) :
    ¬ DecisionKept db db' versionId v := by
  intro hk
  obtain ⟨v', hv', hact, -⟩ := hp.version hv
  rcases hd with hs | hw
  · have ⟨a, ha, _⟩ := hs
    obtain ⟨a', ha', hact'⟩ := hp.plugin ha
    exact (hk.plugin hs).1 a' ha' hact'
  · exact (hk.version hw v' hv').1 hact

theorem quiet_strict_iff (h : db.Sound) (hq : db.Quiet db' versionId) {v : PluginVersion}
    (hv : db.versions.lookup versionId = some v) :
    DecisionStrict db db' versionId v ↔
      (db.Decided v → db.PluginDown v ∧ v.versionStatus ≠ .active) := by
  obtain ⟨w, hw, hst⟩ := hq.lookup hv
  have hdown : db'.PluginDown v ↔ db.PluginDown v := by
    rw [Db.PluginDown, Db.PluginDown, hq.plugins]
  refine forall_congr' fun hd => ?_
  have hlatest := (PluginVersion.isLatest_of_standing hst).trans (h.decided_not_latest hv hd)
  simp only [hdown, hw, Option.some.injEq, forall_eq', hlatest, and_true,
    PluginVersion.versionStatus_of_standing hst]

def autoPublishConfig : RuntimeConfig :=
  { RuntimeConfig.default with scanAutoPublishEnabled := true, scanRequireHumanReview := false }

def withdrawnRun : List Event :=
  [.perform (.createPlugin .demo "") (.calm 0),
    .perform (.uploadVersion 0 .demo [] "") (.calm 1),
    .perform (.setPluginStatus 0 .disabled none) (.calm 2),
    .perform (.setVersionStatus 1 .deprecated) (.calm 3)]

def Db.KeepsNewest (db db' : Db) : Prop :=
  ∀ i u, db.versions.lookup i = some u → ∀ j t, db'.versions.lookup j = some t →
    u.isLatest = true → t.isLatest = true → t.pluginId = u.pluginId → u.createdAt ≤ t.createdAt

instance (db db' : Db) : Decidable (db.KeepsNewest db') :=
  inferInstanceAs (Decidable (∀ i u, db.versions.lookup i = some u →
    ∀ j t, db'.versions.lookup j = some t → u.isLatest = true → t.isLatest = true →
      t.pluginId = u.pluginId → u.createdAt ≤ t.createdAt))

def twoVersionsRun : List Event :=
  [.perform (.createPlugin .demo "") (.calm 0),
    .perform (.uploadVersion 0 .demo [] "1.0.0") (.calm 1),
    .perform (.uploadVersion 0 .demo [] "2.0.0") (.calm 2),
    .perform (.scanVersion 1 none) (.calm 3),
    .perform (.scanVersion 2 none) (.calm 4)]

end PluginRegistry
