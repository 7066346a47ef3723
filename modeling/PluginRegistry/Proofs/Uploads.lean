import PluginRegistry.Proofs.AutoPublish

namespace PluginRegistry
open Lib

variable {env : Env} {db db' : Db} {versionId : VersionId} {v : PluginVersion}

structure PluginVersion.Idle (v : PluginVersion) : Prop where
  build : v.buildStatus ≠ .success
  status : v.versionStatus ≠ .active
  latest : v.isLatest = false

theorem PluginVersion.Idle.withoutLatest (h : v.Idle) (pluginId : PluginId) :
    (v.withoutLatest pluginId).Idle := by
  refine ⟨?_, ?_, ?_⟩
  · rw [withoutLatest_buildStatus]
    exact h.build
  · rw [withoutLatest_versionStatus]
    exact h.status
  · rw [Bool.eq_false_iff, ne_eq, withoutLatest_isLatest]
    simp [h.latest]

theorem PluginVersion.Idle.standing {w : PluginVersion} (h : v.Idle)
    (hs : w.standing = v.standing) (hb : w.buildStatus ≠ .success) : w.Idle :=
  ⟨hb, (versionStatus_of_standing hs) ▸ h.status, (isLatest_of_standing hs).trans h.latest⟩

def Db.IdleAt (db : Db) (versionId : VersionId) : Prop :=
  ∀ v, db.versions.lookup versionId = some v → v.Idle

theorem Db.idleAt_some {w : PluginVersion} (h : db.versions.lookup versionId = some w) :
    db.IdleAt versionId ↔ w.Idle := by
  simp [Db.IdleAt, h]

theorem published_not_idle {now : Time} {pluginId : PluginId}
    (hp : db.PublishedBy db' now pluginId versionId)
    (hv : db.versions.lookup versionId = some v) : ¬ db'.IdleAt versionId := by
  obtain ⟨v', hv', hact, -⟩ := hp.version hv
  exact fun h => (h v' hv').status hact

/-- A scan that ends with the build status `success`: every scanner answers,
and none is still waiting unless the version is published all the same. -/
structure ScanFinishes (env : Env) (db : Db) (providers : Option (List String))
    (v : PluginVersion) : Prop where
  known : ∃ selected, db.selectedProviders providers = .ok selected
  answered : Answered env db.config (db.selection providers)
  final : ¬ Waiting env db.config (db.selection providers) ∨ ScanPublishes env db providers v

theorem scanBuildStatus_success {outcomes : List (Provider × ScanOutcome)} :
    PluginVersion.scanBuildStatus outcomes = .success ↔ ¬ anyPending outcomes = true := by
  unfold PluginVersion.scanBuildStatus anyPending
  split
  · rename_i hp
    exact iff_of_false (by simp) (not_not.mpr hp)
  · rename_i hp
    exact iff_of_true rfl hp

theorem beginScan_idle (h : v.Idle) (now : Time) : (v.beginScan now).Idle := by
  refine h.standing (v.beginScan_standing now) ?_
  unfold PluginVersion.beginScan
  split
  · simp
  · exact h.build

theorem scanOpened_idle (hv : db.versions.lookup versionId = some v) (h : v.Idle) (now : Time) :
    (db.scanOpened now versionId v).IdleAt versionId := by
  unfold Db.scanOpened
  split
  · rw [Db.idleAt_some (w := v.beginScan now) (by simp [hv])]
    exact beginScan_idle h now
  · rwa [Db.idleAt_some hv]

/-- The row after the end of a scan that publishes nothing. -/
theorem afterScan_unpublished {outcomes : List (Provider × ScanOutcome)}
    (h : db.Quiet ((db.scanned env.now versionId outcomes).afterScan env versionId outcomes)
      versionId) (hidle : v.Idle) (hv : db.versions.lookup versionId = some v) :
    (db.scanned env.now versionId outcomes).afterScan env versionId outcomes =
      db.scanned env.now versionId outcomes := by
  unfold Db.afterScan at h ⊢
  split at h
  · rename_i hgo
    rw [if_pos hgo]
    have hrow := Db.scanned_lookup env.now hv outcomes
    simp only [Db.autoPublished, hrow] at h ⊢
    split at h
    · exfalso
      obtain ⟨w, hw, hst⟩ := h.lookup hv
      rw [(Db.published_rewritten ..).versions, hrow, Option.map_some, if_pos rfl] at hw
      cases hw
      have hl := (PluginVersion.isLatest_of_standing hst).trans hidle.latest
      cases hl
    · rename_i hno
      rw [if_neg hno]
  · rename_i hgo
    rw [if_neg hgo]

/-- An idle version stays idle after a scan unless the scan finishes. -/
theorem scanResult_idle (h : db.Sound) (hv : db.versions.lookup versionId = some v)
    (hidle : v.Idle) (providers : Option (List String)) :
    (db.scanResult env versionId providers).IdleAt versionId ↔
      ¬ ScanFinishes env db providers v := by
  obtain ⟨hyes, hno⟩ := scanResult_cases env h hv providers
  by_cases hp : ScanPublishes env db providers v
  · refine iff_of_false (published_not_idle (hyes hp) hv) (not_not.mpr ?_)
    exact ⟨hp.known, hp.answered, .inr hp⟩
  · have hquiet := hno hp
    have hart := h.artifacts _ v hv
    unfold Db.scanResult at hquiet ⊢
    cases hsel : db.selectedProviders providers with
    | error e =>
      dsimp only
      rw [Db.idleAt_some hv]
      refine iff_of_true hidle fun hf => ?_
      obtain ⟨selected, hk⟩ := hf.known
      rw [hsel] at hk
      cases hk
    | ok selected =>
      have hselection := Db.selection_of_ok hsel
      rw [hsel, hv] at hquiet
      rw [hv]
      dsimp only at hquiet ⊢
      cases hans : scanSelectedProviders env db.config selected with
      | error e =>
        refine iff_of_true (scanOpened_idle hv hidle env.now) fun hf => ?_
        have ha := hf.answered
        rw [hselection] at ha
        obtain ⟨outcomes, ho⟩ := scanSelectedProviders_ok.mpr ha
        rw [hans] at ho
        cases ho
      | ok outcomes =>
        have hlate : ¬ (v.isLatest = true ∧ anyPending outcomes = true) := by
          simp [hidle.latest]
        have hpend := anyPending_iff hans
        rw [hans] at hquiet
        dsimp only at hquiet ⊢
        rw [if_neg hlate] at hquiet ⊢
        rw [afterScan_unpublished hquiet hidle hv, Db.idleAt_some (Db.scanned_lookup _ hv outcomes)]
        have hstand := v.scanned_standing env.now outcomes
        have hbuild := PluginVersion.scanned_buildStatus env.now hart outcomes
        constructor
        · rintro hi ⟨-, -, hwait | hpub⟩
          · rw [hselection, ← hpend, ← scanBuildStatus_success, ← hbuild] at hwait
            exact hi.build hwait
          · exact hp hpub
        · intro hf
          refine hidle.standing hstand fun hs => hf ?_
          rw [hbuild, scanBuildStatus_success, hpend] at hs
          refine ⟨⟨selected, hsel⟩, ?_, .inl ?_⟩
          · rw [hselection]
            exact scanSelectedProviders_ok.mp ⟨_, hans⟩
          · rw [hselection]
            exact hs

/-- A poll that ends with the build status `success`: it gives up, or VirusTotal
has a final answer, or has had its last chance. -/
inductive PollFinishes (env : Env) (cfg : RuntimeConfig) (v : PluginVersion) : Prop
  | disabled (hid : (v.awaitedAnalysis env.now).isSome = true)
      (hno : Provider.virustotal ∉ cfg.scanEnabledProviders)
  | unconfigured (hid : (v.awaitedAnalysis env.now).isSome = true)
      (hen : Provider.virustotal ∈ cfg.scanEnabledProviders) (hk : cfg.virustotal.apiKey = "")
  | expired (hid : (v.awaitedAnalysis env.now).isSome = true)
      (hen : Provider.virustotal ∈ cfg.scanEnabledProviders) (hk : cfg.virustotal.apiKey ≠ "")
      (hdue : v.pollDeadline env.now cfg.virustotal ≤ env.now)
  | answered {analysisId : String} {answer : ScanOutcome} (ha : PollAsks env cfg v analysisId)
      (ho : env.pollAnswer = .ok answer)
      (hf : ¬ (answer.mode = .pending ∧
        (v.pollAttempts env.now + 1 : Nat) < max 1 cfg.virustotal.maxPollAttempts))

theorem pollFinishes_complete {cfg : RuntimeConfig} {o : ScanOutcome}
    (h : v.pollDecision env cfg = .complete o) : PollFinishes env cfg v := by
  have hcase := v.pollCase env cfg
  rw [h] at hcase
  cases hcase with
  | disabled hid hno => exact .disabled (by simp [hid]) hno
  | unconfigured hid hen hk => exact .unconfigured (by simp [hid]) hen hk
  | expired hid hen hk hdue => exact .expired (by simp [hid]) hen hk hdue

theorem pollFinishes_recorded {cfg : RuntimeConfig} {o : ScanOutcome}
    (h : v.pollDecision env cfg = .recorded o) :
    PollFinishes env cfg v ↔ o.mode ≠ .pending := by
  have hcase := v.pollCase env cfg
  rw [h] at hcase
  cases hcase with
  | recorded hask hans =>
    rw [ne_eq, pollOutcome_pending]
    constructor
    · intro hf
      cases hf with
      | disabled _ hno => exact absurd hask.enabled hno
      | unconfigured _ _ hk => exact absurd hk hask.keyed
      | expired _ _ _ hdue => exact absurd hdue (Nat.not_le.mpr hask.early)
      | answered ha ho hf =>
        rw [hans] at ho
        cases ho
        exact hf
    · exact fun hf => .answered hask hans hf

theorem pollFinishes_undecided {cfg : RuntimeConfig}
    (h : v.pollDecision env cfg = .idle ∨ ∃ e, v.pollDecision env cfg = .failed e) :
    ¬ PollFinishes env cfg v := by
  have hcase := v.pollCase env cfg
  rcases h with h | ⟨e, h⟩
  · rw [h] at hcase
    cases hcase with
    | idle hn =>
      intro hf
      cases hf with
      | disabled hid | unconfigured hid | expired hid => simp [hn] at hid
      | answered ha => exact absurd ha.awaits (by simp [hn])
  · rw [h] at hcase
    cases hcase with
    | failed hask he =>
      intro hf
      cases hf with
      | disabled _ hno => exact absurd hask.enabled hno
      | unconfigured _ _ hk => exact absurd hk hask.keyed
      | expired _ _ _ hdue => exact absurd hdue (Nat.not_le.mpr hask.early)
      | answered _ ho =>
        rw [he] at ho
        cases ho

/-- A final outcome leaves the build status `success`, published or not. -/
theorem polled_not_idle (h : db.Sound) (hv : db.versions.lookup versionId = some v)
    {o : ScanOutcome} {track : SecurityScan → SecurityScan} (ho : o.mode ≠ .pending)
    (caller : Caller) :
    ¬ ((db.polled env.now versionId o track).afterPoll env caller versionId o).IdleAt
      versionId := by
  have hrow := Db.polled_lookup env.now hv o track
  have hbuild := PluginVersion.polled_buildStatus env.now (h.artifacts _ v hv) o track
  rw [if_neg ho] at hbuild
  have hsame : ¬ (db.polled env.now versionId o track).IdleAt versionId := by
    rw [Db.idleAt_some hrow]
    exact fun hi => hi.build hbuild
  unfold Db.afterPoll
  split
  · simp only [Db.autoPublished, hrow]
    split
    · exact published_not_idle ⟨_, .refl _ _, rfl⟩ hrow
    · exact hsame
  · exact hsame

theorem pollResult_idle (h : db.Sound) (hv : db.versions.lookup versionId = some v)
    (hidle : v.Idle) :
    (db.pollResult env versionId).IdleAt versionId ↔ ¬ PollFinishes env db.config v := by
  unfold Db.pollResult
  rw [hv]
  dsimp only
  cases hd : v.pollDecision env db.config with
  | idle =>
    rw [Db.idleAt_some hv]
    exact iff_of_true hidle (pollFinishes_undecided (.inl hd))
  | failed e =>
    rw [Db.idleAt_some hv]
    exact iff_of_true hidle (pollFinishes_undecided (.inr ⟨e, hd⟩))
  | complete o =>
    exact iff_of_false (polled_not_idle h hv (PluginVersion.complete_not_pending hd) _)
      (not_not.mpr (pollFinishes_complete hd))
  | recorded o =>
    dsimp only
    rw [if_neg (by simp [hidle.latest]), pollFinishes_recorded hd]
    by_cases ho : o.mode = .pending
    · refine iff_of_true ?_ (not_not.mpr ho)
      rw [Db.afterPoll, if_neg (fun hc => hc.1 ho), Db.idleAt_some (Db.polled_lookup _ hv o _)]
      refine hidle.standing (v.polled_standing ..) ?_
      rw [PluginVersion.polled_buildStatus env.now (h.artifacts _ v hv), if_pos ho]
      simp
    · exact iff_of_false (polled_not_idle h hv ho _) (not_not.mpr ho)

def Operation.target : Operation → Option VersionId
  | .setVersionStatus versionId _ | .setLatestVersion _ versionId
  | .publishPluginVersion _ versionId _ | .scanVersion versionId _ | .markScanPending versionId _
  | .markScanSkipped versionId _ | .pollVirustotalAnalysis versionId => some versionId
  | _ => none

def Db.Spares (db db' : Db) (versionId : VersionId) : Prop :=
  ∀ v', db'.versions.lookup versionId = some v' →
    ∃ v, db.versions.lookup versionId = some v ∧ (v' = v ∨ ∃ p, v' = v.withoutLatest p)

theorem Db.Spares.idleAt (h : db.Spares db' versionId) (hidle : db.IdleAt versionId) :
    db'.IdleAt versionId := by
  intro v' hv'
  obtain ⟨v, hv, rfl | ⟨p, rfl⟩⟩ := h v' hv'
  · exact hidle _ hv
  · exact (hidle v hv).withoutLatest p

theorem Db.Spares.refl (db : Db) (versionId : VersionId) : db.Spares db versionId :=
  fun v' hv' => ⟨v', hv', .inl rfl⟩

theorem Db.Spares.of_eq (h : db'.versions.lookup versionId = db.versions.lookup versionId) :
    db.Spares db' versionId :=
  fun v' hv' => ⟨v', h ▸ hv', .inl rfl⟩

theorem Db.Spares.of_map {f : PluginVersion → PluginVersion}
    (h : db'.versions.lookup versionId = (db.versions.lookup versionId).map f)
    (hf : ∀ v, f v = v ∨ ∃ p, f v = v.withoutLatest p) : db.Spares db' versionId := by
  intro v' hv'
  rw [h] at hv'
  obtain ⟨v, hv, rfl⟩ := Option.map_eq_some_iff.mp hv'
  exact ⟨v, hv, hf v⟩

theorem Db.Spares.of_filter {p : PluginVersion → Bool}
    (h : db'.versions.lookup versionId = (db.versions.lookup versionId).filter p) :
    db.Spares db' versionId := by
  intro v' hv'
  rw [h] at hv'
  exact ⟨v', (Option.filter_eq_some_iff.mp hv').1, .inl rfl⟩

theorem completion_spares (c : Completion) (h : db.Sound)
    (hi : c.versionId = versionId → db.versions.lookup versionId = none) :
    db.Spares (c.op.rows env db) versionId := by
  have hone : ∀ {d : Db} {v : PluginVersion} {pluginId : PluginId} {p : Prop},
      db.versions.lookup c.versionId = some v → (p → db.PublishedBy d env.now pluginId
      c.versionId) ∧ (¬ p → db.Quiet d c.versionId) → db.Spares d versionId := by
    rintro d v pluginId p hv ⟨hyes, hno⟩
    have hne : versionId ≠ c.versionId := by
      rintro rfl
      cases (hi rfl).symm.trans hv
    by_cases hp : p
    · exact .of_map ((hyes hp).other hne) fun v => .inr ⟨pluginId, rfl⟩
    · exact .of_eq ((hno hp).others versionId hne)
  cases hv : db.versions.lookup c.versionId with
  | some v =>
    cases c with
    | scan id providers => exact hone hv (scanResult_cases _ h hv providers)
    | poll id => exact hone hv (pollResult_cases h hv)
  | none =>
    cases c with
    | scan id providers =>
      have hrows : db.scanResult env id providers = db := by
        unfold Db.scanResult
        rw [show db.versions.lookup id = none from hv]
        cases db.selectedProviders providers <;> rfl
      rw [Completion.op, Operation.rows, hrows]
      exact .refl _ _
    | poll id =>
      have hrows : db.pollResult env id = db := by
        unfold Db.pollResult
        rw [show db.versions.lookup id = none from hv]
      rw [Completion.op, Operation.rows, hrows]
      exact .refl _ _

/-- Every row but the one an operation is about, and the one it adds. -/
theorem Operation.spares (h : db.Sound) (op : Operation)
    (hi : op.target = some versionId → db.versions.lookup versionId = none)
    (hnew : ∀ pluginId metadata content version,
      op = .uploadVersion pluginId metadata content version → versionId ≠ db.nextId) :
    db.Spares (op.rows env db) versionId := by
  have hmap : ∀ {d : Db} {id : VersionId} {f g : PluginVersion → PluginVersion},
      (id = versionId → db.versions.lookup versionId = none) →
      d.versions.lookup versionId =
        (db.versions.lookup versionId).map (fun v => if versionId = id then f v else g v) →
      (∀ v, g v = v ∨ ∃ p, g v = v.withoutLatest p) → db.Spares d versionId := by
    intro d id f g hid hd hg
    by_cases hv : versionId = id
    · rw [hid hv.symm] at hd
      intro v' hv'
      rw [hd] at hv'
      cases hv'
    · simp only [hv, if_false] at hd
      exact .of_map hd hg
  have hsame : ∀ {d : Db} {id : VersionId} {f : PluginVersion → PluginVersion},
      (id = versionId → db.versions.lookup versionId = none) →
      d.versions.lookup versionId =
        (db.versions.lookup versionId).map (fun v => if versionId = id then f v else v) →
      db.Spares d versionId := by
    intro d id f hid hd
    exact hmap (g := fun v => v) hid hd fun v => .inl rfl
  cases op with
  | createPlugin metadata repoUrl =>
    refine .of_eq ?_
    rw [Operation.rows, Db.afterCreate]
    split <;> rfl
  | setPluginStatus pluginId status reviewStatus =>
    rw [Operation.rows, Db.afterPluginStatus]
    split
    · refine .of_map ((Db.pluginStatusSet_rewritten ..).versions versionId) fun v => ?_
      split
      · exact .inr ⟨pluginId, rfl⟩
      · exact .inl rfl
    · exact .refl _ _
  | deletePlugin pluginId =>
    rw [Operation.rows, Db.afterDeletePlugin]
    split
    · exact .refl _ _
    · dsimp only
      split
      · exact .of_filter (Db.lookup_withoutPlugin ..)
      · exact .refl _ _
  | uploadVersion pluginId metadata content version =>
    rw [Operation.rows, Db.afterUpload]
    split
    · exact .of_eq (by rw [Db.lookup_addVersion, if_neg (hnew _ _ _ _ rfl)])
    · exact .refl _ _
  | deleteVersion pluginId id =>
    rw [Operation.rows, Db.afterDeleteVersion]
    split
    · exact .refl _ _
    · dsimp only
      split
      · intro v' hv'
        rw [Db.lookup_deleteVersionRow] at hv'
        split at hv'
        · cases hv'
        · exact ⟨v', hv', .inl rfl⟩
      · exact .refl _ _
  | setVersionStatus id status =>
    rw [Operation.rows, Db.afterVersionStatus]
    split
    · exact .refl _ _
    · split
      · exact .refl _ _
      · exact hsame (fun hid => hi (congrArg some hid))
          ((Db.versionStatusSet_rewritten ..).versions versionId)
  | setLatestVersion pluginId id =>
    rw [Operation.rows, Db.afterLatest]
    split
    · exact hmap (g := fun v => v.withoutLatest pluginId)
        (fun hid => hi (congrArg some hid)) ((Db.latestSet_rewritten ..).versions versionId)
        fun v => .inr ⟨pluginId, rfl⟩
    · exact .refl _ _
  | publishPluginVersion pluginId id reviewStatus =>
    rw [Operation.rows, Db.afterPublish]
    split
    · exact hmap (g := fun v => v.withoutLatest pluginId)
        (fun hid => hi (congrArg some hid)) ((Db.published_rewritten ..).versions versionId)
        fun v => .inr ⟨pluginId, rfl⟩
    · exact .refl _ _
  | scanVersion id providers =>
    exact completion_spares (.scan id providers) h fun hid => hi (congrArg some hid)
  | markScanPending id providers =>
    rw [Operation.rows, Db.afterMarkPending]
    split
    · exact hsame (fun hid => hi (congrArg some hid)) (Db.lookup_modifyVersion ..)
    · exact .refl _ _
  | markScanSkipped id providers =>
    rw [Operation.rows, Db.afterMarkSkipped]
    split
    · exact hsame (fun hid => hi (congrArg some hid)) (Db.lookup_modifyVersion ..)
    · exact .refl _ _
  | pollVirustotalAnalysis id =>
    exact completion_spares (.poll id) h fun hid => hi (congrArg some hid)
  | setConfig config => exact .of_eq rfl

def Operation.Serves (env : Env) (db : Db) (v : PluginVersion) : Operation → Prop
  | .setVersionStatus _ status => status = .active ∧ db.passes v = true
  | .publishPluginVersion pluginId _ reviewStatus =>
    (reviewStatus = .approved ∨ reviewStatus = .skipped) ∧ v.pluginId = pluginId ∧
      db.passes v = true
  | .scanVersion _ providers => ScanFinishes env db providers v
  | .markScanSkipped _ providers => ∃ selected, db.selectedProviders providers = .ok selected
  | .pollVirustotalAnalysis _ => PollFinishes env db.config v
  | _ => False

/-- An idle version stays idle after an operation unless the operation serves it. -/
theorem Operation.idle_iff (h : db.Sound) (op : Operation) (ht : op.target = some versionId)
    (hv : db.versions.lookup versionId = some v) (hidle : v.Idle) :
    (op.rows env db).IdleAt versionId ↔ ¬ op.Serves env db v := by
  cases op with
  | setVersionStatus id status =>
    obtain rfl := Option.some.inj ht
    rw [Operation.rows, Db.afterVersionStatus, Operation.Serves]
    rw [hv]
    dsimp only
    by_cases hs : status = .active
    · subst hs
      by_cases hp : db.passes v = true
      · rw [if_neg (by simp [hp])]
        refine iff_of_false ?_ (by simp [hp])
        rw [Db.idleAt_some (w := v.activated) (by simp [Db.versionStatusSet, hv])]
        exact fun hi => hi.status rfl
      · rw [if_pos ⟨rfl, by simpa using hp⟩, Db.idleAt_some hv]
        exact iff_of_true hidle (by simp [hp])
    · rw [if_neg fun hc => hs hc.1,
        Db.idleAt_some (w := { v with versionStatus := status, isLatest := false })
          (by simp [Db.versionStatusSet, hv, hs])]
      exact iff_of_true ⟨hidle.build, hs, rfl⟩ (by simp [hs])
  | setLatestVersion pluginId id =>
    obtain rfl := Option.some.inj ht
    refine iff_of_true ?_ fun hc => hc
    rw [Operation.rows, Db.afterLatest]
    rw [if_neg]
    · rwa [Db.idleAt_some hv]
    · intro hgo
      rw [Option.isNone_iff_eq_none] at hgo
      obtain ⟨_, w, _, _, hw, _, hst, _⟩ := Db.latestRefusal_eq_none.mp hgo
      obtain rfl := Option.some.inj (hw.symm.trans hv)
      exact hidle.status hst
  | publishPluginVersion pluginId id reviewStatus =>
    obtain rfl := Option.some.inj ht
    have hown := h.constraints.owned id v hv
    have hiff : (db.publishRefusal pluginId id reviewStatus).isNone = true ↔
        (Operation.publishPluginVersion pluginId id reviewStatus).Serves env db v := by
      rw [Option.isNone_iff_eq_none, Db.publishRefusal_eq_none, Operation.Serves]
      constructor
      · rintro ⟨hr, -, w, hw, hp, hpass⟩
        obtain rfl := Option.some.inj (hw.symm.trans hv)
        exact ⟨hr, hp, hpass⟩
      · rintro ⟨hr, hp, hpass⟩
        exact ⟨hr, hp ▸ hown, v, hv, hp, hpass⟩
    rw [Operation.rows, Db.afterPublish]
    by_cases hgo : (db.publishRefusal pluginId id reviewStatus).isNone = true
    · rw [if_pos hgo]
      refine iff_of_false ?_ (not_not.mpr (hiff.mp hgo))
      rw [Db.idleAt_some (w := v.published pluginId env.now reviewStatus)
        (by rw [(Db.published_rewritten ..).versions, hv, Option.map_some, if_pos rfl])]
      intro hi
      cases hi.latest
    · rw [if_neg hgo, Db.idleAt_some hv]
      exact iff_of_true hidle fun hc => hgo (hiff.mpr hc)
  | scanVersion id providers =>
    obtain rfl := Option.some.inj ht
    exact scanResult_idle h hv hidle providers
  | markScanPending id providers =>
    obtain rfl := Option.some.inj ht
    refine iff_of_true ?_ fun hc => hc
    rw [Operation.rows, Db.afterMarkPending]
    split
    · rename_i selected _ _
      rw [Db.idleAt_some (w := v.markedPending env.now selected) (by simp [hv])]
      refine hidle.standing (v.markedPending_standing env.now selected) ?_
      unfold PluginVersion.markedPending
      dsimp only
      split
      · simp
      · rw [PluginVersion.scannedAt_buildStatus, PluginVersion.markAll_buildStatus]
        exact hidle.build
    · rwa [Db.idleAt_some hv]
  | markScanSkipped id providers =>
    obtain rfl := Option.some.inj ht
    rw [Operation.rows, Db.afterMarkSkipped, Operation.Serves]
    rw [hv]
    cases hsel : db.selectedProviders providers with
    | error e =>
      dsimp only
      rw [Db.idleAt_some hv]
      exact iff_of_true hidle (by simp)
    | ok selected =>
      dsimp only
      rw [Db.idleAt_some (w := v.markedSkipped env.now selected (manuallySkippedOutcome db.config))
        (by simp [hv])]
      refine iff_of_false (fun hi => hi.build ?_) (by simp)
      exact PluginVersion.markedSkipped_buildStatus env.now (h.artifacts _ v hv) _ _
  | pollVirustotalAnalysis id =>
    obtain rfl := Option.some.inj ht
    exact pollResult_idle h hv hidle
  | createPlugin _ _ | setPluginStatus _ _ _ | deletePlugin _ | uploadVersion _ _ _ _
  | deleteVersion _ _ | setConfig _ => cases ht

namespace World

variable {w : World}

/-- Which upload an operation adds to the record. -/
theorem perform_uploaded (h : w.db.Sound) (op : Operation) (env : Env) :
    (w.perform op env).uploaded = match op with
      | .uploadVersion pluginId metadata content version =>
        match w.db.uploadInputs env pluginId metadata version, env.fault .uploadFile with
        | .ok (plugin, label), none =>
          AList.insert w.db.nextId ⟨w.db.manualKey plugin label, content⟩ w.uploaded
        | _, _ => w.uploaded
      | _ => w.uploaded := by
  have hrows := perform_db h op env
  cases op with
  | uploadVersion pluginId metadata content version =>
    rw [Operation.rows, Db.afterUpload] at hrows
    change w.recordUpload (w.perform (.uploadVersion pluginId metadata content version) env).db
      (.uploadVersion pluginId metadata content version) = _
    rw [hrows]
    dsimp only
    cases hin : w.db.uploadInputs env pluginId metadata version with
    | error e => exact if_pos rfl
    | ok inputs =>
      obtain ⟨plugin, label⟩ := inputs
      cases env.fault .uploadFile with
      | some e => exact if_pos rfl
      | none =>
        simp only [recordUpload, Db.lookup_addVersion, if_true, Option.bind_some, Db.manualVersion,
          PluginVersion.new]
        exact if_neg (Nat.succ_ne_self _)
  | createPlugin _ _ | setPluginStatus _ _ _ | deletePlugin _ | setVersionStatus _ _
  | deleteVersion _ _ | setLatestVersion _ _ | publishPluginVersion _ _ _ | scanVersion _ _
  | markScanPending _ _ | markScanSkipped _ _ | pollVirustotalAnalysis _ | setConfig _ => rfl

def OnlyUploadedServed (w : World) : Prop :=
  ∀ versionId, w.uploaded.lookup versionId = none → w.db.IdleAt versionId

structure Tracked (w : World) : Prop where
  sound : w.db.Sound
  ids : ∀ i b, w.builds.lookup i = some b → b.job.versionId = i
  uploaded : ∀ i b, w.builds.lookup i = some b → b.next = .update ∨ b.next = .scan →
    (w.uploaded.lookup i).isSome = true

end World

def Event.ServesUnuploaded (w : World) : Event → Prop
  | .perform op env => ∃ versionId v, op.target = some versionId ∧
      w.uploaded.lookup versionId = none ∧ w.db.versions.lookup versionId = some v ∧
      op.Serves env w.db v
  | _ => False

namespace World

variable {w : World}

/-- One operation: what was not uploaded is served exactly in the cases that
`ServesUnuploaded` lists. -/
theorem perform_onlyUploaded (h : w.db.Sound) (hs : w.OnlyUploadedServed) (op : Operation)
    (env : Env) :
    (w.perform op env).OnlyUploadedServed ↔ ¬ (Event.perform op env).ServesUnuploaded w := by
  have hup := perform_uploaded h op env
  have hrows := perform_db h op env
  constructor
  · rintro hsafe ⟨versionId, v, ht, hno, hv, hserves⟩
    have hsame : (w.perform op env).uploaded = w.uploaded := by
      rw [hup]
      cases op <;> first | rfl | cases ht
    have hidle := hsafe versionId (hsame ▸ hno)
    rw [hrows, op.idle_iff h ht hv (hs versionId hno v hv)] at hidle
    exact hidle hserves
  · intro hbad versionId hno
    rw [hrows]
    have hrest : w.uploaded.lookup versionId = none →
        (∀ pluginId metadata content version,
          op = .uploadVersion pluginId metadata content version → versionId ≠ w.db.nextId) →
        (op.rows env w.db).IdleAt versionId := by
      intro hno hnew
      by_cases ht : op.target = some versionId
      · cases hv : w.db.versions.lookup versionId with
        | none => exact (op.spares h (fun _ => hv) hnew).idleAt (hs versionId hno)
        | some v =>
          rw [op.idle_iff h ht hv (hs versionId hno v hv)]
          exact fun hc => hbad ⟨versionId, v, ht, hno, hv, hc⟩
      · exact (op.spares h (fun hc => absurd hc ht) hnew).idleAt (hs versionId hno)
    rw [hup] at hno
    cases op with
    | uploadVersion pluginId metadata content version =>
      dsimp only at hno
      cases hin : w.db.uploadInputs env pluginId metadata version with
      | error e =>
        rw [hin] at hno
        rw [Operation.rows, Db.afterUpload, hin]
        exact hs versionId hno
      | ok inputs =>
        rw [hin] at hno
        cases hf : env.fault .uploadFile with
        | some e =>
          rw [hf] at hno
          rw [Operation.rows, Db.afterUpload, hin, hf]
          exact hs versionId hno
        | none =>
          rw [hf] at hno
          dsimp only at hno
          rw [Table.lookup_insert_eq] at hno
          split at hno
          · cases hno
          · rename_i hne
            exact hrest hno fun _ _ _ _ _ => hne
    | createPlugin _ _ | setPluginStatus _ _ _ | deletePlugin _ | setVersionStatus _ _
    | deleteVersion _ _ | setLatestVersion _ _ | publishPluginVersion _ _ _ | scanVersion _ _
    | markScanPending _ _ | markScanSkipped _ _ | pollVirustotalAnalysis _ | setConfig _ =>
      exact hrest hno fun _ _ _ _ hc => by cases hc

end World

section
variable {p c : Db} {x : Outside} {job : BuildJob} {i : VersionId}

theorem Db.Spares.handled (hp : db.Spares p i) (hc : db.Spares c i) (hi : i ≠ versionId)
    (exc : PyErr) : db.Spares (p.handled c versionId exc) i := by
  unfold Db.handled
  split
  · exact hc
  · split
    · exact hc
    · intro v' hv'
      rw [Db.lookup_modifyVersion] at hv'
      simp only [hi, if_false, Option.map_id'] at hv'
      exact hp v' hv'

theorem Db.Quiet.spares (h : db.Quiet p versionId) (hi : i ≠ versionId) : db.Spares p i :=
  .of_eq (h.others i hi)

theorem Db.PublishedBy.spares {now : Time} {pluginId : PluginId}
    (h : db.PublishedBy p now pluginId versionId) (hi : i ≠ versionId) : db.Spares p i :=
  .of_map (h.other hi) fun _ => .inr ⟨pluginId, rfl⟩

theorem scanned_afterScan_spares (env : Env) (hv : db.versions.lookup versionId = some v)
    (outcomes : List (Provider × ScanOutcome)) (hi : i ≠ versionId) :
    db.Spares ((db.scanned env.now versionId outcomes).afterScan env versionId outcomes) i := by
  have hquiet : db.Quiet (db.scanned env.now versionId outcomes) versionId :=
    .modifyVersion fun w => w.scanned_standing env.now outcomes
  unfold Db.afterScan
  split
  · have hcases := autoPublished_cases env hquiet
      (Db.scanned_lookup env.now hv outcomes) (v.scanned_standing env.now outcomes)
    split at hcases
    · exact hcases.spares hi
    · exact hcases.spares hi
  · exact hquiet.spares hi

/-- A build step spares every row but that of its own version. -/
theorem BuildJob.rows_spares (hi : i ≠ job.versionId) (step : BuildStep) :
    db.Spares (job.rows env db x step) i := by
  have hself := Db.Spares.refl db i
  cases step with
  | pack =>
    unfold BuildJob.rows
    cases job.packError env with
    | none => exact hself
    | some e => exact hself.handled hself hi e
  | upload =>
    unfold BuildJob.rows
    cases job.uploadError env x with
    | none => exact hself
    | some e => exact hself.handled hself hi e
  | update =>
    have hb : db.Spares (job.builtRows db) i := .of_eq (by simp [BuildJob.builtRows, hi])
    rw [BuildJob.rows, BuildJob.updateRows]
    split
    · exact hself
    · cases env.fault (.refresh .updateVersionAfterBuild) with
      | none => exact hb
      | some e => exact hb.handled hb hi e
  | scan =>
    rw [BuildJob.rows, BuildJob.scanRows]
    cases hv : db.versions.lookup job.versionId with
    | none => exact hself
    | some v =>
      have hsaved : db.Spares (db.scanOpened env.now job.versionId v) i :=
        Db.scanOpened_quiet.spares hi
      have hopen : db.Spares (db.modifyVersion job.versionId (·.beginScan env.now)) i :=
        .of_eq (by simp [hi])
      dsimp only
      cases scanSelectedProviders env db.config db.enabledProviders with
      | error e => exact hopen.handled hsaved hi e
      | ok outcomes =>
        have hafter : db.Spares ((db.scanned env.now job.versionId outcomes).afterBuildScan env job
            outcomes) i := by
          rcases Db.afterBuildScan_cases (db.scanned env.now job.versionId outcomes) env job
            outcomes with heq | heq
          · rw [heq]
            exact scanned_afterScan_spares env hv outcomes hi
          · rw [heq]
            exact .of_eq (by simp [Db.scanned, hi])
        dsimp only
        split
        · exact hsaved
        · cases (db.scanned env.now job.versionId outcomes).afterBuildScanError env job
              outcomes with
          | none => exact hafter
          | some e => exact hafter.handled hafter hi e

theorem handled_idleAt (h : db.IdleAt i) (exc : PyErr) :
    (db.handled db versionId exc).IdleAt i := by
  unfold Db.handled
  split
  · exact h
  · split
    · exact h
    · intro v' hv'
      rw [Db.lookup_modifyVersion] at hv'
      obtain ⟨v, hv, rfl⟩ := Option.map_eq_some_iff.mp hv'
      have hidle := h v hv
      split
      · exact ⟨by simp [PluginVersion.failedWith], hidle.status, hidle.latest⟩
      · exact hidle

/-- The first two steps leave idle rows idle. -/
theorem BuildJob.rows_idle {step : BuildStep} (hs : step = .pack ∨ step = .upload)
    (h : db.IdleAt i) : (job.rows env db x step).IdleAt i := by
  rcases hs with rfl | rfl
  · unfold BuildJob.rows
    cases job.packError env with
    | none => exact h
    | some e => exact handled_idleAt h e
  · unfold BuildJob.rows
    cases job.uploadError env x with
    | none => exact h
    | some e => exact handled_idleAt h e

end

namespace World

variable {w : World}

theorem uploadedAfter_grows (env : Env) {i : VersionId} (versionId : VersionId) (build : Build)
    (h : (w.uploaded.lookup i).isSome = true) :
    ((w.uploadedAfter env versionId build).lookup i).isSome = true := by
  unfold uploadedAfter
  split
  · rw [Table.lookup_insert_eq]
    split
    · rfl
    · exact h
  · exact h

/-- A step of a build serves nothing that was not uploaded. -/
theorem advance_onlyUploaded (h : w.Tracked) (hs : w.OnlyUploadedServed) (versionId : VersionId)
    (env : Env) : (w.advance versionId env).OnlyUploadedServed := by
  cases hb : w.builds.lookup versionId with
  | none => rwa [advance_none hb]
  | some build =>
    obtain ⟨x', -, heq⟩ := advance_some h.sound hb env
    have hid := h.ids versionId build hb
    rw [heq]
    intro i hno
    have hno' : w.uploaded.lookup i = none := by
      by_contra hc
      have := uploadedAfter_grows env versionId build
        (Option.isSome_iff_ne_none.mpr hc)
      rw [hno] at this
      cases this
    have hlate : build.next = .update ∨ build.next = .scan → i ≠ build.job.versionId := by
      rintro hnext rfl
      have := h.uploaded versionId build hb hnext
      rw [← hid, hno'] at this
      cases this
    cases hn : build.next with
    | pack => exact build.job.rows_idle (.inl rfl) (hs i hno')
    | upload => exact build.job.rows_idle (.inr rfl) (hs i hno')
    | update => exact (build.job.rows_spares (x := w.outside) (hlate (.inl hn)) .update).idleAt (hs i hno')
    | scan => exact (build.job.rows_spares (x := w.outside) (hlate (.inr hn)) .scan).idleAt (hs i hno')

theorem startBuild_onlyUploaded (h : w.db.Sound) (hs : w.OnlyUploadedServed) (pluginId : PluginId)
    (version : Option String) (env : Env) :
    (w.startBuild pluginId version env).OnlyUploadedServed := by
  rw [startBuild_eq h]
  split
  · exact hs
  · split
    · exact hs
    · intro i hno v' hv'
      simp only [started, Db.buildStarted, Db.lookup_addVersion] at hv'
      split at hv'
      · cases hv'
        exact ⟨by simp [Db.placeholder, PluginVersion.new], by simp [Db.placeholder,
          PluginVersion.new], rfl⟩
      · exact hs i hno v' hv'

/-- One step serves an archive that was never uploaded exactly if its event does. -/
theorem step_onlyUploaded_iff (h : w.Tracked) (hs : w.OnlyUploadedServed) (e : Event) :
    (w.step e).OnlyUploadedServed ↔ ¬ e.ServesUnuploaded w := by
  cases e with
  | perform op env => exact perform_onlyUploaded h.sound hs op env
  | startBuild pluginId version env =>
    exact iff_of_true (startBuild_onlyUploaded h.sound hs pluginId version env) fun hc => hc
  | advance versionId env =>
    exact iff_of_true (advance_onlyUploaded h hs versionId env) fun hc => hc

theorem perform_uploaded_grows (h : w.db.Sound) (op : Operation) (env : Env) {i : VersionId}
    (hi : (w.uploaded.lookup i).isSome = true) :
    ((w.perform op env).uploaded.lookup i).isSome = true := by
  rw [perform_uploaded h]
  split
  · split
    · rw [Table.lookup_insert_eq]
      split
      · rfl
      · exact hi
    · exact hi
  · exact hi

/-- An upload step that lets its build go on has recorded the upload. -/
theorem uploadedAfter_upload {env : Env} {versionId : VersionId} {build : Build}
    (hn : build.next = .upload) (hok : build.job.ok env w.db w.outside .upload = true) :
    ((w.uploadedAfter env versionId build).lookup versionId).isSome = true := by
  simp only [BuildJob.ok, BuildJob.uploadError] at hok
  unfold uploadedAfter
  rw [hn]
  cases ha : build.job.archive w.outside with
  | none =>
    rw [ha] at hok
    cases hok
  | some content =>
    rw [ha] at hok
    cases hf : env.fault .uploadFile with
    | some e =>
      rw [hf] at hok
      cases hok
    | none =>
      dsimp only
      rw [Table.lookup_insert_eq, if_pos rfl]
      rfl

theorem buildsAfter_lookup {db : Db} {versionId i : VersionId} {build b : Build} {ok : Bool}
    (hb : (w.buildsAfter db versionId build ok).lookup i = some b) :
    (i = versionId ∧ b.job = build.job.after build.next db ∧ build.next.next = some b.next ∧ ok = true) ∨
      (i ≠ versionId ∧ w.builds.lookup i = some b) := by
  unfold buildsAfter at hb
  split at hb
  · rename_i next hnext
    rw [Table.lookup_insert_eq] at hb
    split at hb
    · rename_i hi
      cases hb
      exact .inl ⟨hi, rfl, hnext, rfl⟩
    · rename_i hi
      exact .inr ⟨hi, hb⟩
  · rw [Table.lookup_erase_eq] at hb
    split at hb
    · cases hb
    · rename_i hi
      exact .inr ⟨hi, hb⟩

theorem step_tracked (h : w.Tracked) (e : Event) : (w.step e).Tracked := by
  refine ⟨step_sound h.sound e, ?_, ?_⟩
  · intro i b hb
    cases e with
    | perform op env => exact h.ids i b hb
    | startBuild pluginId version env =>
      rw [step, startBuild_eq h.sound] at hb
      split at hb
      · exact h.ids i b hb
      · split at hb
        · exact h.ids i b hb
        · simp only [started] at hb
          split at hb
          · rw [Table.lookup_insert_eq] at hb
            split at hb
            · rename_i hi
              cases hb
              exact hi.symm
            · exact h.ids i b hb
          · exact h.ids i b hb
    | advance versionId env =>
      rw [step] at hb
      cases hbuild : w.builds.lookup versionId with
      | none =>
        rw [advance_none hbuild] at hb
        exact h.ids i b hb
      | some build =>
        obtain ⟨x', -, heq⟩ := advance_some h.sound hbuild env
        rw [heq] at hb
        rcases buildsAfter_lookup hb with ⟨hi, hjob, -, -⟩ | ⟨-, hold⟩
        · rw [hjob, hi]
          exact h.ids versionId build hbuild
        · exact h.ids i b hold
  · intro i b hb hnext
    cases e with
    | perform op env => exact perform_uploaded_grows h.sound op env (h.uploaded i b hb hnext)
    | startBuild pluginId version env =>
      rw [step, startBuild_eq h.sound] at hb ⊢
      split at hb
      · exact h.uploaded i b hb hnext
      · split at hb
        · exact h.uploaded i b hb hnext
        · simp only [started] at hb ⊢
          split at hb
          · rw [Table.lookup_insert_eq] at hb
            split at hb
            · cases hb
              rcases hnext with hn | hn <;> cases hn
            · exact h.uploaded i b hb hnext
          · exact h.uploaded i b hb hnext
    | advance versionId env =>
      rw [step] at hb ⊢
      cases hbuild : w.builds.lookup versionId with
      | none =>
        rw [advance_none hbuild] at hb ⊢
        exact h.uploaded i b hb hnext
      | some build =>
        obtain ⟨x', -, heq⟩ := advance_some h.sound hbuild env
        rw [heq] at hb ⊢
        rcases buildsAfter_lookup hb with ⟨hi, -, hstep, hok⟩ | ⟨-, hold⟩
        · rw [hi]
          cases hn : build.next with
          | pack =>
            rw [hn] at hstep
            have hupload := Option.some.inj hstep
            rcases hnext with hc | hc <;> cases hupload.trans hc
          | upload =>
            rw [hn] at hok
            exact uploadedAfter_upload hn hok
          | update =>
            exact uploadedAfter_grows _ _ _ (h.uploaded versionId build hbuild (.inl hn))
          | scan =>
            rw [hn] at hstep
            cases hstep
        · exact uploadedAfter_grows _ _ _ (h.uploaded i b hold hnext)

theorem init_tracked (config : RuntimeConfig) : (service config).init.Tracked :=
  ⟨Db.Sound.empty config, fun _ _ h => (by cases h), fun _ _ h => (by cases h)⟩

end World

/-- In a run, no version is served whose archive was never uploaded, exactly if
none of its events does that. -/
theorem only_uploaded_served_iff (config : RuntimeConfig) (events : List Event) :
    (∀ w ∈ (service config).states (service config).init events, w.OnlyUploadedServed) ↔
      ∀ s ∈ (service config).steps (service config).init events, ¬ s.2.ServesUnuploaded s.1 :=
  Machine.run_iff World.Tracked World.OnlyUploadedServed (fun w e => ¬ e.ServesUnuploaded w)
    (fun _ e h => World.step_tracked h e) (fun _ e h hs => World.step_onlyUploaded_iff h hs e)
    (World.init_tracked config) fun _ _ _ h => by cases h

def Env.diskFull (now : Time) : Env :=
  { Env.calm now with
    fault := fun site =>
      if site = .openZipFile then some ⟨.osError, "No space left on device", 0⟩ else none }

def failedBuildRun : List Event :=
  [.perform (.createPlugin .demo "") (.calm 0),
    .startBuild 0 none (.calm 1),
    .advance 1 (.diskFull 2),
    .perform (.scanVersion 1 none) (.calm 3)]

/-- The rescan gives the failed version the build status `success`. -/
theorem failed_build_served :
    ¬ ∀ (config : RuntimeConfig) (events : List Event),
      ∀ w ∈ (service config).states (service config).init events, w.OnlyUploadedServed := by
  intro h
  have hsafe := h .default failedBuildRun _ (Machine.run_mem_states _ _) 1 (by decide +kernel)
  obtain ⟨v, hv, hsuccess⟩ : ∃ v, (World.run .default failedBuildRun).db.versions.lookup 1 =
      some v ∧ decide (v.buildStatus = .success) = true :=
    (Option.any_eq_true ..).mp (by decide +kernel)
  exact (hsafe v hv).build (of_decide_eq_true hsuccess)

end PluginRegistry
