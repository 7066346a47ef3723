import PluginRegistry.Proofs.OvertakenPolls

namespace PluginRegistry
open Lib

variable {env : Env} {db db' : Db} {x : Outside} {pluginId : PluginId} {versionId : VersionId}
  {v : PluginVersion} {pluginKey url : String}

def Db.Lists (db : Db) (pluginKey url : String) : Prop :=
  ∃ entry, db.generateRegistryJson.lookup pluginKey = some entry ∧ entry.downloadUrl = url

def Db.Redirects (db : Db) (pluginKey url : String) : Prop :=
  db.downloadPlugin pluginKey = .ok url

def Db.ViewsAgree (db : Db) : Prop :=
  ∀ pluginKey url, db.Lists pluginKey url ↔ db.Redirects pluginKey url

def Db.Offers (db : Db) (pluginId : PluginId) (v : PluginVersion) : Prop :=
  ∃ i, db.versions.lookup i = some v ∧ v.pluginId = pluginId ∧ v.isLatest = true ∧
    scanProvidersPassed v (some db.config.scanEnabledProviders) = true

def Db.OffersActive (db : Db) : Prop :=
  ∀ pluginId a v, db.plugins.lookup pluginId = some a → db.Offers pluginId v → a.status = .active

namespace Db.Sound

theorem latest_unique (h : db.Sound) {i j : VersionId} {v w : PluginVersion}
    (hv : db.versions.lookup i = some v) (hw : db.versions.lookup j = some w)
    (hp : v.pluginId = w.pluginId) (hl : v.isLatest = true) (hl' : w.isLatest = true) : i = j := by
  by_contra hne
  exact (h.constraints.apart i v hv j w hw hne).latest hp hl hl'

/-- `_get_latest` finds the version on offer: the checks imply its other filters. -/
theorem getLatest_iff (h : db.Sound) :
    db.getLatest pluginId db.config.scanEnabledProviders = some v ↔ db.Offers pluginId v := by
  unfold Db.getLatest
  rw [Option.map_eq_some_iff]
  constructor
  · rintro ⟨⟨i, w⟩, hf, rfl⟩
    obtain ⟨hw, hp⟩ := Table.first_some hf
    simp only [Bool.and_eq_true, decide_eq_true_eq] at hp
    exact ⟨i, hw, hp.1.1.1.1, hp.1.1.1.2, hp.2⟩
  · rintro ⟨i, hv, hown, hl, hpass⟩
    obtain ⟨hactive, hsuccess⟩ := (h.constraints.checked i v hv).latestActiveSuccess hl
    refine ⟨(i, v), Table.first_unique hv ?_ fun j w hw hp => ?_, rfl⟩
    · simp [hown, hl, hactive, hpass, buildReadyForScanPolicy, hsuccess]
    · simp only [Bool.and_eq_true, decide_eq_true_eq] at hp
      exact h.latest_unique hw hv (hp.1.1.1.1.trans hown.symm) hp.1.1.1.2 hl

/-- `get_latest_version` finds it too. -/
theorem getLatestVersion_iff (h : db.Sound) :
    (∃ i, db.getLatestVersion pluginId = some (i, v)) ↔ db.Offers pluginId v := by
  unfold Db.getLatestVersion
  constructor
  · rintro ⟨i, hi⟩
    split at hi
    · cases hi
    · rename_i j w hf
      split at hi
      · rename_i hpass
        cases hi
        obtain ⟨hw, hp⟩ := Table.first_some hf
        simp only [Bool.and_eq_true, decide_eq_true_eq] at hp
        exact ⟨i, hw, hp.1.1.1, hp.1.1.2, hpass⟩
      · cases hi
  · rintro ⟨i, hv, hown, hl, hpass⟩
    obtain ⟨hactive, hsuccess⟩ := (h.constraints.checked i v hv).latestActiveSuccess hl
    have hfirst := Table.first_unique
      (p := fun _ v => v.pluginId = pluginId && v.isLatest && v.versionStatus = .active &&
        v.buildStatus = .success) hv (by simp [hown, hl, hactive, hsuccess]) fun j w hw hp => by
      simp only [Bool.and_eq_true, decide_eq_true_eq] at hp
      exact h.latest_unique hw hv (hp.1.1.1.trans hown.symm) hp.1.1.2 hl
    refine ⟨i, ?_⟩
    rw [hfirst]
    simp only [hpass, if_true]

/-- Every version has somewhere to download it from. -/
theorem downloadUrl (h : db.Sound) (ho : db.Offers pluginId v) :
    ∃ url, v.downloadUrl = some url ∧ url.isEmpty = false := by
  obtain ⟨i, hv, -⟩ := ho
  have hart := h.artifacts i v hv
  unfold PluginVersion.hasArtifact truthy at hart
  cases hu : v.downloadUrl with
  | none => simp [hu] at hart
  | some url => exact ⟨url, rfl, by simpa [hu] using (Bool.and_eq_true_iff.mp hart).2⟩

end Db.Sound

def Db.ListsRow (db : Db) (row : Sigma fun _ : PluginId => Plugin) (entry : RegistryEntry) :
    Prop :=
  row.2.status = .active ∧ ∃ latest,
    db.getLatest row.1 db.config.scanEnabledProviders = some latest ∧
      entry = formatEntry row.2 latest db.config.scanEnabledProviders

theorem Db.listPlugin_ne {row : Sigma fun _ : PluginId => Plugin} (h : row.2.pluginKey ≠ pluginKey)
    (registry : Table String RegistryEntry) :
    (db.listPlugin registry row).lookup pluginKey = registry.lookup pluginKey := by
  unfold Db.listPlugin
  split
  · split
    · rfl
    · rw [Table.lookup_insert_eq, if_neg (Ne.symm h)]
  · rfl

theorem Db.listPlugin_row {row : Sigma fun _ : PluginId => Plugin} {entry : RegistryEntry}
    (registry : Table String RegistryEntry)
    (hnone : registry.lookup row.2.pluginKey = none) :
    (db.listPlugin registry row).lookup row.2.pluginKey = some entry ↔ db.ListsRow row entry := by
  unfold Db.listPlugin Db.ListsRow
  by_cases hs : row.2.status = .active
  · rw [if_pos hs]
    cases hg : db.getLatest row.1 db.config.scanEnabledProviders with
    | none => simp [hnone]
    | some latest => simp [hs, eq_comm]
  · rw [if_neg hs, hnone]
    simp [hs]

theorem Db.listPlugins_other {rows : List (Sigma fun _ : PluginId => Plugin)}
    (h : ∀ row ∈ rows, row.2.pluginKey ≠ pluginKey) (registry : Table String RegistryEntry) :
    (rows.foldl db.listPlugin registry).lookup pluginKey = registry.lookup pluginKey := by
  induction rows generalizing registry with
  | nil => rfl
  | cons row rows ih =>
    rw [List.foldl_cons, ih (fun r hr => h r (List.mem_cons_of_mem _ hr))]
    exact Db.listPlugin_ne (h row List.mem_cons_self) registry

/-- The loop lists a plugin that alone has its key by its own turn. -/
theorem Db.listPlugins_lookup {rows : List (Sigma fun _ : PluginId => Plugin)}
    (row : Sigma fun _ : PluginId => Plugin) {entry : RegistryEntry} (hnd : rows.Nodup)
    (hin : row ∈ rows) (hone : ∀ r ∈ rows, r.2.pluginKey = row.2.pluginKey → r = row)
    (registry : Table String RegistryEntry)
    (hnone : registry.lookup row.2.pluginKey = none) :
    (rows.foldl db.listPlugin registry).lookup row.2.pluginKey = some entry ↔
      db.ListsRow row entry := by
  induction rows generalizing registry with
  | nil => cases hin
  | cons r rows ih =>
    obtain ⟨hr, hnd⟩ := List.nodup_cons.mp hnd
    rw [List.foldl_cons]
    by_cases heq : r = row
    · subst heq
      have hother : ∀ r' ∈ rows, r'.2.pluginKey ≠ r.2.pluginKey := by
        intro r' hr' hkey
        exact hr (hone r' (List.mem_cons_of_mem _ hr') hkey ▸ hr')
      rw [Db.listPlugins_other hother]
      exact Db.listPlugin_row registry hnone
    · have hkey : r.2.pluginKey ≠ row.2.pluginKey := fun hc => heq (hone r List.mem_cons_self hc)
      have hrest : row ∈ rows := (List.mem_cons.mp hin).resolve_left (Ne.symm heq)
      refine ih hnd hrest (fun r' hr' => hone r' (List.mem_cons_of_mem _ hr')) _ ?_
      rw [Db.listPlugin_ne hkey]
      exact hnone

namespace Db.Sound

/-- An entry of the registry is that of an active plugin with a version on offer. -/
theorem registry_iff (h : db.Sound) {entry : RegistryEntry} :
    db.generateRegistryJson.lookup pluginKey = some entry ↔
      ∃ pluginId a v, db.plugins.lookup pluginId = some a ∧ a.pluginKey = pluginKey ∧
        a.status = .active ∧ db.Offers pluginId v ∧
        entry = formatEntry a v db.config.scanEnabledProviders := by
  have hrow : ∀ pluginId a, db.plugins.lookup pluginId = some a →
      (db.generateRegistryJson.lookup a.pluginKey = some entry ↔
        db.ListsRow ⟨pluginId, a⟩ entry) := by
    intro pluginId a ha
    refine Db.listPlugins_lookup ⟨pluginId, a⟩ ?_ (Table.mem_entries.mpr ha) ?_ ∅ rfl
    · exact List.NodupKeys.nodup db.plugins.nodupKeys
    · rintro ⟨q, b⟩ hb hkey
      have hb := Table.mem_entries.mp hb
      have hid := h.constraints.keys q b hb pluginId a ha hkey
      subst hid
      cases ha.symm.trans hb
      rfl
  constructor
  · intro he
    by_cases hex : ∃ pluginId a, db.plugins.lookup pluginId = some a ∧ a.pluginKey = pluginKey
    · obtain ⟨pluginId, a, ha, rfl⟩ := hex
      obtain ⟨hs, latest, hg, rfl⟩ := (hrow pluginId a ha).mp he
      exact ⟨pluginId, a, latest, ha, rfl, hs, h.getLatest_iff.mp hg, rfl⟩
    · have hno : ∀ row ∈ db.plugins.entries, row.2.pluginKey ≠ pluginKey :=
        fun row hin hkey => hex ⟨row.1, row.2, Table.mem_entries.mp hin, hkey⟩
      rw [Db.generateRegistryJson, Db.listPlugins_other hno] at he
      cases he
  · rintro ⟨pluginId, a, v, ha, rfl, hs, ho, rfl⟩
    exact (hrow pluginId a ha).mpr ⟨hs, v, h.getLatest_iff.mpr ho, rfl⟩

/-- A key is in the registry when an active plugin with a version on offer has it. -/
theorem lists_iff (h : db.Sound) : db.Lists pluginKey url ↔
    ∃ pluginId a v, db.plugins.lookup pluginId = some a ∧ a.pluginKey = pluginKey ∧
      a.status = .active ∧ db.Offers pluginId v ∧ v.downloadUrl = some url := by
  constructor
  · rintro ⟨entry, he, rfl⟩
    obtain ⟨pluginId, a, v, ha, hkey, hs, ho, rfl⟩ := h.registry_iff.mp he
    obtain ⟨url, hu, -⟩ := h.downloadUrl ho
    exact ⟨pluginId, a, v, ha, hkey, hs, ho, by simp [formatEntry, hu]⟩
  · rintro ⟨pluginId, a, v, ha, hkey, hs, ho, hu⟩
    exact ⟨_, h.registry_iff.mpr ⟨pluginId, a, v, ha, hkey, hs, ho, rfl⟩,
      by simp [formatEntry, hu]⟩

/-- The endpoint does not look at the status of the plugin. -/
theorem redirects_iff (h : db.Sound) : db.Redirects pluginKey url ↔
    ∃ pluginId a v, db.plugins.lookup pluginId = some a ∧ a.pluginKey = pluginKey ∧
      db.Offers pluginId v ∧ v.downloadUrl = some url := by
  unfold Db.Redirects Db.downloadPlugin
  constructor
  · intro hd
    split at hd
    · cases hd
    · rename_i pluginId a hf
      obtain ⟨ha, hkey⟩ := Table.first_some hf
      split at hd
      · cases hd
      · rename_i i v hg
        split at hd
        · cases hd
        · rename_i u hu
          split at hd
          · cases hd
          · cases hd
            exact ⟨pluginId, a, v, ha, of_decide_eq_true hkey,
              h.getLatestVersion_iff.mp ⟨i, hg⟩, hu⟩
  · rintro ⟨pluginId, a, v, ha, rfl, ho, hu⟩
    have hfirst := Table.first_unique (p := fun _ p => p.pluginKey = a.pluginKey) ha (by simp)
      fun q b hb hkey => h.constraints.keys q b hb pluginId a ha (of_decide_eq_true hkey)
    obtain ⟨i, hg⟩ := h.getLatestVersion_iff.mpr ho
    obtain ⟨u, hu', hne⟩ := h.downloadUrl ho
    cases hu.symm.trans hu'
    simp only [hfirst, hg, hu, hne, Bool.false_eq_true, if_false]

/-- The views agree exactly when nothing is on offer for a plugin that is not active. -/
theorem viewsAgree_iff (h : db.Sound) : db.ViewsAgree ↔ db.OffersActive := by
  constructor
  · intro hagree pluginId a v ha ho
    obtain ⟨url, hu, -⟩ := h.downloadUrl ho
    have hlists := (hagree a.pluginKey url).mpr
      (h.redirects_iff.mpr ⟨pluginId, a, v, ha, rfl, ho, hu⟩)
    obtain ⟨q, b, -, hb, hkey, hs, -⟩ := h.lists_iff.mp hlists
    have hid := h.constraints.keys q b hb pluginId a ha hkey
    subst hid
    cases ha.symm.trans hb
    exact hs
  · intro hactive pluginKey url
    rw [h.lists_iff, h.redirects_iff]
    constructor
    · rintro ⟨pluginId, a, v, ha, hkey, -, ho, hu⟩
      exact ⟨pluginId, a, v, ha, hkey, ho, hu⟩
    · rintro ⟨pluginId, a, v, ha, hkey, ho, hu⟩
      exact ⟨pluginId, a, v, ha, hkey, hactive pluginId a v ha ho, ho, hu⟩

end Db.Sound

def Db.LatestActive (db : Db) : Prop :=
  ∀ i v, db.versions.lookup i = some v → v.isLatest = true →
    ∀ a, db.plugins.lookup v.pluginId = some a → a.status = .active

namespace Db.LatestActive

theorem offersActive (h : db.LatestActive) : db.OffersActive := by
  rintro pluginId a v ha ⟨i, hv, rfl, hl, -⟩
  exact h i v hv hl a ha

/-- Rows rewritten in place: a version is the latest only where it was and its
plugin keeps its status, or where its plugin becomes active. -/
theorem rewrite {f : VersionId → PluginVersion → PluginVersion} {g : PluginId → Plugin → Plugin}
    (h : db.LatestActive) (hw : db.Rewritten db' f g) (ho : ∀ i v, (f i v).origin = v.origin)
    (hf : ∀ i v a, db.versions.lookup i = some v → db.plugins.lookup v.pluginId = some a →
      (f i v).isLatest = true → (v.isLatest = true ∧ (g v.pluginId a).status = a.status) ∨
        (g v.pluginId a).status = .active) : db'.LatestActive := by
  intro i v' hv' hl a' ha'
  obtain ⟨v, hv, rfl⟩ := Option.map_eq_some_iff.mp (hw.versions i ▸ hv')
  rw [PluginVersion.pluginId_congr (ho i v), hw.plugins] at ha'
  obtain ⟨a, ha, rfl⟩ := Option.map_eq_some_iff.mp ha'
  rcases hf i v a hv ha hl with ⟨hl, hs⟩ | hs
  · rw [hs]
    exact h i v hv hl a ha
  · exact hs

theorem restrict (h : db.LatestActive)
    (hv : ∀ i v, db'.versions.lookup i = some v → db.versions.lookup i = some v)
    (hp : ∀ p a, db'.plugins.lookup p = some a → db.plugins.lookup p = some a) :
    db'.LatestActive :=
  fun i v hi hl a ha => h i v (hv i v hi) hl a (hp _ a ha)

theorem modifyVersion (h : db.LatestActive) {f : PluginVersion → PluginVersion}
    (hf : ∀ v, (f v).isLatest = v.isLatest ∧ (f v).pluginId = v.pluginId) (id : VersionId) :
    (db.modifyVersion id f).LatestActive := by
  intro i v' hv' hl a ha
  rw [Db.lookup_modifyVersion] at hv'
  obtain ⟨v, hv, rfl⟩ := Option.map_eq_some_iff.mp hv'
  split at hl
  · rename_i hi
    rw [if_pos hi, (hf v).2] at ha
    exact h i v hv ((hf v).1 ▸ hl) a ha
  · rename_i hi
    rw [if_neg hi] at ha
    exact h i v hv hl a ha

theorem quiet (h : db.LatestActive) (hq : db.Quiet db' versionId) : db'.LatestActive := by
  intro i v' hv' hl a ha
  have hs := hq.standing i
  rw [hv'] at hs
  obtain ⟨v, hv, hst⟩ := Option.map_eq_some_iff.mp hs.symm
  rw [← PluginVersion.pluginId_congr (PluginVersion.origin_of_standing hst), hq.plugins] at ha
  rw [← PluginVersion.isLatest_of_standing hst] at hl
  exact h i v hv hl a ha

theorem scanWrite (h : db.LatestActive) {f : PluginVersion → PluginVersion}
    (hf : ∀ v, (f v).standing = v.standing) (id : VersionId) :
    (db.modifyVersion id f).LatestActive :=
  h.quiet (.modifyVersion hf)

/-- Publishing activates the plugin and takes the flag from its other versions. -/
theorem published (h : db.LatestActive) (now : Time) (reviewStatus : ReviewStatus)
    (hown : ∀ v, db.versions.lookup versionId = some v → v.pluginId = pluginId) :
    (db.published now pluginId versionId reviewStatus).LatestActive := by
  apply h.rewrite (Db.published_rewritten ..)
  · intro i v
    split
    · exact v.published_origin ..
    · exact v.withoutLatest_origin ..
  · intro i v a hv ha hl
    by_cases hi : i = versionId
    · subst hi
      rw [if_pos (hown v hv)]
      exact .inr rfl
    · rw [if_neg hi] at hl
      obtain ⟨hne, hl⟩ := (v.withoutLatest_isLatest pluginId).mp hl
      rw [if_neg hne]
      exact .inl ⟨hl, rfl⟩

theorem publishedBy {now : Time} (h : db.LatestActive)
    (hp : db.PublishedBy db' now pluginId versionId)
    (hown : ∀ v, db.versions.lookup versionId = some v → v.pluginId = pluginId) :
    db'.LatestActive := by
  obtain ⟨mid, hq, rfl⟩ := hp
  refine (h.quiet hq).published now .skipped fun w hw => ?_
  have hs := hq.standing versionId
  rw [hw] at hs
  obtain ⟨v, hv, hst⟩ := Option.map_eq_some_iff.mp hs.symm
  rw [← PluginVersion.pluginId_congr (PluginVersion.origin_of_standing hst)]
  exact hown v hv

theorem addVersion (h : db.LatestActive) {v : PluginVersion} (hl : v.isLatest = false) :
    (db.addVersion v).LatestActive := by
  intro i w hw hlw a ha
  rw [Db.lookup_addVersion] at hw
  split at hw
  · cases hw
    cases hl.symm.trans hlw
  · exact h i w hw hlw a ha

theorem handled {p c : Db} (hp : p.LatestActive) (hc : c.LatestActive) (versionId : VersionId)
    (exc : PyErr) : (p.handled c versionId exc).LatestActive := by
  unfold Db.handled
  split
  · exact hc
  · split
    · exact hc
    · apply hp.modifyVersion
      exact fun v => ⟨rfl, rfl⟩

/-- The two operations that can end in an automatic publication. -/
theorem completion (h : db.LatestActive) (hs : db.Sound) (c : Completion) :
    (c.op.rows env db).LatestActive := by
  have hone : ∀ {d : Db} {v : PluginVersion} {p : Prop},
      db.versions.lookup c.versionId = some v → (p → db.PublishedBy d env.now v.pluginId
      c.versionId) ∧ (¬ p → db.Quiet d c.versionId) → d.LatestActive := by
    rintro d v p hv ⟨hyes, hno⟩
    by_cases hp : p
    · exact h.publishedBy (hyes hp) fun w hw => by rw [Option.some.inj (hw.symm.trans hv)]
    · exact h.quiet (hno hp)
  cases hv : db.versions.lookup c.versionId with
  | some v =>
    cases c with
    | scan id providers => exact hone hv (scanResult_cases env hs hv providers)
    | poll id => exact hone hv (pollResult_cases hs hv)
  | none =>
    cases c with
    | scan id providers =>
      have hrows : db.scanResult env id providers = db := by
        unfold Db.scanResult
        rw [show db.versions.lookup id = none from hv]
        cases db.selectedProviders providers <;> rfl
      rw [Completion.op, Operation.rows, hrows]
      exact h
    | poll id =>
      have hrows : db.pollResult env id = db := by
        unfold Db.pollResult
        rw [show db.versions.lookup id = none from hv]
      rw [Completion.op, Operation.rows, hrows]
      exact h

end Db.LatestActive

def Db.Unlists (db : Db) : Operation → Prop
  | .setPluginStatus pluginId .pending _ =>
    ∃ i v, db.versions.lookup i = some v ∧ v.pluginId = pluginId ∧ v.isLatest = true
  | _ => False

def World.Unlists (w : World) : Event → Prop
  | .perform op _ => w.db.Unlists op
  | _ => False

namespace Db.LatestActive

theorem pluginStatus (h : db.LatestActive) {status : PluginStatus}
    {reviewStatus : Option ReviewStatus}
    (hgood : ¬ db.Unlists (.setPluginStatus pluginId status reviewStatus)) :
    (db.pluginStatusSet pluginId status reviewStatus).LatestActive := by
  apply h.rewrite (Db.pluginStatusSet_rewritten ..)
  · intro i v
    split
    · exact v.withoutLatest_origin ..
    · rfl
  · intro i v a hv ha hl
    by_cases hp : v.pluginId = pluginId
    · rw [if_pos hp]
      cases status with
      | active => exact .inr rfl
      | pending => exact absurd ⟨i, v, hv, hp, hl⟩ hgood
      | disabled => exact absurd hp ((v.withoutLatest_isLatest pluginId).mp hl).1
      | deleted => exact absurd hp ((v.withoutLatest_isLatest pluginId).mp hl).1
    · rw [if_neg hp]
      split at hl
      · exact .inl ⟨((v.withoutLatest_isLatest pluginId).mp hl).2, rfl⟩
      · exact .inl ⟨hl, rfl⟩

/-- Every operation but the ones that take a latest version off the list keeps it active. -/
theorem operation (h : db.LatestActive) (hs : db.Sound) (op : Operation)
    (hgood : ¬ db.Unlists op) : (op.rows env db).LatestActive := by
  cases op with
  | createPlugin metadata repoUrl =>
    rw [Operation.rows, Db.afterCreate]
    split
    · exact h
    · intro i v hv hl a ha
      have hown := hs.constraints.owned i v hv
      rw [Db.lookup_addPlugin] at ha
      split at ha
      · rename_i hnew
        rw [hnew, (hs.numbered _ (Nat.le_refl _)).2] at hown
        cases hown
      · exact h i v hv hl a ha
  | setPluginStatus pluginId status reviewStatus =>
    rw [Operation.rows, Db.afterPluginStatus]
    split
    · exact h.pluginStatus hgood
    · exact h
  | deletePlugin pluginId =>
    rw [Operation.rows, Db.afterDeletePlugin]
    split
    · exact h
    · dsimp only
      split
      · apply h.restrict
        · intro i v hv
          rw [Db.lookup_withoutPlugin] at hv
          exact (Option.filter_eq_some_iff.mp hv).1
        · intro p a ha
          rw [Db.lookup_withoutPlugin_plugins] at ha
          split at ha
          · cases ha
          · exact ha
      · exact h
  | uploadVersion pluginId metadata content version =>
    rw [Operation.rows, Db.afterUpload]
    split
    · exact h.addVersion rfl
    · exact h
  | deleteVersion pluginId id =>
    rw [Operation.rows, Db.afterDeleteVersion]
    split
    · exact h
    · dsimp only
      split
      · apply h.restrict
        · intro i v hv
          rw [Db.lookup_deleteVersionRow] at hv
          split at hv
          · cases hv
          · exact hv
        · exact fun p a ha => ha
      · exact h
  | setVersionStatus id status =>
    rw [Operation.rows, Db.afterVersionStatus]
    split
    · exact h
    · split
      · exact h
      · apply h.rewrite (Db.versionStatusSet_rewritten ..)
        · intro i v
          split
          · split
            · exact v.activated_origin
            · rfl
          · rfl
        · intro i v a hv ha hl
          refine .inl ⟨?_, rfl⟩
          split at hl
          · split at hl
            · unfold PluginVersion.activated PluginVersion.settleBuild at hl
              split at hl <;> exact hl
            · cases hl
          · exact hl
  | setLatestVersion pluginId id =>
    rw [Operation.rows, Db.afterLatest]
    split
    · rename_i hgo
      rw [Option.isNone_iff_eq_none] at hgo
      obtain ⟨b, u, hb, hactive, hu, hown, -⟩ := Db.latestRefusal_eq_none.mp hgo
      apply h.rewrite (Db.latestSet_rewritten ..)
      · intro i v
        split
        · exact v.promoted_origin ..
        · exact v.withoutLatest_origin ..
      · intro i v a hv ha hl
        by_cases hi : i = id
        · subst hi
          cases hu.symm.trans hv
          rw [hown] at ha
          cases hb.symm.trans ha
          exact .inr hactive
        · rw [if_neg hi] at hl
          exact .inl ⟨((v.withoutLatest_isLatest pluginId).mp hl).2, rfl⟩
    · exact h
  | publishPluginVersion pluginId id reviewStatus =>
    rw [Operation.rows, Db.afterPublish]
    split
    · rename_i hgo
      rw [Option.isNone_iff_eq_none] at hgo
      obtain ⟨-, -, u, hu, hown, -⟩ := Db.publishRefusal_eq_none.mp hgo
      exact h.published env.now reviewStatus fun v hv => by
        rw [← Option.some.inj (hu.symm.trans hv)]
        exact hown
    · exact h
  | scanVersion id providers => exact h.completion hs (.scan id providers)
  | markScanPending id providers =>
    rw [Operation.rows, Db.afterMarkPending]
    split
    · apply h.scanWrite
      exact fun v => v.markedPending_standing ..
    · exact h
  | markScanSkipped id providers =>
    rw [Operation.rows, Db.afterMarkSkipped]
    split
    · apply h.scanWrite
      exact fun v => v.markedSkipped_standing ..
    · exact h
  | pollVirustotalAnalysis id => exact h.completion hs (.poll id)
  | setConfig config => exact h

theorem afterScan (env : Env) (h : db.LatestActive) (hv : db.versions.lookup versionId = some v)
    (outcomes : List (Provider × ScanOutcome)) :
    ((db.scanned env.now versionId outcomes).afterScan env versionId outcomes).LatestActive := by
  have hquiet : db.Quiet (db.scanned env.now versionId outcomes) versionId :=
    .modifyVersion fun w => w.scanned_standing env.now outcomes
  unfold Db.afterScan
  split
  · have hcases := autoPublished_cases env hquiet
      (Db.scanned_lookup env.now hv outcomes) (v.scanned_standing env.now outcomes)
    split at hcases
    · exact h.publishedBy hcases fun w hw => by rw [Option.some.inj (hw.symm.trans hv)]
    · exact h.quiet hcases
  · exact h.quiet hquiet

/-- A step of a build keeps every latest version active. -/
theorem buildStep (h : db.LatestActive) (job : BuildJob) (step : BuildStep) :
    (job.rows env db x step).LatestActive := by
  cases step with
  | pack =>
    unfold BuildJob.rows
    cases job.packError env with
    | none => exact h
    | some e => exact h.handled h job.versionId e
  | upload =>
    unfold BuildJob.rows
    cases job.uploadError env x with
    | none => exact h
    | some e => exact h.handled h job.versionId e
  | update =>
    have hb : (job.builtRows db).LatestActive := by
      apply h.modifyVersion
      exact fun v => ⟨rfl, rfl⟩
    rw [BuildJob.rows, BuildJob.updateRows]
    split
    · exact h
    · cases env.fault (.refresh .updateVersionAfterBuild) with
      | none => exact hb
      | some e => exact hb.handled hb job.versionId e
  | scan =>
    rw [BuildJob.rows, BuildJob.scanRows]
    cases hv : db.versions.lookup job.versionId with
    | none => exact h
    | some v =>
      have hsaved : (db.scanOpened env.now job.versionId v).LatestActive :=
        h.quiet Db.scanOpened_quiet
      have hopen : (db.modifyVersion job.versionId (·.beginScan env.now)).LatestActive :=
        h.scanWrite (fun v => v.beginScan_standing env.now) job.versionId
      dsimp only
      cases scanSelectedProviders env db.config db.enabledProviders with
      | error e => exact hopen.handled hsaved job.versionId e
      | ok outcomes =>
        have hdone : (db.scanned env.now job.versionId outcomes).LatestActive :=
          h.scanWrite (fun v => v.scanned_standing env.now outcomes) job.versionId
        have hafter := Db.afterBuildScan_keeps hdone (afterScan env h hv outcomes)
        dsimp only
        split
        · exact hsaved
        · cases (db.scanned env.now job.versionId outcomes).afterBuildScanError env job
              outcomes with
          | none => exact hafter
          | some e => exact hafter.handled hafter job.versionId e

end Db.LatestActive

/-- The step lemma. -/
theorem World.step_latestActive {w : World} (hs : w.db.Sound) (h : w.db.LatestActive) (e : Event)
    (hgood : ¬ w.Unlists e) : (w.step e).db.LatestActive := by
  cases e with
  | perform op env =>
    rw [step, perform_db hs]
    exact h.operation hs op hgood
  | startBuild pluginId version env =>
    rw [step, startBuild_eq hs]
    cases w.db.plugins.lookup pluginId with
    | none => exact h
    | some plugin =>
      dsimp only
      cases w.db.buildInputs env pluginId plugin version with
      | error e => exact h
      | ok inputs => exact h.addVersion rfl
  | advance versionId env =>
    rw [step]
    cases hb : w.builds.lookup versionId with
    | none =>
      rw [advance_none hb]
      exact h
    | some build =>
      obtain ⟨x', -, heq⟩ := advance_some hs hb env
      rw [heq]
      exact h.buildStep build.job build.next

end PluginRegistry
