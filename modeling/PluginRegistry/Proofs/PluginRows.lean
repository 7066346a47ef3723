import PluginRegistry.Proofs.Sound
import PluginRegistry.Proofs.Statements

namespace PluginRegistry
open Lib

namespace PluginVersion

variable (v : PluginVersion) (pluginId : PluginId)

@[simp] theorem settleBuild_origin : v.settleBuild.origin = v.origin := by
  unfold settleBuild
  split <;> rfl

@[simp] theorem settleBuild_isLatest : v.settleBuild.isLatest = v.isLatest := by
  unfold settleBuild
  split <;> rfl

@[simp] theorem settleBuild_versionStatus : v.settleBuild.versionStatus = v.versionStatus := by
  unfold settleBuild
  split <;> rfl

theorem settleBuild_success {v : PluginVersion} {providers : Option (List Provider)}
    (h : buildReadyForScanPolicy v providers = true) : v.settleBuild.buildStatus = .success := by
  rw [buildReadyForScanPolicy, Bool.or_eq_true, Bool.and_eq_true, decide_eq_true_eq,
    decide_eq_true_eq] at h
  unfold settleBuild
  rcases h with hs | ⟨hs, _⟩
  · rw [if_neg (by simp [hs]), hs]
  · rw [if_pos hs]

@[simp] theorem withoutLatest_origin : (v.withoutLatest pluginId).origin = v.origin := by
  unfold withoutLatest
  split <;> rfl

@[simp] theorem withoutLatest_versionStatus :
    (v.withoutLatest pluginId).versionStatus = v.versionStatus := by
  unfold withoutLatest
  split <;> rfl

@[simp] theorem withoutLatest_buildStatus :
    (v.withoutLatest pluginId).buildStatus = v.buildStatus := by
  unfold withoutLatest
  split <;> rfl

theorem withoutLatest_isLatest :
    (v.withoutLatest pluginId).isLatest = true ↔ v.pluginId ≠ pluginId ∧ v.isLatest = true := by
  unfold withoutLatest
  split <;> simp_all

def activated : PluginVersion :=
  { v.settleBuild with versionStatus := .active }

def promoted : PluginVersion :=
  { v.settleBuild.withoutLatest pluginId with isLatest := true }

def published (now : Time) (reviewStatus : ReviewStatus) : PluginVersion :=
  modifyResult { v.activated.withoutLatest pluginId with isLatest := true } .human .human
    (·.setHumanReviewResult now reviewStatus)

theorem activated_origin : v.activated.origin = v.origin :=
  v.settleBuild_origin

theorem promoted_origin : (v.promoted pluginId).origin = v.origin :=
  (withoutLatest_origin _ _).trans v.settleBuild_origin

theorem published_origin (now : Time) (reviewStatus : ReviewStatus) :
    (v.published pluginId now reviewStatus).origin = v.origin :=
  (withoutLatest_origin _ _).trans v.settleBuild_origin

end PluginVersion

def Plugin.withStatus (a : Plugin) (status : PluginStatus) (reviewStatus : Option ReviewStatus) :
    Plugin :=
  { a with status, reviewStatus := a.reviewStatusFor status reviewStatus }

namespace Db

def pluginStatusSet (db : Db) (pluginId : PluginId) (status : PluginStatus)
    (reviewStatus : Option ReviewStatus) : Db :=
  if status = .disabled ∨ status = .deleted then
    (db.modifyPlugin pluginId (·.withStatus status reviewStatus)).clearLatest pluginId
  else db.modifyPlugin pluginId (·.withStatus status reviewStatus)

def versionStatusSet (db : Db) (versionId : VersionId) (status : VersionStatus) : Db :=
  db.modifyVersion versionId fun v =>
    if status = .active then v.activated else { v with versionStatus := status, isLatest := false }

def latestSet (db : Db) (pluginId : PluginId) (versionId : VersionId) : Db :=
  ((db.modifyVersion versionId (·.settleBuild)).clearLatest pluginId).modifyVersion versionId
    fun v => { v with isLatest := true }

def activating (db : Db) (pluginId : PluginId) (versionId : VersionId)
    (reviewStatus : ReviewStatus) : Db :=
  (db.modifyVersion versionId (·.activated)).modifyPlugin pluginId fun a =>
    { a with status := .active, reviewStatus }

def promoting (db : Db) (pluginId : PluginId) (versionId : VersionId)
    (reviewStatus : ReviewStatus) : Db :=
  ((db.activating pluginId versionId reviewStatus).clearLatest pluginId).modifyVersion versionId
    fun v => { v with isLatest := true }

def published (db : Db) (now : Time) (pluginId : PluginId) (versionId : VersionId)
    (reviewStatus : ReviewStatus) : Db :=
  (db.promoting pluginId versionId reviewStatus).modifyVersion versionId
    (·.modifyResult .human .human (·.setHumanReviewResult now reviewStatus))

def withoutPlugin (db : Db) (pluginId : PluginId) : Db :=
  ((db.clearLatest pluginId).deleteVersionsOf pluginId).deletePluginRow pluginId

def passes (db : Db) (v : PluginVersion) : Bool :=
  buildReadyForScanPolicy v (some db.config.scanEnabledProviders) &&
    scanProvidersPassed v (some db.config.scanEnabledProviders)

variable {db : Db}

theorem lookup_withoutPlugin (pluginId : PluginId) (i : VersionId) :
    (db.withoutPlugin pluginId).versions.lookup i =
      (db.versions.lookup i).filter fun v => v.pluginId ≠ pluginId := by
  rw [withoutPlugin, deletePluginRow_versions, lookup_deleteVersionsOf, lookup_clearLatest]
  cases db.versions.lookup i with
  | none => rfl
  | some v =>
    by_cases hown : v.pluginId = pluginId
    · simp [Option.filter, PluginVersion.withoutLatest, hown]
    · simp [Option.filter, PluginVersion.withoutLatest, hown]

theorem lookup_withoutPlugin_plugins (pluginId p : PluginId) :
    (db.withoutPlugin pluginId).plugins.lookup p =
      if p = pluginId then none else db.plugins.lookup p :=
  Db.lookup_deletePluginRow ..

theorem pluginStatusSet_rewritten (pluginId : PluginId) (status : PluginStatus)
    (reviewStatus : Option ReviewStatus) :
    db.Rewritten (db.pluginStatusSet pluginId status reviewStatus)
      (fun _ v => if status = .disabled ∨ status = .deleted then v.withoutLatest pluginId else v)
      fun p a => if p = pluginId then a.withStatus status reviewStatus else a := by
  refine ⟨fun i => ?_, fun p => ?_⟩ <;> unfold pluginStatusSet <;> split <;> simp

theorem versionStatusSet_rewritten (versionId : VersionId) (status : VersionStatus) :
    db.Rewritten (db.versionStatusSet versionId status)
      (fun i v => if i = versionId then
        (if status = .active then v.activated
        else { v with versionStatus := status, isLatest := false }) else v)
      fun _ a => a := by
  refine ⟨fun i => ?_, fun p => ?_⟩ <;> simp [versionStatusSet]

theorem latestSet_rewritten (pluginId : PluginId) (versionId : VersionId) :
    db.Rewritten (db.latestSet pluginId versionId)
      (fun i v => if i = versionId then v.promoted pluginId else v.withoutLatest pluginId)
      fun _ a => a := by
  refine ⟨fun i => ?_, fun p => ?_⟩
  · simp only [latestSet, lookup_modifyVersion, lookup_clearLatest, Option.map_map]
    congr 1
    funext v
    by_cases h : i = versionId <;> simp [h, PluginVersion.promoted]
  · simp [latestSet]

theorem promoting_rewritten (pluginId : PluginId) (versionId : VersionId)
    (reviewStatus : ReviewStatus) :
    db.Rewritten (db.promoting pluginId versionId reviewStatus)
      (fun i v => if i = versionId then { v.activated.withoutLatest pluginId with isLatest := true }
        else v.withoutLatest pluginId)
      fun p a => if p = pluginId then { a with status := .active, reviewStatus } else a := by
  refine ⟨fun i => ?_, fun p => ?_⟩
  · simp only [promoting, activating, lookup_modifyVersion, lookup_clearLatest,
      modifyPlugin_versions, Option.map_map]
    congr 1
    funext v
    by_cases h : i = versionId <;> simp [h]
  · simp [promoting, activating]

theorem published_rewritten (now : Time) (pluginId : PluginId) (versionId : VersionId)
    (reviewStatus : ReviewStatus) :
    db.Rewritten (db.published now pluginId versionId reviewStatus)
      (fun i v => if i = versionId then v.published pluginId now reviewStatus
        else v.withoutLatest pluginId)
      fun p a => if p = pluginId then { a with status := .active, reviewStatus } else a := by
  refine ⟨fun i => ?_, fun p => ?_⟩
  · rw [published, lookup_modifyVersion, (promoting_rewritten ..).versions, Option.map_map]
    congr 1
    funext v
    by_cases h : i = versionId <;> simp [h, PluginVersion.published]
  · exact (promoting_rewritten ..).plugins p

end Db

namespace Db.Sound

variable {db : Db}

/-- Deactivating a plugin in the same session that clears its latest mark. -/
theorem withStatus_constraints (h : db.Constraints) (pluginId : PluginId) (status : PluginStatus)
    (reviewStatus : Option ReviewStatus) :
    (db.modifyPlugin pluginId (·.withStatus status reviewStatus)).Constraints := by
  refine h.rewrite_demote (f := fun _ v => v)
    (g := fun p a => if p = pluginId then a.withStatus status reviewStatus else a)
    ⟨fun i => by simp, fun p => by simp⟩ (fun _ _ => rfl) ?_ h.checked fun _ _ hl => hl
  intro p a
  split <;> rfl

/-- `set_plugin_status` keeps the tables sound: it takes the latest mark off the versions of
a plugin that is no longer active. -/
theorem pluginStatusSet (h : db.Sound) (pluginId : PluginId) (status : PluginStatus)
    (reviewStatus : Option ReviewStatus) :
    (db.pluginStatusSet pluginId status reviewStatus).Sound := by
  have hlive : ∀ v : PluginVersion,
      (if status = .disabled ∨ status = .deleted then v.withoutLatest pluginId else v).isLatest →
        v.isLatest ∧ ((status = .disabled ∨ status = .deleted) → v.pluginId ≠ pluginId) := by
    intro v hl
    split at hl
    · obtain ⟨hne, hl⟩ := (v.withoutLatest_isLatest pluginId).mp hl
      exact ⟨hl, fun _ => hne⟩
    · exact ⟨hl, fun hoff => absurd hoff ‹_›⟩
  refine h.rewrite_demote (Db.pluginStatusSet_rewritten ..) ?_ ?_ ?_ ?_
    (fun i v hl => (hlive v hl).1) ?_
  · unfold Db.pluginStatusSet
    split <;> rfl
  · intro i v
    split
    · exact v.withoutLatest_origin pluginId
    · rfl
  · intro p a
    split <;> rfl
  · intro i v hv hl
    have hchecked := (h.constraints.checked i v hv).latestActiveSuccess (hlive v hl).1
    split <;> simpa using hchecked
  · intro i v hv hl a ha
    have hshown := h.shown i v hv (hlive v hl).1 a ha
    split
    · rename_i hp
      cases status with
      | pending => exact .inr rfl
      | active => exact .inl rfl
      | disabled => exact absurd hp ((hlive v hl).2 (.inl rfl))
      | deleted => exact absurd hp ((hlive v hl).2 (.inr rfl))
    · exact hshown

/-- `set_version_status` keeps the tables sound where an activated version passes. -/
theorem versionStatusSet (h : db.Sound) {versionId : VersionId} {status : VersionStatus}
    (hp : status = .active → ∀ v, db.versions.lookup versionId = some v → db.passes v) :
    (db.versionStatusSet versionId status).Sound := by
  refine h.rewrite_demote (Db.versionStatusSet_rewritten ..) rfl ?_ (fun _ _ => rfl) ?_ ?_ ?_
  · intro i v
    split
    · split
      · exact v.activated_origin
      · rfl
    · rfl
  · intro i v hv hl
    split
    · rename_i hi
      subst hi
      split
      · rename_i hs
        exact ⟨rfl, PluginVersion.settleBuild_success
          (Bool.and_eq_true_iff.mp (hp hs v hv)).1⟩
      · rename_i hs
        simp [hs] at hl
    · rename_i hi
      simp only [hi, if_false] at hl
      exact (h.constraints.checked i v hv).latestActiveSuccess hl
  · intro i v hl
    split at hl
    · split at hl
      · simpa [PluginVersion.activated] using hl
      · cases hl
    · exact hl
  · intro i v hv hl a ha
    refine h.shown i v hv ?_ a ha
    split at hl
    · split at hl
      · simpa [PluginVersion.activated] using hl
      · cases hl
    · exact hl

/-- The marks of the other versions after one version has been promoted. -/
theorem others_cleared {pluginId : PluginId} {versionId i : VersionId} {v w : PluginVersion}
    (hi : i ≠ versionId)
    (hl : (if i = versionId then w else v.withoutLatest pluginId).isLatest = true) :
    v.pluginId ≠ pluginId ∧ v.isLatest = true := by
  rw [if_neg hi] at hl
  exact (v.withoutLatest_isLatest pluginId).mp hl

/-- `set_latest_version` keeps them sound on an active plugin, for an active version that
passes. -/
theorem latestSet (h : db.Sound) {pluginId : PluginId} {versionId : VersionId}
    {a : Plugin} {v : PluginVersion} (ha : db.plugins.lookup pluginId = some a)
    (hs : a.status = .active) (hv : db.versions.lookup versionId = some v)
    (hown : v.pluginId = pluginId) (hst : v.versionStatus = .active) (hp : db.passes v) :
    (db.latestSet pluginId versionId).Sound := by
  refine h.rewrite_promote pluginId versionId
    (Db.latestSet_rewritten ..) rfl ?_ (fun _ _ => rfl) ?_ ?_ (fun i w hi hl => ?_) ?_
  · intro i w
    split
    · exact w.promoted_origin pluginId
    · exact w.withoutLatest_origin pluginId
  · intro i w hw hl
    split
    · rename_i hi
      subst hi
      obtain rfl := Option.some.inj (hv.symm.trans hw)
      refine ⟨by simpa [PluginVersion.promoted] using hst, ?_⟩
      simpa [PluginVersion.promoted] using
        PluginVersion.settleBuild_success (Bool.and_eq_true_iff.mp hp).1
    · rename_i hi
      simpa using (h.constraints.checked i w hw).latestActiveSuccess (others_cleared hi hl).2
  · intro w hw
    obtain rfl := Option.some.inj (hv.symm.trans hw)
    exact hown
  · exact others_cleared hi hl
  · intro i w hw hl b hb
    by_cases hi : i = versionId
    · subst hi
      obtain rfl := Option.some.inj (hv.symm.trans hw)
      rw [hown, ha] at hb
      cases hb
      exact .inl hs
    · exact h.shown i w hw (others_cleared hi hl).2 b hb

theorem settleBuild (h : db.Sound) {versionId : VersionId} {v : PluginVersion}
    (hv : db.versions.lookup versionId = some v) (hp : db.passes v) :
    (db.modifyVersion versionId (·.settleBuild)).Constraints := by
  refine h.constraints.rewrite_demote (f := fun i w => if i = versionId then w.settleBuild else w)
    (g := fun _ a => a) ⟨fun i => by simp, fun p => by simp⟩ ?_ (fun _ _ => rfl) ?_ ?_
  · intro i w
    split
    · exact w.settleBuild_origin
    · rfl
  · intro i w hw
    split
    · rename_i hi
      subst hi
      obtain rfl := Option.some.inj (hv.symm.trans hw)
      refine PluginVersion.checked_of_artifact ?_ fun hl => ⟨?_,
        PluginVersion.settleBuild_success (Bool.and_eq_true_iff.mp hp).1⟩
      · exact (PluginVersion.hasArtifact_congr v.settleBuild_origin).trans (h.artifacts _ v hv)
      · rw [PluginVersion.settleBuild_isLatest] at hl
        rw [PluginVersion.settleBuild_versionStatus]
        exact ((h.constraints.checked _ v hv).latestActiveSuccess hl).1
    · exact h.constraints.checked i w hw
  · intro i w hl
    split at hl
    · simpa using hl
    · exact hl

/-- The first flush of a publication, before the siblings lose their mark. -/
theorem activating_constraints (h : db.Sound) (pluginId : PluginId) {versionId : VersionId}
    {v : PluginVersion} (reviewStatus : ReviewStatus)
    (hv : db.versions.lookup versionId = some v) (hp : db.passes v) :
    (db.activating pluginId versionId reviewStatus).Constraints := by
  refine h.constraints.rewrite_demote
    (f := fun i w => if i = versionId then w.activated else w)
    (g := fun p a => if p = pluginId then { a with status := .active, reviewStatus } else a)
    ⟨fun i => by simp [Db.activating], fun p => by simp [Db.activating]⟩ ?_ ?_ ?_ ?_
  · intro i w
    split
    · exact w.activated_origin
    · rfl
  · intro p a
    split <;> rfl
  · intro i w hw
    split
    · rename_i hi
      subst hi
      obtain rfl := Option.some.inj (hv.symm.trans hw)
      refine PluginVersion.checked_of_artifact ?_ fun _ => ⟨rfl,
        PluginVersion.settleBuild_success (Bool.and_eq_true_iff.mp hp).1⟩
      exact (PluginVersion.hasArtifact_congr v.activated_origin).trans (h.artifacts _ v hv)
    · exact h.constraints.checked i w hw
  · intro i w hl
    split at hl
    · simpa [PluginVersion.activated] using hl
    · exact hl

/-- Publishing, with or without the human review row. -/
theorem rewrite_published (h : db.Sound) {db' : Db} {pluginId : PluginId} {versionId : VersionId}
    {reviewStatus : ReviewStatus} {v : PluginVersion} {row : PluginVersion → PluginVersion}
    (hrw : db.Rewritten db' (fun i w => if i = versionId then row w else w.withoutLatest pluginId)
      fun p a => if p = pluginId then { a with status := .active, reviewStatus } else a)
    (hn : db'.nextId = db.nextId) (ho : ∀ w, (row w).origin = w.origin)
    (hrow : ∀ w, (row w).versionStatus = .active ∧
      (row w).buildStatus = w.settleBuild.buildStatus)
    (hv : db.versions.lookup versionId = some v) (hown : v.pluginId = pluginId)
    (hp : db.passes v) : db'.Sound := by
  refine h.rewrite_promote pluginId versionId
    hrw hn ?_ ?_ ?_ ?_ (fun i w hi hl => others_cleared hi hl) ?_
  · intro i w
    split
    · exact ho w
    · exact w.withoutLatest_origin pluginId
  · intro p a
    split <;> rfl
  · intro i w hw hl
    split
    · rename_i hi
      subst hi
      obtain rfl := Option.some.inj (hv.symm.trans hw)
      rw [(hrow v).2]
      exact ⟨(hrow v).1, PluginVersion.settleBuild_success (Bool.and_eq_true_iff.mp hp).1⟩
    · rename_i hi
      simpa using (h.constraints.checked i w hw).latestActiveSuccess (others_cleared hi hl).2
  · intro w hw
    obtain rfl := Option.some.inj (hv.symm.trans hw)
    exact hown
  · intro i w hw hl a ha
    split
    · exact .inl rfl
    · rename_i hne
      by_cases hi : i = versionId
      · subst hi
        obtain rfl := Option.some.inj (hv.symm.trans hw)
        exact absurd hown hne
      · exact h.shown i w hw (others_cleared hi hl).2 a ha

theorem promoting (h : db.Sound) {pluginId : PluginId} {versionId : VersionId}
    {v : PluginVersion} (reviewStatus : ReviewStatus)
    (hv : db.versions.lookup versionId = some v) (hown : v.pluginId = pluginId)
    (hp : db.passes v) : (db.promoting pluginId versionId reviewStatus).Sound :=
  h.rewrite_published (Db.promoting_rewritten ..) rfl
    (fun w => (w.activated.withoutLatest_origin pluginId).trans w.activated_origin)
    (fun w => ⟨w.activated.withoutLatest_versionStatus pluginId,
      w.activated.withoutLatest_buildStatus pluginId⟩) hv hown hp

theorem published (h : db.Sound) {pluginId : PluginId} {versionId : VersionId}
    {v : PluginVersion} (now : Time) (reviewStatus : ReviewStatus)
    (hv : db.versions.lookup versionId = some v) (hown : v.pluginId = pluginId)
    (hp : db.passes v) : (db.published now pluginId versionId reviewStatus).Sound :=
  h.rewrite_published (Db.published_rewritten ..) rfl
    (fun w => w.published_origin pluginId now reviewStatus)
    (fun w => ⟨w.activated.withoutLatest_versionStatus pluginId,
      w.activated.withoutLatest_buildStatus pluginId⟩) hv hown hp

/-- Rows may disappear, as long as no version loses its plugin. -/
theorem restrict (h : db.Sound) {db' : Db}
    (hv : ∀ i v, db'.versions.lookup i = some v → db.versions.lookup i = some v)
    (hp : ∀ p a, db'.plugins.lookup p = some a → db.plugins.lookup p = some a)
    (hown : ∀ i v, db'.versions.lookup i = some v → (db'.plugins.lookup v.pluginId).isSome)
    (hn : db'.nextId = db.nextId) : db'.Sound where
  constraints := by
    refine ⟨fun i v hi => h.constraints.checked i v (hv i v hi), ?_, hown, ?_⟩
    · exact fun i v hi j w hj => h.constraints.apart i v (hv i v hi) j w (hv j w hj)
    · exact fun p a ha q b hb => h.constraints.keys p a (hp p a ha) q b (hp q b hb)
  artifacts := fun i v hi => h.artifacts i v (hv i v hi)
  shown := fun i v hi hl a ha => h.shown i v (hv i v hi) hl a (hp _ a ha)
  numbered := by
    intro i hi
    obtain ⟨hiv, hip⟩ := h.numbered i (hn ▸ hi)
    refine ⟨Option.eq_none_iff_forall_ne_some.mpr fun v hv' => ?_,
      Option.eq_none_iff_forall_ne_some.mpr fun a ha' => ?_⟩
    · rw [hv i v hv'] at hiv
      cases hiv
    · rw [hp i a ha'] at hip
      cases hip

theorem deleteVersionRow (h : db.Sound) (versionId : VersionId) :
    (db.deleteVersionRow versionId).Sound := by
  have hv : ∀ i v, (db.deleteVersionRow versionId).versions.lookup i = some v →
      db.versions.lookup i = some v := by
    intro i v hi
    rw [Db.lookup_deleteVersionRow] at hi
    split at hi
    · cases hi
    · exact hi
  exact h.restrict hv (fun _ _ ha => ha) (fun i v hi => h.constraints.owned i v (hv i v hi)) rfl

theorem clearLatest (h : db.Sound) (pluginId : PluginId) : (db.clearLatest pluginId).Sound := by
  have hl : ∀ v : PluginVersion, (v.withoutLatest pluginId).isLatest → v.isLatest :=
    fun v hl => ((v.withoutLatest_isLatest pluginId).mp hl).2
  refine h.rewrite_demote (f := fun _ v => v.withoutLatest pluginId) (g := fun _ a => a)
    ⟨fun i => by simp, fun p => by simp⟩ rfl (fun _ v => v.withoutLatest_origin pluginId)
    (fun _ _ => rfl) ?_ (fun _ => hl) ?_
  · intro i v hv hi
    simpa using (h.constraints.checked i v hv).latestActiveSuccess (hl v hi)
  · exact fun i v hv hi a ha => h.shown i v hv (hl v hi) a ha

/-- What `delete_plugin` leaves. -/
theorem withoutPlugin (h : db.Sound) (pluginId : PluginId) :
    (db.withoutPlugin pluginId).Sound := by
  have hkept : ∀ i v, (db.withoutPlugin pluginId).versions.lookup i = some v →
      db.versions.lookup i = some v ∧ v.pluginId ≠ pluginId := by
    intro i v hi
    rw [Db.lookup_withoutPlugin] at hi
    simpa using Option.filter_eq_some_iff.mp hi
  refine h.restrict (fun i v hi => (hkept i v hi).1) ?_ ?_ rfl
  · intro p a ha
    rw [Db.lookup_withoutPlugin_plugins] at ha
    split at ha
    · cases ha
    · exact ha
  · intro i v hi
    obtain ⟨hv, hne⟩ := hkept i v hi
    rw [Db.lookup_withoutPlugin_plugins, if_neg hne]
    exact h.constraints.owned i v hv

theorem addPlugin (h : db.Sound) {a : Plugin}
    (hk : ∀ p b, db.plugins.lookup p = some b → b.pluginKey ≠ a.pluginKey) :
    (db.addPlugin a).Sound := by
  have hfresh := h.numbered db.nextId (le_refl _)
  have hold : ∀ p, (db.plugins.lookup p).isSome → p ≠ db.nextId := by
    rintro p hp rfl
    rw [hfresh.2] at hp
    cases hp
  refine ⟨⟨h.constraints.checked, h.constraints.apart, ?_, ?_⟩, h.artifacts, ?_, ?_⟩
  · intro i v hv
    have hs := h.constraints.owned i v hv
    rw [Db.lookup_addPlugin, if_neg (hold _ hs)]
    exact hs
  · intro p b hb q c hc hkey
    rw [Db.lookup_addPlugin] at hb hc
    split at hb <;> split at hc
    · rw [‹p = _›, ‹q = _›]
    · cases hb
      exact absurd hkey.symm (hk q c hc)
    · cases hc
      exact absurd hkey (hk p b hb)
    · exact h.constraints.keys p b hb q c hc hkey
  · intro i v hv hl b hb
    rw [Db.lookup_addPlugin, if_neg (hold _ (h.constraints.owned i v hv))] at hb
    exact h.shown i v hv hl b hb
  · intro i hi
    have hi : db.nextId + 1 ≤ i := hi
    rw [Db.lookup_addPlugin, if_neg (by omega)]
    exact h.numbered i (by omega)

theorem addVersion (h : db.Sound) {v : PluginVersion}
    (hown : (db.plugins.lookup v.pluginId).isSome) (ha : v.hasArtifact) (hl : v.isLatest = false)
    (hc : v.commitSha = none) : (db.addVersion v).Sound := by
  have hrow : ∀ {i w}, (db.addVersion v).versions.lookup i = some w →
      w = v ∨ db.versions.lookup i = some w := by
    intro i w hw
    rw [Db.lookup_addVersion] at hw
    split at hw
    · cases hw
      exact .inl rfl
    · exact .inr hw
  have hnew : v.Checked := PluginVersion.checked_of_artifact ha fun hl' => by simp [hl] at hl'
  refine ⟨⟨?_, ?_, ?_, h.constraints.keys⟩, ?_, ?_, ?_⟩
  · intro i w hw
    rcases hrow hw with rfl | hw
    · exact hnew
    · exact h.constraints.checked i w hw
  · intro i w hw j u hu hij
    rcases hrow hw with rfl | hw'
    · exact ⟨fun _ hi _ => by simp [hl] at hi, fun _ _ _ hs => by simp [hc] at hs⟩
    · rcases hrow hu with rfl | hu'
      · exact ⟨fun _ _ hj => by simp [hl] at hj, fun _ _ _ hs he => by simp [he, hc] at hs⟩
      · exact h.constraints.apart i w hw' j u hu' hij
  · intro i w hw
    rcases hrow hw with rfl | hw
    · exact hown
    · exact h.constraints.owned i w hw
  · intro i w hw
    rcases hrow hw with rfl | hw
    · exact ha
    · exact h.artifacts i w hw
  · intro i w hw hlw b hb
    rcases hrow hw with rfl | hw
    · simp [hl] at hlw
    · exact h.shown i w hw hlw b hb
  · intro i hi
    have hi : db.nextId + 1 ≤ i := hi
    rw [Db.lookup_addVersion, if_neg (by omega)]
    exact h.numbered i (by omega)

/-- The configuration is in no constraint. -/
theorem setConfig (h : db.Sound) (config : RuntimeConfig) : { db with config }.Sound :=
  ⟨⟨h.constraints.checked, h.constraints.apart, h.constraints.owned, h.constraints.keys⟩,
    h.artifacts, h.shown, h.numbered⟩

theorem empty (config : RuntimeConfig) : (Db.empty config).Sound := by
  have hv : ∀ i v, (Db.empty config).versions.lookup i = some v → False := by
    intro i v hv
    cases hv
  have hp : ∀ p a, (Db.empty config).plugins.lookup p = some a → False := by
    intro p a ha
    cases ha
  exact ⟨⟨fun i v h => (hv i v h).elim, fun i v h => (hv i v h).elim, fun i v h => (hv i v h).elim,
    fun p a h => (hp p a h).elim⟩, fun i v h => (hv i v h).elim, fun i v h => (hv i v h).elim,
    fun _ _ => ⟨rfl, rfl⟩⟩

end Db.Sound

end PluginRegistry
