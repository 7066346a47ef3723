import PluginRegistry.Proofs.Rows
import PluginRegistry.Services.ScanService

namespace PluginRegistry
open Lib

theorem truthy_isSome {s : Option String} (h : truthy s = true) : s.isSome := by
  cases s with
  | none => cases h
  | some _ => rfl

def Plugin.Shown (a : Plugin) : Prop :=
  a.status = .active ∨ a.status = .pending

structure Db.Sound (db : Db) : Prop where
  constraints : db.Constraints
  artifacts : ∀ i v, db.versions.lookup i = some v → v.hasArtifact
  shown : ∀ i v, db.versions.lookup i = some v → v.isLatest →
    ∀ a, db.plugins.lookup v.pluginId = some a → a.Shown
  numbered : ∀ i, db.nextId ≤ i → db.versions.lookup i = none ∧ db.plugins.lookup i = none

namespace PluginVersion

theorem hasArtifact_congr {v w : PluginVersion} (h : v.origin = w.origin) :
    v.hasArtifact = w.hasArtifact := by
  have hkey : v.s3Key = w.s3Key := congrArg Origin.s3Key h
  have hurl : v.downloadUrl = w.downloadUrl := congrArg Origin.downloadUrl h
  rw [hasArtifact, hasArtifact, hkey, hurl]

theorem pluginId_congr {v w : PluginVersion} (h : v.origin = w.origin) :
    v.pluginId = w.pluginId :=
  congrArg Origin.pluginId h

theorem checked_of_artifact {v : PluginVersion} (ha : v.hasArtifact = true)
    (hl : v.isLatest = true → v.versionStatus = .active ∧ v.buildStatus = .success) :
    v.Checked := by
  rw [hasArtifact, Bool.and_eq_true] at ha
  exact ⟨fun _ => ⟨truthy_isSome ha.1, truthy_isSome ha.2⟩, hl⟩

end PluginVersion

namespace Db.Sound

variable {db db' : Db} {f : VersionId → PluginVersion → PluginVersion}
  {g : PluginId → Plugin → Plugin}

theorem numbered_of_rewrite (h : db.Sound) (hw : db.Rewritten db' f g)
    (hn : db'.nextId = db.nextId) (i : Nat) (hi : db'.nextId ≤ i) :
    db'.versions.lookup i = none ∧ db'.plugins.lookup i = none := by
  obtain ⟨hv, hp⟩ := h.numbered i (hn ▸ hi)
  rw [hw.versions, hw.plugins, hv, hp]
  exact ⟨rfl, rfl⟩

theorem artifacts_of_rewrite (h : db.Sound) (hw : db.Rewritten db' f g)
    (ho : ∀ i v, (f i v).origin = v.origin) (i : VersionId) (v' : PluginVersion)
    (hv' : db'.versions.lookup i = some v') : v'.hasArtifact := by
  obtain ⟨v, hv, rfl⟩ := Option.map_eq_some_iff.mp (hw.versions i ▸ hv')
  rw [PluginVersion.hasArtifact_congr (ho i v)]
  exact h.artifacts i v hv

theorem checked_of_rewrite (h : db.Sound) (ho : ∀ i v, (f i v).origin = v.origin)
    (hl : ∀ i v, db.versions.lookup i = some v → (f i v).isLatest →
      (f i v).versionStatus = .active ∧ (f i v).buildStatus = .success)
    (i : VersionId) (v : PluginVersion) (hv : db.versions.lookup i = some v) :
    (f i v).Checked :=
  PluginVersion.checked_of_artifact
    ((PluginVersion.hasArtifact_congr (ho i v)).trans (h.artifacts i v hv)) (hl i v hv)

theorem shown_of_rewrite (hw : db.Rewritten db' f g) (ho : ∀ i v, (f i v).origin = v.origin)
    (hs : ∀ i v, db.versions.lookup i = some v → (f i v).isLatest →
      ∀ a, db.plugins.lookup v.pluginId = some a → (g v.pluginId a).Shown)
    (i : VersionId) (v' : PluginVersion) (hv' : db'.versions.lookup i = some v')
    (hl : v'.isLatest) (a' : Plugin) (ha' : db'.plugins.lookup v'.pluginId = some a') :
    a'.Shown := by
  obtain ⟨v, hv, rfl⟩ := Option.map_eq_some_iff.mp (hw.versions i ▸ hv')
  rw [PluginVersion.pluginId_congr (ho i v), hw.plugins] at ha'
  obtain ⟨a, ha, rfl⟩ := Option.map_eq_some_iff.mp ha'
  exact hs i v hv hl a ha

/-- Rows rewritten in place, none of which becomes the latest one. -/
theorem rewrite_demote (h : db.Sound) (hw : db.Rewritten db' f g)
    (hn : db'.nextId = db.nextId) (ho : ∀ i v, (f i v).origin = v.origin)
    (hk : ∀ p a, (g p a).pluginKey = a.pluginKey)
    (hc : ∀ i v, db.versions.lookup i = some v → (f i v).isLatest →
      (f i v).versionStatus = .active ∧ (f i v).buildStatus = .success)
    (hl : ∀ i v, (f i v).isLatest → v.isLatest)
    (hs : ∀ i v, db.versions.lookup i = some v → (f i v).isLatest →
      ∀ a, db.plugins.lookup v.pluginId = some a → (g v.pluginId a).Shown) : db'.Sound where
  constraints := h.constraints.rewrite_demote hw ho hk (h.checked_of_rewrite ho hc) hl
  artifacts := h.artifacts_of_rewrite hw ho
  shown := shown_of_rewrite hw ho hs
  numbered := h.numbered_of_rewrite hw hn

/-- Rows rewritten in place, one of which becomes the latest of its plugin. -/
theorem rewrite_promote (pluginId : PluginId) (versionId : VersionId) (h : db.Sound)
    (hw : db.Rewritten db' f g) (hn : db'.nextId = db.nextId)
    (ho : ∀ i v, (f i v).origin = v.origin) (hk : ∀ p a, (g p a).pluginKey = a.pluginKey)
    (hc : ∀ i v, db.versions.lookup i = some v → (f i v).isLatest →
      (f i v).versionStatus = .active ∧ (f i v).buildStatus = .success)
    (hown : ∀ v, db.versions.lookup versionId = some v → v.pluginId = pluginId)
    (hl : ∀ i v, i ≠ versionId → (f i v).isLatest → v.pluginId ≠ pluginId ∧ v.isLatest)
    (hs : ∀ i v, db.versions.lookup i = some v → (f i v).isLatest →
      ∀ a, db.plugins.lookup v.pluginId = some a → (g v.pluginId a).Shown) : db'.Sound where
  constraints :=
    h.constraints.rewrite_promote pluginId versionId hw ho hk (h.checked_of_rewrite ho hc) hown hl
  artifacts := h.artifacts_of_rewrite hw ho
  shown := shown_of_rewrite hw ho hs
  numbered := h.numbered_of_rewrite hw hn

end Db.Sound

end PluginRegistry
