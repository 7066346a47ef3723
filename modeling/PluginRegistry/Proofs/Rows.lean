import PluginRegistry.Services.PluginService

namespace PluginRegistry
open Lib

namespace Db

variable (db : Db) (id i : Nat)

@[simp] theorem lookup_modifyVersion (f : PluginVersion → PluginVersion) :
    (db.modifyVersion id f).versions.lookup i =
      (db.versions.lookup i).map fun v => if i = id then f v else v :=
  Table.lookup_mapRows ..

@[simp] theorem lookup_clearLatest :
    (db.clearLatest id).versions.lookup i = (db.versions.lookup i).map (·.withoutLatest id) :=
  Table.lookup_mapRows ..

@[simp] theorem lookup_modifyPlugin (f : Plugin → Plugin) :
    (db.modifyPlugin id f).plugins.lookup i =
      (db.plugins.lookup i).map fun p => if i = id then f p else p :=
  Table.lookup_mapRows ..

@[simp] theorem lookup_deleteVersionsOf :
    (db.deleteVersionsOf id).versions.lookup i =
      (db.versions.lookup i).filter fun v => v.pluginId ≠ id :=
  Table.lookup_keep ..

@[simp] theorem lookup_deleteVersionRow :
    (db.deleteVersionRow id).versions.lookup i = if i = id then none else db.versions.lookup i :=
  Table.lookup_erase_eq ..

@[simp] theorem lookup_deletePluginRow :
    (db.deletePluginRow id).plugins.lookup i = if i = id then none else db.plugins.lookup i :=
  Table.lookup_erase_eq ..

@[simp] theorem lookup_addVersion (v : PluginVersion) :
    (db.addVersion v).versions.lookup i =
      if i = db.nextId then some v else db.versions.lookup i :=
  Table.lookup_insert_eq ..

@[simp] theorem lookup_addPlugin (p : Plugin) :
    (db.addPlugin p).plugins.lookup i = if i = db.nextId then some p else db.plugins.lookup i :=
  Table.lookup_insert_eq ..

variable (f : PluginVersion → PluginVersion) (g : Plugin → Plugin) (p : Plugin) (v : PluginVersion)

@[simp] theorem modifyVersion_plugins : (db.modifyVersion id f).plugins = db.plugins := rfl
@[simp] theorem modifyVersion_config : (db.modifyVersion id f).config = db.config := rfl
@[simp] theorem modifyVersion_nextId : (db.modifyVersion id f).nextId = db.nextId := rfl
@[simp] theorem modifyPlugin_versions : (db.modifyPlugin id g).versions = db.versions := rfl
@[simp] theorem modifyPlugin_config : (db.modifyPlugin id g).config = db.config := rfl
@[simp] theorem modifyPlugin_nextId : (db.modifyPlugin id g).nextId = db.nextId := rfl
@[simp] theorem clearLatest_plugins : (db.clearLatest id).plugins = db.plugins := rfl
@[simp] theorem clearLatest_config : (db.clearLatest id).config = db.config := rfl
@[simp] theorem clearLatest_nextId : (db.clearLatest id).nextId = db.nextId := rfl
@[simp] theorem deleteVersionsOf_plugins : (db.deleteVersionsOf id).plugins = db.plugins := rfl
@[simp] theorem deleteVersionRow_plugins : (db.deleteVersionRow id).plugins = db.plugins := rfl
@[simp] theorem deletePluginRow_versions : (db.deletePluginRow id).versions = db.versions := rfl
@[simp] theorem addVersion_plugins : (db.addVersion v).plugins = db.plugins := rfl
@[simp] theorem addVersion_config : (db.addVersion v).config = db.config := rfl
@[simp] theorem addPlugin_versions : (db.addPlugin p).versions = db.versions := rfl
@[simp] theorem addPlugin_config : (db.addPlugin p).config = db.config := rfl

end Db

structure Db.Rewritten (db db' : Db) (f : VersionId → PluginVersion → PluginVersion)
    (g : PluginId → Plugin → Plugin) : Prop where
  versions : ∀ i, db'.versions.lookup i = (db.versions.lookup i).map (f i)
  plugins : ∀ p, db'.plugins.lookup p = (db.plugins.lookup p).map (g p)

structure Origin where
  pluginId : PluginId
  version : String
  commitSha : Option CommitSha
  sourceType : SourceType
  downloadUrl : Option String
  s3Key : Option String
  createdAt : Time

def PluginVersion.origin (v : PluginVersion) : Origin :=
  ⟨v.pluginId, v.version, v.commitSha, v.sourceType, v.downloadUrl, v.s3Key, v.createdAt⟩

namespace Db.Constraints

variable {db db' : Db} {f : VersionId → PluginVersion → PluginVersion}
  {g : PluginId → Plugin → Plugin}

/-- Rows rewritten in place satisfy the constraints when the new values do. -/
theorem rewrite (h : db.Constraints) (hw : db.Rewritten db' f g)
    (hp : ∀ i v, db.versions.lookup i = some v → (f i v).pluginId = v.pluginId)
    (hk : ∀ p a, db.plugins.lookup p = some a → (g p a).pluginKey = a.pluginKey)
    (hc : ∀ i v, db.versions.lookup i = some v → (f i v).Checked)
    (ha : ∀ i v, db.versions.lookup i = some v → ∀ j w, db.versions.lookup j = some w → i ≠ j →
      (f i v).Apart (f j w)) : db'.Constraints := by
  refine ⟨?_, ?_, ?_, ?_⟩
  · intro i v' hv'
    obtain ⟨v, hv, rfl⟩ := Option.map_eq_some_iff.mp (hw.versions i ▸ hv')
    exact hc i v hv
  · intro i v' hv' j w' hw' hij
    obtain ⟨v, hv, rfl⟩ := Option.map_eq_some_iff.mp (hw.versions i ▸ hv')
    obtain ⟨w, hw, rfl⟩ := Option.map_eq_some_iff.mp (hw.versions j ▸ hw')
    exact ha i v hv j w hw hij
  · intro i v' hv'
    obtain ⟨v, hv, rfl⟩ := Option.map_eq_some_iff.mp (hw.versions i ▸ hv')
    rw [hp i v hv, hw.plugins, Option.isSome_map]
    exact h.owned i v hv
  · intro p a' ha' q b' hb' hkey
    obtain ⟨a, hpa, rfl⟩ := Option.map_eq_some_iff.mp (hw.plugins p ▸ ha')
    obtain ⟨b, hqb, rfl⟩ := Option.map_eq_some_iff.mp (hw.plugins q ▸ hb')
    rw [hk p a hpa, hk q b hqb] at hkey
    exact h.keys p a hpa q b hqb hkey

/-- Where rows keep their origin, only `is_latest` can bring two rows into conflict. -/
theorem rewrite_origin (h : db.Constraints) (hw : db.Rewritten db' f g)
    (ho : ∀ i v, (f i v).origin = v.origin)
    (hk : ∀ p a, (g p a).pluginKey = a.pluginKey)
    (hc : ∀ i v, db.versions.lookup i = some v → (f i v).Checked)
    (hl : ∀ i v, db.versions.lookup i = some v → ∀ j w, db.versions.lookup j = some w → i ≠ j →
      v.pluginId = w.pluginId → (f i v).isLatest → (f j w).isLatest → False) :
    db'.Constraints := by
  have hp : ∀ i v, (f i v).pluginId = v.pluginId := fun i v => congrArg Origin.pluginId (ho i v)
  have hs : ∀ i v, (f i v).sourceType = v.sourceType :=
    fun i v => congrArg Origin.sourceType (ho i v)
  have hm : ∀ i v, (f i v).commitSha = v.commitSha :=
    fun i v => congrArg Origin.commitSha (ho i v)
  refine h.rewrite hw (fun i v _ => hp i v) (fun p a _ => hk p a) hc ?_
  intro i v hv j w hjw hij
  refine ⟨?_, ?_⟩
  · rw [hp, hp]
    exact hl i v hv j w hjw hij
  · rw [hp, hp, hs, hs, hm, hm]
    exact (h.apart i v hv j w hjw hij).commit

/-- No row becomes the latest one. -/
theorem rewrite_demote (h : db.Constraints) (hw : db.Rewritten db' f g)
    (ho : ∀ i v, (f i v).origin = v.origin)
    (hk : ∀ p a, (g p a).pluginKey = a.pluginKey)
    (hc : ∀ i v, db.versions.lookup i = some v → (f i v).Checked)
    (hl : ∀ i v, (f i v).isLatest → v.isLatest) : db'.Constraints :=
  h.rewrite_origin hw ho hk hc fun i v hv j w hjw hij hpid hi hj =>
    (h.apart i v hv j w hjw hij).latest hpid (hl i v hi) (hl j w hj)

/-- One row becomes the latest one of a plugin whose other rows are cleared. -/
theorem rewrite_promote (pluginId : PluginId) (versionId : VersionId) (h : db.Constraints)
    (hw : db.Rewritten db' f g) (ho : ∀ i v, (f i v).origin = v.origin)
    (hk : ∀ p a, (g p a).pluginKey = a.pluginKey)
    (hc : ∀ i v, db.versions.lookup i = some v → (f i v).Checked)
    (hown : ∀ v, db.versions.lookup versionId = some v → v.pluginId = pluginId)
    (hl : ∀ i v, i ≠ versionId → (f i v).isLatest → v.pluginId ≠ pluginId ∧ v.isLatest) :
    db'.Constraints := by
  refine h.rewrite_origin hw ho hk hc fun i v hv j w hjw hij hpid hi hj => ?_
  by_cases hiv : i = versionId
  · subst hiv
    have hne := (hl j w (Ne.symm hij) hj).1
    exact hne (hpid ▸ hown v hv)
  · have hvi := hl i v hiv hi
    by_cases hjv : j = versionId
    · subst hjv
      exact hvi.1 (hpid.trans (hown w hjw))
    · exact (h.apart i v hv j w hjw hij).latest hpid hvi.2 (hl j w hjv hj).2

end Db.Constraints

end PluginRegistry
