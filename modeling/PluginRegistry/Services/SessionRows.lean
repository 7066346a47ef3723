import Mathlib.Data.Fintype.Pi
import PluginRegistry.Services.RegistryService

namespace PluginRegistry
open Lib

instance : Fintype Reviewer where
  elems := {.machine .clamav, .machine .virustotal, .machine .llmAgent, .human}
  complete r := by
    cases r with
    | machine p => cases p <;> decide
    | human => decide

deriving instance DecidableEq for PluginVersion

/-- The objects that a session keeps. `async_session` does not expire them at a commit, and a
later query leaves their loaded attributes alone. `lists` is `Plugin.versions` where it is
loaded, `results` the versions whose `scan` and `provider_results` are. -/
structure SessionRows where
  plugins : Table PluginId Plugin
  versions : Table VersionId PluginVersion
  lists : PluginId → Option (List VersionId)
  results : VersionId → Bool

namespace SessionRows

def empty : SessionRows :=
  ⟨∅, ∅, fun _ => none, fun _ => false⟩

variable (s : SessionRows) (db : Db)

/-- A plugin as a query returns it. The `WHERE` clause is the database's. -/
def plugin (pluginId : PluginId) (row : Plugin) : Plugin :=
  match s.plugins.lookup pluginId with
  | none => row
  | some kept => { kept with status := row.status }

def version (versionId : VersionId) (row : PluginVersion) : PluginVersion :=
  match s.versions.lookup versionId with
  | none => row
  | some kept =>
    if s.results versionId then kept
    else { kept with scan := row.scan, providerResults := row.providerResults }

/-- Whether a version with a row is in `Plugin.versions`. -/
def includes (pluginId : PluginId) (versionId : VersionId) : Bool :=
  (s.lists pluginId).all (·.contains versionId)

/-- Whether a version is in a `Plugin.versions` that is loaded. -/
def keeps (pluginId : PluginId) (versionId : VersionId) : Bool :=
  (s.lists pluginId).any (·.contains versionId)

def gone : Table VersionId PluginVersion :=
  (s.versions.keep fun versionId kept =>
    (db.versions.lookup versionId).isNone && s.keeps kept.pluginId versionId).mapRows
      fun versionId kept =>
        if s.results versionId then kept
        else { kept with scan := none, providerResults := fun _ => none }

def view : Db :=
  { db with
    plugins := db.plugins.mapRows s.plugin
    versions := ((db.versions.keep fun versionId row =>
      s.includes row.pluginId versionId).mapRows s.version) ∪ s.gone db }

def fetch : SessionRows :=
  let seen := s.view db
  let plugins := seen.plugins.keep fun _ p => p.status = .active
  let versions := seen.versions.keep fun _ v => (plugins.lookup v.pluginId).isSome
  { plugins := s.plugins ∪ plugins
    versions := versions ∪ s.versions
    lists := fun pluginId =>
      if (plugins.lookup pluginId).isSome then
        some ((versions.keep fun _ v => v.pluginId = pluginId).keys)
      else s.lists pluginId
    results := fun versionId => (versions.lookup versionId).isSome || s.results versionId }

end SessionRows

inductive Reread
  | nothing
  | plugin (pluginId : PluginId)
  | version (versionId : VersionId)
  | scan (versionId : VersionId)
  deriving DecidableEq, Repr

/-- `db.refresh`, which expires the loaded relationships of the object too. -/
def SessionRows.reread (s : SessionRows) (db : Db) : Reread → SessionRows
  | .nothing => s
  | .plugin pluginId =>
    match db.plugins.lookup pluginId with
    | none => s
    | some row =>
      { s with
        plugins := AList.insert pluginId row s.plugins
        versions := s.versions.keep fun versionId _ => !s.keeps pluginId versionId
        lists := Function.update s.lists pluginId none }
  | .version versionId =>
    match db.versions.lookup versionId with
    | none => s
    | some row =>
      { s with
        versions := AList.insert versionId row s.versions
        results := Function.update s.results versionId false }
  | .scan versionId =>
    match db.versions.lookup versionId with
    | none => s
    | some row =>
      { s with versions := s.versions.modify versionId fun v => { v with scan := row.scan } }

structure SessionRows.Agrees (s : SessionRows) (db : Db) : Prop where
  plugins : ∀ pluginId row, db.plugins.lookup pluginId = some row → s.plugin pluginId row = row
  versions : ∀ versionId row, db.versions.lookup versionId = some row →
    s.includes row.pluginId versionId = true ∧ s.version versionId row = row
  present : ∀ versionId kept, s.versions.lookup versionId = some kept →
    s.keeps kept.pluginId versionId = true → (db.versions.lookup versionId).isSome = true

instance (s : SessionRows) (db : Db) : Decidable (s.Agrees db) :=
  decidable_of_iff
    ((∀ pluginId row, db.plugins.lookup pluginId = some row → s.plugin pluginId row = row) ∧
      (∀ versionId row, db.versions.lookup versionId = some row →
        s.includes row.pluginId versionId = true ∧ s.version versionId row = row) ∧
      (∀ versionId kept, s.versions.lookup versionId = some kept →
        s.keeps kept.pluginId versionId = true → (db.versions.lookup versionId).isSome = true))
    ⟨fun h => ⟨h.1, h.2.1, h.2.2⟩, fun h => ⟨h.1, h.2, h.3⟩⟩

namespace SessionRows

variable {s : SessionRows} {db : Db}

theorem empty_agrees (db : Db) : empty.Agrees db where
  plugins _ _ _ := rfl
  versions _ _ _ := ⟨rfl, rfl⟩
  present versionId _ h := by cases h

/-- A session whose objects are up to date reads the rows as they are. -/
theorem view_eq (h : s.Agrees db) : s.view db = db := by
  have hgone : s.gone db = ∅ := by
    have hkeep : (s.versions.keep fun versionId kept =>
        (db.versions.lookup versionId).isNone && s.keeps kept.pluginId versionId) = ∅ := by
      apply Table.keep_eq_empty
      intro versionId kept hkept
      rw [Bool.and_eq_false_imp]
      intro hnone
      rw [Bool.eq_false_iff]
      intro hlisted
      have hpresent := h.present versionId kept hkept hlisted
      rw [Option.isNone_iff_eq_none.mp hnone] at hpresent
      cases hpresent
    rw [gone, hkeep]
    rfl
  have hplugins : db.plugins.mapRows s.plugin = db.plugins := Table.mapRows_eq_self h.plugins
  have hkept : (db.versions.keep fun versionId row => s.includes row.pluginId versionId) =
      db.versions := Table.keep_eq_self fun versionId row hv => (h.versions versionId row hv).1
  have hversions : db.versions.mapRows s.version = db.versions :=
    Table.mapRows_eq_self fun versionId row hv => (h.versions versionId row hv).2
  rw [view, hgone, hplugins, hkept, hversions, AList.union_empty]

end SessionRows

end PluginRegistry
