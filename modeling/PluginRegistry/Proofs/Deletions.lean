import PluginRegistry.Proofs.UnzipTotality
import PluginRegistry.Services.Deletion

namespace PluginRegistry
open Lib

variable {faults : DeletionFaults} {db : Db} {x : Outside}

/-- The objects that are gone when the loop ends: those before the first call that raises. -/
def DeletionFaults.removed (faults : DeletionFaults) : Nat → List String → List String
  | _, [] => []
  | n, s3Key :: rest =>
    if (faults.object n s3Key).isNone then s3Key :: faults.removed (n + 1) rest else []

def DeletionFaults.removesAll (faults : DeletionFaults) : Nat → List String → Bool
  | _, [] => true
  | n, s3Key :: rest => (faults.object n s3Key).isNone && faults.removesAll (n + 1) rest

def Deletion.keys (db : Db) : Deletion → Option (List String)
  | .plugin pluginId => (db.plugins.lookup pluginId).map fun _ => db.s3Keys pluginId
  | .version pluginId versionId =>
    ((db.versions.lookup versionId).filter fun v => v.pluginId = pluginId).map fun v =>
      (v.s3Key.filter (!·.isEmpty)).toList

def Deletion.before : Deletion → List DeleteStatement
  | .plugin _ => [.select, .selectKeys]
  | .version .. => [.select]

def Deletion.afterwards : Deletion → List DeleteStatement
  | .plugin _ => [.clearLatest, .deleteVersions, .commit]
  | .version .. => [.deleteVersions, .commit]

def DeletionFaults.passes (faults : DeletionFaults) (statements : List DeleteStatement) : Bool :=
  statements.all fun statement => (faults.statement statement).isNone

def Deletion.removed (faults : DeletionFaults) (db : Db) (d : Deletion) : List String :=
  if faults.passes d.before then (d.keys db).elim [] (faults.removed 0) else []

def Deletion.completes (faults : DeletionFaults) (db : Db) (d : Deletion) : Bool :=
  faults.passes d.before && (d.keys db).any (faults.removesAll 0) && faults.passes d.afterwards

def Deletion.rows (db : Db) : Deletion → Db
  | .plugin pluginId => db.withoutPlugin pluginId
  | .version _ versionId => db.deleteVersionRow versionId

section
variable {α β : Type} {s s' : Session Db Outside}

theorem after_bind_error {a : Op α} {f : α → Op β} {e : PyErr} (h : a.run s = .error e s') :
    (a >>= f).after s = s' := by
  simp only [Work.after, Work.bind_run, h]

theorem after_failing (fault : Option PyErr) (f : Unit → Op α) (s : Session Db Outside) :
    (failing fault >>= f).after s = if fault.isNone then (f ()).after s else s := by
  cases fault with
  | none => exact Work.after_bind_ok rfl
  | some e => exact after_bind_error rfl

theorem after_failing_last (fault : Option PyErr) (s : Session Db Outside) :
    (failing fault).after s = s := by
  cases fault <;> rfl

end

variable (faults db) in
/-- The loop removes objects up to the first call that raises. -/
theorem removeObjects_run (keys : List String) (n : Nat) (x : Outside) :
    let s := Session.start db { x with bucket := x.bucket.without (faults.removed n keys) }
    (faults.removesAll n keys = true ∧
        (removeObjects faults n keys).run (Session.start db x) = .ok () s) ∨
      (faults.removesAll n keys = false ∧
        ∃ e, (removeObjects faults n keys).run (Session.start db x) = .error e s) := by
  induction keys generalizing n x with
  | nil => exact .inl ⟨rfl, rfl⟩
  | cons s3Key rest ih =>
    cases hfault : faults.object n s3Key with
    | some e =>
      right
      simp only [DeletionFaults.removed, DeletionFaults.removesAll, hfault]
      refine ⟨rfl, e, ?_⟩
      rw [removeObjects, Work.bind_run, removeObject, Work.bind_run, hfault]
      rfl
    | none =>
      simp only [DeletionFaults.removed, DeletionFaults.removesAll, hfault, Option.isNone_none,
        if_true, Bool.true_and]
      have hone : (removeObject faults n s3Key).run (Session.start db x) =
          .ok () (Session.start db { x with bucket := AList.erase s3Key x.bucket }) := by
        rw [removeObject, Work.bind_run, hfault]
        rfl
      rw [removeObjects, Work.bind_run, hone]
      exact ih (n + 1) _

theorem after_removeObjects {α : Type} (keys : List String) (f : Unit → Op α) :
    (removeObjects faults 0 keys >>= f).after (Session.start db x) =
      let s := Session.start db { x with bucket := x.bucket.without (faults.removed 0 keys) }
      if faults.removesAll 0 keys then (f ()).after s else s := by
  rcases removeObjects_run faults db keys 0 x with ⟨hall, hrun⟩ |
    ⟨hall, e, hrun⟩
  · rw [hall]
    exact Work.after_bind_ok hrun
  · rw [hall]
    exact after_bind_error hrun

section
variable {α : Type}

theorem after_getPlugin (h : db.Sound) (id : PluginId) (f : Option Plugin → Op α) :
    (getPlugin id >>= f).after (Session.start db x) =
      (f (db.plugins.lookup id)).after (Session.start db x) :=
  Work.after_bind_ok (getPlugin_run h.constraints id)

theorem after_getVersion (h : db.Sound) (id : VersionId) (f : Option PluginVersion → Op α) :
    (getVersion id >>= f).after (Session.start db x) =
      (f (db.versions.lookup id)).after (Session.start db x) :=
  Work.after_bind_ok (getVersion_run h.constraints id)

theorem after_s3Keys (h : db.Sound) (id : PluginId) (f : List String → Op α) :
    (Work.query (·.s3Keys id) >>= f).after (Session.start db x) =
      (f (db.s3Keys id)).after (Session.start db x) :=
  Work.after_bind_ok (query_run _ h.constraints)

end

structure EndsWith (s : Session Db Outside) (db : Db) (x : Outside) : Prop where
  rows : s.committed = db
  outside : s.outside = x

variable (faults x) in
/-- What `delete_plugin` does once the objects are gone. -/
theorem deletePlugin_statements (h : db.Sound) (pluginId : PluginId) :
    EndsWith (Work.after (do
        failing (faults.statement .clearLatest)
        execute (·.clearLatest pluginId)
        failing (faults.statement .deleteVersions)
        execute (·.deleteVersionsOf pluginId)
        Work.change (·.deletePluginRow pluginId)
        failing (faults.statement .commit)
        Work.commit
        failing faults.refresh) (Session.start db x))
      (if faults.passes (Deletion.plugin pluginId).afterwards then db.withoutPlugin pluginId else db)
      x := by
  have h1 := h.clearLatest pluginId
  have h2 := h.withoutPlugin pluginId
  simp only [DeletionFaults.passes, Deletion.afterwards, List.all_cons, List.all_nil, Bool.and_true]
  rw [Session.start, after_failing]
  cases (faults.statement .clearLatest).isNone with
  | false => exact ⟨rfl, rfl⟩
  | true =>
    rw [if_pos rfl, Work.after_bind_ok (execute_run _ h.constraints), after_failing]
    cases (faults.statement .deleteVersions).isNone with
    | false => exact ⟨rfl, rfl⟩
    | true =>
      rw [if_pos rfl, Work.after_bind_ok (execute_run _ h1.constraints),
        Work.after_bind_ok (Work.change_run _ _), after_failing]
      cases (faults.statement .commit).isNone with
      | false => exact ⟨rfl, rfl⟩
      | true =>
        have hrows : ((db.clearLatest pluginId).deleteVersionsOf pluginId).deletePluginRow pluginId =
            db.withoutPlugin pluginId := rfl
        dsimp only
        rw [if_pos rfl, hrows, Work.after_bind_ok (commit_run h2.constraints), after_failing_last]
        exact ⟨rfl, rfl⟩

variable (faults x) in
theorem deleteVersion_statements (h : db.Sound) (pluginId : PluginId) (versionId : VersionId) :
    EndsWith (Work.after (do
        failing (faults.statement .deleteVersions)
        execute (·.deleteVersionRow versionId)
        failing (faults.statement .commit)
        Work.commit
        failing faults.refresh) (Session.start db x))
      (if faults.passes (Deletion.version pluginId versionId).afterwards then
        db.deleteVersionRow versionId else db) x := by
  have h1 := h.deleteVersionRow versionId
  simp only [DeletionFaults.passes, Deletion.afterwards, List.all_cons, List.all_nil, Bool.and_true]
  rw [Session.start, after_failing]
  cases (faults.statement .deleteVersions).isNone with
  | false => exact ⟨rfl, rfl⟩
  | true =>
    rw [if_pos rfl, Work.after_bind_ok (execute_run _ h.constraints), after_failing]
    cases (faults.statement .commit).isNone with
    | false => exact ⟨rfl, rfl⟩
    | true =>
      rw [if_pos rfl, Work.after_bind_ok (commit_run h1.constraints), after_failing_last]
      exact ⟨rfl, rfl⟩

variable (faults x) in
/-- The rows and the bucket after a deletion. -/
theorem Deletion.ends (h : db.Sound) (d : Deletion) :
    EndsWith ((d.work faults).after (Session.start db x))
      (if d.completes faults db then d.rows db else db)
      { x with bucket := x.bucket.without (d.removed faults db) } := by
  cases d with
  | plugin pluginId =>
    have hstatements := fun x' => deletePlugin_statements faults x' h pluginId
    rw [Deletion.work, deletePluginUnder, after_failing]
    simp only [Deletion.completes, Deletion.removed, Deletion.keys, Deletion.rows]
    simp only [DeletionFaults.passes, Deletion.before, List.all_cons, List.all_nil, Bool.and_true]
      at hstatements ⊢
    cases (faults.statement .select).isNone with
    | false => exact ⟨rfl, rfl⟩
    | true =>
      rw [if_pos rfl, after_getPlugin h]
      cases db.plugins.lookup pluginId with
      | none =>
        simp only [Option.map_none, Option.any_none, Option.elim_none, Bool.and_false,
          Bool.false_and, ite_self]
        exact ⟨rfl, rfl⟩
      | some p =>
        dsimp only
        rw [after_failing]
        cases (faults.statement .selectKeys).isNone with
        | false => exact ⟨rfl, rfl⟩
        | true =>
          rw [if_pos rfl, after_s3Keys h, after_removeObjects]
          simp only [Option.map_some, Option.any_some, Option.elim_some, Bool.and_self, if_true,
            Bool.true_and]
          cases faults.removesAll 0 (db.s3Keys pluginId) with
          | false => exact ⟨rfl, rfl⟩
          | true => exact hstatements _
  | version pluginId versionId =>
    have hstatements := fun x' =>
      deleteVersion_statements faults x' h pluginId versionId
    rw [Deletion.work, deleteVersionUnder, after_failing]
    simp only [Deletion.completes, Deletion.removed, Deletion.keys, Deletion.rows]
    simp only [DeletionFaults.passes, Deletion.before, List.all_cons, List.all_nil, Bool.and_true]
      at hstatements ⊢
    cases (faults.statement .select).isNone with
    | false => exact ⟨rfl, rfl⟩
    | true =>
      rw [if_pos rfl, after_getVersion h]
      cases db.versions.lookup versionId with
      | none =>
        simp only [Option.filter_none, Option.map_none, Option.any_none, Option.elim_none,
          Bool.and_false, Bool.false_and, ite_self]
        exact ⟨rfl, rfl⟩
      | some v =>
        dsimp only
        by_cases hown : v.pluginId = pluginId
        · have hkept : (Work.refuse (v.pluginId ≠ pluginId) (notFound "Version not found") :
              Op Unit).run (Session.start db x) = .ok () (Session.start db x) := by
            rw [Work.refuse_run, if_neg (not_not_intro hown)]
          have hfound : (some v).filter (fun v => v.pluginId = pluginId) = some v := by
            simp [hown]
          rw [Work.after_bind_ok hkept, after_removeObjects, hfound]
          simp only [Option.map_some, Option.any_some, Option.elim_some, if_true, Bool.true_and]
          cases faults.removesAll 0 (v.s3Key.filter (!·.isEmpty)).toList with
          | false => exact ⟨rfl, rfl⟩
          | true => exact hstatements _
        · have hrefused : (Work.refuse (v.pluginId ≠ pluginId) (notFound "Version not found") :
              Op Unit).run (Session.start db x) =
                .error (notFound "Version not found") (Session.start db x) := by
            rw [Work.refuse_run, if_pos hown]
          have hforeign : (some v).filter (fun v => v.pluginId = pluginId) = none := by
            simp [hown]
          rw [after_bind_error hrefused, hforeign]
          simp only [Option.map_none, Option.any_none, Option.elim_none, Bool.and_false,
            Bool.false_and, ite_self]
          exact ⟨rfl, rfl⟩

theorem removeObjects_forM (env : Env) (d : Deletion) (n : Nat) (keys : List String) :
    removeObjects (env.deletionFaults d) n keys = keys.forM (deleteFile env) := by
  induction keys generalizing n with
  | nil => rfl
  | cons s3Key rest ih =>
    rw [removeObjects, ih, List.forM_eq_forM, List.forM_cons]
    rfl

theorem deleteFile_forM (env : Env) (s3Key : Option String) :
    (s3Key.filter (!·.isEmpty)).toList.forM (deleteFile env) =
      Work.when (truthy s3Key) (deleteFile env (s3Key.getD "")) := by
  cases s3Key with
  | none => rfl
  | some key =>
    rw [Option.filter_some, truthy, Work.when]
    cases key.isEmpty with
    | true => rfl
    | false =>
      change (deleteFile env key >>= fun _ => pure ()) = deleteFile env key
      exact bind_pure_unit

/-- Where no statement raises, these are the deletions of the service. -/
theorem Deletion.work_operation (env : Env) (d : Deletion) :
    d.work (env.deletionFaults d) = d.operation.work env := by
  have hpass : ∀ {α : Type} (statement : DeleteStatement) (f : Unit → Op α),
      (failing ((env.deletionFaults d).statement statement) >>= f) = f () := fun _ _ => rfl
  cases d with
  | plugin pluginId =>
    rw [work, deletePluginUnder]
    simp only [hpass, removeObjects_forM]
    rfl
  | version pluginId versionId =>
    rw [work, deleteVersionUnder]
    simp only [hpass, removeObjects_forM, deleteFile_forM]
    rfl

theorem mem_without {bucket : Bucket} {keys : List String} {s3Key : String} :
    s3Key ∈ bucket.without keys ↔ s3Key ∈ bucket ∧ s3Key ∉ keys := by
  induction keys generalizing bucket with
  | nil => simp [Bucket.without]
  | cons first rest ih =>
    change s3Key ∈ Bucket.without (AList.erase first bucket) rest ↔ _
    rw [ih, AList.mem_erase, List.mem_cons]
    tauto

theorem DeletionFaults.removed_subset {n : Nat} {keys : List String} {s3Key : String}
    (h : s3Key ∈ faults.removed n keys) : s3Key ∈ keys := by
  induction keys generalizing n with
  | nil => cases h
  | cons first rest ih =>
    rw [removed] at h
    split at h
    · rcases List.mem_cons.mp h with rfl | h
      · exact List.mem_cons_self
      · exact List.mem_cons_of_mem _ (ih h)
    · cases h

/-- Every key that a deletion reads is one of a row. -/
theorem Deletion.key_of_row {d : Deletion} {keys : List String} (h : d.keys db = some keys)
    {s3Key : String} (hkey : s3Key ∈ keys) :
    ∃ i v, db.versions.lookup i = some v ∧ v.s3Key = some s3Key := by
  cases d with
  | plugin pluginId =>
    obtain ⟨_, -, rfl⟩ := Option.map_eq_some_iff.mp h
    obtain ⟨⟨i, v⟩, hentry, hread⟩ := List.mem_filterMap.mp hkey
    split at hread
    · exact ⟨i, v, Table.mem_entries.mp hentry, (Option.filter_eq_some_iff.mp hread).1⟩
    · cases hread
  | version pluginId versionId =>
    obtain ⟨v, hv, rfl⟩ := Option.map_eq_some_iff.mp h
    obtain ⟨hv, -⟩ := Option.filter_eq_some_iff.mp hv
    have hkey := Option.filter_eq_some_iff.mp (Option.mem_toList.mp hkey)
    exact ⟨versionId, v, hv, hkey.1⟩

theorem Deletion.removed_of_row {d : Deletion} {s3Key : String}
    (h : s3Key ∈ d.removed faults db) :
    ∃ i v, db.versions.lookup i = some v ∧ v.s3Key = some s3Key := by
  rw [removed] at h
  split at h
  · cases hkeys : d.keys db with
    | none =>
      rw [hkeys] at h
      cases h
    | some keys =>
      rw [hkeys] at h
      exact key_of_row hkeys (DeletionFaults.removed_subset h)
  · cases h

def Deletion.Spares (d : Deletion) (i : VersionId) (v : PluginVersion) : Prop :=
  match d with
  | .plugin pluginId => v.pluginId ≠ pluginId
  | .version _ versionId => i ≠ versionId

theorem Deletion.lookup_rows {d : Deletion} {i : VersionId} {v : PluginVersion} :
    (d.rows db).versions.lookup i = some v ↔
      db.versions.lookup i = some v ∧ d.Spares i v := by
  cases d with
  | plugin pluginId =>
    rw [rows, Db.lookup_withoutPlugin, Option.filter_eq_some_iff]
    simp [Spares]
  | version pluginId versionId =>
    rw [rows, Db.lookup_deleteVersionRow]
    by_cases hi : i = versionId
    · simp [hi, Spares]
    · simp [hi, Spares]

def KeepsObjects (bucket : Bucket) (report : Report PyErr Db Outside Unit) : Prop :=
  ∀ i v s3Key, report.db.versions.lookup i = some v → v.s3Key = some s3Key → s3Key ∈ bucket →
    s3Key ∈ report.outside.bucket

theorem deletingService_sound {config : RuntimeConfig} {w : World}
    (h : (deletingService config).Reachable w) : w.db.Sound := by
  apply Machine.Reachable.induct (fun w => w.db.Sound) (Db.Sound.empty config) ?_ h
  intro w event hs
  cases event with
  | service event => exact World.step_sound hs event
  | delete d faults =>
    change (d.perform faults w.db w.outside).db.Sound
    rw [Deletion.perform, Work.perform_db, (Deletion.ends faults w.outside hs d).rows]
    split
    · cases d with
      | plugin pluginId => exact hs.withoutPlugin pluginId
      | version pluginId versionId => exact hs.deleteVersionRow versionId
    · exact hs

/-- In every reachable state, whichever of its calls raise, a deletion strands
no version exactly if each object it removes is gone already, or it gets as far
as its commit and none of the rows it leaves has the same key. -/
theorem deletion_keeps_objects_iff {config : RuntimeConfig} {w : World}
    (hw : (deletingService config).Reachable w) (d : Deletion) (faults : DeletionFaults) :
    KeepsObjects w.outside.bucket (d.perform faults w.db w.outside) ↔
      ∀ s3Key ∈ d.removed faults w.db, s3Key ∈ w.outside.bucket →
        d.completes faults w.db = true ∧ ∀ i v, w.db.versions.lookup i = some v →
          d.Spares i v → v.s3Key ≠ some s3Key := by
  have h := deletingService_sound hw
  have hends := Deletion.ends faults w.outside h d
  rw [KeepsObjects, Deletion.perform, Work.perform_db, Work.perform_outside, hends.rows,
    hends.outside]
  dsimp only
  constructor
  · intro hkeeps s3Key hremoved hin
    have hgone : s3Key ∉ w.outside.bucket.without (d.removed faults w.db) :=
      fun hstays => (mem_without.mp hstays).2 hremoved
    have hcompletes : d.completes faults w.db = true := by
      by_contra hstops
      obtain ⟨i, v, hrow, hkey⟩ := Deletion.removed_of_row hremoved
      rw [if_neg hstops] at hkeeps
      exact hgone (hkeeps i v s3Key hrow hkey hin)
    refine ⟨hcompletes, fun i v hrow hspared hkey => ?_⟩
    rw [if_pos hcompletes] at hkeeps
    exact hgone (hkeeps i v s3Key (Deletion.lookup_rows.mpr ⟨hrow, hspared⟩) hkey hin)
  · intro hcond i v s3Key hrow hkey hin
    rw [mem_without]
    refine ⟨hin, fun hremoved => ?_⟩
    obtain ⟨hcompletes, hothers⟩ := hcond s3Key hremoved hin
    rw [if_pos hcompletes] at hrow
    obtain ⟨hold, hspared⟩ := Deletion.lookup_rows.mp hrow
    exact hothers i v hold hspared hkey

theorem run_deletingService (config : RuntimeConfig) (events : List Event) :
    (deletingService config).Reachable (World.run config events) := by
  refine ⟨events.map .service, ?_⟩
  rw [Machine.runFrom, List.foldl_map]
  rfl

def uploadedRun : List Event :=
  [.perform (.createPlugin .demo "") (.calm 0),
    .perform (.uploadVersion 0 .demo [] "1.0.0") (.calm 1)]

def commitFails : DeletionFaults where
  object := fun _ _ => none
  statement := fun statement =>
    if statement = .commit then some ⟨.osError, "connection was closed", 0⟩ else none
  refresh := none

theorem deletion_keeps_objects_iff_uploaded :
    KeepsObjects (World.run .default uploadedRun).outside.bucket
      ((Deletion.version 0 1).perform ⟨fun _ _ => none, fun _ => none, none⟩
        (World.run .default uploadedRun).db (World.run .default uploadedRun).outside) := by
  apply (deletion_keeps_objects_iff (run_deletingService .default uploadedRun) _ _).mpr
  intro s3Key _ _
  have hone : ∀ row ∈ (World.run .default uploadedRun).db.versions.entries, row.1 = 1 := by decide
  refine ⟨by decide, ?_⟩
  intro i v hv hspares
  exact absurd (hone _ (Table.mem_entries.mpr hv)) hspares

def uploadedKey : String := "plugins/alice/demo/1.0.0/demo-1.0.0-manual_upload.zip"

/-- The object is deleted, the commit raises, and the row stays. -/
theorem commit_failure_strands :
    ¬∀ (config : RuntimeConfig) (w : World), (deletingService config).Reachable w →
      ∀ (d : Deletion) (faults : DeletionFaults),
        KeepsObjects w.outside.bucket (d.perform faults w.db w.outside) := by
  intro hall
  have hkeeps := hall .default _ (run_deletingService .default uploadedRun) (.version 0 1)
    commitFails
  rw [deletion_keeps_objects_iff (run_deletingService .default uploadedRun)] at hkeeps
  have hremoved : uploadedKey ∈ (Deletion.version 0 1).removed commitFails
      (World.run .default uploadedRun).db := by
    decide
  have hin : uploadedKey ∈ (World.run .default uploadedRun).outside.bucket := by
    decide
  have hstops : (Deletion.version 0 1).completes commitFails
      (World.run .default uploadedRun).db = false := by
    decide
  rw [(hkeeps uploadedKey hremoved hin).1] at hstops
  cases hstops

end PluginRegistry
