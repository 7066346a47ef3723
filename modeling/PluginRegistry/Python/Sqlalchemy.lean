import PluginRegistry.Lib.Table
import PluginRegistry.Python.Json

namespace PluginRegistry
open Lib

def hasNul (text : String) : Bool :=
  text.toList.contains (Char.ofNat 0)

def nulError : PyErr :=
  ⟨.dataError, "invalid byte sequence for encoding \"UTF8\": 0x00", 0⟩

mutual

/-- What a `jsonb` column takes: no NUL character, and no number that is not finite. -/
def Json.storable : Json → Bool
  | .null | .bool _ | .int _ => true
  | .float (.finite _ _) => true
  | .float _ => false
  | .str value => !hasNul value
  | .arr items => storableItems items
  | .obj fields => storableFields fields

def Json.storableItems : List Json → Bool
  | [] => true
  | item :: items => item.storable && storableItems items

def Json.storableFields : List (String × Json) → Bool
  | [] => true
  | (key, value) :: fields => !hasNul key && value.storable && storableFields fields

end

def multipleResults : PyErr :=
  ⟨.multipleResultsFound, "Multiple rows were found when one or none was required", 0⟩

section

variable {K V : Type}

/-- `Result.scalar_one_or_none()` of a query that selects whole rows. -/
def scalarOneOrNone (t : Table K V) (p : K → V → Bool) : Except PyErr (Option (K × V)) :=
  match t.entries.filter fun e => p e.1 e.2 with
  | [] => .ok none
  | [row] => .ok (some (row.1, row.2))
  | _ => .error multipleResults

variable [DecidableEq K] {t : Table K V} {p : K → V → Bool}

theorem mem_selected {k : K} {v : V} :
    (⟨k, v⟩ : Sigma fun _ : K => V) ∈ t.entries.filter (fun e => p e.1 e.2) ↔
      t.lookup k = some v ∧ p k v = true := by
  rw [List.mem_filter, Table.mem_entries]

/-- The query finds one row where it selects no other. -/
theorem scalarOneOrNone_some {k : K} {v : V} (hk : t.lookup k = some v) (hp : p k v = true)
    (hu : ∀ i w, t.lookup i = some w → p i w = true → i = k) :
    scalarOneOrNone t p = .ok (some (k, v)) := by
  have hmem := mem_selected.mpr ⟨hk, hp⟩
  have hkeys := (t.nodupKeys.sublist List.filter_sublist :
    (t.entries.filter fun e => p e.1 e.2).NodupKeys)
  have hall : ∀ e ∈ t.entries.filter (fun e => p e.1 e.2), e.1 = k := fun e he =>
    hu e.1 e.2 (mem_selected.mp he).1 (mem_selected.mp he).2
  unfold scalarOneOrNone
  cases hrows : t.entries.filter fun e => p e.1 e.2 with
  | nil =>
    rw [hrows] at hmem
    cases hmem
  | cons first rest =>
    rw [hrows] at hmem hkeys hall
    cases rest with
    | nil =>
      rw [← List.mem_singleton.mp hmem]
    | cons second rest =>
      have hfirst := hall first List.mem_cons_self
      have hsecond := hall second (List.mem_cons_of_mem _ List.mem_cons_self)
      have hne := (List.nodupKeys_cons.mp hkeys).1
      rw [hfirst, ← hsecond] at hne
      exact absurd (List.mem_map_of_mem List.mem_cons_self) hne

/-- Two selected rows are one too many. -/
theorem scalarOneOrNone_error {i j : K} {v w : V} (hi : t.lookup i = some v)
    (hv : p i v = true) (hj : t.lookup j = some w) (hw : p j w = true) (hne : i ≠ j) :
    scalarOneOrNone t p = .error multipleResults := by
  have hfirst := mem_selected.mpr ⟨hi, hv⟩
  have hsecond := mem_selected.mpr ⟨hj, hw⟩
  unfold scalarOneOrNone
  cases hrows : t.entries.filter fun e => p e.1 e.2 with
  | nil =>
    rw [hrows] at hfirst
    cases hfirst
  | cons first rest =>
    cases rest with
    | nil =>
      rw [hrows, List.mem_singleton] at hfirst hsecond
      have hsame := hfirst.trans hsecond.symm
      exact absurd (congrArg Sigma.fst hsame) hne
    | cons second rest => rfl

end

end PluginRegistry
