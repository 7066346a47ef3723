import Mathlib.Algebra.GroupWithZero.Nat
import Mathlib.Algebra.Ring.Int.Defs
import Mathlib.Data.List.AList

namespace PluginRegistry.Lib

abbrev Table (K V : Type) := AList fun _ : K => V

namespace Table

variable {K V : Type}

def mapRows (t : Table K V) (f : K → V → V) : Table K V :=
  ⟨t.entries.map (.map id f), t.nodupKeys.map₂ f t.entries⟩

def keep (t : Table K V) (p : K → V → Bool) : Table K V :=
  ⟨t.entries.filter fun e => p e.1 e.2, t.nodupKeys.sublist List.filter_sublist⟩

theorem mapRows_mapRows (t : Table K V) (f g : K → V → V) :
    (t.mapRows f).mapRows g = t.mapRows fun k v => g k (f k v) := by
  apply AList.ext
  simp only [mapRows, List.map_map]
  rfl

variable [DecidableEq K]

/-- Rewriting each row to itself. -/
theorem mapRows_eq_self {t : Table K V} {f : K → V → V}
    (h : ∀ k v, t.lookup k = some v → f k v = v) : t.mapRows f = t := by
  apply AList.ext
  refine (List.map_congr_left fun e he => ?_).trans (List.map_id t.entries)
  have hrow := h e.1 e.2 (AList.mem_lookup_iff.mpr he)
  change (⟨e.1, f e.1 e.2⟩ : Sigma fun _ : K => V) = e
  rw [hrow]

theorem keep_eq_self {t : Table K V} {p : K → V → Bool}
    (h : ∀ k v, t.lookup k = some v → p k v = true) : t.keep p = t := by
  apply AList.ext
  exact List.filter_eq_self.mpr fun e he => h e.1 e.2 (AList.mem_lookup_iff.mpr he)

theorem keep_eq_empty {t : Table K V} {p : K → V → Bool}
    (h : ∀ k v, t.lookup k = some v → p k v = false) : t.keep p = ∅ := by
  apply AList.ext
  refine List.filter_eq_nil_iff.mpr fun e he => ?_
  rw [h e.1 e.2 (AList.mem_lookup_iff.mpr he)]
  simp

def modify (t : Table K V) (k : K) (f : V → V) : Table K V :=
  t.mapRows fun i v => if i = k then f v else v

theorem mem_entries {t : Table K V} {k : K} {v : V} :
    (⟨k, v⟩ : Sigma fun _ : K => V) ∈ t.entries ↔ t.lookup k = some v :=
  AList.mem_lookup_iff.symm

@[simp] theorem lookup_mapRows (t : Table K V) (f : K → V → V) (k : K) :
    (t.mapRows f).lookup k = (t.lookup k).map (f k) :=
  List.dlookup_map₂ k

@[simp] theorem lookup_keep (t : Table K V) (p : K → V → Bool) (k : K) :
    (t.keep p).lookup k = (t.lookup k).filter (p k) := by
  ext v
  rw [← mem_entries, Option.filter_eq_some_iff]
  simp only [keep, List.mem_filter]
  exact and_congr_left fun _ => mem_entries

theorem lookup_modify (t : Table K V) (k i : K) (f : V → V) :
    (t.modify k f).lookup i = if i = k then (t.lookup i).map f else t.lookup i := by
  rw [modify, lookup_mapRows]
  split <;> simp

@[simp] theorem lookup_modify_self (t : Table K V) (k : K) (f : V → V) :
    (t.modify k f).lookup k = (t.lookup k).map f := by
  simp [lookup_modify]

theorem lookup_modify_ne (t : Table K V) {k i : K} (f : V → V) (h : i ≠ k) :
    (t.modify k f).lookup i = t.lookup i := by
  simp [lookup_modify, h]

theorem modify_modify (t : Table K V) (k : K) (f g : V → V) :
    (t.modify k f).modify k g = t.modify k (g ∘ f) := by
  rw [modify, modify, mapRows_mapRows, modify]
  congr 1
  funext i v
  split <;> simp_all

/-- Only the row itself matters for a write to it. -/
theorem modify_congr {t : Table K V} {k : K} {f g : V → V}
    (h : ∀ v, t.lookup k = some v → f v = g v) : t.modify k f = t.modify k g := by
  apply AList.ext
  simp only [modify, mapRows]
  refine List.map_congr_left fun e he => ?_
  obtain ⟨i, v⟩ := e
  change (⟨i, if i = k then f v else v⟩ : Sigma fun _ => V) = ⟨i, if i = k then g v else v⟩
  by_cases hi : i = k
  · subst hi
    rw [h v (mem_entries.mp he)]
  · rw [if_neg hi, if_neg hi]

theorem modify_id (t : Table K V) (k : K) : (t.modify k fun v => v) = t := by
  apply AList.ext
  simp only [modify, mapRows, ite_self]
  exact List.map_id _

theorem lookup_insert_eq (t : Table K V) (k i : K) (v : V) :
    (AList.insert k v t).lookup i = if i = k then some v else t.lookup i := by
  by_cases h : i = k
  · subst h
    simp
  · simp [h, AList.lookup_insert_ne h]

theorem lookup_erase_eq (t : Table K V) (k i : K) :
    (AList.erase k t).lookup i = if i = k then none else t.lookup i := by
  by_cases h : i = k
  · subst h
    simp
  · simp [h, AList.lookup_erase_ne h]

/-- In a union the first table's rows win. -/
theorem lookup_union (t u : Table K V) (k : K) :
    (t ∪ u).lookup k = (t.lookup k).or (u.lookup k) := by
  by_cases hk : k ∈ t
  · rw [AList.lookup_union_left hk]
    obtain ⟨v, hv⟩ := Option.isSome_iff_exists.mp (AList.lookup_isSome.mpr hk)
    rw [hv, Option.some_or]
  · rw [AList.lookup_union_right hk, AList.lookup_eq_none.mpr hk, Option.none_or]

/-- A statement about every row is a statement about the listed entries. -/
theorem forall_row_iff {t : Table K V} {p : K → V → Prop} :
    (∀ e ∈ t.entries, p e.1 e.2) ↔ ∀ k v, t.lookup k = some v → p k v := by
  constructor
  · intro h k v hk
    exact h ⟨k, v⟩ (mem_entries.mpr hk)
  · rintro h ⟨k, v⟩ hm
    exact h k v (mem_entries.mp hm)

instance (t : Table K V) (p : K → V → Prop) [∀ k v, Decidable (p k v)] :
    Decidable (∀ k v, t.lookup k = some v → p k v) :=
  decidable_of_iff _ forall_row_iff

def same [DecidableEq V] (t u : Table K V) : Bool :=
  (t.entries.all fun e => u.lookup e.1 = some e.2) && u.entries.all fun e => t.lookup e.1 = some e.2

theorem same_iff [DecidableEq V] {t u : Table K V} :
    t.same u = true ↔ ∀ k, t.lookup k = u.lookup k := by
  have hall : ∀ t u : Table K V, (t.entries.all fun e => u.lookup e.1 = some e.2) = true ↔
      ∀ k v, t.lookup k = some v → u.lookup k = some v := by
    intro t u
    rw [List.all_eq_true, ← forall_row_iff]
    simp
  rw [same, Bool.and_eq_true, hall, hall]
  constructor
  · rintro ⟨htu, hut⟩ k
    cases ht : t.lookup k with
    | some v => exact (htu k v ht).symm
    | none =>
      cases hu : u.lookup k with
      | none => rfl
      | some v =>
        have hback := hut k v hu
        rw [ht] at hback
        cases hback
  · intro h
    exact ⟨fun k v hk => (h k).symm.trans hk, fun k v hk => (h k).trans hk⟩

def first (t : Table K V) (p : K → V → Bool) : Option (K × V) :=
  (t.entries.find? fun e => p e.1 e.2).map fun e => (e.1, e.2)

theorem first_some {t : Table K V} {p : K → V → Bool} {k : K} {v : V}
    (h : t.first p = some (k, v)) : t.lookup k = some v ∧ p k v = true := by
  obtain ⟨⟨i, w⟩, hf, he⟩ := Option.map_eq_some_iff.mp h
  cases he
  have hp := List.find?_some hf
  exact ⟨mem_entries.mp (List.mem_of_find?_eq_some hf), hp⟩

theorem first_none {t : Table K V} {p : K → V → Bool} :
    t.first p = none ↔ ∀ k v, t.lookup k = some v → p k v = false := by
  rw [first, Option.map_eq_none_iff, List.find?_eq_none, ← forall_row_iff]
  simp

/-- A row that alone satisfies a predicate is the one a search finds. -/
theorem first_unique {t : Table K V} {p : K → V → Bool} {k : K} {v : V}
    (hk : t.lookup k = some v) (hp : p k v = true)
    (hu : ∀ i w, t.lookup i = some w → p i w = true → i = k) : t.first p = some (k, v) := by
  cases hf : t.first p with
  | none =>
    have := first_none.mp hf k v hk
    rw [hp] at this
    cases this
  | some e =>
    obtain ⟨i, w⟩ := e
    obtain ⟨hi, hw⟩ := first_some hf
    obtain rfl := hu i w hi hw
    rw [hk] at hi
    cases hi
    rfl

def total (t : Table K V) (f : K → V → Nat) : Nat :=
  (t.entries.map fun e => f e.1 e.2).sum

omit [DecidableEq K] in
@[simp] theorem total_empty (f : K → V → Nat) : (∅ : Table K V).total f = 0 := rfl

/-- Taking one row out takes its share out. -/
theorem total_erase (t : Table K V) (k : K) (f : K → V → Nat) :
    total (AList.erase k t) f + (t.lookup k).elim 0 (f k) = t.total f := by
  have hlist : ∀ l : List (Sigma fun _ : K => V),
      ((l.kerase k).map fun e => f e.1 e.2).sum + (l.dlookup k).elim 0 (f k) =
        (l.map fun e => f e.1 e.2).sum := by
    intro l
    induction l with
    | nil => rfl
    | cons e rest ih =>
      obtain ⟨i, v⟩ := e
      by_cases hi : k = i
      · subst hi
        simp [List.kerase_cons_eq, Nat.add_comm]
      · have hk : List.kerase k (⟨i, v⟩ :: rest) = (⟨i, v⟩ : Sigma fun _ : K => V) :: rest.kerase k :=
          List.kerase_cons_ne hi
        have hl : List.dlookup k (⟨i, v⟩ :: rest) = rest.dlookup k :=
          List.dlookup_cons_ne rest (⟨i, v⟩ : Sigma fun _ : K => V) hi
        rw [hk, hl, List.map_cons, List.map_cons, List.sum_cons, List.sum_cons, ← ih]
        omega
  exact hlist t.entries

theorem total_insert (t : Table K V) (k : K) (v : V) (f : K → V → Nat) :
    total (AList.insert k v t) f + (t.lookup k).elim 0 (f k) = t.total f + f k v := by
  have herase := total_erase t k f
  have hinsert : total (AList.insert k v t) f = f k v + total (AList.erase k t) f := by
    have herased : (AList.erase k t).entries = t.entries.kerase k := rfl
    simp only [total, AList.entries_insert, List.map_cons, List.sum_cons, herased]
  omega

theorem total_modify (t : Table K V) (k : K) (f : V → V) (g : K → V → Nat) :
    (t.modify k f).total g + (t.lookup k).elim 0 (g k) =
      t.total g + (t.lookup k).elim 0 fun v => g k (f v) := by
  have hlist : ∀ l : List (Sigma fun _ : K => V), l.NodupKeys →
      (l.map fun e => g e.1 (if e.1 = k then f e.2 else e.2)).sum + (l.dlookup k).elim 0 (g k) =
        (l.map fun e => g e.1 e.2).sum + (l.dlookup k).elim 0 fun v => g k (f v) := by
    intro l
    induction l with
    | nil => exact fun _ => rfl
    | cons e rest ih =>
      intro hnd
      obtain ⟨i, v⟩ := e
      obtain ⟨hnew, hrest⟩ := List.nodupKeys_cons.mp hnd
      have hstep := ih hrest
      by_cases hi : i = k
      · subst hi
        rw [List.dlookup_eq_none.mpr hnew] at hstep
        simp only [List.map_cons, List.sum_cons, List.dlookup_cons_eq, Option.elim_some,
          Option.elim_none, if_true] at hstep ⊢
        omega
      · have hl : List.dlookup k (⟨i, v⟩ :: rest) = rest.dlookup k :=
          List.dlookup_cons_ne rest (⟨i, v⟩ : Sigma fun _ : K => V) (Ne.symm hi)
        simp only [List.map_cons, List.sum_cons, hi, if_false, hl] at hstep ⊢
        omega
  have hmap : (t.modify k f).total g =
      (t.entries.map fun e => g e.1 (if e.1 = k then f e.2 else e.2)).sum := by
    simp only [total, modify, mapRows, List.map_map]
    rfl
  rw [hmap]
  exact hlist t.entries t.nodupKeys

/-- Every row is part of the total. -/
theorem le_total {t : Table K V} {k : K} {v : V} (h : t.lookup k = some v) (f : K → V → Nat) :
    f k v ≤ t.total f := by
  have herase := total_erase t k f
  rw [h, Option.elim_some] at herase
  omega

/-- The part of a row that may be missing. -/
theorem elim_le_total (t : Table K V) (k : K) (f : K → V → Nat) :
    (t.lookup k).elim 0 (f k) ≤ t.total f := by
  have herase := total_erase t k f
  omega

theorem elim_add_le_total (t : Table K V) {i j : K} (hij : i ≠ j) (f : K → V → Nat) :
    (t.lookup i).elim 0 (f i) + (t.lookup j).elim 0 (f j) ≤ t.total f := by
  have herase := total_erase t i f
  have hle := elim_le_total (AList.erase i t) j f
  rw [lookup_erase_eq, if_neg (Ne.symm hij)] at hle
  omega

theorem exists_of_total_pos {t : Table K V} {f : K → V → Nat} (h : 0 < t.total f) :
    ∃ k v, t.lookup k = some v ∧ 0 < f k v := by
  by_contra hno
  have hzero : t.total f = 0 := by
    apply List.sum_eq_zero_iff_forall_eq_nat.mpr
    intro n hn
    obtain ⟨e, he, rfl⟩ := List.mem_map.mp hn
    by_contra hpos
    exact hno ⟨e.1, e.2, mem_entries.mp he, Nat.pos_of_ne_zero hpos⟩
  omega

end Table

end PluginRegistry.Lib
