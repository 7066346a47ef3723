import Mathlib.Algebra.BigOperators.Group.List.Basic
import PluginRegistry.Lib.Table

namespace PluginRegistry.Lib.Table

variable {I R K V : Type} [DecidableEq I] [DecidableEq K]

omit [DecidableEq I] in
def tally (t : Table I R) (p : R → Bool) : Nat :=
  t.total fun _ r => (p r).toNat

/-- Putting a row in the place of one that does not count. -/
theorem tally_insert {t : Table I R} {i : I} {p : R → Bool}
    (h : ∀ old, t.lookup i = some old → p old = false) (r : R) :
    tally (AList.insert i r t) p = t.tally p + (p r).toNat := by
  have hinsert := total_insert t i r fun _ r => (p r).toNat
  have hold : (t.lookup i).elim 0 (fun r => (p r).toNat) = 0 := by
    cases hi : t.lookup i with
    | none => rfl
    | some old => simp [h old hi]
  rw [hold] at hinsert
  exact hinsert

omit [DecidableEq I] in
/-- No row counts where none meets the condition. -/
theorem tally_eq_zero {t : Table I R} {p : R → Bool} (h : ∀ e ∈ t.entries, p e.2 = false) :
    t.tally p = 0 := by
  apply List.sum_eq_zero_iff_forall_eq_nat.mpr
  intro n hn
  obtain ⟨e, he, rfl⟩ := List.mem_map.mp hn
  simp [h e he]

theorem tally_pos {t : Table I R} {i : I} {r : R} {p : R → Bool} (h : t.lookup i = some r)
    (hp : p r = true) : 0 < t.tally p := by
  have hle := le_total h fun _ r => (p r).toNat
  simp only [hp, Bool.toNat_true] at hle
  exact hle

theorem tally_congr {t : Table I R} {p q : R → Bool}
    (h : ∀ i r, t.lookup i = some r → p r = q r) : t.tally p = t.tally q := by
  unfold tally total
  congr 1
  apply List.map_congr_left
  intro e he
  exact congrArg Bool.toNat (h e.1 e.2 (mem_entries.mp he))

/-- Counting by key and then adding up counts every element that has a key once. -/
theorem sum_by_key {E : Type} (key : E → Option K) (l : List E) {keys : List K}
    (hnodup : keys.Nodup) :
    (keys.map fun k => (l.map fun e => (decide (key e = some k)).toNat).sum).sum =
      (l.map fun e => ((key e).any fun k => keys.contains k).toNat).sum := by
  induction keys with
  | nil =>
    simp
  | cons k keys ih =>
    obtain ⟨hnew, hrest⟩ := List.nodup_cons.mp hnodup
    rw [List.map_cons, List.sum_cons, ih hrest, ← List.sum_map_add]
    congr 1
    apply List.map_congr_left
    intro e _
    cases hk : key e with
    | none => rfl
    | some k' =>
      by_cases hsame : k' = k
      · subst hsame
        simp [hnew]
      · simp [hsame]

omit [DecidableEq I] in
/-- Where each row holds the count of its key, the rows together hold the count of all
the elements whose key has a row. -/
theorem total_eq_tally {t : Table K V} {requests : Table I R} {f : V → Nat} {key : R → Option K}
    (h : ∀ k v, t.lookup k = some v → f v = requests.tally fun r => key r = some k) :
    (t.total fun _ v => f v) =
      requests.tally fun r => (key r).any fun k => (t.lookup k).isSome := by
  have hrows : (t.entries.map fun e => f e.2) =
      (t.entries.map Sigma.fst).map fun k =>
        (requests.entries.map fun e => (decide (key e.2 = some k)).toNat).sum := by
    rw [List.map_map]
    apply List.map_congr_left
    intro e he
    exact h e.1 e.2 (mem_entries.mp he)
  have hkeys : (t.entries.map Sigma.fst).Nodup := t.nodupKeys
  unfold total tally
  rw [hrows, sum_by_key (fun e => key e.2) requests.entries hkeys]
  unfold total
  congr 1
  apply List.map_congr_left
  intro e _
  have hmem : ∀ k, (t.entries.map Sigma.fst).contains k = (t.lookup k).isSome := by
    intro k
    rw [Bool.eq_iff_iff, List.contains_iff_mem, AList.lookup_isSome]
    rfl
  simp only [hmem]

end PluginRegistry.Lib.Table
