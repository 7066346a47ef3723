import PluginRegistry.Lib.Machine
import PluginRegistry.Lib.Table

namespace PluginRegistry.Lib

namespace Machine

variable {S T E : Type}

/-- Every step of one machine is a step of the other one, for the events that are allowed. -/
structure Simulates (concrete : Machine S E) (abstract : Machine T E) (allowed : E → Prop)
    (shows : S → T → Prop) : Prop where
  init : shows concrete.init abstract.init
  step : ∀ {s t e}, shows s t → allowed e → shows (concrete.step s e) (abstract.step t e)

theorem Simulates.run {concrete : Machine S E} {abstract : Machine T E} {allowed : E → Prop}
    {shows : S → T → Prop} (h : concrete.Simulates abstract allowed shows) {es : List E}
    (hes : ∀ e ∈ es, allowed e) :
    shows (concrete.runFrom concrete.init es) (abstract.runFrom abstract.init es) := by
  have hrun : ∀ {s t}, shows s t → shows (concrete.runFrom s es) (abstract.runFrom t es) := by
    induction es with
    | nil => exact id
    | cons e es ih =>
      intro s t hst
      have hstep := h.step hst (hes e List.mem_cons_self)
      exact ih (fun e he => hes e (List.mem_cons_of_mem _ he)) hstep
  exact hrun h.init

end Machine

namespace Table

variable {K L V W : Type} {name : K → L} {value : V → W} {t : Table K V} {u : Table L W}

def Renamed (name : K → L) (value : V → W) (t : Table K V) (u : Table L W) : Prop :=
  u.entries = t.entries.map fun row => ⟨name row.1, value row.2⟩

namespace Renamed

theorem mem_iff (h : Renamed name value t u) {key : L} :
    key ∈ u ↔ ∃ k ∈ t, name k = key := by
  rw [AList.mem_keys, AList.keys, List.keys, h, List.map_map]
  constructor
  · intro hmem
    obtain ⟨row, hrow, rfl⟩ := List.mem_map.mp hmem
    exact ⟨row.1, List.mem_keys_of_mem hrow, rfl⟩
  · rintro ⟨k, hk, rfl⟩
    obtain ⟨v, hrow⟩ := List.exists_of_mem_keys hk
    exact List.mem_map.mpr ⟨⟨k, v⟩, hrow, rfl⟩

variable [DecidableEq K] [DecidableEq L] {k : K}

def Only (name : K → L) (t : Table K V) (k : K) : Prop :=
  ∀ other ∈ t, name other = name k → other = k

theorem lookup (h : Renamed name value t u) (honly : Only name t k) :
    u.lookup (name k) = (t.lookup k).map value := by
  have hrows : ∀ rows : List (Sigma fun _ : K => V),
      (∀ row ∈ rows, name row.1 = name k → row.1 = k) →
      List.dlookup (name k) (rows.map fun row => (⟨name row.1, value row.2⟩ : Sigma fun _ : L => W)) =
        (List.dlookup k rows).map value := by
    intro rows
    induction rows with
    | nil => exact fun _ => rfl
    | cons row rows ih =>
      intro hrows
      rw [List.map_cons]
      by_cases hk : k = row.1
      · subst hk
        rw [List.dlookup_cons_eq, List.dlookup_cons_eq]
        rfl
      · have hname : name k ≠ name row.1 :=
          fun heq => hk (hrows row List.mem_cons_self heq.symm).symm
        rw [List.dlookup_cons_ne _ _ hname, List.dlookup_cons_ne _ _ hk]
        exact ih fun other hother => hrows other (List.mem_cons_of_mem _ hother)
  rw [AList.lookup, h]
  exact hrows t.entries fun row hrow => honly row.1 (List.mem_keys_of_mem hrow)

theorem kerase_rows (h : Renamed name value t u) (honly : Only name t k) :
    u.entries.kerase (name k) =
      (t.entries.kerase k).map fun row => ⟨name row.1, value row.2⟩ := by
  have hrows : ∀ rows : List (Sigma fun _ : K => V),
      (∀ row ∈ rows, name row.1 = name k → row.1 = k) →
      (rows.map fun row => (⟨name row.1, value row.2⟩ : Sigma fun _ : L => W)).kerase (name k) =
        (rows.kerase k).map fun row => ⟨name row.1, value row.2⟩ := by
    intro rows
    induction rows with
    | nil => exact fun _ => rfl
    | cons row rows ih =>
      intro hrows
      rw [List.map_cons]
      by_cases hk : k = row.1
      · rw [List.kerase_cons_eq hk, List.kerase_cons_eq (congrArg name hk)]
      · have hname : name k ≠ name row.1 :=
          fun heq => hk (hrows row List.mem_cons_self heq.symm).symm
        rw [List.kerase_cons_ne hk, List.kerase_cons_ne hname, List.map_cons,
          ih fun other hother => hrows other (List.mem_cons_of_mem _ hother)]
  rw [h]
  exact hrows t.entries fun row hrow => honly row.1 (List.mem_keys_of_mem hrow)

theorem erase (h : Renamed name value t u) (honly : Only name t k) :
    Renamed name value (AList.erase k t) (AList.erase (name k) u) :=
  h.kerase_rows honly

theorem insert (h : Renamed name value t u) (honly : Only name t k) (v : V) :
    Renamed name value (AList.insert k v t) (AList.insert (name k) (value v) u) := by
  rw [Renamed, AList.entries_insert, AList.entries_insert, h.kerase_rows honly]
  rfl

end Renamed

end Table

end PluginRegistry.Lib
