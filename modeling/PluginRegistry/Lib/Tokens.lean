import Mathlib.Data.List.AList
import Mathlib.Data.List.Perm.Basic
import PluginRegistry.Lib.Table

namespace PluginRegistry.Lib
open List (Perm)

section
variable {T K V : Type}

def Exchanges (before after old new : List T) : Prop :=
  ∃ rest, before.Perm (old ++ rest) ∧ after.Perm (new ++ rest)

namespace Exchanges

variable {before after old new : List T}

theorem refl (tokens : List T) : Exchanges tokens tokens [] [] :=
  ⟨tokens, .refl _, .refl _⟩

theorem of_eq (h : after = before) : Exchanges before after [] [] :=
  h ▸ refl after

/-- Nothing changes if the new tokens are the old ones. -/
theorem perm (h : Exchanges before after old old) : after.Perm before := by
  obtain ⟨rest, hbefore, hafter⟩ := h
  exact hafter.trans hbefore.symm

/-- Two places that change at once. -/
theorem append {before' after' old' new' : List T} (h : Exchanges before after old new)
    (h' : Exchanges before' after' old' new') :
    Exchanges (before ++ before') (after ++ after') (old ++ old') (new ++ new') := by
  obtain ⟨rest, hbefore, hafter⟩ := h
  obtain ⟨rest', hbefore', hafter'⟩ := h'
  have hswap : ∀ a b : List T, ((a ++ rest) ++ (b ++ rest')).Perm ((a ++ b) ++ (rest ++ rest')) := by
    intro a b
    rw [List.append_assoc, List.append_assoc]
    apply Perm.append_left
    rw [← List.append_assoc, ← List.append_assoc]
    exact (List.perm_append_comm).append_right _
  exact ⟨rest ++ rest', (hbefore.append hbefore').trans (hswap old old'),
    (hafter.append hafter').trans (hswap new new')⟩

/-- The tokens that stay are told apart from the old ones by a key. -/
theorem mem_after (h : Exchanges before after old new) {x : T} (hx : x ∈ after) :
    x ∈ new ∨ x ∈ before ∧ ∀ {A : Type} (key : T → A), (before.map key).Nodup →
      ∀ y ∈ old, key x ≠ key y := by
  obtain ⟨rest, hbefore, hafter⟩ := h
  rcases List.mem_append.mp (hafter.mem_iff.mp hx) with hx | hx
  · exact .inl hx
  · refine .inr ⟨hbefore.mem_iff.mpr (List.mem_append_right _ hx), ?_⟩
    intro A key hnodup y hy heq
    have hkeys := (hbefore.map key).nodup_iff.mp hnodup
    rw [List.map_append] at hkeys
    exact (List.nodup_append.mp hkeys).2.2 (key y) (List.mem_map_of_mem hy) (key x)
      (List.mem_map_of_mem hx) heq.symm

theorem mem_new (h : Exchanges before after old new) {x : T} (hx : x ∈ new) : x ∈ after := by
  obtain ⟨rest, -, hafter⟩ := h
  exact hafter.mem_iff.mpr (List.mem_append_left _ hx)

theorem mem_old (h : Exchanges before after old new) {x : T} (hx : x ∈ old) : x ∈ before := by
  obtain ⟨rest, hbefore, -⟩ := h
  exact hbefore.mem_iff.mpr (List.mem_append_left _ hx)

/-- A token that is not taken out stays. -/
theorem mem_stays (h : Exchanges before after old new) {x : T} (hx : x ∈ before)
    (hold : x ∉ old) : x ∈ after := by
  obtain ⟨rest, hbefore, hafter⟩ := h
  rcases List.mem_append.mp (hbefore.mem_iff.mp hx) with hx | hx
  · exact absurd hx hold
  · exact hafter.mem_iff.mpr (List.mem_append_right _ hx)

/-- Keys stay distinct if the new tokens bring the keys of the old ones. -/
theorem nodup {A : Type} (h : Exchanges before after old new) (key : T → A)
    (hkey : new.map key = old.map key) (hnodup : (before.map key).Nodup) :
    (after.map key).Nodup := by
  obtain ⟨rest, hbefore, hafter⟩ := h
  rw [(hafter.map key).nodup_iff, List.map_append, hkey, ← List.map_append]
  exact (hbefore.map key).nodup_iff.mp hnodup

end Exchanges

namespace Table

variable [DecidableEq K]

def tokens (t : Table K V) (f : K → V → Option T) : List T :=
  t.entries.filterMap fun e => f e.1 e.2

theorem mem_tokens {t : Table K V} {f : K → V → Option T} {x : T} :
    x ∈ t.tokens f ↔ ∃ k v, t.lookup k = some v ∧ f k v = some x := by
  rw [tokens, List.mem_filterMap]
  constructor
  · rintro ⟨⟨k, v⟩, hmem, hf⟩
    exact ⟨k, v, mem_entries.mp hmem, hf⟩
  · rintro ⟨k, v, hk, hf⟩
    exact ⟨⟨k, v⟩, mem_entries.mpr hk, hf⟩

theorem tokens_insert (t : Table K V) (k : K) (v : V) (f : K → V → Option T) :
    tokens (AList.insert k v t) f = (f k v).toList ++ tokens (AList.erase k t) f := by
  rw [tokens, AList.entries_insert, List.filterMap_cons]
  cases f k v <;> rfl

/-- The row of a key beside the others. -/
theorem tokens_perm (t : Table K V) (k : K) (f : K → V → Option T) :
    (t.tokens f).Perm
      (((t.lookup k).bind (f k)).toList ++ tokens (AList.erase k t) f) := by
  have hlist : ∀ l : List (Sigma fun _ : K => V),
      (l.filterMap fun e => f e.1 e.2).Perm
        (((l.dlookup k).bind (f k)).toList ++ (l.kerase k).filterMap fun e => f e.1 e.2) := by
    intro l
    induction l with
    | nil => exact .refl _
    | cons e rest ih =>
      obtain ⟨i, v⟩ := e
      by_cases hi : k = i
      · subst hi
        have hk : List.kerase k (⟨k, v⟩ :: rest) = rest :=
          List.kerase_cons_eq (s := (⟨k, v⟩ : Sigma fun _ : K => V)) rfl
        rw [hk, List.dlookup_cons_eq, Option.bind_some, List.filterMap_cons]
        cases f k v <;> exact .refl _
      · have hk : List.kerase k (⟨i, v⟩ :: rest) = (⟨i, v⟩ : Sigma fun _ : K => V) :: rest.kerase k :=
          List.kerase_cons_ne hi
        have hl : List.dlookup k (⟨i, v⟩ :: rest) = rest.dlookup k :=
          List.dlookup_cons_ne rest (⟨i, v⟩ : Sigma fun _ : K => V) hi
        rw [hk, hl, List.filterMap_cons, List.filterMap_cons]
        cases f i v with
        | none => exact ih
        | some x => exact (ih.cons x).trans List.perm_middle.symm
  exact hlist t.entries

/-- A write to one row exchanges what the row holds. -/
theorem exchanges_insert (t : Table K V) (k : K) (v : V) (f : K → V → Option T) :
    Exchanges (t.tokens f) (tokens (AList.insert k v t) f) ((t.lookup k).bind (f k)).toList
      (f k v).toList :=
  ⟨tokens (AList.erase k t) f, t.tokens_perm k f, .of_eq (t.tokens_insert k v f)⟩

theorem exchanges_erase (t : Table K V) (k : K) (f : K → V → Option T) :
    Exchanges (t.tokens f) (tokens (AList.erase k t) f) ((t.lookup k).bind (f k)).toList [] :=
  ⟨tokens (AList.erase k t) f, t.tokens_perm k f, .refl _⟩

end Table

theorem exchanges_concat (l : List V) (v : V) (f : V → T) :
    Exchanges (l.map f) ((l ++ [v]).map f) [] [f v] := by
  refine ⟨l.map f, .refl _, ?_⟩
  rw [List.map_append]
  exact List.perm_append_comm

theorem exchanges_tail (l : List V) (v : V) (f : V → T) :
    Exchanges ((v :: l).map f) (l.map f) [f v] [] :=
  ⟨l.map f, .refl _, .refl _⟩

end

end PluginRegistry.Lib
