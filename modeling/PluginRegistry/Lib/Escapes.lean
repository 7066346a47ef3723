import Mathlib.Data.List.Basic

namespace PluginRegistry.Lib

variable {ε α β : Type} {caught : ε → Bool}

def Escapes (caught : ε → Bool) (x : Except ε α) : Prop :=
  ∃ e, x = .error e ∧ caught e = false

theorem escapes_error {e : ε} :
    Escapes caught (.error e : Except ε α) ↔ caught e = false := by
  constructor
  · rintro ⟨e', he, hcaught⟩
    cases he
    exact hcaught
  · intro h
    exact ⟨e, rfl, h⟩

theorem not_escapes_ok {a : α} : ¬ Escapes caught (.ok a : Except ε α) := by
  rintro ⟨e, he, -⟩
  cases he

theorem not_escapes_pure {a : α} : ¬ Escapes caught (pure a : Except ε α) :=
  not_escapes_ok

/-- A sequence fails in its first part, or in the second after the first. -/
theorem escapes_bind {x : Except ε α} {f : α → Except ε β} :
    Escapes caught (x >>= f) ↔ Escapes caught x ∨ ∃ a, x = .ok a ∧ Escapes caught (f a) := by
  cases x with
  | error e =>
    have hfirst : (.error e >>= f : Except ε β) = .error e := rfl
    rw [hfirst, escapes_error, escapes_error]
    constructor
    · exact .inl
    · rintro (h | ⟨a, ha, -⟩)
      · exact h
      · cases ha
  | ok a =>
    have hfirst : (.ok a >>= f : Except ε β) = f a := rfl
    rw [hfirst]
    constructor
    · intro h
      exact .inr ⟨a, rfl, h⟩
    · rintro (h | ⟨b, hb, h⟩)
      · exact absurd h not_escapes_ok
      · cases hb
        exact h

/-- A computation behind a handler fails exactly with what the handler lets through. -/
theorem escapes_iff_handled {x y : Except ε α} {handler : ε → Except ε α}
    (hyes : ∀ e, caught e = true → ∃ a, handler e = .ok a)
    (hno : ∀ e, caught e = false → handler e = .error e)
    (hok : ∀ a, x = .ok a → ∃ b, y = .ok b) (herr : ∀ e, x = .error e → y = handler e) :
    (∃ e, y = .error e) ↔ Escapes caught x := by
  cases x with
  | ok a =>
    obtain ⟨b, rfl⟩ := hok a rfl
    constructor
    · rintro ⟨e, he⟩
      cases he
    · intro h
      exact absurd h not_escapes_ok
  | error e =>
    rw [herr e rfl, escapes_error]
    cases hcaught : caught e with
    | true =>
      obtain ⟨b, hb⟩ := hyes e hcaught
      rw [hb]
      constructor
      · rintro ⟨e', he⟩
        cases he
      · intro h
        cases h
    | false =>
      rw [hno e hcaught]
      exact ⟨fun _ => rfl, fun _ => ⟨e, rfl⟩⟩

/-- A loop fails where its first failing step does, if the steps fail in the same
way whatever came before them. -/
theorem foldlM_error_iff {f : β → α → Except ε β} {fails : α → Option ε}
    (hyes : ∀ s a e, fails a = some e → f s a = .error e)
    (hno : ∀ s a, fails a = none → ∃ t, f s a = .ok t) {as : List α} {s : β} {e : ε} :
    as.foldlM f s = .error e ↔ as.findSome? fails = some e := by
  induction as generalizing s with
  | nil =>
    constructor
    · intro h
      cases h
    · intro h
      cases h
  | cons a as ih =>
    rw [List.foldlM_cons]
    cases ha : fails a with
    | some e' =>
      rw [hyes s a e' ha, List.findSome?_cons_of_isSome (by rw [ha]; rfl), ha]
      change Except.error e' = _ ↔ _
      rw [Except.error.injEq, Option.some.injEq]
    | none =>
      obtain ⟨t, ht⟩ := hno s a ha
      rw [ht, List.findSome?_cons_of_isNone (by rw [ha]; rfl)]
      exact ih

end PluginRegistry.Lib
