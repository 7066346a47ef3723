import PluginRegistry.Lib.Machine

namespace PluginRegistry.Lib.Machine

variable {S E : Type} {m : Machine S E}

/-- What comes before a step is the history of a shorter run. -/
theorem steps_split {s t : S} {e : E} {es : List E} {before after : List (S × E)}
    (h : m.steps s es = before ++ (t, e) :: after) :
    ∃ first rest, es = first ++ e :: rest ∧ before = m.steps s first ∧ t = m.runFrom s first := by
  induction before generalizing s es with
  | nil =>
    cases es with
    | nil => cases h
    | cons e' es =>
      obtain ⟨hhead, -⟩ := List.cons.inj h
      obtain ⟨rfl, rfl⟩ := Prod.mk.inj hhead
      exact ⟨[], es, rfl, rfl, rfl⟩
  | cons x before ih =>
    cases es with
    | nil => cases h
    | cons e' es =>
      obtain ⟨rfl, hrest⟩ := List.cons.inj h
      obtain ⟨first, rest, rfl, rfl, rfl⟩ := ih hrest
      exact ⟨e' :: first, rest, rfl, rfl, rfl⟩

/-- An invariant that the steps keep which the guard allows. -/
theorem history_guarded (guard : S → E → Prop) (inv : List (S × E) → S → Prop)
    (hstep : ∀ past s e, guard s e → inv past s → inv (past ++ [(s, e)]) (m.step s e))
    {past : List (S × E)} {s : S} (h : inv past s) {es : List E}
    (hguard : ∀ x ∈ m.steps s es, guard x.1 x.2) :
    inv (past ++ m.steps s es) (m.runFrom s es) := by
  induction es generalizing past s with
  | nil => simpa [steps, runFrom] using h
  | cons e es ih =>
    obtain ⟨he, hes⟩ := List.forall_mem_cons.mp hguard
    have hrest := ih (hstep past s e he h) hes
    rwa [List.append_assoc] at hrest

theorem history_guarded_at (guard : S → E → Prop) (inv : List (S × E) → S → Prop)
    (hstep : ∀ past s e, guard s e → inv past s → inv (past ++ [(s, e)]) (m.step s e))
    (h : inv [] m.init) {es : List E} (hguard : ∀ x ∈ m.steps m.init es, guard x.1 x.2)
    {before after : List (S × E)} {t : S} {e : E}
    (hsplit : m.steps m.init es = before ++ (t, e) :: after) : inv before t := by
  obtain ⟨first, rest, -, rfl, rfl⟩ := steps_split hsplit
  apply history_guarded guard inv hstep h
  intro x hx
  apply hguard
  rw [hsplit]
  exact List.mem_append_left _ hx

end PluginRegistry.Lib.Machine
