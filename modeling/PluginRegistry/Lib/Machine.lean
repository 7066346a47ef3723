namespace PluginRegistry.Lib

/-- A deterministic transition system: what the environment chooses is part
of the event, so a run is a list of events. -/
structure Machine (S E : Type) where
  init : S
  step : S → E → S

namespace Machine

variable {S E : Type} (m : Machine S E)

def runFrom (s : S) (es : List E) : S :=
  es.foldl m.step s

def states (s : S) : List E → List S
  | [] => [s]
  | e :: es => s :: states (m.step s e) es

def steps (s : S) : List E → List (S × E)
  | [] => []
  | e :: es => (s, e) :: steps (m.step s e) es

def Reachable (s : S) : Prop :=
  ∃ es, m.runFrom m.init es = s

variable {m}

theorem Reachable.init : m.Reachable m.init :=
  ⟨[], rfl⟩

theorem Reachable.step {s : S} (h : m.Reachable s) (e : E) : m.Reachable (m.step s e) := by
  obtain ⟨es, rfl⟩ := h
  exact ⟨es ++ [e], by simp [runFrom, List.foldl_append]⟩

theorem Reachable.run {s : S} (h : m.Reachable s) (es : List E) : m.Reachable (m.runFrom s es) := by
  induction es generalizing s with
  | nil => exact h
  | cons e es ih => exact ih (h.step e)

/-- Every step of a run is taken in a reachable state. -/
theorem Reachable.of_mem_steps {s t : S} {e : E} {es : List E} (h : m.Reachable s)
    (ht : (t, e) ∈ m.steps s es) : m.Reachable t := by
  induction es generalizing s with
  | nil => cases ht
  | cons e' es ih =>
    rcases List.mem_cons.mp ht with heq | ht
    · cases heq
      exact h
    · exact ih (h.step e') ht

/-- An inductive invariant holds in every reachable state. -/
theorem Reachable.induct (inv : S → Prop) (h0 : inv m.init)
    (hstep : ∀ s e, inv s → inv (m.step s e)) {s : S} (h : m.Reachable s) : inv s := by
  obtain ⟨es, rfl⟩ := h
  have hrun : ∀ es s, inv s → inv (m.runFrom s es) := by
    intro es
    induction es with
    | nil => exact fun _ hs => hs
    | cons e es ih => exact fun s hs => ih _ (hstep s e hs)
  exact hrun es _ h0

/-- An invariant that also uses another one, already known to be reachable. -/
theorem Reachable.induct_with (known inv : S → Prop) (hk : ∀ {s}, m.Reachable s → known s)
    (h0 : inv m.init) (hstep : ∀ s e, known s → inv s → inv (m.step s e)) {s : S}
    (h : m.Reachable s) : inv s := by
  have hboth : m.Reachable s ∧ inv s := by
    obtain ⟨es, rfl⟩ := h
    have hrun : ∀ es s, m.Reachable s → inv s → m.Reachable (m.runFrom s es) ∧
        inv (m.runFrom s es) := by
      intro es
      induction es with
      | nil => exact fun s hr hs => ⟨hr, hs⟩
      | cons e es ih => exact fun s hr hs => ih _ (hr.step e) (hstep s e (hk hr) hs)
    exact hrun es _ .init h0
  exact hboth.2

theorem mem_of_mem_steps {s t : S} {e : E} {es : List E} (h : (t, e) ∈ m.steps s es) :
    e ∈ es := by
  induction es generalizing s with
  | nil => cases h
  | cons e' es ih =>
    rcases List.mem_cons.mp h with heq | h
    · cases heq
      exact List.mem_cons_self
    · exact List.mem_cons_of_mem _ (ih h)

theorem runFrom_append (s : S) (before after : List E) :
    m.runFrom s (before ++ after) = m.runFrom (m.runFrom s before) after :=
  List.foldl_append

/-- A step of a run divides its events. -/
theorem split_of_mem_steps {s t : S} {e : E} {es : List E} (h : (t, e) ∈ m.steps s es) :
    ∃ before after, es = before ++ e :: after ∧ t = m.runFrom s before := by
  induction es generalizing s with
  | nil => cases h
  | cons first es ih =>
    rcases List.mem_cons.mp h with heq | h
    · cases heq
      exact ⟨[], es, rfl, rfl⟩
    · obtain ⟨before, after, rfl, rfl⟩ := ih h
      exact ⟨first :: before, after, rfl, rfl⟩

theorem mem_steps_of_split (s : S) (before after : List E) (e : E) :
    (m.runFrom s before, e) ∈ m.steps s (before ++ e :: after) := by
  induction before generalizing s with
  | nil => exact List.mem_cons_self
  | cons first before ih => exact List.mem_cons_of_mem _ (ih (m.step s first))

theorem mem_states_head (s : S) (es : List E) : s ∈ m.states s es := by
  cases es <;> simp [states]

theorem run_mem_states (s : S) (es : List E) : m.runFrom s es ∈ m.states s es := by
  induction es generalizing s with
  | nil => simp [runFrom, states]
  | cons e es ih => exact List.mem_cons_of_mem _ (ih _)

/-- A run whose steps all meet a condition keeps what the condition protects. -/
theorem guarded_run (inv : S → Prop) (good : S → E → Prop)
    (hstep : ∀ s e, inv s → good s e → inv (m.step s e)) {s : S} {es : List E} (h0 : inv s)
    (hgood : ∀ x ∈ m.steps s es, good x.1 x.2) : ∀ t ∈ m.states s es, inv t := by
  induction es generalizing s with
  | nil => simpa [states] using h0
  | cons e es ih =>
    intro t ht
    rcases List.mem_cons.mp ht with rfl | ht
    · exact h0
    · refine ih (hstep s e h0 (hgood (s, e) List.mem_cons_self)) ?_ t ht
      exact fun x hx => hgood x (List.mem_cons_of_mem _ hx)

/-- Where a single step keeps a property exactly when it meets a condition, a
whole run keeps it exactly when all its steps do. -/
theorem run_iff (inv safe : S → Prop) (good : S → E → Prop)
    (hinv : ∀ s e, inv s → inv (m.step s e))
    (hstep : ∀ s e, inv s → safe s → (safe (m.step s e) ↔ good s e)) {s : S} {es : List E}
    (h0 : inv s) (hs : safe s) :
    (∀ t ∈ m.states s es, safe t) ↔ ∀ x ∈ m.steps s es, good x.1 x.2 := by
  induction es generalizing s with
  | nil => simpa [states, steps] using hs
  | cons e es ih =>
    simp only [states, steps, List.forall_mem_cons]
    constructor
    · rintro ⟨_, ht⟩
      have hn : safe (m.step s e) := ht _ (mem_states_head _ _)
      exact ⟨(hstep s e h0 hs).mp hn, (ih (hinv s e h0) hn).mp ht⟩
    · rintro ⟨hg, hgs⟩
      exact ⟨hs, (ih (hinv s e h0) ((hstep s e h0 hs).mpr hg)).mpr hgs⟩

/-- A run whose steps all meet a condition on what came before keeps an
invariant that also speaks of what came before. -/
theorem history_run (inv : List (S × E) → S → Prop) (good : List (S × E) → S → E → Prop)
    (hstep : ∀ past s e, inv past s → good past s e → inv (past ++ [(s, e)]) (m.step s e))
    {s : S} {es : List E} {past : List (S × E)} (h0 : inv past s)
    (hgood : ∀ before x after, m.steps s es = before ++ x :: after →
      good (past ++ before) x.1 x.2) :
    (∀ t ∈ m.states s es, ∃ past, inv past t) ∧
      ∀ x ∈ m.steps s es, ∃ past, inv past x.1 ∧ good past x.1 x.2 := by
  induction es generalizing s past with
  | nil =>
    refine ⟨fun t ht => ⟨past, ?_⟩, fun x hx => by cases hx⟩
    simpa [List.mem_singleton.mp ht] using h0
  | cons e es ih =>
    have hfirst : good past s e := by
      simpa using hgood [] (s, e) (m.steps (m.step s e) es) rfl
    obtain ⟨hstates, hsteps⟩ := ih (hstep past s e h0 hfirst) fun before x after heq => by
      have hlater := hgood ((s, e) :: before) x after (by rw [steps, heq]; rfl)
      simpa using hlater
    constructor
    · intro t ht
      rcases List.mem_cons.mp ht with rfl | ht
      · exact ⟨past, h0⟩
      · exact hstates t ht
    · intro x hx
      rcases List.mem_cons.mp hx with rfl | hx
      · exact ⟨past, h0, hfirst⟩
      · exact hsteps x hx

end Machine

end PluginRegistry.Lib
