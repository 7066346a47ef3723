import PluginRegistry.Lib.Session

namespace PluginRegistry.Lib

structure Probe (ε : Type) where
  first : ε
  second : ε
  distinct : first ≠ second

namespace Work

variable {ε D X α : Type} [DecidableEq ε]

def raises (w : Work ε D X α) (db : D) (x : X) (e : ε) : Bool :=
  match (w.perform db x).outcome with
  | .ok _ => false
  | .error e' => e' = e

/-- What a program has committed when it makes a call, if it does: it then ends with
whatever error that call raises. -/
def committedAt (probe : Probe ε) (w : ε → Work ε D X α) (db : D) (x : X) : Option D :=
  if (w probe.first).raises db x probe.first && (w probe.second).raises db x probe.second then
    some ((w probe.first).perform db x).db
  else none

variable {probe : Probe ε} {w : ε → Work ε D X α} {db : D} {x : X}

theorem raises_of_error {w : Work ε D X α} {e : ε} {t : Session D X}
    (h : w.run (Session.start db x) = .error e t) : w.raises db x e = true := by
  rw [raises, perform_of_error h]
  exact decide_eq_true rfl

theorem raises_unique {w : Work ε D X α} {e e' : ε} (h : w.raises db x e = true)
    (h' : w.raises db x e' = true) : e = e' := by
  unfold raises at h h'
  cases hout : (w.perform db x).outcome with
  | ok a =>
    rw [hout] at h
    cases h
  | error raised =>
    rw [hout] at h h'
    exact (of_decide_eq_true h).symm.trans (of_decide_eq_true h')

theorem committedAt_of_error {s : ε → Session D X}
    (h : ∀ e, e = probe.first ∨ e = probe.second →
      (w e).run (Session.start db x) = .error e (s e)) :
    committedAt probe w db x = some (s probe.first).committed := by
  have hfirst := h _ (.inl rfl)
  have hsecond := h _ (.inr rfl)
  rw [committedAt, raises_of_error hfirst, raises_of_error hsecond, perform_of_error hfirst]
  rfl

/-- A program that runs alike whatever the error never makes the call. -/
theorem committedAt_of_eq
    (h : (w probe.first).run (Session.start db x) = (w probe.second).run (Session.start db x)) :
    committedAt probe w db x = none := by
  unfold committedAt
  split
  · rename_i hboth
    obtain ⟨hfirst, hsecond⟩ := Bool.and_eq_true_iff.mp hboth
    have hsame : (w probe.first).raises db x probe.second =
        (w probe.second).raises db x probe.second := by
      simp only [raises, perform, h]
    exact absurd (raises_unique hfirst (hsame.trans hsecond)) probe.distinct
  · rfl

end Work

/-- A search whose only hit is one element finds it wherever it stands. -/
theorem findSome?_of_only {A B : Type} {f : A → Option B} {a : A} {b : B} (ha : f a = some b)
    (hothers : ∀ c, c ≠ a → f c = none) {l : List A} (hl : a ∈ l) : l.findSome? f = some b := by
  induction l with
  | nil => cases hl
  | cons c l ih =>
    by_cases hc : c = a
    · rw [List.findSome?_cons, hc, ha]
    · rw [List.findSome?_cons, hothers c hc]
      exact ih ((List.mem_cons.mp hl).resolve_left (Ne.symm hc))

end PluginRegistry.Lib
