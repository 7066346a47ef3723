import PluginRegistry.Lib.Machine

namespace PluginRegistry.Lib.Machine

variable {S E T : Type} (m : Machine S E)

def collect (f : S → E → List T) (s : S) (es : List E) : List T :=
  (m.steps s es).flatMap fun x => f x.1 x.2

variable {m}

@[simp] theorem collect_nil (f : S → E → List T) (s : S) : m.collect f s [] = [] := rfl

theorem collect_cons (f : S → E → List T) (s : S) (e : E) (es : List E) :
    m.collect f s (e :: es) = f s e ++ m.collect f (m.step s e) es := rfl

def IsFifo (m : Machine S E) (queue : S → List T) (enters leaves : S → E → List T) : Prop :=
  ∀ s e, queue s ++ enters s e = leaves s e ++ queue (m.step s e)

namespace IsFifo

variable {queue : S → List T} {enters leaves : S → E → List T}

/-- What is there and what enters leaves in the same order. -/
theorem run (h : m.IsFifo queue enters leaves) (s : S) (es : List E) :
    queue s ++ m.collect enters s es = m.collect leaves s es ++ queue (m.runFrom s es) := by
  induction es generalizing s with
  | nil => exact List.append_nil _
  | cons e es ih =>
    rw [collect_cons, collect_cons, ← List.append_assoc, h s e, List.append_assoc, ih,
      List.append_assoc]
    rfl

/-- What waits behind `n` others is the next to leave after these. -/
theorem leaves_at (h : m.IsFifo queue enters leaves) {s : S} {es : List E} {before after : List T}
    {x : T} (hqueue : queue s = before ++ x :: after)
    (hlong : before.length < (m.collect leaves s es).length) :
    (m.collect leaves s es)[before.length]? = some x := by
  have hrun := congrArg (·[before.length]?) (h.run s es)
  simp only [hqueue, List.append_assoc, List.getElem?_append_left hlong] at hrun
  rw [← hrun, List.getElem?_append_right (Nat.le_refl _), Nat.sub_self]
  rfl

end IsFifo

end PluginRegistry.Lib.Machine
