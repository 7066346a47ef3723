namespace PluginRegistry.Lib

/-- What a database refuses to store, and the two errors a session reports:
for a refused flush, and for work in a session nobody has rolled back. -/
class Schema (ε D : Type) where
  admits : D → Prop
  decidable : DecidablePred admits
  refused : ε
  inactive : ε

instance {ε D : Type} [s : Schema ε D] : DecidablePred (Schema.admits ε (D := D)) :=
  s.decidable

/-- One session: the rows as it sees them, the rows other sessions see, the
effects no rollback undoes, whether a flush failed, and whether the database
ever refused one. -/
structure Session (D X : Type) where
  pending : D
  committed : D
  outside : X
  broken : Bool
  rejected : Bool

abbrev Work (ε D X : Type) := EStateM ε (Session D X)

namespace Work

variable {ε D X α : Type} [Schema ε D]

def flush : Work ε D X Unit := fun s =>
  if s.broken then .error (Schema.inactive D) s
  else if Schema.admits ε s.pending then .ok () s
  else .error (Schema.refused D) { s with broken := true, rejected := true }

def commit : Work ε D X Unit := do
  flush
  modify fun s => { s with committed := s.pending }

def query (f : D → α) : Work ε D X α := do
  flush
  let s ← get
  return f s.pending

def change (g : D → D) : Work ε D X Unit :=
  modify fun s => { s with pending := g s.pending }

def emit (g : X → X) : Work ε D X Unit :=
  modify fun s => { s with outside := g s.outside }

def when (c : Prop) [Decidable c] (w : Work ε D X Unit) : Work ε D X Unit :=
  if c then w else pure ()

def refuse (c : Prop) [Decidable c] (e : ε) : Work ε D X Unit :=
  when c (throw e)

def raiseAny (fault : Option ε) : Work ε D X Unit :=
  match fault with
  | none => pure ()
  | some e => throw e

def lift (x : Except ε α) : Work ε D X α := fun s =>
  match x with
  | .ok a => .ok a s
  | .error e => .error e s

end Work

def Session.start {D X : Type} (db : D) (x : X) : Session D X :=
  ⟨db, db, x, false, false⟩

def Session.refused {D X : Type} (wanted db : D) (x : X) : Session D X :=
  ⟨wanted, db, x, true, true⟩

structure Report (ε D X α : Type) where
  db : D
  outside : X
  rejected : Bool
  outcome : Except ε α

def Work.perform {ε D X α : Type} (w : Work ε D X α) (db : D) (x : X) : Report ε D X α :=
  match w.run (Session.start db x) with
  | .ok a s => ⟨s.committed, s.outside, s.rejected, .ok a⟩
  | .error e s => ⟨s.committed, s.outside, s.rejected, .error e⟩

def Work.after {ε D X α : Type} (w : Work ε D X α) (s : Session D X) : Session D X :=
  match w.run s with
  | .ok _ s' => s'
  | .error _ s' => s'

namespace Work

variable {ε D X α β : Type}

theorem perform_db (w : Work ε D X α) (db : D) (x : X) :
    (w.perform db x).db = (w.after (Session.start db x)).committed := by
  unfold perform after
  cases w.run (Session.start db x) <;> rfl

theorem perform_outside (w : Work ε D X α) (db : D) (x : X) :
    (w.perform db x).outside = (w.after (Session.start db x)).outside := by
  unfold perform after
  cases w.run (Session.start db x) <;> rfl

theorem perform_rejected (w : Work ε D X α) (db : D) (x : X) :
    (w.perform db x).rejected = (w.after (Session.start db x)).rejected := by
  unfold perform after
  cases w.run (Session.start db x) <;> rfl

theorem perform_of_ok {w : Work ε D X α} {db : D} {x : X} {a : α} {t : Session D X}
    (h : w.run (Session.start db x) = .ok a t) :
    w.perform db x = ⟨t.committed, t.outside, t.rejected, .ok a⟩ := by
  unfold perform
  rw [h]

theorem perform_of_error {w : Work ε D X α} {db : D} {x : X} {e : ε} {t : Session D X}
    (h : w.run (Session.start db x) = .error e t) :
    w.perform db x = ⟨t.committed, t.outside, t.rejected, .error e⟩ := by
  unfold perform
  rw [h]

theorem after_of_run {w : Work ε D X α} {s s' : Session D X}
    (h : (∃ a, w.run s = .ok a s') ∨ ∃ e, w.run s = .error e s') : w.after s = s' := by
  unfold after
  rcases h with ⟨a, ha⟩ | ⟨e, he⟩
  · rw [ha]
  · rw [he]

theorem bind_run (a : Work ε D X α) (f : α → Work ε D X β) (s : Session D X) :
    (a >>= f).run s = match a.run s with
      | .ok v s' => (f v).run s'
      | .error e s' => .error e s' := by
  change EStateM.bind a f s = _
  unfold EStateM.bind EStateM.run
  cases a s <;> rfl

/-- A sequence that returns has returned from both of its parts. -/
theorem bind_ok {a : Work ε D X α} {f : α → Work ε D X β} {s s' : Session D X} {b : β}
    (h : (a >>= f).run s = .ok b s') :
    ∃ v t, a.run s = .ok v t ∧ (f v).run t = .ok b s' := by
  rw [bind_run] at h
  cases ha : a.run s with
  | ok v t =>
    rw [ha] at h
    exact ⟨v, t, rfl, h⟩
  | error e t =>
    rw [ha] at h
    cases h

theorem pure_run (v : α) (s : Session D X) : (pure v : Work ε D X α).run s = .ok v s := rfl

theorem throw_run (e : ε) (s : Session D X) :
    (throw e : Work ε D X α).run s = .error e s := rfl

theorem discard_run (a : Work ε D X α) (s : Session D X) :
    (discard a).run s = match a.run s with
      | .ok _ s' => .ok () s'
      | .error e s' => .error e s' := by
  change EStateM.map (Function.const α PUnit.unit) a s = _
  unfold EStateM.map EStateM.run
  cases a s <;> rfl

theorem try_run (a : Work ε D X α) (h : ε → Work ε D X α) (s : Session D X) :
    (tryCatch a h).run s = match a.run s with
      | .ok v s' => .ok v s'
      | .error e s' => (h e).run s' := by
  change EStateM.tryCatch a h s = _
  unfold EStateM.tryCatch EStateM.run
  cases a s <;> rfl

theorem after_bind_ok {a : Work ε D X α} {f : α → Work ε D X β} {v : α} {s s' : Session D X}
    (h : a.run s = .ok v s') : (a >>= f).after s = (f v).after s' := by
  simp only [after, bind_run, h]

/-- A returned value changes nothing. -/
theorem after_bind_pure (a : Work ε D X α) (v : β) (s : Session D X) :
    (a >>= fun _ => pure v).after s = a.after s := by
  simp only [after, bind_run, pure_run]
  cases a.run s <;> rfl

theorem after_discard (a : Work ε D X α) (s : Session D X) : (discard a).after s = a.after s := by
  simp only [after, discard_run]
  cases a.run s <;> rfl

theorem ite_run (c : Prop) [Decidable c] (a b : Work ε D X α) (s : Session D X) :
    (if c then a else b).run s = if c then a.run s else b.run s := by
  split <;> rfl

theorem forM_nil_run (f : β → Work ε D X Unit) (s : Session D X) :
    (([] : List β).forM f).run s = .ok () s := rfl

theorem forM_cons_run (f : β → Work ε D X Unit) (b : β) (bs : List β) (s : Session D X) :
    ((b :: bs).forM f).run s = match (f b).run s with
      | .ok _ s' => (bs.forM f).run s'
      | .error e s' => .error e s' := by
  rw [List.forM_eq_forM, List.forM_cons, bind_run]
  cases (f b).run s <;> rfl

theorem when_run (c : Prop) [Decidable c] (w : Work ε D X Unit) (s : Session D X) :
    (when c w).run s = if c then w.run s else .ok () s :=
  ite_run c w (pure ()) s

theorem refuse_run (c : Prop) [Decidable c] (e : ε) (s : Session D X) :
    (refuse c e : Work ε D X Unit).run s = if c then .error e s else .ok () s :=
  ite_run c (throw e) (pure ()) s

theorem raiseAny_run (fault : Option ε) (s : Session D X) :
    (raiseAny fault : Work ε D X Unit).run s = match fault with
      | none => .ok () s
      | some e => .error e s := by
  cases fault <;> rfl

theorem lift_ok (a : α) (s : Session D X) :
    (lift (.ok a) : Work ε D X α).run s = .ok a s := rfl

theorem lift_bind (a : Except ε α) (f : α → Except ε β) :
    (lift (a >>= f) : Work ε D X β) = lift a >>= fun v => lift (f v) := by
  cases a <;> rfl

theorem of_lift_ok {r : Except ε α} {a : α} {s t : Session D X}
    (h : (lift r : Work ε D X α).run s = .ok a t) : r = .ok a ∧ t = s := by
  cases r with
  | ok b =>
    cases h
    exact ⟨rfl, rfl⟩
  | error e => cases h

theorem change_run (g : D → D) (s : Session D X) :
    (change g : Work ε D X Unit).run s = .ok () { s with pending := g s.pending } := rfl

theorem emit_run (g : X → X) (s : Session D X) :
    (emit g : Work ε D X Unit).run s = .ok () { s with outside := g s.outside } := rfl

variable [Schema ε D]

theorem flush_run {p c : D} {x : X} {r : Bool} (h : Schema.admits ε p) :
    (flush : Work ε D X Unit).run ⟨p, c, x, false, r⟩ = .ok () ⟨p, c, x, false, r⟩ := by
  simp [flush, EStateM.run, h]

theorem flush_refused {p c : D} {x : X} {r : Bool} (h : ¬ Schema.admits ε p) :
    (flush : Work ε D X Unit).run ⟨p, c, x, false, r⟩ =
      .error (Schema.refused D) (Session.refused p c x) := by
  simp [flush, EStateM.run, h, Session.refused]

theorem query_run {p c : D} {x : X} {r : Bool} (f : D → α) (h : Schema.admits ε p) :
    (query f : Work ε D X α).run ⟨p, c, x, false, r⟩ = .ok (f p) ⟨p, c, x, false, r⟩ := by
  rw [query, bind_run, flush_run h]
  rfl

theorem commit_run {p c : D} {x : X} {r : Bool} (h : Schema.admits ε p) :
    (commit : Work ε D X Unit).run ⟨p, c, x, false, r⟩ = .ok () ⟨p, p, x, false, r⟩ := by
  rw [commit, bind_run, flush_run h]
  rfl

theorem commit_refused {p c : D} {x : X} {r : Bool} (h : ¬ Schema.admits ε p) :
    (commit : Work ε D X Unit).run ⟨p, c, x, false, r⟩ =
      .error (Schema.refused D) (Session.refused p c x) := by
  rw [commit, bind_run, flush_refused h]

end Work

/-- A program that returns under one condition and raises otherwise, with what
holds of the session either way. -/
structure Work.Runs {ε D X α : Type} (w : Work ε D X α) (s : Session D X) (passes : Prop)
    (returned : α → Session D X → Prop) (raised : Session D X → Prop) : Prop where
  ok : passes → ∃ a t, w.run s = .ok a t ∧ returned a t
  error : ¬passes → ∃ e t, w.run s = .error e t ∧ raised t

namespace Work.Runs
variable {ε D X α β : Type} {w : Work ε D X α} {s : Session D X} {p p' : Prop}
  {q : α → Session D X → Prop} {q' : β → Session D X → Prop} {r : Session D X → Prop}

theorem congr (h : w.Runs s p q r) (hp : p ↔ p') : w.Runs s p' q r :=
  ⟨fun hpass => h.ok (hp.mpr hpass), fun hnot => h.error fun hpass => hnot (hp.mp hpass)⟩

theorem bind {f : α → Work ε D X β} (h : w.Runs s p q r)
    (hf : ∀ a t, q a t → (f a).Runs t p' q' r) : (w >>= f).Runs s (p ∧ p') q' r := by
  by_cases hp : p
  · obtain ⟨a, t, hrun, hreturned⟩ := h.ok hp
    have hnext := hf a t hreturned
    have hbind : (w >>= f).run s = (f a).run t := by rw [bind_run, hrun]
    refine ⟨fun hboth => ?_, fun hnot => ?_⟩
    · rw [hbind]
      exact hnext.ok hboth.2
    · rw [hbind]
      exact hnext.error fun hpass => hnot ⟨hp, hpass⟩
  · refine ⟨fun hboth => absurd hboth.1 hp, fun _ => ?_⟩
    obtain ⟨e, t, hrun, hraised⟩ := h.error hp
    refine ⟨e, t, ?_, hraised⟩
    rw [bind_run, hrun]

theorem pure {a : α} (hq : q a s) : (pure a : Work ε D X α).Runs s True q r :=
  ⟨fun _ => ⟨a, s, rfl, hq⟩, fun hnot => absurd trivial hnot⟩

/-- A step that returns for certain. -/
theorem step {f : α → Work ε D X β} {a : α} {t : Session D X} (hrun : w.run s = .ok a t)
    (hf : (f a).Runs t p q' r) : (w >>= f).Runs s p q' r := by
  have hbind : (w >>= f).run s = (f a).run t := by rw [bind_run, hrun]
  constructor
  · rw [hbind]
    exact hf.ok
  · rw [hbind]
    exact hf.error

/-- A step that may raise for a reason of its own. -/
theorem raising {f : Unit → Work ε D X β} (fault : Option ε) (hs : r s)
    (hf : (f ()).Runs s p q' r) : (raiseAny fault >>= f).Runs s (fault = none ∧ p) q' r := by
  refine bind (q := fun _ t => t = s) ?_ fun _ t ht => ht ▸ hf
  cases fault with
  | none => exact ⟨fun _ => ⟨(), s, rfl, rfl⟩, fun hnot => absurd rfl hnot⟩
  | some e => exact ⟨fun h => (by cases h), fun _ => ⟨e, s, rfl, hs⟩⟩

theorem refusing {f : Unit → Work ε D X β} (g : Prop) [Decidable g] (e : ε) (hs : r s)
    (hf : ¬g → (f ()).Runs s p q' r) : (refuse g e >>= f).Runs s (¬g ∧ p) q' r := by
  by_cases hg : g
  · refine ⟨fun hpass => absurd hg hpass.1, fun _ => ⟨e, s, ?_, hs⟩⟩
    rw [bind_run, refuse_run, if_pos hg]
  · have hrun : (refuse g e : Work ε D X Unit).run s = .ok () s := by rw [refuse_run, if_neg hg]
    exact congr (step hrun (hf hg)) ⟨fun hp => ⟨hg, hp⟩, fun hp => hp.2⟩

variable [Schema ε D] {b c : D} {x : X} {j : Bool}

/-- A flush, which the database may refuse. -/
theorem flushing {f : Unit → Work ε D X β} (hr : r (.refused b c x))
    (hf : Schema.admits ε b → (f ()).Runs ⟨b, c, x, false, j⟩ p q' r) :
    (flush >>= f).Runs ⟨b, c, x, false, j⟩ (Schema.admits ε b ∧ p) q' r := by
  by_cases hb : Schema.admits ε b
  · exact congr (step (flush_run hb) (hf hb)) ⟨fun hp => ⟨hb, hp⟩, fun hp => hp.2⟩
  · refine ⟨fun hpass => absurd hpass.1 hb, fun _ => ⟨Schema.refused D, _, ?_, hr⟩⟩
    rw [bind_run, flush_refused hb]

theorem committing {f : Unit → Work ε D X β} (hr : r (.refused b c x))
    (hf : Schema.admits ε b → (f ()).Runs ⟨b, b, x, false, j⟩ p q' r) :
    (commit >>= f).Runs ⟨b, c, x, false, j⟩ (Schema.admits ε b ∧ p) q' r := by
  by_cases hb : Schema.admits ε b
  · exact congr (step (commit_run hb) (hf hb)) ⟨fun hp => ⟨hb, hp⟩, fun hp => hp.2⟩
  · refine ⟨fun hpass => absurd hpass.1 hb, fun _ => ⟨Schema.refused D, _, ?_, hr⟩⟩
    rw [bind_run, commit_refused hb]

end Work.Runs

end PluginRegistry.Lib
