import PluginRegistry.Clients.PowSolver
import PluginRegistry.Proofs.PowCounters
import PluginRegistry.Proofs.Sha256Digest
import PluginRegistry.Proofs.StrandedScans

namespace PluginRegistry.Acprctl
open Lib

variable {task : PowTask} {s : Solver} {worker : Nat}

def PowTask.Solves (task : PowTask) (n : Nat) : Prop :=
  verifyPow task.challengeID task.salt (toString n) task.difficulty = true

def PowTask.Answer (task : PowTask) (nonce : String) : Prop :=
  ∃ n, nonce = toString n ∧ task.Solves n

namespace Solver

def Holds (s : Solver) (worker n : Nat) : Prop :=
  s.goroutines worker = .testing n ∨ s.goroutines worker = .sending n

def Found (s : Solver) : Prop :=
  s.result.isSome = true ∨ ∃ nonce, s.returned = some (.ok nonce)

structure Sound (task : PowTask) (s : Solver) : Prop where
  sends : ∀ worker n, s.goroutines worker = .sending n → task.Solves n
  result : ∀ nonce, s.result = some nonce → task.Answer nonce
  returned : ∀ nonce, s.returned = some (.ok nonce) → task.Answer nonce
  covered : ∀ n < s.counter, task.Solves n → s.Found ∨ ∃ worker, s.Holds worker n

theorem start_sound (task : PowTask) (workers : Nat) : (start workers).Sound task where
  sends := by
    intro worker n h
    simp only [start] at h
    split at h <;> cases h
  result := by
    intro nonce h
    cases h
  returned := by
    intro nonce h
    cases h
  covered := by
    intro n hn
    exact absurd hn (Nat.not_lt_zero n)

@[simp] theorem setGoroutine_goroutines (g : Goroutine) :
    (s.setGoroutine worker g).goroutines = Function.update s.goroutines worker g := rfl

@[simp] theorem setGoroutine_counter (g : Goroutine) :
    (s.setGoroutine worker g).counter = s.counter := rfl

@[simp] theorem setGoroutine_result (g : Goroutine) :
    (s.setGoroutine worker g).result = s.result := rfl

@[simp] theorem setGoroutine_done (g : Goroutine) :
    (s.setGoroutine worker g).done = s.done := rfl

@[simp] theorem setGoroutine_returned (g : Goroutine) :
    (s.setGoroutine worker g).returned = s.returned := rfl

theorem send_found (candidate : String) : (s.send candidate).Found :=
  .inl rfl

/-- A goroutine that lets go of a number leaves those of the others in hand. -/
theorem holds_other {g : Goroutine} {other n : Nat} (h : s.Holds other n) (hne : other ≠ worker) :
    (s.setGoroutine worker g).Holds other n := by
  unfold Holds
  rwa [setGoroutine_goroutines, Function.update_of_ne hne]

/-- A goroutine may put a number down once it is refused or a nonce is found. -/
theorem Sound.set {g : Goroutine} (h : s.Sound task) (hg : ∀ n, g = .sending n → task.Solves n)
    (hlet : ∀ n, s.Holds worker n → task.Solves n → s.Found ∨ g = .testing n ∨ g = .sending n) :
    (s.setGoroutine worker g).Sound task where
  sends := by
    intro other n hs
    rw [setGoroutine_goroutines, Function.update_apply] at hs
    split at hs
    · exact hg n hs
    · exact h.sends other n hs
  result := h.result
  returned := h.returned
  covered := by
    intro n hn hsolves
    rcases h.covered n hn hsolves with hfound | ⟨other, hother⟩
    · exact .inl hfound
    · by_cases hsame : other = worker
      · subst hsame
        rcases hlet n hother hsolves with hfound | hkept
        · exact .inl hfound
        · right
          refine ⟨other, ?_⟩
          unfold Holds
          rwa [setGoroutine_goroutines, Function.update_self]
      · exact .inr ⟨other, holds_other hother hsame⟩

/-- Drawing a number puts it into the goroutine's hand. -/
theorem Sound.draw (h : s.Sound task) (hg : s.goroutines worker = .counting)
    (hroom : s.counter + 1 < 2 ^ 64) :
    (s.draw.setGoroutine worker (.testing s.counter)).Sound task where
  sends := by
    intro other n hs
    change Function.update s.goroutines worker _ other = _ at hs
    rw [Function.update_apply] at hs
    split at hs
    · cases hs
    · exact h.sends other n hs
  result := h.result
  returned := h.returned
  covered := by
    intro n hn hsolves
    have hnext : s.draw.counter = s.counter + 1 := Nat.mod_eq_of_lt hroom
    rw [setGoroutine_counter, hnext] at hn
    by_cases hnew : n = s.counter
    · right
      refine ⟨worker, .inl ?_⟩
      rw [setGoroutine_goroutines, Function.update_self, hnew]
    · rcases h.covered n (by omega) hsolves with hfound | ⟨other, hother⟩
      · exact .inl hfound
      · right
        refine ⟨other, holds_other (s := s.draw) hother ?_⟩
        rintro rfl
        rcases hother with hother | hother
        · rw [hg] at hother
          cases hother
        · rw [hg] at hother
          cases hother

theorem send_result {candidate nonce : String} (h : (s.send candidate).result = some nonce) :
    s.result = some nonce ∨ nonce = candidate := by
  rw [send] at h
  cases hold : s.result with
  | some old =>
    rw [hold] at h
    exact .inl h
  | none =>
    rw [hold] at h
    exact .inr (Option.some.inj h).symm

theorem Sound.send {n : Nat} (h : s.Sound task) (hsolves : task.Solves n) :
    (s.send (toString n)).Sound task where
  sends := h.sends
  result := by
    intro nonce hr
    rcases send_result hr with hold | rfl
    · exact h.result nonce hold
    · exact ⟨n, rfl, hsolves⟩
  returned := h.returned
  covered := fun _ _ _ => .inl (send_found _)

/-- A goroutine that goes on loses no nonce that it has drawn, while the counter does not wrap. -/
theorem Sound.advance (h : s.Sound task) (hroom : s.counter + 1 < 2 ^ 64) (worker : Nat) :
    (s.advance task worker).Sound task := by
  unfold Solver.advance
  cases hg : s.goroutines worker with
  | polling =>
    refine h.set ?_ ?_
    · intro n hn
      split at hn <;> cases hn
    · rintro n (hn | hn)
      · rw [hg] at hn
        cases hn
      · rw [hg] at hn
        cases hn
  | counting => exact h.draw hg hroom
  | testing nonce =>
    refine h.set ?_ ?_
    · intro n hn
      split at hn
      · rename_i hvalid
        cases hn
        rwa [registerPOWValid_eq] at hvalid
      · cases hn
    · rintro n (hn | hn) hsolves
      · rw [hg] at hn
        cases hn
        have haccepted : verifyPow task.challengeID task.salt (toString nonce) task.difficulty =
            true := hsolves
        rw [registerPOWValid_eq, if_pos haccepted]
        exact .inr (.inr rfl)
      · rw [hg] at hn
        cases hn
  | sending nonce =>
    refine (h.send (h.sends worker nonce hg)).set ?_ fun _ _ _ => .inl (send_found _)
    intro n hn
    cases hn
  | stopped => exact h

theorem found_finish {answer : Except String String} (h : s.Found) (hr : s.returned = none) :
    (s.finish answer).Found := by
  rcases h with hresult | ⟨nonce, hnonce⟩
  · exact .inl hresult
  · rw [hr] at hnonce
    cases hnonce

theorem Sound.step (h : s.Sound task) (hroom : s.counter + 1 < 2 ^ 64) (e : SolverEvent) :
    (s.step task e).Sound task := by
  cases e with
  | step worker => exact h.advance hroom worker
  | deadline => exact ⟨h.sends, h.result, h.returned, h.covered⟩
  | receive =>
    unfold Solver.step
    cases hr : s.returned with
    | some answer => exact h
    | none =>
      cases hresult : s.result with
      | none => exact h
      | some nonce =>
        refine ⟨h.sends, ?_, ?_, fun _ _ _ => .inl (.inr ⟨nonce, rfl⟩)⟩
        · intro _ hc
          cases hc
        · intro nonce' hn
          cases hn
          exact h.result nonce hresult
  | giveUp =>
    unfold Solver.step
    dsimp only
    split
    · rename_i hready
      rw [Bool.and_eq_true, Option.isNone_iff_eq_none] at hready
      refine ⟨h.sends, h.result, ?_, ?_⟩
      · intro nonce hn
        cases hn
      · intro n hn hsolves
        rcases h.covered n hn hsolves with hfound | hheld
        · exact .inl (found_finish hfound hready.1)
        · exact .inr hheld
    · exact h

theorem step_counter (task : PowTask) (hroom : s.counter + 1 < 2 ^ 64) (e : SolverEvent) :
    s.counter ≤ (s.step task e).counter ∧ (s.step task e).counter ≤ s.counter + 1 := by
  cases e with
  | step worker =>
    unfold Solver.step Solver.advance
    dsimp only
    split
    · exact ⟨le_rfl, Nat.le_succ _⟩
    · change s.counter ≤ (s.counter + 1) % 2 ^ 64 ∧ (s.counter + 1) % 2 ^ 64 ≤ s.counter + 1
      rw [Nat.mod_eq_of_lt hroom]
      exact ⟨Nat.le_succ _, le_rfl⟩
    · exact ⟨le_rfl, Nat.le_succ _⟩
    · exact ⟨le_rfl, Nat.le_succ _⟩
    · exact ⟨le_rfl, Nat.le_succ _⟩
  | deadline => exact ⟨le_rfl, Nat.le_succ _⟩
  | receive =>
    unfold Solver.step
    dsimp only
    split <;> exact ⟨le_rfl, Nat.le_succ _⟩
  | giveUp =>
    unfold Solver.step
    dsimp only
    split <;> exact ⟨le_rfl, Nat.le_succ _⟩

/-- A run that is too short for the counter to wrap keeps the invariant. -/
theorem Sound.run (h : s.Sound task) (workers : Nat) {events : List SolverEvent}
    (hroom : s.counter + events.length < 2 ^ 64) :
    ((solveRegisterPOW task workers).runFrom s events).Sound task := by
  induction events generalizing s with
  | nil => exact h
  | cons e events ih =>
    rw [List.length_cons] at hroom
    have hone : s.counter + 1 < 2 ^ 64 := by omega
    have hnext : (s.step task e).counter + events.length < 2 ^ 64 := by
      have hcounter := (step_counter task hone e).2
      omega
    exact ih (h.step hone e) hnext

/-- A goroutine that has taken so many steps draws a number in every third one, and
stops only once a nonce is found. -/
def Paced (s : Solver) (worker steps : Nat) : Prop :=
  (s.done = true → s.Found) ∧
    match s.goroutines worker with
    | .polling => steps ≤ 3 * s.counter
    | .counting => steps ≤ 3 * s.counter + 1
    | .testing _ => steps + 1 ≤ 3 * s.counter
    | .sending _ => True
    | .stopped => s.Found

theorem Found.step (h : s.Found) (task : PowTask) (e : SolverEvent) : (s.step task e).Found := by
  cases e with
  | step worker =>
    unfold Solver.step Solver.advance
    dsimp only
    split
    · exact h
    · exact h
    · exact h
    · exact send_found _
    · exact h
  | deadline => exact h
  | receive =>
    unfold Solver.step
    dsimp only
    split
    · exact .inr ⟨_, rfl⟩
    · exact h
  | giveUp =>
    unfold Solver.step
    dsimp only
    split
    · rename_i hready
      rw [Bool.and_eq_true, Option.isNone_iff_eq_none] at hready
      exact found_finish h hready.1
    · exact h

/-- The context is done only after a nonce is found, unless the deadline has passed. -/
theorem done_step {e : SolverEvent} (he : e ≠ .deadline) (h : s.done = true → s.Found)
    (hd : (s.step task e).done = true) : (s.step task e).Found := by
  cases e with
  | step worker =>
    have hsame : (s.step task (.step worker)).done = s.done := by
      unfold Solver.step Solver.advance
      dsimp only
      split <;> rfl
    rw [hsame] at hd
    exact (h hd).step task _
  | deadline => exact absurd rfl he
  | receive =>
    unfold Solver.step at hd ⊢
    dsimp only at hd ⊢
    split at hd
    · exact .inr ⟨_, rfl⟩
    · exact h hd
  | giveUp =>
    unfold Solver.step at hd ⊢
    dsimp only at hd ⊢
    split
    · rename_i hready
      rw [Bool.and_eq_true, Option.isNone_iff_eq_none] at hready
      exact found_finish (h hready.2) hready.1
    · rename_i hno
      rw [if_neg hno] at hd
      exact h hd

/-- One action of the goroutine itself. -/
theorem Paced.advance {steps : Nat} (h : s.Paced worker steps) (hroom : s.counter + 1 < 2 ^ 64)
    (task : PowTask) : (s.step task (.step worker)).Paced worker (steps + 1) := by
  refine ⟨done_step (fun hc => by cases hc) h.1, ?_⟩
  obtain ⟨hdone, hpace⟩ := h
  cases hg : s.goroutines worker with
  | polling =>
    have hstep : s.step task (.step worker) =
        s.setGoroutine worker (if s.done then .stopped else .counting) := by
      simp only [Solver.step, Solver.advance, hg]
    rw [hg] at hpace
    rw [hstep, setGoroutine_goroutines, Function.update_self, setGoroutine_counter]
    cases hd : s.done with
    | true => exact hdone hd
    | false => exact Nat.succ_le_succ hpace
  | counting =>
    have hstep : s.step task (.step worker) = s.draw.setGoroutine worker (.testing s.counter) := by
      simp only [Solver.step, Solver.advance, hg]
    have hnext : s.draw.counter = s.counter + 1 := Nat.mod_eq_of_lt hroom
    rw [hg] at hpace
    rw [hstep, setGoroutine_goroutines, Function.update_self, setGoroutine_counter, hnext]
    dsimp only at hpace ⊢
    omega
  | testing nonce =>
    have hstep : s.step task (.step worker) = s.setGoroutine worker
        (if registerPOWValid task.challengeID task.salt (toString nonce) task.difficulty then
          .sending nonce
        else .polling) := by
      simp only [Solver.step, Solver.advance, hg]
    rw [hg] at hpace
    rw [hstep, setGoroutine_goroutines, Function.update_self, setGoroutine_counter]
    cases registerPOWValid task.challengeID task.salt (toString nonce) task.difficulty with
    | true => trivial
    | false => exact hpace
  | sending nonce =>
    have hstep : s.step task (.step worker) =
        (s.send (toString nonce)).setGoroutine worker .stopped := by
      simp only [Solver.step, Solver.advance, hg]
    rw [hstep, setGoroutine_goroutines, Function.update_self]
    exact send_found _
  | stopped =>
    have hstep : s.step task (.step worker) = s := by
      simp only [Solver.step, Solver.advance, hg]
    rw [hg] at hpace
    rw [hstep, hg]
    exact hpace

/-- What others do only moves the counter on. -/
theorem Paced.other {steps : Nat} {e : SolverEvent} (h : s.Paced worker steps)
    (hroom : s.counter + 1 < 2 ^ 64) (he : e ≠ .deadline) (hother : e ≠ .step worker)
    (task : PowTask) : (s.step task e).Paced worker steps := by
  refine ⟨done_step he h.1, ?_⟩
  have hcounter := (step_counter task hroom e).1
  have hsame : (s.step task e).goroutines worker = s.goroutines worker := by
    cases e with
    | step i =>
      have hne : worker ≠ i := fun hc => hother (congrArg SolverEvent.step hc.symm)
      unfold Solver.step Solver.advance
      dsimp only
      split
      · exact Function.update_of_ne hne _ _
      · exact Function.update_of_ne hne _ _
      · exact Function.update_of_ne hne _ _
      · exact Function.update_of_ne hne _ _
      · rfl
    | deadline => rfl
    | receive =>
      unfold Solver.step
      dsimp only
      split <;> rfl
    | giveUp =>
      unfold Solver.step
      dsimp only
      split <;> rfl
  obtain ⟨-, hpace⟩ := h
  rw [hsame]
  cases hg : s.goroutines worker with
  | polling =>
    rw [hg] at hpace
    dsimp only at hpace ⊢
    omega
  | counting =>
    rw [hg] at hpace
    dsimp only at hpace ⊢
    omega
  | testing nonce =>
    rw [hg] at hpace
    dsimp only at hpace ⊢
    omega
  | sending nonce => trivial
  | stopped =>
    rw [hg] at hpace
    exact Found.step hpace task e

theorem Paced.run {steps : Nat} (h : s.Paced worker steps) (task : PowTask) (workers : Nat)
    {events : List SolverEvent} (hroom : s.counter + events.length < 2 ^ 64)
    (htime : .deadline ∉ events) :
    ((solveRegisterPOW task workers).runFrom s events).Paced worker
      (steps + events.count (.step worker)) := by
  induction events generalizing s steps with
  | nil => exact h
  | cons e events ih =>
    rw [List.length_cons] at hroom
    rw [List.mem_cons, not_or] at htime
    have hone : s.counter + 1 < 2 ^ 64 := by omega
    have hnext : (s.step task e).counter + events.length < 2 ^ 64 := by
      have hcounter := (step_counter task hone e).2
      omega
    by_cases hself : e = .step worker
    · subst hself
      have hrest := ih (h.advance hone task) hnext htime.2
      rw [List.count_cons_self]
      rwa [Nat.add_assoc, Nat.add_comm 1] at hrest
    · have hrest := ih (h.other hone (Ne.symm htime.1) hself task) hnext htime.2
      rwa [List.count_cons_of_ne hself]

theorem start_paced {workers : Nat} (h : worker < max 1 workers) :
    (start workers).Paced worker 0 := by
  have hg : (start workers).goroutines worker = .polling := if_pos h
  refine ⟨?_, ?_⟩
  · intro hd
    cases hd
  · rw [hg]
    exact Nat.zero_le _

/-- Once a goroutine has gone far enough, an accepted number has been drawn. -/
theorem found_of_paced {n steps : Nat} (hsound : s.Sound task) (h : s.Paced worker steps)
    (hsolves : task.Solves n) (hfar : 3 * n + 4 < steps) (hidle : ∀ i m, ¬ s.Holds i m) :
    s.Found := by
  have hdrawn : n < s.counter → s.Found := by
    intro hn
    rcases hsound.covered n hn hsolves with hfound | ⟨i, hi⟩
    · exact hfound
    · exact absurd hi (hidle i n)
  obtain ⟨-, hpace⟩ := h
  cases hg : s.goroutines worker with
  | polling =>
    rw [hg] at hpace
    dsimp only at hpace
    exact hdrawn (by omega)
  | counting =>
    rw [hg] at hpace
    dsimp only at hpace
    exact hdrawn (by omega)
  | testing m => exact absurd (.inl hg) (hidle worker m)
  | sending m => exact absurd (.inr hg) (hidle worker m)
  | stopped =>
    rw [hg] at hpace
    exact hpace

end Solver

/-- The loop of the dashboard finds the first nonce that is good enough, within its turns. -/
theorem solveFrom_iff {digest : List UInt8 → List UInt8} {challengeId salt nonce : String}
    {difficulty : Int} {turns attempts : Nat} :
    Dashboard.solveFrom digest challengeId salt difficulty turns attempts = some nonce ↔
      ∃ n, attempts ≤ n ∧ n < attempts + turns ∧ nonce = toString n ∧
        difficulty ≤ zerosInFront (digest (utf8 (challengeId ++ ":" ++ salt ++ ":" ++
          toString n))) ∧
        ∀ m, attempts ≤ m → m < n → ¬ difficulty ≤ zerosInFront (digest (utf8 (challengeId ++
          ":" ++ salt ++ ":" ++ toString m))) := by
  induction turns generalizing attempts with
  | zero =>
    constructor
    · intro h
      cases h
    · rintro ⟨n, hlow, hhigh, -⟩
      omega
  | succ turns ih =>
    rw [Dashboard.solveFrom, dashboard_leadingZeroBits_eq]
    split
    · rename_i hfirst
      constructor
      · intro h
        cases h
        exact ⟨attempts, le_rfl, by omega, rfl, hfirst, fun m hlow hhigh => by omega⟩
      · rintro ⟨n, hlow, -, rfl, -, hleast⟩
        by_cases hn : attempts = n
        · rw [hn]
        · exact absurd hfirst (hleast attempts le_rfl (by omega))
    · rename_i hfirst
      rw [ih]
      constructor
      · rintro ⟨n, hlow, hhigh, hnonce, hn, hleast⟩
        refine ⟨n, by omega, by omega, hnonce, hn, fun m hm hmn => ?_⟩
        by_cases hm' : m = attempts
        · rwa [hm']
        · exact hleast m (by omega) hmn
      · rintro ⟨n, hlow, hhigh, hnonce, hn, hleast⟩
        have hne : n ≠ attempts := by
          rintro rfl
          exact hfirst hn
        exact ⟨n, by omega, by omega, hnonce, hn, fun m hm hmn => hleast m (by omega) hmn⟩

/-- The hashes that the dashboard may find: WebCrypto's, or its own where there is none. -/
inductive DashboardHash : (List UInt8 → List UInt8) → Prop
  | webCrypto : DashboardHash sha256
  | fallback : DashboardHash Dashboard.sha256Fallback

def PowTask.Short (task : PowTask) (turns : Nat) : Prop :=
  ∀ n < turns, 8 * (shaPad (utf8 (task.challengeID ++ ":" ++ task.salt ++ ":" ++
    toString n))).length < 2 ^ 31

theorem dashboard_solves {digest : List UInt8 → List UInt8} (h : DashboardHash digest)
    {turns n : Nat} (hshort : task.Short turns) (hn : n < turns) :
    task.difficulty ≤ zerosInFront (digest (utf8 (task.challengeID ++ ":" ++ task.salt ++ ":" ++
      toString n))) ↔ task.Solves n := by
  have hhash : digest (utf8 (task.challengeID ++ ":" ++ task.salt ++ ":" ++ toString n)) =
      sha256 (utf8 (task.challengeID ++ ":" ++ task.salt ++ ":" ++ toString n)) := by
    cases h with
    | webCrypto => rfl
    | fallback => exact sha256Fallback_eq (hshort n hn)
  rw [hhash, PowTask.Solves, verifyPow, decide_eq_true_eq, leadingZeroBits_eq]

def PowTask.Taken (task : PowTask) (nonce : String) : Prop :=
  ∀ (payload : Challenge) (now : Time), payload.salt = task.salt →
    payload.difficulty = task.difficulty →
      payload.accepts task.challengeID nonce now = decide (now ≤ payload.expiresAt)

theorem PowTask.Answer.taken {nonce : String} (h : task.Answer nonce) : task.Taken nonce := by
  rintro payload now hsalt hdifficulty
  obtain ⟨n, rfl, hsolves⟩ := h
  have haccepted : verifyPow task.challengeID payload.salt (toString n) payload.difficulty =
      true := by
    rw [hsalt, hdifficulty]
    exact hsolves
  rw [Challenge.accepts, haccepted, Bool.and_true]
  by_cases hlate : payload.expiresAt < now
  · simp [hlate, not_le.mpr hlate]
  · simp [hlate, not_lt.mp hlate]

/-- Whatever the goroutines do, the nonce that comes out is one that the server takes,
and no accepted number is passed over. The dashboard finds the first one. -/
theorem solvers_are_taken (task : PowTask) (workers : Nat) (events : List SolverEvent)
    (hlength : events.length < 2 ^ 64) :
    let s := (solveRegisterPOW task workers).runFrom (.start workers) events
    (∀ nonce, s.returned = some (.ok nonce) → task.Taken nonce) ∧
      (∀ n worker, task.Solves n → .deadline ∉ events → worker < max 1 workers →
        3 * n + 4 < events.count (.step worker) → (∀ i m, ¬ s.Holds i m) → s.Found) ∧
      ∀ digest turns nonce, DashboardHash digest → task.Short turns →
        (Dashboard.solveRegistrationPow digest task.challengeID task.salt task.difficulty turns =
            some nonce ↔
          ∃ n < turns, nonce = toString n ∧ task.Solves n ∧ ∀ m < n, ¬ task.Solves m) := by
  have hroom : (Solver.start workers).counter + events.length < 2 ^ 64 := by
    change 0 + events.length < 2 ^ 64
    omega
  have hsound := (Solver.start_sound task workers).run workers hroom
  refine ⟨fun nonce hnonce => (hsound.returned nonce hnonce).taken, ?_, ?_⟩
  · intro n worker hsolves htime hworker hfar hidle
    have hpaced := (Solver.start_paced hworker).run task workers hroom htime
    rw [Nat.zero_add] at hpaced
    exact Solver.found_of_paced hsound hpaced hsolves hfar hidle
  · intro digest turns nonce hdigest hshort
    rw [Dashboard.solveRegistrationPow, solveFrom_iff]
    constructor
    · rintro ⟨n, -, hn, hnonce, hzeros, hleast⟩
      have hn : n < turns := by omega
      refine ⟨n, hn, hnonce, (dashboard_solves hdigest hshort hn).mp hzeros, fun m hm hsolves => ?_⟩
      exact hleast m (Nat.zero_le _) hm ((dashboard_solves hdigest hshort (by omega)).mpr hsolves)
    · rintro ⟨n, hn, hnonce, hsolves, hleast⟩
      refine ⟨n, Nat.zero_le _, by omega, hnonce, (dashboard_solves hdigest hshort hn).mpr hsolves,
        fun m _ hm hzeros => ?_⟩
      exact hleast m hm ((dashboard_solves hdigest hshort (by omega)).mp hzeros)

def easyTask : PowTask := ⟨"c1", "5b", 2⟩

def easyEvents : List SolverEvent :=
  List.replicate 2 (.step 1) ++ List.replicate 12 (.step 0) ++ [.receive]

theorem solvers_are_taken_easy :
    ((solveRegisterPOW easyTask 2).runFrom (.start 2) easyEvents).returned = some (.ok "2") ∧
      easyTask.Taken "2" ∧
        Dashboard.solveRegistrationPow sha256 "c1" "5b" 2 3 = some "2" := by
  obtain ⟨hsafe, -, hdashboard⟩ := solvers_are_taken easyTask 2 easyEvents (by decide)
  have hreturned : ((solveRegisterPOW easyTask 2).runFrom (.start 2) easyEvents).returned =
      some (.ok "2") := by
    have hcheck : ((solveRegisterPOW easyTask 2).runFrom (.start 2) easyEvents).returned.any
        (fun answer => answer.toOption == some "2") = true := by decide +kernel
    cases hr : ((solveRegisterPOW easyTask 2).runFrom (.start 2) easyEvents).returned with
    | none =>
      rw [hr] at hcheck
      cases hcheck
    | some answer =>
      rw [hr] at hcheck
      cases answer with
      | ok nonce =>
        have hnonce : some nonce = some "2" := eq_of_beq hcheck
        cases hnonce
        rfl
      | error e => cases hcheck
  refine ⟨hreturned, hsafe "2" hreturned, (hdashboard sha256 3 "2" .webCrypto ?_).mpr ?_⟩
  · intro n hn
    obtain rfl | rfl | rfl : n = 0 ∨ n = 1 ∨ n = 2 := by omega
    · decide +kernel
    · decide +kernel
    · decide +kernel
  · refine ⟨2, by decide, rfl, ?_, ?_⟩
    · unfold PowTask.Solves
      decide +kernel
    · intro m hm
      unfold PowTask.Solves
      obtain rfl | rfl : m = 0 ∨ m = 1 := by omega
      · decide +kernel
      · decide +kernel

end PluginRegistry.Acprctl
