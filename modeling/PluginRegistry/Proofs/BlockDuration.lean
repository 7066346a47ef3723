import PluginRegistry.Proofs.Publishing

namespace PluginRegistry
open Lib

namespace RateLimiter

variable (limiter : RateLimiter)

theorem retryAfter_pos {states : RateLimitStates} {key : String} {now : Time} :
    0 < (limiter.retryAfter states key now).1 ↔
      ∃ state, states.lookup key = some state ∧ now < state.blockedUntil := by
  unfold retryAfter
  cases hs : states.lookup key with
  | none => simp
  | some state =>
    by_cases hblocked : now < state.blockedUntil
    · simp only [if_pos hblocked]
      constructor
      · exact fun _ => ⟨state, rfl, hblocked⟩
      · exact fun _ => by omega
    · simp only [if_neg hblocked, apply_ite Prod.fst, ite_self]
      constructor
      · intro h
        omega
      · rintro ⟨other, ho, hlt⟩
        obtain rfl := Option.some.inj ho
        exact absurd hlt hblocked

/-- A check only forgets a state whose block is over. -/
theorem lookup_retryAfter_of_blocked {states : RateLimitStates} {key k : String} {now : Time}
    {state : RateLimitState} (hs : states.lookup k = some state)
    (h : now < state.blockedUntil) :
    (limiter.retryAfter states key now).2.lookup k = some state := by
  unfold retryAfter
  cases hk : states.lookup key with
  | none => exact hs
  | some found =>
    dsimp only
    split
    · exact hs
    · rename_i hover
      split
      · have hne : k ≠ key := by
          intro heq
          rw [heq, hk] at hs
          obtain rfl := Option.some.inj hs
          exact hover h
        rw [Table.lookup_erase_eq, if_neg hne]
        exact hs
      · exact hs

def afterCalls (events : List TimedCall) : LimiterState :=
  limiter.calls.runFrom limiter.calls.init events

def retryAfterAt (w : LimiterState) (key : String) (now : Time) : Nat :=
  (limiter.retryAfter w.states key now).1

def Blocks (events : List TimedCall) (key : String) : Prop :=
  (∃ before elapsed, events = before ++ [⟨elapsed, .recordFailure key⟩]) ∧
    0 < limiter.retryAfterAt (limiter.afterCalls events) key (limiter.afterCalls events).clock

/-- Every block lasts as long as configured: until then `retry_after` stays positive
for the key, unless a success is recorded for it. -/
def KeepsBlocks (events : List TimedCall) : Prop :=
  ∀ blocking between after key, events = blocking ++ (between ++ after) →
    limiter.Blocks blocking key → (∀ e ∈ between, e.call ≠ .recordSuccess key) →
    ∀ now, (limiter.afterCalls (blocking ++ between)).clock ≤ now →
      now < (limiter.afterCalls blocking).clock + seconds limiter.blockSeconds →
      0 < limiter.retryAfterAt (limiter.afterCalls (blocking ++ between)) key now

end RateLimiter

/-- A failure is recorded for a key that is still blocked, but whose window is over,
and alone it imposes no block. -/
def TimedCall.liftsBlock (limiter : RateLimiter) (w : LimiterState) (e : TimedCall) : Bool :=
  match e.call with
  | .recordFailure key =>
    limiter.attempts != 1 &&
      (w.states.lookup key).any fun state =>
        limiter.expired state (w.clock + e.elapsed) && w.clock + e.elapsed < state.blockedUntil
  | _ => false

namespace LimiterState

variable {limiter : RateLimiter} {w : LimiterState} {key : String}

def Sound (limiter : RateLimiter) (w : LimiterState) : Prop :=
  ∀ key state, w.states.lookup key = some state →
    state.blockedUntil = 0 ∨ limiter.attempts ≤ state.attempts

def HeldUntil (key : String) (deadline : Time) (w : LimiterState) : Prop :=
  w.clock < deadline → ∃ state, w.states.lookup key = some state ∧ deadline ≤ state.blockedUntil

theorem current_sound (h : w.Sound limiter) (key : String) (now : Time) :
    (limiter.current w.states key now).blockedUntil = 0 ∨
      limiter.attempts ≤ (limiter.current w.states key now).attempts := by
  cases hopen : limiter.opens w.states key now with
  | true =>
    rw [limiter.current_of_opens hopen]
    exact Or.inl rfl
  | false => exact h key _ (limiter.current_of_not_opens hopen)

theorem sound_step (h : w.Sound limiter) (e : TimedCall) :
    (limiter.calls.step w e).Sound limiter := by
  obtain ⟨elapsed, call⟩ := e
  intro k state hs
  cases call with
  | retryAfter key => exact h k state (limiter.lookup_retryAfter hs)
  | recordFailure key =>
    simp only [RateLimiter.calls, RateLimiter.handle, RateLimiter.lookup_recordFailure] at hs
    split at hs
    · obtain rfl := Option.some.inj hs
      simp only [RateLimiter.countFailure]
      split
      · exact Or.inr ‹_›
      · rcases current_sound h key (w.clock + elapsed) with hzero | hmany
        · exact Or.inl hzero
        · omega
    · exact h k state hs
  | recordSuccess key =>
    simp only [RateLimiter.calls, RateLimiter.handle, RateLimiter.recordSuccess,
      Table.lookup_erase_eq] at hs
    split at hs
    · cases hs
    · exact h k state hs

theorem sound_of_reachable (h : limiter.calls.Reachable w) : w.Sound limiter :=
  h.induct (Sound limiter) (fun _ _ hs => by cases hs) fun _ e hw => sound_step hw e

/-- A failure after which its key is blocked has imposed the block itself. -/
theorem imposed_of_pos (h : w.Sound limiter) {now : Time}
    (hpos : 0 < (limiter.retryAfter (limiter.recordFailure w.states key now) key now).1) :
    limiter.attempts ≤ (limiter.current w.states key now).attempts + 1 := by
  obtain ⟨state, hs, hlt⟩ := limiter.retryAfter_pos.mp hpos
  rw [limiter.lookup_recordFailure, if_pos rfl] at hs
  obtain rfl := Option.some.inj hs
  simp only [RateLimiter.countFailure] at hlt
  split at hlt
  · assumption
  · rcases current_sound h key now with hzero | hmany
    · rw [hzero] at hlt
      exact absurd hlt (Nat.not_lt_zero _)
    · omega

theorem lt_blockedUntil (limiter : RateLimiter) (now : Time) :
    now < now + seconds limiter.blockSeconds :=
  Nat.lt_add_of_pos_right (Nat.mul_pos limiter.blockPos (by decide))

theorem pos_of_imposed {now : Time}
    (h : limiter.attempts ≤ (limiter.current w.states key now).attempts + 1) :
    0 < (limiter.retryAfter (limiter.recordFailure w.states key now) key now).1 := by
  refine limiter.retryAfter_pos.mpr
    ⟨_, (limiter.lookup_recordFailure w.states key key now).trans (if_pos rfl), ?_⟩
  simp only [RateLimiter.countFailure, if_pos h]
  exact lt_blockedUntil limiter now

/-- A failure that lifts no block leaves one that lasts as long as before. -/
theorem HeldUntil.failure {start now deadline : Time} {state : RateLimitState}
    (hs : w.states.lookup key = some state) (hd : deadline ≤ state.blockedUntil)
    (hblock : deadline = start + seconds limiter.blockSeconds) (hstart : start ≤ now)
    (hkeep : limiter.attempts = 1 ∨ limiter.expired state now = false) :
    deadline ≤ (limiter.countFailure (limiter.current w.states key now) now).blockedUntil := by
  simp only [RateLimiter.countFailure]
  split
  · rw [hblock]
    exact Nat.add_le_add_right hstart _
  · rename_i hfew
    rcases hkeep with hone | hopen
    · rw [hone] at hfew
      exact absurd (Nat.le_add_left 1 _) hfew
    · have hcurrent : limiter.current w.states key now = state := by
        simp [RateLimiter.current, hs, hopen]
      rw [hcurrent]
      exact hd

/-- A block stands to its deadline through every step that neither records a success for its
key nor lifts it. -/
theorem HeldUntil.step {start deadline : Time} {e : TimedCall} (h : w.HeldUntil key deadline)
    (hblock : deadline = start + seconds limiter.blockSeconds) (hstart : start ≤ w.clock)
    (hno : e.call ≠ .recordSuccess key) (hsafe : e.liftsBlock limiter w = false) :
    (limiter.calls.step w e).HeldUntil key deadline := by
  obtain ⟨elapsed, call⟩ := e
  intro hlt
  have hlater : w.clock ≤ w.clock + elapsed := Nat.le_add_right _ _
  obtain ⟨state, hs, hd⟩ := h (lt_of_le_of_lt hlater hlt)
  have hblocked : w.clock + elapsed < state.blockedUntil := lt_of_lt_of_le hlt hd
  cases call with
  | retryAfter k => exact ⟨state, limiter.lookup_retryAfter_of_blocked hs hblocked, hd⟩
  | recordFailure k =>
    simp only [RateLimiter.calls, RateLimiter.handle, RateLimiter.lookup_recordFailure]
    by_cases hk : key = k
    · subst hk
      rw [if_pos rfl]
      refine ⟨_, rfl, HeldUntil.failure hs hd hblock (hstart.trans hlater) ?_⟩
      unfold TimedCall.liftsBlock at hsafe
      dsimp only at hsafe
      rw [hs, Option.any_some, decide_eq_true hblocked, Bool.and_true,
        Bool.and_eq_false_iff] at hsafe
      exact hsafe.imp_left fun hone => by simpa using hone
    · rw [if_neg hk]
      exact ⟨state, hs, hd⟩
  | recordSuccess k =>
    simp only [RateLimiter.calls, RateLimiter.handle, RateLimiter.recordSuccess,
      Table.lookup_erase_eq]
    rw [if_neg fun heq => hno (by rw [heq])]
    exact ⟨state, hs, hd⟩

end LimiterState

namespace RateLimiter

variable {limiter : RateLimiter} {key : String}

theorem afterCalls_reachable (limiter : RateLimiter) (events : List TimedCall) :
    limiter.calls.Reachable (limiter.afterCalls events) :=
  Machine.Reachable.init.run events

theorem afterCalls_append (before after : List TimedCall) :
    limiter.afterCalls (before ++ after) =
      limiter.calls.runFrom (limiter.afterCalls before) after :=
  Machine.runFrom_append _ _ _

theorem afterCalls_failure (before : List TimedCall) (elapsed : Time) (key : String) :
    limiter.afterCalls (before ++ [⟨elapsed, .recordFailure key⟩]) =
      ⟨(limiter.afterCalls before).clock + elapsed,
        limiter.recordFailure (limiter.afterCalls before).states key
          ((limiter.afterCalls before).clock + elapsed)⟩ :=
  afterCalls_append _ _

theorem mem_steps_afterCalls (limiter : RateLimiter) (before after : List TimedCall)
    (e : TimedCall) : (limiter.afterCalls before, e) ∈
      limiter.calls.steps limiter.calls.init (before ++ e :: after) :=
  Machine.mem_steps_of_split _ _ _ _

theorem blocks_iff {before : List TimedCall} {elapsed : Time} :
    limiter.Blocks (before ++ [⟨elapsed, .recordFailure key⟩]) key ↔
      limiter.attempts ≤ (limiter.current (limiter.afterCalls before).states key
        ((limiter.afterCalls before).clock + elapsed)).attempts + 1 := by
  unfold Blocks retryAfterAt
  rw [afterCalls_failure]
  constructor
  · rintro ⟨_, hpos⟩
    exact LimiterState.imposed_of_pos
      (LimiterState.sound_of_reachable (afterCalls_reachable limiter before)) hpos
  · exact fun h => ⟨⟨before, elapsed, rfl⟩, LimiterState.pos_of_imposed h⟩

/-- The time until which a failure blocks its key. -/
theorem Blocks.lookup {blocking : List TimedCall} (h : limiter.Blocks blocking key) :
    ∃ state, (limiter.afterCalls blocking).states.lookup key = some state ∧
      state.blockedUntil = (limiter.afterCalls blocking).clock + seconds limiter.blockSeconds := by
  obtain ⟨⟨before, elapsed, rfl⟩, -⟩ := id h
  have himposed := blocks_iff.mp h
  rw [afterCalls_failure, limiter.lookup_recordFailure, if_pos rfl]
  exact ⟨_, rfl, if_pos himposed⟩

/-- A block on record was imposed by a failure, and the key has had no success since. -/
theorem blocked_earlier {events : List TimedCall} {state : RateLimitState}
    (hs : (limiter.afterCalls events).states.lookup key = some state)
    (hblocked : state.blockedUntil ≠ 0) :
    ∃ blocking between, events = blocking ++ between ∧ limiter.Blocks blocking key ∧
      (∀ e ∈ between, e.call ≠ .recordSuccess key) ∧
      state.blockedUntil =
        (limiter.afterCalls blocking).clock + seconds limiter.blockSeconds := by
  induction events using List.reverseRecOn generalizing state with
  | nil => cases hs
  | append_singleton events e ih =>
    have hkept : ∀ found : RateLimitState, e.call ≠ .recordSuccess key →
        (limiter.afterCalls events).states.lookup key = some found →
        found.blockedUntil = state.blockedUntil →
        ∃ blocking between, events ++ [e] = blocking ++ between ∧ limiter.Blocks blocking key ∧
          (∀ e ∈ between, e.call ≠ .recordSuccess key) ∧
          state.blockedUntil =
            (limiter.afterCalls blocking).clock + seconds limiter.blockSeconds := by
      intro found hno hfound heq
      rw [← heq] at hblocked ⊢
      obtain ⟨blocking, between, rfl, hblocks, hbetween, huntil⟩ := ih hfound hblocked
      refine ⟨blocking, between ++ [e], by simp, hblocks, ?_, huntil⟩
      intro other ho
      rcases List.mem_append.mp ho with ho | ho
      · exact hbetween other ho
      · rw [List.mem_singleton.mp ho]
        exact hno
    obtain ⟨elapsed, call⟩ := e
    cases call with
    | retryAfter k =>
      rw [afterCalls_append] at hs
      exact hkept state (by simp) (limiter.lookup_retryAfter hs) rfl
    | recordFailure k =>
      rw [afterCalls_failure, limiter.lookup_recordFailure] at hs
      by_cases hk : key = k
      · subst hk
        rw [if_pos rfl] at hs
        obtain rfl := Option.some.inj hs
        by_cases himposed : limiter.attempts ≤ (limiter.current (limiter.afterCalls events).states
            key ((limiter.afterCalls events).clock + elapsed)).attempts + 1
        · refine ⟨_, [], (List.append_nil _).symm, blocks_iff.mpr himposed, by simp, ?_⟩
          rw [afterCalls_failure]
          exact if_pos himposed
        · have huntil : (limiter.countFailure (limiter.current (limiter.afterCalls events).states
              key ((limiter.afterCalls events).clock + elapsed))
                ((limiter.afterCalls events).clock + elapsed)).blockedUntil = _ :=
            if_neg himposed
          cases hopen : limiter.opens (limiter.afterCalls events).states key
              ((limiter.afterCalls events).clock + elapsed) with
          | true =>
            rw [huntil, limiter.current_of_opens hopen] at hblocked
            exact absurd rfl hblocked
          | false =>
            exact hkept _ (by simp) (limiter.current_of_not_opens hopen) huntil.symm
      · rw [if_neg hk] at hs
        exact hkept state (by simp) hs rfl
    | recordSuccess k =>
      rw [afterCalls_append] at hs
      replace hs : (recordSuccess (limiter.afterCalls events).states k).lookup key = some state :=
        hs
      rw [recordSuccess, Table.lookup_erase_eq] at hs
      by_cases hk : key = k
      · rw [if_pos hk] at hs
        cases hs
      · rw [if_neg hk] at hs
        exact hkept state (by simpa using Ne.symm hk) hs rfl

/-- While no failure lifts a block, every block lasts. -/
theorem keeps_of_safe {events : List TimedCall}
    (h : ∀ s ∈ limiter.calls.steps limiter.calls.init events,
      s.2.liftsBlock limiter s.1 = false) : limiter.KeepsBlocks events := by
  rintro blocking between after key rfl hblocks hno now hclock hnow
  obtain ⟨state, hs, huntil⟩ := hblocks.lookup
  generalize hstart : (limiter.afterCalls blocking).clock = start at hnow huntil
  generalize hdeadline : start + seconds limiter.blockSeconds = deadline at hnow huntil
  have hgood : ∀ s ∈ limiter.calls.steps (limiter.afterCalls blocking) between,
      s.2.call ≠ .recordSuccess key ∧ s.2.liftsBlock limiter s.1 = false := by
    rintro ⟨w, e⟩ hmem
    refine ⟨hno e (Machine.mem_of_mem_steps hmem), h (w, e) ?_⟩
    obtain ⟨before, rest, rfl, rfl⟩ := Machine.split_of_mem_steps hmem
    rw [← afterCalls_append]
    simpa using mem_steps_afterCalls limiter (blocking ++ before) (rest ++ after) e
  have hrun := Machine.guarded_run
    (fun w : LimiterState => w.HeldUntil key deadline ∧ start ≤ w.clock)
    (fun w e => e.call ≠ .recordSuccess key ∧ e.liftsBlock limiter w = false)
    (fun w e hw he => ⟨hw.1.step hdeadline.symm hw.2 he.1 he.2,
      hw.2.trans (Nat.le_add_right _ _)⟩)
    ⟨fun _ => ⟨state, hs, huntil.ge⟩, hstart.ge⟩ hgood _ (Machine.run_mem_states _ _)
  rw [← afterCalls_append] at hrun
  obtain ⟨last, hl, hlast⟩ := hrun.1 (lt_of_le_of_lt hclock hnow)
  exact limiter.retryAfter_pos.mpr ⟨last, hl, lt_of_lt_of_le hnow hlast⟩

/-- A failure that lifts a block ends it before its time. -/
theorem safe_of_keeps {events : List TimedCall} (h : limiter.KeepsBlocks events) :
    ∀ s ∈ limiter.calls.steps limiter.calls.init events, s.2.liftsBlock limiter s.1 = false := by
  rintro ⟨w, ⟨elapsed, call⟩⟩ hs
  obtain ⟨before, after, rfl, rfl⟩ := Machine.split_of_mem_steps hs
  cases call with
  | retryAfter key => rfl
  | recordSuccess key => rfl
  | recordFailure key =>
    apply Bool.eq_false_of_not_eq_true
    intro hlifts
    simp only [TimedCall.liftsBlock, Bool.and_eq_true, bne_iff_ne, Option.any_eq_true,
      decide_eq_true_eq] at hlifts
    obtain ⟨hmany, state, hstate, hexpired, hlt⟩ := hlifts
    have hne : state.blockedUntil ≠ 0 := Nat.ne_of_gt (lt_of_le_of_lt (Nat.zero_le _) hlt)
    obtain ⟨blocking, between, rfl, hblocks, hno, huntil⟩ := blocked_earlier hstate hne
    have hnow : limiter.afterCalls (blocking ++ between ++ [⟨elapsed, .recordFailure key⟩]) = _ :=
      afterCalls_failure (blocking ++ between) elapsed key
    have hpos := h blocking (between ++ [⟨elapsed, .recordFailure key⟩]) after key (by simp)
      hblocks (by simpa [or_imp, forall_and] using hno) _ le_rfl (by
        rw [← huntil, ← List.append_assoc, hnow]
        exact hlt)
    rw [← List.append_assoc] at hpos
    have himposed := blocks_iff.mp ⟨⟨_, _, rfl⟩, hpos⟩
    have hopens : limiter.opens (limiter.afterCalls (blocking ++ between)).states key
        ((limiter.afterCalls (blocking ++ between)).clock + elapsed) = true := by
      unfold opens afterCalls
      rw [hstate, Option.all_some]
      exact hexpired
    rw [limiter.current_of_opens hopens] at himposed
    replace himposed : limiter.attempts ≤ 0 + 1 := himposed
    have hone := limiter.attemptsPos
    omega

end RateLimiter

/-- Every block lasts as long as configured exactly when no failure comes for a key that
is still blocked after its window is over, unless one failure blocks. -/
theorem blocks_last_iff (attempts windowSeconds blockSeconds : Int) (events : List TimedCall) :
    (RateLimiter.new attempts windowSeconds blockSeconds).KeepsBlocks events ↔
      ∀ s ∈ (RateLimiter.new attempts windowSeconds blockSeconds).calls.steps
          (RateLimiter.new attempts windowSeconds blockSeconds).calls.init events,
        s.2.liftsBlock (.new attempts windowSeconds blockSeconds) s.1 = false :=
  ⟨RateLimiter.safe_of_keeps, RateLimiter.keeps_of_safe⟩

def failuresInBlock : List TimedCall :=
  [⟨0, .recordFailure "user:admin"⟩, ⟨0, .recordFailure "user:admin"⟩,
    ⟨seconds 61, .recordFailure "user:admin"⟩]

theorem block_lifted_early :
    ¬ ∀ (attempts windowSeconds blockSeconds : Int) (events : List TimedCall),
      (RateLimiter.new attempts windowSeconds blockSeconds).KeepsBlocks events := by
  intro h
  have hpos := h 2 60 120 failuresInBlock
    [⟨0, .recordFailure "user:admin"⟩, ⟨0, .recordFailure "user:admin"⟩]
    [⟨seconds 61, .recordFailure "user:admin"⟩] [] "user:admin" rfl
    ⟨⟨[⟨0, .recordFailure "user:admin"⟩], 0, rfl⟩, by decide +kernel⟩
    (by simp) (seconds 61) (by decide +kernel) (by decide +kernel)
  revert hpos
  decide +kernel

end PluginRegistry
