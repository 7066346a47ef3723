import PluginRegistry.Services.RegistrationService

namespace PluginRegistry
open Lib

namespace PowStage

def Holds : PowStage → Prop
  | .read _ | .popped _ | .returned => True
  | _ => False

def Took : PowStage → Prop
  | .popped _ | .returned => True
  | _ => False

theorem Took.holds {s : PowStage} (h : s.Took) : s.Holds := by
  cases s <;> trivial

end PowStage

namespace PowState

def SingleUse (w : PowState) : Prop :=
  ∀ i a, w.calls.lookup i = some a → ∀ j b, w.calls.lookup j = some b →
    a.stage = .returned → b.stage = .returned → a.challengeId = b.challengeId → i = j

structure Exclusive (w : PowState) : Prop where
  holders : ∀ i a, w.calls.lookup i = some a → ∀ j b, w.calls.lookup j = some b →
    a.stage.Holds → b.stage.Holds → a.challengeId = b.challengeId → i = j
  taken : ∀ i a, w.calls.lookup i = some a → a.stage.Took → w.redis.lookup a.challengeId = none
  gone : ∀ i a, w.calls.lookup i = some a → a.stage.Holds → w.memory.lookup a.challengeId = none
  apart : ∀ c, w.redis.lookup c = none ∨ w.memory.lookup c = none
  issued : ∀ i a, w.calls.lookup i = some a → a.stage.Holds → a.challengeId ∈ w.issued
  stored : ∀ c, c ∉ w.issued → w.redis.lookup c = none ∧ w.memory.lookup c = none

end PowState

def PowStage.isRead : PowStage → Bool
  | .read _ => true
  | _ => false

/-- The steps that let a second call see a payload: Redis answers a `GET` with a
challenge that another call has read and not yet deleted. -/
def PowEvent.readsTwice (w : PowState) : PowEvent → Bool
  | .advance callId _ => (w.calls.lookup callId).any fun call =>
      call.stage = .started && call.redis && (w.redis.lookup call.challengeId).isSome &&
        w.calls.entries.any fun e => e.2.stage.isRead && e.2.challengeId = call.challengeId
  | _ => false

theorem PowEvent.readsTwice_of (now : Time) {w : PowState} {i j : Nat} {a b : PowCall}
    (hi : w.calls.lookup i = some a) (hs : a.stage = .started) (hr : a.redis = true)
    (hp : (w.redis.lookup a.challengeId).isSome) (hj : w.calls.lookup j = some b)
    (hb : b.stage.isRead = true) (hid : b.challengeId = a.challengeId) :
    (PowEvent.advance i now).readsTwice w = true := by
  have hany : (w.calls.entries.any fun e =>
      e.2.stage.isRead && e.2.challengeId = a.challengeId) = true := by
    apply List.any_eq_true.mpr
    exact ⟨⟨j, b⟩, Table.mem_entries.mpr hj, by simp [hb, hid]⟩
  simp [readsTwice, hi, hs, hr, hp, hany]

namespace PowState

variable {w : PowState}

theorem Exclusive.singleUse (h : w.Exclusive) : w.SingleUse := by
  intro i a hi j b hj ha hb hc
  apply h.holders i a hi j b hj _ _ hc
  · rw [ha]
    trivial
  · rw [hb]
    trivial

/-- The stores lose entries and one call moves on to its next stage. -/
theorem Exclusive.move (h : w.Exclusive) {redis memory : Table String Challenge}
    {lock : Option Nat} {i : Nat} {a : PowCall} {s : PowStage}
    (hi : w.calls.lookup i = some a)
    (hr : ∀ c, w.redis.lookup c = none → redis.lookup c = none)
    (hm : ∀ c, w.memory.lookup c = none → memory.lookup c = none)
    (hholds : s.Holds → a.challengeId ∈ w.issued ∧ memory.lookup a.challengeId = none ∧
      ∀ j b, j ≠ i → w.calls.lookup j = some b → b.stage.Holds → b.challengeId ≠ a.challengeId)
    (htook : s.Took → redis.lookup a.challengeId = none) :
    ({ w with redis, memory, lock }.setStage i a s).Exclusive := by
  have hcase : ∀ j b, (AList.insert i { a with stage := s } w.calls).lookup j = some b →
      (j = i ∧ b = { a with stage := s }) ∨ (j ≠ i ∧ w.calls.lookup j = some b) := by
    intro j b hj
    rw [Table.lookup_insert_eq] at hj
    split at hj
    · rename_i hji
      exact .inl ⟨hji, (Option.some.inj hj).symm⟩
    · rename_i hji
      exact .inr ⟨hji, hj⟩
  refine ⟨?_, ?_, ?_, ?_, ?_, ?_⟩
  · intro j b hj k c hk hb hc hid
    rcases hcase j b hj with ⟨rfl, rfl⟩ | ⟨hji, hj'⟩
    · rcases hcase k c hk with ⟨rfl, rfl⟩ | ⟨hki, hk'⟩
      · rfl
      · exact absurd hid.symm ((hholds hb).2.2 k c hki hk' hc)
    · rcases hcase k c hk with ⟨rfl, rfl⟩ | ⟨hki, hk'⟩
      · exact absurd hid ((hholds hc).2.2 j b hji hj' hb)
      · exact h.holders j b hj' k c hk' hb hc hid
  · intro j b hj hb
    rcases hcase j b hj with ⟨rfl, rfl⟩ | ⟨hji, hj⟩
    · exact htook hb
    · exact hr _ (h.taken j b hj hb)
  · intro j b hj hb
    rcases hcase j b hj with ⟨rfl, rfl⟩ | ⟨hji, hj⟩
    · exact (hholds hb).2.1
    · exact hm _ (h.gone j b hj hb)
  · intro c
    rcases h.apart c with hc | hc
    · exact .inl (hr c hc)
    · exact .inr (hm c hc)
  · intro j b hj hb
    rcases hcase j b hj with ⟨rfl, rfl⟩ | ⟨hji, hj⟩
    · exact (hholds hb).1
    · exact h.issued j b hj hb
  · intro c hc
    exact ⟨hr c (h.stored c hc).1, hm c (h.stored c hc).2⟩

/-- A call that ends or waits takes nothing. -/
theorem Exclusive.idle (h : w.Exclusive) {memory : Table String Challenge} {lock : Option Nat}
    {i : Nat} {a : PowCall} {s : PowStage} (hi : w.calls.lookup i = some a)
    (hm : ∀ c, w.memory.lookup c = none → memory.lookup c = none) (hs : ¬ s.Holds) :
    ({ w with memory, lock }.setStage i a s).Exclusive :=
  h.move hi (fun _ hc => hc) hm (fun hc => absurd hc hs) fun hc => absurd hc.holds hs

theorem lookup_erase_none {t : Table String Challenge} {k c : String}
    (h : t.lookup c = none) : (AList.erase k t).lookup c = none := by
  rw [Table.lookup_erase_eq]
  split
  · rfl
  · exact h

theorem lookup_cleanup_none {now : Time} {c : String} (h : w.memory.lookup c = none) :
    (w.cleanupMemory now).memory.lookup c = none := by
  simp [cleanupMemory, h]

theorem Exclusive.cleanup (h : w.Exclusive) (now : Time) : (w.cleanupMemory now).Exclusive where
  holders := h.holders
  taken := h.taken
  gone i a hi ha := lookup_cleanup_none (h.gone i a hi ha)
  apart c := (h.apart c).imp_right lookup_cleanup_none
  issued := h.issued
  stored c hc := ⟨(h.stored c hc).1, lookup_cleanup_none (h.stored c hc).2⟩

theorem stored_issued (h : w.Exclusive) {c : String}
    (hc : (w.redis.lookup c).isSome ∨ (w.memory.lookup c).isSome) : c ∈ w.issued := by
  by_contra hno
  obtain ⟨hr, hm⟩ := h.stored c hno
  rw [hr, hm] at hc
  simp at hc

/-- A new challenge is in nobody's hands. -/
theorem Exclusive.create (h : w.Exclusive) (challengeId salt : String) (ttlSeconds difficulty : Int)
    (redis : Bool) (now : Time) :
    (w.create challengeId salt ttlSeconds difficulty redis now).Exclusive := by
  have hother : ∀ i a, w.calls.lookup i = some a → a.stage.Holds → challengeId ∉ w.issued →
      a.challengeId ≠ challengeId := by
    rintro i a hi ha hno rfl
    exact hno (h.issued i a hi ha)
  have hne : ∀ c, c ∉ challengeId :: w.issued → c ≠ challengeId ∧ c ∉ w.issued := by
    intro c hc
    simpa using hc
  unfold PowState.create
  dsimp only
  split
  · exact h
  · rename_i hnew
    split
    · refine ⟨h.holders, ?_, h.gone, ?_, ?_, ?_⟩
      · intro i a hi ha
        rw [Table.lookup_insert_eq, if_neg (hother i a hi ha.holds hnew)]
        exact h.taken i a hi ha
      · intro c
        by_cases hc : c = challengeId
        · subst hc
          exact .inr (h.stored c hnew).2
        · rw [Table.lookup_insert_eq, if_neg hc]
          exact h.apart c
      · intro i a hi ha
        exact List.mem_cons_of_mem _ (h.issued i a hi ha)
      · intro c hc
        obtain ⟨hcne, hcold⟩ := hne c hc
        rw [Table.lookup_insert_eq, if_neg hcne]
        exact h.stored c hcold
    · split
      · exact h
      · have hclean := h.cleanup now
        refine ⟨h.holders, h.taken, ?_, ?_, ?_, ?_⟩
        · intro i a hi ha
          rw [Table.lookup_insert_eq, if_neg (hother i a hi ha hnew)]
          exact hclean.gone i a hi ha
        · intro c
          by_cases hc : c = challengeId
          · subst hc
            exact .inl (h.stored c hnew).1
          · rw [Table.lookup_insert_eq, if_neg hc]
            exact hclean.apart c
        · intro i a hi ha
          exact List.mem_cons_of_mem _ (h.issued i a hi ha)
        · intro c hc
          obtain ⟨hcne, hcold⟩ := hne c hc
          rw [Table.lookup_insert_eq, if_neg hcne]
          exact hclean.stored c hcold

theorem Exclusive.call (h : w.Exclusive) (callId : Nat) (challengeId nonce : String)
    (redis : Bool) :
    ({ w with calls := AList.insert callId ⟨challengeId, nonce, redis, .started⟩ w.calls } :
      PowState).Exclusive := by
  have hcase : ∀ j b, (AList.insert callId ⟨challengeId, nonce, redis, .started⟩ w.calls).lookup j =
      some b → b.stage.Holds → w.calls.lookup j = some b := by
    intro j b hj hb
    rw [Table.lookup_insert_eq] at hj
    split at hj
    · cases hj
      cases hb
    · exact hj
  refine ⟨?_, ?_, ?_, h.apart, ?_, h.stored⟩
  · intro i a hi j b hj ha hb
    exact h.holders i a (hcase i a hi ha) j b (hcase j b hj hb) ha hb
  · intro i a hi ha
    exact h.taken i a (hcase i a hi ha.holds) ha
  · intro i a hi ha
    exact h.gone i a (hcase i a hi ha) ha
  · intro i a hi ha
    exact h.issued i a (hcase i a hi ha) ha

/-- One step of a call keeps the payloads apart unless it is a second read. -/
theorem Exclusive.advance (h : w.Exclusive) (callId : Nat) (now : Time)
    (hgood : (PowEvent.advance callId now).readsTwice w = false) :
    (w.advance callId now).Exclusive := by
  unfold PowState.advance
  cases hi : w.calls.lookup callId with
  | none => exact h
  | some call =>
    have hself : ∀ j b, call.stage.Holds → j ≠ callId → w.calls.lookup j = some b →
        b.stage.Holds → b.challengeId ≠ call.challengeId := fun j b hc hj hb hs hid =>
      hj (h.holders j b hb callId call hi hs hc hid)
    dsimp only
    cases hs : call.stage with
    | started =>
      dsimp only
      split
      · rename_i hredis
        cases hr : w.redis.lookup call.challengeId with
        | none => exact h.idle hi (fun _ hc => hc) fun hc => hc
        | some payload =>
          have hsome : (w.redis.lookup call.challengeId).isSome := by rw [hr]; rfl
          refine h.move hi (fun _ hc => hc) (fun _ hc => hc) (fun _ => ⟨?_, ?_, ?_⟩) fun hc => ?_
          · exact stored_issued h (.inl hsome)
          · rcases h.apart call.challengeId with hc | hc
            · rw [hr] at hc
              cases hc
            · exact hc
          · intro j b _ hj hb hid
            cases hbs : b.stage with
            | read p =>
              have := PowEvent.readsTwice_of now hi hs hredis hsome hj (by rw [hbs]; rfl)
                hid
              rw [hgood] at this
              cases this
            | popped p =>
              have := h.taken j b hj (by rw [hbs]; trivial)
              rw [hid, hr] at this
              cases this
            | returned =>
              have := h.taken j b hj (by rw [hbs]; trivial)
              rw [hid, hr] at this
              cases this
            | started => rw [hbs] at hb; cases hb
            | locked => rw [hbs] at hb; cases hb
            | cleaned => rw [hbs] at hb; cases hb
            | rejected => rw [hbs] at hb; cases hb
          · cases hc
      · split
        · exact h
        · exact h.idle hi (fun _ hc => hc) fun hc => hc
    | locked => exact h.idle hi (fun _ hc => lookup_cleanup_none hc) fun hc => hc
    | cleaned =>
      dsimp only
      cases hm : w.memory.lookup call.challengeId with
      | none => exact h.idle hi (fun _ hc => hc) fun hc => hc
      | some payload =>
        have hsome : (w.memory.lookup call.challengeId).isSome := by rw [hm]; rfl
        refine h.move hi (fun _ hc => hc) (fun _ hc => lookup_erase_none hc)
          (fun _ => ⟨stored_issued h (.inr hsome), ?_, ?_⟩) fun _ => ?_
        · rw [Table.lookup_erase_eq, if_pos rfl]
        · intro j b _ hj hb hid
          have := h.gone j b hj hb
          rw [hid, hm] at this
          cases this
        · rcases h.apart call.challengeId with hc | hc
          · exact hc
          · rw [hm] at hc
            cases hc
    | read payload =>
      have hc : call.stage.Holds := by rw [hs]; trivial
      refine h.move hi (fun _ hc => lookup_erase_none hc) (fun _ hc => hc)
        (fun _ => ⟨h.issued _ _ hi hc, h.gone _ _ hi hc, fun j b hj hb =>
          hself j b hc hj hb⟩) fun _ => ?_
      rw [Table.lookup_erase_eq, if_pos rfl]
    | popped payload =>
      have ht : call.stage.Took := by rw [hs]; trivial
      exact h.move hi (fun _ hc => hc) (fun _ hc => hc)
        (fun _ => ⟨h.issued _ _ hi ht.holds, h.gone _ _ hi ht.holds, fun j b hj hb =>
          hself j b ht.holds hj hb⟩) fun _ => h.taken _ _ hi ht
    | returned => exact h
    | rejected => exact h

theorem step_exclusive (h : w.Exclusive) (e : PowEvent) (hgood : e.readsTwice w = false) :
    (w.step e).Exclusive := by
  cases e with
  | create challengeId salt ttlSeconds difficulty redis now =>
    exact h.create challengeId salt ttlSeconds difficulty redis now
  | expire challengeId =>
    exact ⟨h.holders, fun i a hi ha => lookup_erase_none (h.taken i a hi ha), h.gone,
      fun c => (h.apart c).imp_left lookup_erase_none, h.issued,
      fun c hc => ⟨lookup_erase_none (h.stored c hc).1, (h.stored c hc).2⟩⟩
  | call callId challengeId nonce redis =>
    unfold PowState.step
    dsimp only
    split
    · exact h
    · exact h.call callId challengeId nonce redis
  | advance callId now => exact h.advance callId now hgood

theorem empty_exclusive : PowState.empty.Exclusive :=
  ⟨fun _ _ h => (by cases h), fun _ _ h => (by cases h), fun _ _ h => (by cases h),
    fun _ => .inl rfl, fun _ _ h => (by cases h), fun _ _ => ⟨rfl, rfl⟩⟩

end PowState

/-- In a run where no call reads a challenge that another one has read and not
yet deleted, every challenge is consumed at most once. Challenges kept in memory
need no such condition. -/
theorem challenges_single_use (events : List PowEvent)
    (h : ∀ s ∈ powService.steps powService.init events, s.2.readsTwice s.1 = false) :
    ∀ w ∈ powService.states powService.init events, w.SingleUse := by
  intro w hw
  exact (Machine.guarded_run PowState.Exclusive (fun w e => e.readsTwice w = false)
    (fun _ e hs he => PowState.step_exclusive hs e he) PowState.empty_exclusive h w hw).singleUse

def oneAfterTheOther : List PowEvent :=
  [.create "c" "s" 300 1 true 0, .call 0 "c" "5" true, .advance 0 1, .advance 0 1, .advance 0 1,
    .call 1 "c" "5" true, .advance 1 2]

theorem challenges_single_use_in_turn :
    (∀ s ∈ powService.steps powService.init oneAfterTheOther, s.2.readsTwice s.1 = false) ∧
      ∀ w ∈ powService.states powService.init oneAfterTheOther, w.SingleUse := by
  have h : ∀ s ∈ powService.steps powService.init oneAfterTheOther,
      s.2.readsTwice s.1 = false := by
    decide +kernel
  exact ⟨h, challenges_single_use oneAfterTheOther h⟩

def bothRead : List PowEvent :=
  [.create "c" "s" 300 1 true 0, .call 0 "c" "5" true, .call 1 "c" "5" true, .advance 0 1,
    .advance 1 1, .advance 0 1, .advance 1 1, .advance 0 1, .advance 1 1]

/-- Both registrations pass the proof of work. -/
theorem challenge_consumed_twice :
    ¬ ∀ events, ∀ w ∈ powService.states powService.init events, w.SingleUse := by
  intro h
  have hsafe := h bothRead _ (Machine.run_mem_states _ _)
  obtain ⟨a, ha, hra⟩ : ∃ a, (powService.runFrom powService.init bothRead).calls.lookup 0 = some a ∧
      decide (a.stage = .returned ∧ a.challengeId = "c") = true :=
    (Option.any_eq_true ..).mp (by decide +kernel)
  obtain ⟨b, hb, hrb⟩ : ∃ b, (powService.runFrom powService.init bothRead).calls.lookup 1 = some b ∧
      decide (b.stage = .returned ∧ b.challengeId = "c") = true :=
    (Option.any_eq_true ..).mp (by decide +kernel)
  obtain ⟨hsa, hca⟩ := of_decide_eq_true hra
  obtain ⟨hsb, hcb⟩ := of_decide_eq_true hrb
  have := hsafe 0 a ha 1 b hb hsa hsb (hca.trans hcb.symm)
  cases this

end PluginRegistry
