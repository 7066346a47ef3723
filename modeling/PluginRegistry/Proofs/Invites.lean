import PluginRegistry.Proofs.Challenges

namespace PluginRegistry
open Lib

namespace RegisterState

/-- Every invite has admitted as many users as it counts, and no more than it allows. -/
def InviteLimits (w : RegisterState) : Prop :=
  ∀ i row, w.db.invites.lookup i = some row →
    w.createdThrough.count i = row.usedCount ∧ w.createdThrough.count i ≤ row.maxUses

structure Tracked (w : RegisterState) : Prop where
  loaded : ∀ i call mode loaded, w.calls.lookup i = some call →
    call.stage = .checked mode (some loaded) →
    ∃ row, w.db.invites.lookup loaded.inviteId = some row ∧ loaded.usedCount < row.maxUses
  known : ∀ i ∈ w.createdThrough, (w.db.invites.lookup i).isSome

end RegisterState

/-- The commits that forget a use: the database accepts the row, but the invite's
count is no longer the one the call has read. -/
def RegisterEvent.losesUse (w : RegisterState) : RegisterEvent → Bool
  | .advance callId env => (w.calls.lookup callId).any fun call =>
      match call.stage with
      | .checked mode (some loaded) =>
        decide (w.db.register callId (call.request.user env mode) (some loaded)).Constraints &&
          (w.db.invites.lookup loaded.inviteId).any fun row => row.usedCount ≠ loaded.usedCount
      | _ => false
  | _ => false

namespace RegisterState

variable {w : RegisterState}

theorem usable_count {invite : UserInvite} {now : Time} (h : invite.usable now = true) :
    invite.usedCount < invite.maxUses := by
  simp only [UserInvite.usable, Bool.and_eq_true, Bool.not_eq_true', decide_eq_false_iff_not] at h
  omega

theorem getUsableInvite_some {db : RegistrationDb} {code : String} {now : Time}
    {loaded : LoadedInvite} (h : db.getUsableInvite code now = some loaded) :
    ∃ row, db.invites.lookup loaded.inviteId = some row ∧ loaded.usedCount < row.maxUses := by
  unfold RegistrationDb.getUsableInvite at h
  cases hf : db.invites.first fun _ invite => invite.codeHash = inviteCodeHash code with
  | none =>
    rw [hf] at h
    cases h
  | some found =>
    obtain ⟨inviteId, invite⟩ := found
    rw [hf] at h
    dsimp only at h
    split at h
    · rename_i husable
      cases h
      exact ⟨invite, (Table.first_some hf).1, usable_count husable⟩
    · cases h

def SameLimits (invites invites' : Table Nat UserInvite) : Prop :=
  ∀ i row, invites.lookup i = some row →
    ∃ row', invites'.lookup i = some row' ∧ row'.maxUses = row.maxUses

theorem SameLimits.refl (invites : Table Nat UserInvite) : SameLimits invites invites :=
  fun _ row h => ⟨row, h, rfl⟩

theorem SameLimits.modify {invites : Table Nat UserInvite} {k : Nat} {f : UserInvite → UserInvite}
    (hf : ∀ row, (f row).maxUses = row.maxUses) : SameLimits invites (invites.modify k f) := by
  intro i row hi
  rw [Table.lookup_modify, hi]
  split
  · exact ⟨f row, rfl, hf row⟩
  · exact ⟨row, rfl, rfl⟩

theorem SameLimits.isSome {invites invites' : Table Nat UserInvite}
    (h : SameLimits invites invites') {i : Nat} (hi : (invites.lookup i).isSome) :
    (invites'.lookup i).isSome := by
  obtain ⟨row, hrow⟩ := Option.isSome_iff_exists.mp hi
  obtain ⟨row', hrow', -⟩ := h i row hrow
  rw [hrow']
  rfl

theorem Tracked.rows (h : w.Tracked) (db : RegistrationDb)
    (hs : SameLimits w.db.invites db.invites) {created : List Nat}
    (hc : ∀ i ∈ created, (w.db.invites.lookup i).isSome) :
    ({ w with db, createdThrough := created } : RegisterState).Tracked where
  loaded i call mode loaded hi hst := by
    obtain ⟨row, hrow, hlt⟩ := h.loaded i call mode loaded hi hst
    obtain ⟨row', hrow', hmax⟩ := hs _ row hrow
    exact ⟨row', hrow', hmax ▸ hlt⟩
  known i hi := hs.isSome (hc i hi)

theorem Tracked.setStage (h : w.Tracked) (callId : Nat) (call : RegisterCall)
    {stage : RegisterStage}
    (hs : ∀ mode loaded, stage = .checked mode (some loaded) →
      ∃ row, w.db.invites.lookup loaded.inviteId = some row ∧ loaded.usedCount < row.maxUses) :
    (w.setStage callId call stage).Tracked where
  loaded i c mode loaded hi hst := by
    simp only [RegisterState.setStage] at hi
    rw [Table.lookup_insert_eq] at hi
    split at hi
    · cases hi
      exact hs mode loaded hst
    · exact h.loaded i c mode loaded hi hst
  known := h.known

theorem register_sameLimits (db : RegistrationDb) (userId : Nat) (user : User)
    (invite : Option LoadedInvite) :
    SameLimits db.invites (db.register userId user invite).invites := by
  cases invite with
  | none => exact .refl _
  | some loaded => exact .modify fun _ => rfl

theorem Tracked.commit (h : w.Tracked) {callId : Nat} {call : RegisterCall} (user : User)
    {mode : RegistrationMode} {invite : Option LoadedInvite} (hi : w.calls.lookup callId = some call)
    (hst : call.stage = .checked mode invite) : (w.commit callId call user invite).Tracked := by
  unfold RegisterState.commit
  dsimp only
  split
  · apply Tracked.setStage
    · apply h.rows _ (register_sameLimits _ _ _ _)
      intro i hm
      rcases List.mem_append.mp hm with hm | hm
      · cases invite with
        | none => cases hm
        | some loaded =>
          obtain ⟨row, hrow, -⟩ := h.loaded callId call mode loaded hi hst
          obtain rfl : i = loaded.inviteId := by simpa using hm
          rw [hrow]
          rfl
      · exact h.known i hm
    · intro _ _ hc
      cases hc
  · exact h.setStage callId call fun _ _ hc => by cases hc

/-- A stage of a call keeps every invite that a call has loaded below its limit. -/
theorem Tracked.advance (h : w.Tracked) (callId : Nat) (env : RegisterEnv) :
    (w.advance callId env).Tracked := by
  unfold RegisterState.advance
  cases hi : w.calls.lookup callId with
  | none => exact h
  | some call =>
    dsimp only
    cases hst : call.stage with
    | started => exact h.setStage callId call fun _ _ hc => by split at hc <;> cases hc
    | opened mode =>
      dsimp only
      split
      · exact h.setStage callId call fun _ _ hc => by cases hc
      · exact h.setStage callId call fun _ _ hc => by cases hc
    | unique mode =>
      dsimp only
      split
      · split
        · cases hu : w.db.getUsableInvite (call.request.inviteCode.getD "") env.now with
          | none => exact h.setStage callId call fun _ _ hc => by cases hc
          | some loaded =>
            refine h.setStage callId call fun _ _ hc => ?_
            cases hc
            exact getUsableInvite_some hu
        · exact h.setStage callId call fun _ _ hc => by cases hc
      · exact h.setStage callId call fun _ _ hc => by cases hc
    | checked mode invite => exact h.commit _ hi hst
    | registered => exact h
    | raised e => exact h

theorem step_tracked (h : w.Tracked) (e : RegisterEvent) : (w.step e).Tracked := by
  cases e with
  | setMode mode => exact h.rows { w.db with mode } (.refl _) h.known
  | createInvite inviteId code maxUses expiresAt =>
    rw [step, RegisterState.createInvite]
    dsimp only
    split
    · exact h
    · rename_i hnew
      rw [Option.not_isSome_iff_eq_none] at hnew
      split
      · refine h.rows _ (fun i row hi => ⟨row, ?_, rfl⟩) h.known
        have hne : i ≠ inviteId := by
          rintro rfl
          cases hnew.symm.trans hi
        rw [Table.lookup_insert_eq, if_neg hne]
        exact hi
      · exact h
  | disableInvite inviteId =>
    have hsame : SameLimits w.db.invites
        (w.db.invites.modify inviteId fun row => { row with status := .disabled }) :=
      .modify fun _ => rfl
    exact h.rows _ hsame h.known
  | call callId request =>
    rw [step]
    split
    · exact h
    · refine ⟨fun i c mode loaded hi hst => ?_, h.known⟩
      rw [Table.lookup_insert_eq] at hi
      split at hi
      · cases hi
        cases hst
      · exact h.loaded i c mode loaded hi hst
  | advance callId env => exact h.advance callId env

/-- A commit that the database accepts keeps the limits exactly when the count
is still the one that was read. -/
theorem register_limits_iff (h : w.InviteLimits) {loaded : LoadedInvite} {row : UserInvite}
    (hrow : w.db.invites.lookup loaded.inviteId = some row) (hlt : loaded.usedCount < row.maxUses)
    (userId : Nat) (user : User) (calls : Table Nat RegisterCall) :
    (⟨w.db.register userId user (some loaded), calls, loaded.inviteId :: w.createdThrough⟩ :
      RegisterState).InviteLimits ↔ row.usedCount = loaded.usedCount := by
  obtain ⟨hcount, hle⟩ := h _ row hrow
  constructor
  · intro hl
    have hself := (hl loaded.inviteId { row with usedCount := loaded.usedCount + 1 }
      (by simp [RegistrationDb.register, hrow])).1
    rw [List.count_cons_self, hcount] at hself
    exact Nat.succ.inj hself
  · intro heq i row' hi
    simp only [RegistrationDb.register, Table.lookup_modify] at hi
    split at hi
    · rename_i hid
      subst hid
      rw [hrow] at hi
      obtain rfl := Option.some.inj hi
      simp only [List.count_cons_self]
      omega
    · rename_i hid
      rw [List.count_cons_of_ne (Ne.symm hid)]
      exact h i row' hi

/-- One stage of a call: only a commit that forgets a use breaks the limits. -/
theorem advance_limits_iff (ht : w.Tracked) (h : w.InviteLimits) (callId : Nat)
    (env : RegisterEnv) :
    (w.advance callId env).InviteLimits ↔
      (RegisterEvent.advance callId env).losesUse w = false := by
  unfold RegisterState.advance RegisterEvent.losesUse
  dsimp only
  cases hi : w.calls.lookup callId with
  | none => exact iff_of_true h rfl
  | some call =>
    dsimp only [Option.any_some]
    cases hst : call.stage with
    | started => exact iff_of_true h rfl
    | opened mode =>
      refine iff_of_true ?_ rfl
      dsimp only
      split
      · exact h
      · exact h
    | unique mode =>
      refine iff_of_true ?_ rfl
      dsimp only
      split
      · split
        · cases w.db.getUsableInvite (call.request.inviteCode.getD "") env.now with
          | none => exact h
          | some loaded => exact h
        · exact h
      · exact h
    | checked mode invite =>
      dsimp only [RegisterState.commit]
      cases invite with
      | none =>
        refine iff_of_true ?_ rfl
        split
        · exact h
        · exact h
      | some loaded =>
        obtain ⟨row, hrow, hlt⟩ := ht.loaded callId call mode loaded hi hst
        dsimp only
        rw [hrow, Option.any_some]
        split
        · rename_i hc
          refine (register_limits_iff h hrow hlt _ _ _).trans ?_
          simp [hc]
        · rename_i hc
          exact iff_of_true h (by simp [hc])
    | registered => exact iff_of_true h rfl
    | raised e => exact iff_of_true h rfl

/-- The limits after a step, where they held before it. -/
theorem step_limits_iff (ht : w.Tracked) (h : w.InviteLimits) (e : RegisterEvent) :
    (w.step e).InviteLimits ↔ e.losesUse w = false := by
  cases e with
  | setMode mode => exact iff_of_true h rfl
  | createInvite inviteId code maxUses expiresAt =>
    refine iff_of_true ?_ rfl
    rw [step, RegisterState.createInvite]
    dsimp only
    split
    · exact h
    · rename_i hnew
      split
      · intro i row hi
        dsimp only at hi
        rw [Table.lookup_insert_eq] at hi
        split at hi
        · rename_i hid
          cases hi
          have hzero : w.createdThrough.count i = 0 := by
            apply List.count_eq_zero.mpr
            intro hm
            exact hnew (hid ▸ ht.known i hm)
          simp [hzero]
        · exact h i row hi
      · exact h
  | disableInvite inviteId =>
    refine iff_of_true ?_ rfl
    intro i row' hi
    simp only [step, Table.lookup_modify] at hi
    split at hi
    · obtain ⟨row, hrow, rfl⟩ := Option.map_eq_some_iff.mp hi
      exact h i row hrow
    · exact h i row' hi
  | call callId request =>
    refine iff_of_true ?_ rfl
    rw [step]
    split
    · exact h
    · exact h
  | advance callId env => exact advance_limits_iff ht h callId env

end RegisterState

/-- In a run, every invite keeps its limit and its count exactly if no accepted
commit writes over a count that has changed since it was read. -/
theorem invite_limits_iff (mode : RegistrationMode) (events : List RegisterEvent) :
    (∀ w ∈ (registrationService mode).states (registrationService mode).init events,
        w.InviteLimits) ↔
      ∀ s ∈ (registrationService mode).steps (registrationService mode).init events,
        s.2.losesUse s.1 = false :=
  Machine.run_iff RegisterState.Tracked RegisterState.InviteLimits
    (fun w e => e.losesUse w = false) (fun _ e h => RegisterState.step_tracked h e)
    (fun _ e h hs => RegisterState.step_limits_iff h hs e)
    ⟨fun _ _ _ _ h => (by cases h), fun _ h => (by cases h)⟩ fun _ _ h => by cases h

def RegisterEnv.demo : RegisterEnv :=
  ⟨0, id, id⟩

def bothRegister : List RegisterEvent :=
  [.createInvite 0 "code" 1 none,
    .call 0 ⟨"alice", "alice@x", "long password", some "code"⟩,
    .call 1 ⟨"bob", "bob@x", "long password", some "code"⟩,
    .advance 0 .demo, .advance 1 .demo, .advance 0 .demo, .advance 1 .demo,
    .advance 0 .demo, .advance 1 .demo, .advance 0 .demo, .advance 1 .demo]

/-- Both are created through the invite. -/
theorem invite_used_twice :
    ¬ ∀ mode events, ∀ w ∈ (registrationService mode).states (registrationService mode).init events,
      w.InviteLimits := by
  intro h
  have hsafe := h .invite bothRegister _ (Machine.run_mem_states _ _)
  obtain ⟨row, hrow, hmax⟩ : ∃ row, ((registrationService .invite).runFrom
      (registrationService .invite).init bothRegister).db.invites.lookup 0 = some row ∧
        decide (row.maxUses = 1) = true :=
    (Option.any_eq_true ..).mp (by decide +kernel)
  have hcount : ((registrationService .invite).runFrom
      (registrationService .invite).init bothRegister).createdThrough.count 0 = 2 := by
    decide +kernel
  have hle := (hsafe 0 row hrow).2
  rw [hcount, of_decide_eq_true hmax] at hle
  omega

end PluginRegistry
