import PluginRegistry.Proofs.BlockDuration

namespace PluginRegistry
open Lib

namespace RegistrationDb

variable {db : RegistrationDb} {username email : String}

def OneHolder (db : RegistrationDb) (username email : String) : Prop :=
  ∀ i u, db.users.lookup i = some u → ∀ j v, db.users.lookup j = some v →
    u.takes username email → v.takes username email → i = j

theorem ensureUserUnique_one {i : Nat} {u : User} (hi : db.users.lookup i = some u)
    (ht : u.takes username email = true) (hnul : (hasNul username || hasNul email) = false)
    (hone : db.OneHolder username email) :
    db.ensureUserUnique username email = .error registrationRejected := by
  have hfound : scalarOneOrNone db.users (fun _ user => user.takes username email) =
      .ok (some (i, u)) :=
    scalarOneOrNone_some hi ht fun j v hj hv => hone j v hj i u hi hv ht
  unfold ensureUserUnique
  rw [hnul, if_neg Bool.false_ne_true, except_bind_eq hfound]
  rfl

theorem ensureUserUnique_several {i j : Nat} {u v : User} (hi : db.users.lookup i = some u)
    (hu : u.takes username email = true) (hj : db.users.lookup j = some v)
    (hv : v.takes username email = true) (hne : i ≠ j)
    (hnul : (hasNul username || hasNul email) = false) :
    db.ensureUserUnique username email = .error multipleResults := by
  have hfound : scalarOneOrNone db.users (fun _ user => user.takes username email) =
      .error multipleResults :=
    scalarOneOrNone_error hi hu hj hv hne
  unfold ensureUserUnique
  rw [hnul, if_neg Bool.false_ne_true, hfound]
  rfl

/-- A taken name is always refused, with the error of the code or with another one. -/
theorem ensureUserUnique_taken {i : Nat} {u : User} (hi : db.users.lookup i = some u)
    (ht : u.takes username email = true) :
    ∃ e, db.ensureUserUnique username email = .error e ∧
      (e.isA [.registrationError] = true ↔
        (hasNul username || hasNul email) = false ∧ db.OneHolder username email) := by
  cases hnul : hasNul username || hasNul email with
  | true =>
    refine ⟨nulError, ?_, iff_of_false (by decide) fun h => by cases h.1⟩
    unfold ensureUserUnique
    rw [hnul, if_pos rfl]
  | false =>
    by_cases hone : db.OneHolder username email
    · exact ⟨_, ensureUserUnique_one hi ht hnul hone, iff_of_true (by decide) ⟨rfl, hone⟩⟩
    · have hother : ∃ j v, db.users.lookup j = some v ∧ v.takes username email = true ∧
          i ≠ j := by
        by_contra hno
        apply hone
        intro a ua ha b ub hb hta htb
        have hia : i = a := by
          by_contra hne
          exact hno ⟨a, ua, ha, hta, hne⟩
        have hib : i = b := by
          by_contra hne
          exact hno ⟨b, ub, hb, htb, hne⟩
        exact hia.symm.trans hib
      obtain ⟨j, v, hj, hv, hne⟩ := hother
      exact ⟨_, ensureUserUnique_several hi ht hj hv hne hnul,
        iff_of_false (by decide) fun h => hone h.2⟩

end RegistrationDb

namespace RegisterState

variable {w : RegisterState} {callId : Nat} {env : RegisterEnv} {request : RegisterRequest}

def registerUser (w : RegisterState) (callId : Nat) (env : RegisterEnv) : RegisterState :=
  (((w.advance callId env).advance callId env).advance callId env).advance callId env

def RefusesCleanly (w : RegisterState) (callId : Nat) (env : RegisterEnv) : Prop :=
  (w.registerUser callId env).db = w.db ∧
    ∃ e, ((w.registerUser callId env).calls.lookup callId).map RegisterCall.stage =
      some (.raised e) ∧ e.isA [.registrationError] = true

theorem lookup_setStage (w : RegisterState) (callId : Nat) (call : RegisterCall)
    (stage : RegisterStage) :
    (w.setStage callId call stage).calls.lookup callId = some ⟨call.request, stage⟩ := by
  simp [setStage]

theorem setStage_db (call : RegisterCall) (stage : RegisterStage) :
    (w.setStage callId call stage).db = w.db := rfl

/-- A call that has raised does nothing more. -/
theorem advance_raised {e : PyErr} (h : w.calls.lookup callId = some ⟨request, .raised e⟩) :
    w.advance callId env = w := by
  unfold advance
  rw [h]

theorem advance_started (h : w.calls.lookup callId = some ⟨request, .started⟩) :
    w.advance callId env = w.setStage callId ⟨request, .started⟩
      (if w.db.mode = .disabled then .raised registrationClosed else .opened w.db.mode) := by
  unfold advance
  rw [h]

theorem advance_opened {mode : RegistrationMode} {e : PyErr}
    (h : w.calls.lookup callId = some ⟨request, .opened mode⟩)
    (he : w.db.ensureUserUnique request.normalizedUsername (request.normalizedEmail env) =
      .error e) :
    w.advance callId env = w.setStage callId ⟨request, .opened mode⟩ (.raised e) := by
  unfold advance
  rw [h]
  dsimp only
  rw [he]

theorem registerUser_disabled (h : w.calls.lookup callId = some ⟨request, .started⟩)
    (hmode : w.db.mode = .disabled) :
    w.registerUser callId env =
      w.setStage callId ⟨request, .started⟩ (.raised registrationClosed) := by
  unfold registerUser
  rw [advance_started h, if_pos hmode]
  have hraised := lookup_setStage w callId ⟨request, .started⟩ (.raised registrationClosed)
  rw [advance_raised hraised, advance_raised hraised, advance_raised hraised]

theorem registerUser_refused {e : PyErr} (h : w.calls.lookup callId = some ⟨request, .started⟩)
    (hmode : w.db.mode ≠ .disabled)
    (he : w.db.ensureUserUnique request.normalizedUsername (request.normalizedEmail env) =
      .error e) :
    w.registerUser callId env =
      (w.setStage callId ⟨request, .started⟩ (.opened w.db.mode)).setStage callId
        ⟨request, .opened w.db.mode⟩ (.raised e) := by
  unfold registerUser
  rw [advance_started h, if_neg hmode]
  have hopened := lookup_setStage w callId ⟨request, .started⟩ (.opened w.db.mode)
  rw [advance_opened hopened he]
  have hraised := lookup_setStage (w.setStage callId ⟨request, .started⟩ (.opened w.db.mode))
    callId ⟨request, .opened w.db.mode⟩ (.raised e)
  rw [advance_raised hraised, advance_raised hraised]

/-- What a call ends with that has changed no row. -/
theorem refusesCleanly_iff {e : PyErr} {call : RegisterCall} {v : RegisterState}
    (hdb : v.db = w.db) (h : w.registerUser callId env = v.setStage callId call (.raised e)) :
    w.RefusesCleanly callId env ↔ e.isA [.registrationError] = true := by
  unfold RefusesCleanly
  rw [h, lookup_setStage]
  constructor
  · rintro ⟨-, e', he', hA⟩
    simp only [Option.map_some, Option.some.injEq, RegisterStage.raised.injEq] at he'
    rw [he']
    exact hA
  · exact fun hA => ⟨hdb, e, rfl, hA⟩

end RegisterState

/-- A taken name is refused cleanly exactly when registration is closed or when a single
user holds what was asked for, and the query can be asked at all. -/
theorem taken_refused_iff (w : RegisterState) (callId : Nat) (env : RegisterEnv)
    (request : RegisterRequest) (hcall : w.calls.lookup callId = some ⟨request, .started⟩)
    (htaken : ∃ userId user, w.db.users.lookup userId = some user ∧
      user.takes request.normalizedUsername (request.normalizedEmail env) = true) :
    w.RefusesCleanly callId env ↔
      w.db.mode = .disabled ∨
        (hasNul request.normalizedUsername || hasNul (request.normalizedEmail env)) = false ∧
          w.db.OneHolder request.normalizedUsername (request.normalizedEmail env) := by
  by_cases hmode : w.db.mode = .disabled
  · refine iff_of_true ?_ (Or.inl hmode)
    exact (RegisterState.refusesCleanly_iff rfl
      (RegisterState.registerUser_disabled hcall hmode)).mpr rfl
  · obtain ⟨userId, user, hu, ht⟩ := htaken
    obtain ⟨e, he, hA⟩ := RegistrationDb.ensureUserUnique_taken hu ht
    rw [or_iff_right hmode, ← hA]
    exact RegisterState.refusesCleanly_iff (RegisterState.setStage_db _ _)
      (RegisterState.registerUser_refused hcall hmode he)

def RegisterState.beside (mode : RegistrationMode) (request : RegisterRequest) :
    RegisterState where
  db :=
    { mode
      users := AList.insert 0 ⟨"alice", some "alice@x", "hash", .active⟩
        (AList.insert 1 ⟨"bob", some "bob@x", "hash", .active⟩ ∅)
      invites := ∅ }
  calls := AList.insert 2 ⟨request, .started⟩ ∅
  createdThrough := []

def RegisterRequest.alice : RegisterRequest :=
  ⟨" alice ", "alice@x", "long password", none⟩

theorem taken_refused_one_holder :
    (∃ userId user, (RegisterState.beside .approval .alice).db.users.lookup userId = some user ∧
      user.takes RegisterRequest.alice.normalizedUsername
        (RegisterRequest.alice.normalizedEmail .demo) = true) ∧
    (RegisterState.beside .approval .alice).RefusesCleanly 2 .demo := by
  have htaken : ∃ userId user,
      (RegisterState.beside .approval .alice).db.users.lookup userId = some user ∧
        user.takes RegisterRequest.alice.normalizedUsername
          (RegisterRequest.alice.normalizedEmail .demo) = true :=
    ⟨0, ⟨"alice", some "alice@x", "hash", .active⟩, rfl, by decide +kernel⟩
  refine ⟨htaken, (taken_refused_iff (.beside .approval .alice) 2 .demo .alice rfl htaken).mpr
    (Or.inr ⟨by decide +kernel, ?_⟩)⟩
  unfold RegistrationDb.OneHolder
  decide +kernel

/-- The username of one user with the email of another. -/
theorem two_holders_not_refused :
    ¬ ∀ (w : RegisterState) (callId : Nat) (env : RegisterEnv) (request : RegisterRequest),
      w.calls.lookup callId = some ⟨request, .started⟩ →
      (∃ userId user, w.db.users.lookup userId = some user ∧
        user.takes request.normalizedUsername (request.normalizedEmail env) = true) →
      w.RefusesCleanly callId env := by
  intro h
  obtain ⟨-, e, he, hA⟩ := h (.beside .approval ⟨"alice", "bob@x", "long password", none⟩) 2
    .demo ⟨"alice", "bob@x", "long password", none⟩ rfl
    ⟨0, ⟨"alice", some "alice@x", "hash", .active⟩, rfl, by decide +kernel⟩
  have hraised : ((RegisterState.beside .approval
      ⟨"alice", "bob@x", "long password", none⟩).registerUser 2 .demo).calls.lookup 2 =
        some ⟨⟨"alice", "bob@x", "long password", none⟩, .raised multipleResults⟩ := by
    rfl
  rw [hraised] at he
  cases he
  cases hA

end PluginRegistry
