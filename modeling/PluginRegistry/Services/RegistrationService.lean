import PluginRegistry.Lib.Machine
import PluginRegistry.Models
import PluginRegistry.Python.Datetime
import PluginRegistry.Python.Hashlib
import PluginRegistry.Python.Sqlalchemy
import PluginRegistry.Python.Text

namespace PluginRegistry
open Lib

structure Challenge where
  salt : String
  difficulty : Int
  expiresAt : Time
  deriving DecidableEq

def leadingZeroBits : List UInt8 → Nat
  | [] => 0
  | byte :: rest =>
    if byte = 0 then 8 + leadingZeroBits rest else 8 - (Nat.log2 byte.toNat + 1)

def verifyPow (challengeId salt nonce : String) (difficulty : Int) : Bool :=
  difficulty ≤ leadingZeroBits (sha256 (utf8 (challengeId ++ ":" ++ salt ++ ":" ++ nonce)))

/-- The checks of `consume_pow_challenge` on a payload it has taken out. -/
def Challenge.accepts (payload : Challenge) (challengeId nonce : String) (now : Time) : Bool :=
  !(payload.expiresAt < now) && verifyPow challengeId payload.salt nonce payload.difficulty

/-- The payload `create_pow_challenge` stores. -/
def Challenge.new (salt : String) (ttlSeconds difficulty : Int) (now : Time) : Challenge :=
  ⟨salt, max 1 difficulty, now + seconds (max 30 ttlSeconds).toNat⟩

/-- How far one `consume_pow_challenge` call has come. -/
inductive PowStage
  | started
  | locked
  | cleaned
  | read (payload : Challenge)
  | popped (payload : Challenge)
  | returned
  | rejected
  deriving DecidableEq

structure PowCall where
  challengeId : String
  nonce : String
  redis : Bool
  stage : PowStage

/-- Both stores of challenges, the lock of the one in memory, every id ever
issued, and the calls under way or finished. -/
structure PowState where
  redis : Table String Challenge
  memory : Table String Challenge
  lock : Option Nat
  issued : List String
  calls : Table Nat PowCall

/-- `redis` says whether `get_redis` returns a client. `expire` is Redis dropping
a key by itself. -/
inductive PowEvent
  | create (challengeId salt : String) (ttlSeconds difficulty : Int) (redis : Bool) (now : Time)
  | expire (challengeId : String)
  | call (callId : Nat) (challengeId nonce : String) (redis : Bool)
  | advance (callId : Nat) (now : Time)

namespace PowState

def empty : PowState :=
  ⟨∅, ∅, none, [], ∅⟩

/-- `_cleanup_memory_challenges`. -/
def cleanupMemory (w : PowState) (now : Time) : PowState :=
  { w with memory := w.memory.keep fun _ payload => now ≤ payload.expiresAt }

/-- A challenge id is a fresh `uuid4`; one drawn before is not drawn again. The
store in memory waits for its lock. -/
def create (w : PowState) (challengeId salt : String) (ttlSeconds difficulty : Int) (redis : Bool)
    (now : Time) : PowState :=
  let payload := Challenge.new salt ttlSeconds difficulty now
  if challengeId ∈ w.issued then w
  else if redis then
    { w with
      redis := AList.insert challengeId payload w.redis
      issued := challengeId :: w.issued }
  else if w.lock.isSome then w
  else
    let w := w.cleanupMemory now
    { w with
      memory := AList.insert challengeId payload w.memory
      issued := challengeId :: w.issued }

def setStage (w : PowState) (callId : Nat) (call : PowCall) (stage : PowStage) : PowState :=
  { w with calls := AList.insert callId { call with stage } w.calls }

def advance (w : PowState) (callId : Nat) (now : Time) : PowState :=
  match w.calls.lookup callId with
  | none => w
  | some call =>
    match call.stage with
    | .started =>
      if call.redis then
        match w.redis.lookup call.challengeId with
        | none => w.setStage callId call .rejected
        | some payload => w.setStage callId call (.read payload)
      else if w.lock.isSome then w
      else { w with lock := some callId }.setStage callId call .locked
    | .read payload =>
      { w with redis := AList.erase call.challengeId w.redis }.setStage callId call
        (.popped payload)
    | .locked => (w.cleanupMemory now).setStage callId call .cleaned
    | .cleaned =>
      match w.memory.lookup call.challengeId with
      | none => { w with lock := none }.setStage callId call .rejected
      | some payload =>
        { w with memory := AList.erase call.challengeId w.memory, lock := none }.setStage callId
          call (.popped payload)
    | .popped payload =>
      w.setStage callId call
        (if payload.accepts call.challengeId call.nonce now then .returned else .rejected)
    | .returned | .rejected => w

def step (w : PowState) : PowEvent → PowState
  | .create challengeId salt ttlSeconds difficulty redis now =>
    w.create challengeId salt ttlSeconds difficulty redis now
  | .expire challengeId => { w with redis := AList.erase challengeId w.redis }
  | .call callId challengeId nonce redis =>
    if (w.calls.lookup callId).isSome then w
    else
      { w with calls := AList.insert callId ⟨challengeId, nonce, redis, .started⟩ w.calls }
  | .advance callId now => w.advance callId now

end PowState

def powService : Machine PowState PowEvent where
  init := .empty
  step := PowState.step

inductive RegistrationMode
  | disabled | invite | approval
  deriving DecidableEq, Repr

inductive UserStatus
  | pendingApproval | active | disabled
  deriving DecidableEq, Repr

structure User where
  username : String
  email : Option String
  passwordHash : String
  status : UserStatus
  deriving DecidableEq

inductive InviteStatus
  | active | disabled
  deriving DecidableEq, Repr

/-- A row of `user_invites`. -/
structure UserInvite where
  codeHash : String
  status : InviteStatus
  maxUses : Nat
  usedCount : Nat
  expiresAt : Option Time

def inviteCodeHash (code : String) : String :=
  hexdigest (sha256 (utf8 (strip code)))

def UserInvite.usable (invite : UserInvite) (now : Time) : Bool :=
  invite.status = .active && !(invite.maxUses ≤ invite.usedCount) &&
    !(invite.expiresAt.any fun t => t < now)

structure RegistrationDb where
  mode : RegistrationMode
  users : Table Nat User
  invites : Table Nat UserInvite

/-- `ck_user_invites_used_count_lte_max` and the unique columns of `users` and
`user_invites`. -/
structure RegistrationDb.Constraints (db : RegistrationDb) : Prop where
  used : ∀ i invite, db.invites.lookup i = some invite → invite.usedCount ≤ invite.maxUses
  usernames : ∀ i u, db.users.lookup i = some u → ∀ j v, db.users.lookup j = some v →
    u.username = v.username → i = j
  emails : ∀ i u, db.users.lookup i = some u → ∀ j v, db.users.lookup j = some v →
    u.email.isSome → u.email = v.email → i = j
  codes : ∀ i a, db.invites.lookup i = some a → ∀ j b, db.invites.lookup j = some b →
    a.codeHash = b.codeHash → i = j

instance (db : RegistrationDb) : Decidable db.Constraints :=
  decidable_of_iff
    ((∀ i invite, db.invites.lookup i = some invite → invite.usedCount ≤ invite.maxUses) ∧
      (∀ i u, db.users.lookup i = some u → ∀ j v, db.users.lookup j = some v →
        u.username = v.username → i = j) ∧
      (∀ i u, db.users.lookup i = some u → ∀ j v, db.users.lookup j = some v →
        u.email.isSome → u.email = v.email → i = j) ∧
      (∀ i a, db.invites.lookup i = some a → ∀ j b, db.invites.lookup j = some b →
        a.codeHash = b.codeHash → i = j))
    ⟨fun h => ⟨h.1, h.2.1, h.2.2.1, h.2.2.2⟩, fun h => ⟨h.1, h.2, h.3, h.4⟩⟩

/-- The arguments of `register_user`. -/
structure RegisterRequest where
  username : String
  email : String
  password : String
  inviteCode : Option String

structure LoadedInvite where
  inviteId : Nat
  usedCount : Nat
  deriving DecidableEq

/-- How far one `register_user` call has come. -/
inductive RegisterStage
  | started
  | opened (mode : RegistrationMode)
  | unique (mode : RegistrationMode)
  | checked (mode : RegistrationMode) (invite : Option LoadedInvite)
  | registered
  | raised (e : PyErr)
  deriving DecidableEq

structure RegisterCall where
  request : RegisterRequest
  stage : RegisterStage

/-- The committed rows, the calls, and a record of which invite each user came
through, which the code itself does not keep. -/
structure RegisterState where
  db : RegistrationDb
  calls : Table Nat RegisterCall
  createdThrough : List Nat

structure RegisterEnv where
  now : Time
  lower : String → String
  passwordHash : String → String

inductive RegisterEvent
  | setMode (mode : RegistrationMode)
  | createInvite (inviteId : Nat) (code : String) (maxUses : Int) (expiresAt : Option Time)
  | disableInvite (inviteId : Nat)
  | call (callId : Nat) (request : RegisterRequest)
  | advance (callId : Nat) (env : RegisterEnv)

def RegisterRequest.normalizedUsername (request : RegisterRequest) : String :=
  strip request.username

def RegisterRequest.normalizedEmail (request : RegisterRequest) (env : RegisterEnv) : String :=
  env.lower (strip request.email)

/-- The row `register_user` adds. -/
def RegisterRequest.user (request : RegisterRequest) (env : RegisterEnv)
    (mode : RegistrationMode) : User where
  username := request.normalizedUsername
  email := some (request.normalizedEmail env)
  passwordHash := env.passwordHash request.password
  status := if mode = .invite then .active else .pendingApproval

def registrationRejected : PyErr :=
  ⟨.registrationError, "registration rejected", 0⟩

def registrationClosed : PyErr :=
  ⟨.registrationClosedError, "registration is disabled", 0⟩

/-- The users that `_ensure_user_unique` asks for. A missing email equals none. -/
def User.takes (user : User) (username email : String) : Bool :=
  user.username = username || user.email = some email

def RegistrationDb.ensureUserUnique (db : RegistrationDb) (username email : String) :
    Except PyErr Unit :=
  if hasNul username || hasNul email then .error nulError
  else do
    let found ← scalarOneOrNone db.users fun _ user => user.takes username email
    if found.isSome then .error registrationRejected else .ok ()

def RegistrationDb.getUsableInvite (db : RegistrationDb) (code : String) (now : Time) :
    Option LoadedInvite :=
  match db.invites.first fun _ invite => invite.codeHash = inviteCodeHash code with
  | none => none
  | some (inviteId, invite) =>
    if invite.usable now then some ⟨inviteId, invite.usedCount⟩ else none

def RegistrationDb.register (db : RegistrationDb) (userId : Nat) (user : User)
    (invite : Option LoadedInvite) : RegistrationDb :=
  { db with
    users := AList.insert userId user db.users
    invites := match invite with
      | none => db.invites
      | some loaded =>
        db.invites.modify loaded.inviteId fun row => { row with usedCount := loaded.usedCount + 1 } }

namespace RegisterState

def empty (mode : RegistrationMode) : RegisterState :=
  ⟨⟨mode, ∅, ∅⟩, ∅, []⟩

def setStage (w : RegisterState) (callId : Nat) (call : RegisterCall) (stage : RegisterStage) :
    RegisterState :=
  { w with calls := AList.insert callId { call with stage } w.calls }

/-- The commit of `register_user`; the database may refuse it. The new user's
key is drawn with the call's. -/
def commit (w : RegisterState) (callId : Nat) (call : RegisterCall) (user : User)
    (invite : Option LoadedInvite) : RegisterState :=
  let db := w.db.register callId user invite
  if db.Constraints then
    { w with
      db
      createdThrough := (invite.map LoadedInvite.inviteId).toList ++ w.createdThrough }.setStage callId call
        .registered
  else
    w.setStage callId call
      (.raised ⟨.integrityError, "duplicate key value violates unique constraint", 0⟩)

def advance (w : RegisterState) (callId : Nat) (env : RegisterEnv) : RegisterState :=
  match w.calls.lookup callId with
  | none => w
  | some call =>
    match call.stage with
    | .started =>
      w.setStage callId call
        (if w.db.mode = .disabled then .raised registrationClosed else .opened w.db.mode)
    | .opened mode =>
      match w.db.ensureUserUnique call.request.normalizedUsername
          (call.request.normalizedEmail env) with
      | .error e => w.setStage callId call (.raised e)
      | .ok _ => w.setStage callId call (.unique mode)
    | .unique mode =>
      if mode = .invite then
        if truthy call.request.inviteCode then
          match w.db.getUsableInvite (call.request.inviteCode.getD "") env.now with
          | none => w.setStage callId call (.raised registrationRejected)
          | some loaded => w.setStage callId call (.checked mode (some loaded))
        else w.setStage callId call (.raised registrationRejected)
      else w.setStage callId call (.checked mode none)
    | .checked mode invite => w.commit callId call (call.request.user env mode) invite
    | .registered | .raised _ => w

def createInvite (w : RegisterState) (inviteId : Nat) (code : String) (maxUses : Int)
    (expiresAt : Option Time) : RegisterState :=
  let db :=
    { w.db with
      invites := AList.insert inviteId
        ⟨inviteCodeHash code, .active, (max 1 maxUses).toNat, 0, expiresAt⟩ w.db.invites }
  if (w.db.invites.lookup inviteId).isSome then w
  else if db.Constraints then { w with db }
  else w

def step (w : RegisterState) : RegisterEvent → RegisterState
  | .setMode mode => { w with db := { w.db with mode } }
  | .createInvite inviteId code maxUses expiresAt => w.createInvite inviteId code maxUses expiresAt
  | .disableInvite inviteId =>
    { w with
      db := { w.db with
        invites := w.db.invites.modify inviteId fun row => { row with status := .disabled } } }
  | .call callId request =>
    if (w.calls.lookup callId).isSome then w
    else { w with calls := AList.insert callId ⟨request, .started⟩ w.calls }
  | .advance callId env => w.advance callId env

end RegisterState

def registrationService (mode : RegistrationMode) : Machine RegisterState RegisterEvent where
  init := .empty mode
  step := RegisterState.step

end PluginRegistry
