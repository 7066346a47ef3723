import PluginRegistry.Services.RegistrationService

namespace PluginRegistry.Accounts
open Lib

inductive Role
  | admin | reviewer | user
  deriving DecidableEq, Repr

/-- A row of `users`. -/
structure Account where
  username : String
  email : Option String
  passwordHash : String
  role : Role
  status : UserStatus
  isActive : Bool
  deriving DecidableEq

/-- What `get_current_user` and `authenticate_user` ask of a row. -/
def Account.usable (account : Account) : Bool :=
  account.isActive && account.status = .active

/-- What an access token says; `exp` counts seconds. -/
structure Token where
  sub : Nat
  exp : Int
  deriving DecidableEq

structure UserCreate where
  username : String
  email : Option String
  password : String
  role : Role
  status : UserStatus
  deriving DecidableEq

/-- The arguments of `register_user`. -/
structure RegisterData where
  username : String
  email : String
  password : String
  deriving DecidableEq

/-- The settings that `bootstrap_admin_user` reads. -/
structure BootstrapSettings where
  username : String
  password : String
  role : String
  deriving DecidableEq

inductive Request
  | login (username password : String)
  | startup (settings : BootstrapSettings)
  | bootstrap (data : UserCreate)
  | register (data : RegisterData)
  | createUser (token : Token) (data : UserCreate)
  | approveUser (token : Token) (userId : Nat)
  | disableUser (token : Token) (userId : Nat)
  deriving DecidableEq

structure Env where
  now : Time
  lower : String → String
  getPasswordHash : String → String
  verifyPassword : String → String → Bool
  /-- Whether `jwt.decode` accepts the signature of a token that says this. -/
  verifySignature : Token → Bool
  accessTokenExpireMinutes : Int
  bootstrapApiEnabled : Bool
  registrationMode : RegistrationMode
  /-- Whether `_get_usable_invite` finds the code. -/
  inviteUsable : Bool

inductive Stage
  | started
  /-- The query for any user found none. -/
  | unclaimed (data : UserCreate)
  /-- `get_current_admin` has returned this row. -/
  | admitted (actorId : Nat) (actor : Account)
  /-- The row of another user is loaded. -/
  | loaded (actorId : Nat) (actor : Account) (row : Account)
  | checked (status : UserStatus)
  | finished
  | rejected (statusCode : Nat) (detail : String)
  deriving DecidableEq

structure Call where
  request : Request
  stage : Stage
  deriving DecidableEq

structure State where
  accounts : Table Nat Account
  /-- The tokens that logins have signed. -/
  tokens : List Token
  calls : Table Nat Call

inductive Event
  | call (callId : Nat) (request : Request)
  | advance (callId : Nat) (env : Env)

def createAccessToken (userId : Nat) (env : Env) : Token :=
  ⟨userId, ((env.now : Int) + env.accessTokenExpireMinutes * 60000000) / 1000000⟩

def decodeToken (env : Env) (token : Token) : Option Nat :=
  if env.verifySignature token ∧ ((env.now / 1000000 : Nat) : Int) ≤ token.exp then some token.sub
  else none

/-- The row `create_user` adds. -/
def UserCreate.account (data : UserCreate) (env : Env) : Account where
  username := data.username
  email := if truthy data.email then data.email.map fun email => env.lower (strip email) else none
  passwordHash := env.getPasswordHash data.password
  role := data.role
  status := data.status
  isActive := data.status ≠ .disabled

/-- The row `register_user` adds. -/
def RegisterData.account (data : RegisterData) (status : UserStatus) (env : Env) : Account where
  username := strip data.username
  email := some (env.lower (strip data.email))
  passwordHash := env.getPasswordHash data.password
  role := .user
  status := status
  isActive := true

/-- What `bootstrap_admin_user` would create. -/
def BootstrapSettings.user (settings : BootstrapSettings) : Option UserCreate :=
  let role := if (strip settings.role).isEmpty then "admin" else strip settings.role
  if (strip settings.username).isEmpty || settings.password.isEmpty then none
  else if role = "admin" then
    some ⟨strip settings.username, none, settings.password, .admin, .active⟩
  else if role = "reviewer" then
    some ⟨strip settings.username, none, settings.password, .reviewer, .active⟩
  else none

/-- The unique columns of `users`. -/
def Unique (accounts : Table Nat Account) : Prop :=
  ∀ i a, accounts.lookup i = some a → ∀ j b, accounts.lookup j = some b →
    a.username = b.username ∨ (a.email.isSome ∧ a.email = b.email) → i = j

instance (accounts : Table Nat Account) : Decidable (Unique accounts) :=
  inferInstanceAs (Decidable (∀ i a, accounts.lookup i = some a → _))

def Account.setStatus (row : Account) (status : UserStatus) (isActive : Bool)
    (current : Account) : Account :=
  { current with
    status := if row.status = status then current.status else status
    isActive := if row.isActive = isActive then current.isActive else isActive }

namespace State

def empty : State :=
  ⟨∅, [], ∅⟩

def setStage (w : State) (callId : Nat) (call : Call) (stage : Stage) : State :=
  { w with calls := AList.insert callId { call with stage } w.calls }

/-- The commit of a new row, whose key is drawn with the call's; the database may refuse it. -/
def addAccount (w : State) (callId : Nat) (call : Call) (account : Account) : State :=
  let accounts := AList.insert callId account w.accounts
  if Unique accounts then { w with accounts }.setStage callId call .finished
  else w.setStage callId call (.rejected 500 "Internal Server Error")

def login (w : State) (callId : Nat) (call : Call) (username password : String) (env : Env) :
    State :=
  match w.accounts.first fun _ account => account.username = username with
  | none => w.setStage callId call (.rejected 401 "Invalid username or password")
  | some (userId, account) =>
    if account.usable && env.verifyPassword password account.passwordHash then
      { w with tokens := createAccessToken userId env :: w.tokens }.setStage callId call .finished
    else w.setStage callId call (.rejected 401 "Invalid username or password")

/-- `get_current_admin`, with `get_current_user` below it. -/
def checkAdmin (w : State) (callId : Nat) (call : Call) (token : Token) (env : Env) : State :=
  match decodeToken env token with
  | none => w.setStage callId call (.rejected 401 "Invalid authentication credentials")
  | some userId =>
    match w.accounts.lookup userId with
    | none => w.setStage callId call (.rejected 401 "User not found")
    | some account =>
      if !account.usable then w.setStage callId call (.rejected 401 "User not found")
      else if account.role ≠ .admin then
        w.setStage callId call (.rejected 403 "Admin privileges required")
      else w.setStage callId call (.admitted userId account)

def claim (w : State) (callId : Nat) (call : Call) (data : UserCreate) (refusal : Stage) : State :=
  if w.accounts.entries.isEmpty then w.setStage callId call (.unclaimed data)
  else w.setStage callId call refusal

/-- The checks of `register_user`. -/
def register (w : State) (callId : Nat) (call : Call) (data : RegisterData) (env : Env) : State :=
  let account := data.account .active env
  if env.registrationMode = .disabled then
    w.setStage callId call (.rejected 403 "registration is disabled")
  else
    match scalarOneOrNone w.accounts fun _ other =>
        other.username = account.username || other.email = account.email with
    | .error _ => w.setStage callId call (.rejected 500 "Internal Server Error")
    | .ok (some _) => w.setStage callId call (.rejected 400 "registration rejected")
    | .ok none =>
      w.setStage callId call
        (if env.registrationMode = .approval then .checked .pendingApproval
          else if env.inviteUsable then .checked .active
          else .rejected 400 "registration rejected")

/-- `db.get(User, user_id)`, which a session answers itself for a row it has loaded. -/
def load (w : State) (callId : Nat) (call : Call) (actorId : Nat) (actor : Account)
    (userId : Nat) : State :=
  if userId = actorId then w.setStage callId call (.loaded actorId actor actor)
  else
    match w.accounts.lookup userId with
    | none => w.setStage callId call (.rejected 404 "User not found")
    | some row => w.setStage callId call (.loaded actorId actor row)

def setStatus (w : State) (callId : Nat) (call : Call) (userId : Nat) (row : Account)
    (status : UserStatus) (isActive : Bool) : State :=
  { w with accounts := w.accounts.modify userId (row.setStatus status isActive) }.setStage callId
    call .finished

def advance (w : State) (callId : Nat) (env : Env) : State :=
  match w.calls.lookup callId with
  | none => w
  | some call =>
    match call.request, call.stage with
    | .login username password, .started => w.login callId call username password env
    | .startup settings, .started =>
      match settings.user with
      | none => w.setStage callId call .finished
      | some data => w.claim callId call data .finished
    | .bootstrap data, .started =>
      if !env.bootstrapApiEnabled then
        w.setStage callId call (.rejected 403 "Bootstrap API is disabled")
      else w.claim callId call data (.rejected 403 "Bootstrap already completed")
    | .register data, .started => w.register callId call data env
    | .createUser token _, .started | .approveUser token _, .started
    | .disableUser token _, .started => w.checkAdmin callId call token env
    | .startup _, .unclaimed data | .bootstrap _, .unclaimed data =>
      w.addAccount callId call (data.account env)
    | .register data, .checked status => w.addAccount callId call (data.account status env)
    | .createUser _ data, .admitted _ _ => w.addAccount callId call (data.account env)
    | .approveUser _ userId, .admitted actorId actor
    | .disableUser _ userId, .admitted actorId actor => w.load callId call actorId actor userId
    | .approveUser _ userId, .loaded _ _ row => w.setStatus callId call userId row .active true
    | .disableUser _ userId, .loaded _ _ row => w.setStatus callId call userId row .disabled false
    | _, _ => w

def step (w : State) : Event → State
  | .call callId request =>
    if (w.calls.lookup callId).isSome then w
    else { w with calls := AList.insert callId ⟨request, .started⟩ w.calls }
  | .advance callId env => w.advance callId env

end State

def service : Machine State Event where
  init := .empty
  step := State.step

end PluginRegistry.Accounts
