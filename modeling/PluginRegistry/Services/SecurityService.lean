import PluginRegistry.Lib.Machine
import PluginRegistry.Lib.Table
import PluginRegistry.Python.Datetime
import PluginRegistry.Python.Text

namespace PluginRegistry
open Lib

structure RateLimitState where
  attempts : Nat
  windowStartedAt : Time
  blockedUntil : Time
  deriving DecidableEq

/-- The limits of an `InMemoryRateLimiter`. -/
structure RateLimiter where
  attempts : Nat
  windowSeconds : Nat
  blockSeconds : Nat
  attemptsPos : 0 < attempts
  windowPos : 0 < windowSeconds
  blockPos : 0 < blockSeconds

/-- `InMemoryRateLimiter.__init__`: no limit is below one. -/
def RateLimiter.new (attempts windowSeconds blockSeconds : Int) : RateLimiter where
  attempts := (max 1 attempts).toNat
  windowSeconds := (max 1 windowSeconds).toNat
  blockSeconds := (max 1 blockSeconds).toNat
  attemptsPos := by omega
  windowPos := by omega
  blockPos := by omega

/-- `_states`. -/
abbrev RateLimitStates := Table String RateLimitState

namespace RateLimiter

variable (limiter : RateLimiter)

def expired (state : RateLimitState) (now : Time) : Bool :=
  state.windowStartedAt + seconds limiter.windowSeconds < now

def retryAfter (states : RateLimitStates) (key : String) (now : Time) : Nat × RateLimitStates :=
  match states.lookup key with
  | none => (0, states)
  | some state =>
    if now < state.blockedUntil then
      (max 1 ((state.blockedUntil - now + 999999) / 1000000), states)
    else if limiter.expired state now then (0, AList.erase key states)
    else (0, states)

def opens (states : RateLimitStates) (key : String) (now : Time) : Bool :=
  (states.lookup key).all (limiter.expired · now)

/-- The state that `record_failure` counts on. -/
def current (states : RateLimitStates) (key : String) (now : Time) : RateLimitState :=
  match states.lookup key with
  | none => ⟨0, now, 0⟩
  | some state => if limiter.expired state now then ⟨0, now, 0⟩ else state

def countFailure (state : RateLimitState) (now : Time) : RateLimitState where
  attempts := state.attempts + 1
  windowStartedAt := state.windowStartedAt
  blockedUntil :=
    if limiter.attempts ≤ state.attempts + 1 then now + seconds limiter.blockSeconds
    else state.blockedUntil

def recordFailure (states : RateLimitStates) (key : String) (now : Time) : RateLimitStates :=
  AList.insert key (limiter.countFailure (limiter.current states key now) now) states

def recordSuccess (states : RateLimitStates) (key : String) : RateLimitStates :=
  AList.erase key states

/-- The largest `retry_after` over several keys. -/
def retryAfterAll (states : RateLimitStates) (now : Time) : List String → Nat × RateLimitStates
  | [] => (0, states)
  | key :: keys =>
    let (first, states) := limiter.retryAfter states key now
    let (rest, states) := retryAfterAll states now keys
    (max first rest, states)

end RateLimiter

inductive LimiterCall
  | retryAfter (key : String)
  | recordFailure (key : String)
  | recordSuccess (key : String)
  deriving DecidableEq

structure TimedCall where
  elapsed : Time
  call : LimiterCall
  deriving DecidableEq

/-- `_states` and the time of the last call. -/
structure LimiterState where
  clock : Time
  states : RateLimitStates

namespace RateLimiter

variable (limiter : RateLimiter)

def handle (states : RateLimitStates) (now : Time) : LimiterCall → RateLimitStates
  | .retryAfter key => (limiter.retryAfter states key now).2
  | .recordFailure key => limiter.recordFailure states key now
  | .recordSuccess key => recordSuccess states key

def calls : Machine LimiterState TimedCall where
  init := ⟨0, ∅⟩
  step w e := ⟨w.clock + e.elapsed, limiter.handle w.states (w.clock + e.elapsed) e.call⟩

end RateLimiter

def userRateLimitKey (lower : String → String) (username : String) : String :=
  let username := lower (strip username)
  "user:" ++ (if username.isEmpty then "<empty>" else username)

def loginRateLimitKeys (lower : String → String) (clientIp username : String) : List String :=
  [userRateLimitKey lower username, "ip:" ++ clientIp]

/-- What the login endpoint reads from the settings, and the username its requests name. -/
structure LoginSettings where
  rateLimitEnabled : Bool
  limiter : RateLimiter
  lower : String → String
  username : String

/-- The defaults of `Settings`. -/
def LoginSettings.default (username : String) : LoginSettings :=
  ⟨true, .new 5 300 900, id, username⟩

def LoginSettings.userKey (cfg : LoginSettings) : String :=
  userRateLimitKey cfg.lower cfg.username

structure Verification where
  clientIp : String
  window : Option Nat

/-- The limiter, the requests that verify a password, and a record that the code
does not keep: how many windows the user key has had, and how many verifications
have started in the last one before it expired or its block was over. -/
structure LoginState where
  clock : Time
  limits : RateLimitStates
  verifying : List Verification
  windows : Nat
  started : Nat

/-- `login` up to the password check, the end of a password check by position
among those under way, and time. -/
inductive LoginEvent
  | wait (duration : Time)
  | login (clientIp : String)
  | failed (index : Nat)
  | succeeded (index : Nat)

namespace LoginState

def checked (cfg : LoginSettings) (w : LoginState) (clientIp : String) : Nat × RateLimitStates :=
  if cfg.rateLimitEnabled then
    cfg.limiter.retryAfterAll w.limits w.clock (loginRateLimitKeys cfg.lower clientIp cfg.username)
  else (0, w.limits)

def liveWindow (cfg : LoginSettings) (w : LoginState) (limits : RateLimitStates) :
    Option RateLimitState :=
  (limits.lookup cfg.userKey).filter fun state =>
    !cfg.limiter.expired state w.clock && (state.blockedUntil = 0 || w.clock < state.blockedUntil)

def login (cfg : LoginSettings) (w : LoginState) (clientIp : String) : LoginState :=
  let (retryAfter, limits) := w.checked cfg clientIp
  if 0 < retryAfter then { w with limits }
  else
    let live := (w.liveWindow cfg limits).isSome
    { w with
      limits
      verifying := w.verifying ++ [⟨clientIp, if live then some w.windows else none⟩]
      started := if live then w.started + 1 else w.started }

def failed (cfg : LoginSettings) (w : LoginState) (index : Nat) : LoginState :=
  match w.verifying[index]? with
  | none => w
  | some v =>
    let w := { w with verifying := w.verifying.eraseIdx index }
    if cfg.rateLimitEnabled then
      let opened := cfg.limiter.opens w.limits cfg.userKey w.clock
      { w with
        limits := (loginRateLimitKeys cfg.lower v.clientIp cfg.username).foldl
          (fun limits key => cfg.limiter.recordFailure limits key w.clock) w.limits
        windows := if opened then w.windows + 1 else w.windows
        started := if opened then 0 else w.started }
    else w

def succeeded (cfg : LoginSettings) (w : LoginState) (index : Nat) : LoginState :=
  match w.verifying[index]? with
  | none => w
  | some v =>
    let w := { w with verifying := w.verifying.eraseIdx index }
    if cfg.rateLimitEnabled then
      { w with
        limits := (loginRateLimitKeys cfg.lower v.clientIp cfg.username).foldl
          RateLimiter.recordSuccess w.limits }
    else w

def step (cfg : LoginSettings) (w : LoginState) : LoginEvent → LoginState
  | .wait duration => { w with clock := w.clock + duration }
  | .login clientIp => w.login cfg clientIp
  | .failed index => w.failed cfg index
  | .succeeded index => w.succeeded cfg index

end LoginState

def loginEndpoint (cfg : LoginSettings) : Machine LoginState LoginEvent where
  init := ⟨0, ∅, [], 0, 0⟩
  step := LoginState.step cfg

end PluginRegistry
