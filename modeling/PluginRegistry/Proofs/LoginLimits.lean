import Mathlib.Data.List.Perm.Basic
import PluginRegistry.Proofs.Isolation
import PluginRegistry.Services.SecurityService

namespace PluginRegistry
open Lib

namespace RateLimiter

variable (limiter : RateLimiter)

/-- A check keeps a state or forgets it. -/
theorem lookup_retryAfter {states : RateLimitStates} {key k : String} {now : Time}
    {state : RateLimitState} (h : (limiter.retryAfter states key now).2.lookup k = some state) :
    states.lookup k = some state := by
  unfold retryAfter at h
  cases hs : states.lookup key with
  | none =>
    rw [hs] at h
    exact h
  | some found =>
    rw [hs] at h
    simp only [apply_ite Prod.snd, apply_ite (AList.lookup k)] at h
    split at h
    · exact h
    · split at h
      · rw [Table.lookup_erase_eq] at h
        split at h
        · cases h
        · exact h
      · exact h

theorem lookup_retryAfterAll {keys : List String} {states : RateLimitStates} {k : String}
    {now : Time} {state : RateLimitState}
    (h : (limiter.retryAfterAll states now keys).2.lookup k = some state) :
    states.lookup k = some state := by
  induction keys generalizing states with
  | nil => exact h
  | cons key keys ih => exact limiter.lookup_retryAfter (ih h)

theorem lookup_recordFailure (states : RateLimitStates) (key k : String) (now : Time) :
    (limiter.recordFailure states key now).lookup k =
      if k = key then some (limiter.countFailure (limiter.current states key now) now)
      else states.lookup k :=
  Table.lookup_insert_eq _ _ _ _

/-- A failure in an open window is one more than before. -/
theorem current_of_not_opens {states : RateLimitStates} {key : String} {now : Time}
    (h : limiter.opens states key now = false) :
    states.lookup key = some (limiter.current states key now) := by
  unfold opens at h
  unfold current
  cases hs : states.lookup key with
  | none =>
    rw [hs] at h
    cases h
  | some state =>
    rw [hs, Option.all_some] at h
    simp [h]

theorem current_of_opens {states : RateLimitStates} {key : String} {now : Time}
    (h : limiter.opens states key now = true) :
    limiter.current states key now = ⟨0, now, 0⟩ := by
  unfold opens at h
  unfold current
  cases hs : states.lookup key with
  | none => rfl
  | some state =>
    rw [hs, Option.all_some] at h
    simp [h]

end RateLimiter

/-- A username and a client never share a key. -/
theorem userKey_ne_ip (lower : String → String) (username clientIp : String) :
    userRateLimitKey lower username ≠ "ip:" ++ clientIp := by
  intro h
  have hlist := congrArg (fun s => s.toList.head?) h
  simp [userRateLimitKey, String.toList_append] at hlist

namespace LoginState

variable {cfg : LoginSettings} {w : LoginState}

def inWindow (w : LoginState) : Nat :=
  w.verifying.countP fun v => v.window == some w.windows

/-- Ending one verification takes at most one from the window. -/
theorem count_eraseIdx {v : Verification} {index : Nat} (p : Verification → Bool)
    (h : w.verifying[index]? = some v) :
    w.verifying.countP p ≤ (w.verifying.eraseIdx index).countP p + 1 := by
  obtain ⟨hlt, rfl⟩ := List.getElem?_eq_some_iff.mp h
  have hperm : (w.verifying[index] :: w.verifying.eraseIdx index).Perm w.verifying :=
    List.getElem_cons_eraseIdx_perm hlt
  rw [← hperm.countP_eq p, List.countP_cons]
  split <;> omega

/-- What a run keeps while no check overcommits: every verification of the
window has failed in it or still runs, and they are no more than the limit. -/
structure Counted (cfg : LoginSettings) (w : LoginState) : Prop where
  window : ∀ state, w.limits.lookup cfg.userKey = some state →
    w.started + 1 ≤ state.attempts + w.inWindow
  off : cfg.rateLimitEnabled = false → w.limits.lookup cfg.userKey = none
  bounded : w.started ≤ cfg.limiter.attempts

end LoginState

/-- The check lets a request through although the failures of the window and the
verifications that still run in it are more than the limit. -/
def LoginEvent.overcommits (cfg : LoginSettings) (w : LoginState) : LoginEvent → Bool
  | .login clientIp =>
    (w.checked cfg clientIp).1 == 0 &&
      (w.liveWindow cfg (w.checked cfg clientIp).2).any fun state =>
        cfg.limiter.attempts < state.attempts + w.inWindow
  | _ => false

namespace LoginState

variable {cfg : LoginSettings} {w : LoginState}

theorem lookup_checked {clientIp k : String} {state : RateLimitState}
    (h : (w.checked cfg clientIp).2.lookup k = some state) :
    w.limits.lookup k = some state := by
  unfold checked at h
  split at h
  · exact cfg.limiter.lookup_retryAfterAll h
  · exact h

theorem Counted.forget (h : w.Counted cfg) {limits : RateLimitStates}
    (hl : ∀ state, limits.lookup cfg.userKey = some state →
      w.limits.lookup cfg.userKey = some state) : Counted cfg { w with limits } where
  window state hs := h.window state (hl state hs)
  off hoff := by
    cases hs : limits.lookup cfg.userKey with
    | none => rfl
    | some state =>
      have hnone := hl state hs
      rw [h.off hoff] at hnone
      cases hnone
  bounded := h.bounded

/-- A login that does not overcommit keeps the count of its window. -/
theorem Counted.login (h : w.Counted cfg) (clientIp : String)
    (hgood : (LoginEvent.login clientIp).overcommits cfg w = false) :
    (w.login cfg clientIp).Counted cfg := by
  have hkept : Counted cfg { w with limits := (w.checked cfg clientIp).2 } :=
    h.forget fun _ hs => lookup_checked hs
  unfold LoginState.login
  dsimp only
  split
  · exact hkept
  · rename_i hpass
    have hzero : (w.checked cfg clientIp).1 = 0 := by omega
    cases hlive : w.liveWindow cfg (w.checked cfg clientIp).2 with
    | none =>
      refine ⟨fun state hs => ?_, hkept.off, h.bounded⟩
      have hwindow := hkept.window state hs
      simpa [inWindow] using hwindow
    | some state =>
      obtain ⟨hs, -⟩ := Option.filter_eq_some_iff.mp hlive
      have hwindow := h.window state (lookup_checked hs)
      have hroom : state.attempts + w.inWindow ≤ cfg.limiter.attempts := by
        simpa [LoginEvent.overcommits, hzero, hlive] using hgood
      refine ⟨fun other ho => ?_, hkept.off, ?_⟩
      · have hsame := hkept.window other ho
        simp only [inWindow, Option.isSome_some, if_true, List.countP_append,
          List.countP_singleton, beq_self_eq_true] at hsame ⊢
        omega
      · simp only [Option.isSome_some, if_true]
        omega

theorem lookup_failures (v : Verification) :
    ((loginRateLimitKeys cfg.lower v.clientIp cfg.username).foldl
      (fun limits key => cfg.limiter.recordFailure limits key w.clock) w.limits).lookup
        cfg.userKey =
      some (cfg.limiter.countFailure
        (cfg.limiter.current w.limits cfg.userKey w.clock) w.clock) := by
  simp only [loginRateLimitKeys, List.foldl_cons, List.foldl_nil]
  rw [RateLimiter.lookup_recordFailure, LoginSettings.userKey,
    if_neg (userKey_ne_ip _ _ _), RateLimiter.lookup_recordFailure, if_pos rfl]

/-- A verification that fails goes from the running ones to the attempts. -/
theorem Counted.failed (h : w.Counted cfg) (index : Nat) : (w.failed cfg index).Counted cfg := by
  unfold LoginState.failed
  cases hv : w.verifying[index]? with
  | none => exact h
  | some v =>
    dsimp only
    split
    · rename_i hon
      refine ⟨fun state hs => ?_, fun hoff => absurd hon (by simp [hoff]), ?_⟩
      · obtain rfl := Option.some.inj ((lookup_failures v).symm.trans hs)
        cases hopen : cfg.limiter.opens w.limits cfg.userKey w.clock with
        | true =>
          simp only [if_true, RateLimiter.countFailure, cfg.limiter.current_of_opens hopen]
          omega
        | false =>
          have hwindow := h.window _ (cfg.limiter.current_of_not_opens hopen)
          have hcount := count_eraseIdx (fun v => v.window == some w.windows) hv
          simp only [inWindow] at hwindow
          simp only [inWindow, RateLimiter.countFailure, if_neg Bool.false_ne_true]
          omega
      · split
        · exact Nat.zero_le _
        · exact h.bounded
    · rename_i hoff
      refine ⟨fun state hs => ?_, h.off, h.bounded⟩
      rw [h.off (Bool.eq_false_of_not_eq_true hoff)] at hs
      cases hs

theorem lookup_successes (v : Verification) :
    ((loginRateLimitKeys cfg.lower v.clientIp cfg.username).foldl
      RateLimiter.recordSuccess w.limits).lookup cfg.userKey = none := by
  simp only [loginRateLimitKeys, List.foldl_cons, List.foldl_nil, RateLimiter.recordSuccess]
  rw [Table.lookup_erase_eq, LoginSettings.userKey, if_neg (userKey_ne_ip _ _ _),
    Table.lookup_erase_eq, if_pos rfl]

theorem Counted.succeeded (h : w.Counted cfg) (index : Nat) :
    (w.succeeded cfg index).Counted cfg := by
  unfold LoginState.succeeded
  cases w.verifying[index]? with
  | none => exact h
  | some v =>
    dsimp only
    split
    · refine ⟨fun state hs => ?_, fun _ => lookup_successes v, h.bounded⟩
      have hnone := (lookup_successes v).symm.trans hs
      cases hnone
    · rename_i hoff
      have hnone := h.off (Bool.eq_false_of_not_eq_true hoff)
      refine ⟨fun state hs => ?_, h.off, h.bounded⟩
      cases hnone.symm.trans hs

theorem Counted.step (h : w.Counted cfg) (e : LoginEvent) (hgood : e.overcommits cfg w = false) :
    (w.step cfg e).Counted cfg := by
  cases e with
  | wait duration => exact ⟨h.window, h.off, h.bounded⟩
  | login clientIp => exact h.login clientIp hgood
  | failed index => exact h.failed index
  | succeeded index => exact h.succeeded index

end LoginState

theorem loginEndpoint_counted (cfg : LoginSettings) : (loginEndpoint cfg).init.Counted cfg :=
  ⟨fun _ h => (by cases h), fun _ => rfl, Nat.zero_le _⟩

/-- While no check lets a request through past the limit, no window sees more
verifications than the limit. -/
theorem logins_bounded (cfg : LoginSettings) (events : List LoginEvent)
    (h : ∀ s ∈ (loginEndpoint cfg).steps (loginEndpoint cfg).init events,
      s.2.overcommits cfg s.1 = false) :
    ∀ w ∈ (loginEndpoint cfg).states (loginEndpoint cfg).init events,
      w.started ≤ cfg.limiter.attempts :=
  fun w hw => (Machine.guarded_run (LoginState.Counted cfg)
    (fun w e => e.overcommits cfg w = false) (fun _ e hs he => hs.step e he)
    (loginEndpoint_counted cfg) h w hw).bounded

def guessesInTurn : List LoginEvent :=
  [.login "198.51.100.20", .failed 0, .login "198.51.100.20", .failed 0,
    .login "198.51.100.20", .failed 0, .login "198.51.100.20", .failed 0,
    .login "198.51.100.20", .failed 0, .login "198.51.100.20"]

theorem logins_bounded_in_turn :
    (∀ s ∈ (loginEndpoint (.default "admin")).steps (loginEndpoint (.default "admin")).init
        guessesInTurn, s.2.overcommits (.default "admin") s.1 = false) ∧
      ∀ w ∈ (loginEndpoint (.default "admin")).states (loginEndpoint (.default "admin")).init
        guessesInTurn, w.started ≤ (LoginSettings.default "admin").limiter.attempts := by
  have h : ∀ s ∈ (loginEndpoint (.default "admin")).steps (loginEndpoint (.default "admin")).init
      guessesInTurn, s.2.overcommits (.default "admin") s.1 = false := by
    decide +kernel
  exact ⟨h, logins_bounded _ _ h⟩

/-- One wrong password opens the window, then six requests arrive before any
of them is answered. -/
def guessesAtOnce : List LoginEvent :=
  [.login "198.51.100.20", .failed 0, .login "198.51.100.20", .login "198.51.100.20",
    .login "198.51.100.20", .login "198.51.100.20", .login "198.51.100.20",
    .login "198.51.100.20"]

theorem guesses_at_once_exceed :
    ¬ ∀ (cfg : LoginSettings) (events : List LoginEvent),
      (∀ e ∈ events, ∀ index, e ≠ .succeeded index) →
      ∀ w ∈ (loginEndpoint cfg).states (loginEndpoint cfg).init events,
        w.started ≤ cfg.limiter.attempts := by
  intro h
  have hbound := h (.default "admin") guessesAtOnce
    (fun e he index heq => by
      subst heq
      simp [guessesAtOnce] at he)
    _ (Machine.run_mem_states _ _)
  have hstarted : ¬ ((loginEndpoint (.default "admin")).runFrom
      (loginEndpoint (.default "admin")).init guessesAtOnce).started ≤
      (LoginSettings.default "admin").limiter.attempts := by
    decide +kernel
  exact hstarted hbound

end PluginRegistry
