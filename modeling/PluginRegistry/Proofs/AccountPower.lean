import PluginRegistry.Lib.History
import PluginRegistry.Proofs.TaskTexts
import PluginRegistry.Services.Accounts

namespace PluginRegistry.Accounts
open Lib

def Request.token : Request → Option Token
  | .createUser token _ | .approveUser token _ | .disableUser token _ => some token
  | _ => none

def Stage.settled : Stage → Prop
  | .finished | .rejected _ _ | .checked _ => True
  | _ => False

def Request.Sets : Request → Nat → UserStatus → Bool → Prop
  | .approveUser _ userId, i, status, isActive => i = userId ∧ status = .active ∧ isActive = true
  | .disableUser _ userId, i, status, isActive => i = userId ∧ status = .disabled ∧ isActive = false
  | _, _, _, _ => False

inductive Effect (w : State) (callId : Nat) (env : Env) : State → Prop
  | nothing : Effect w callId env w
  | settles {call : Call} {stage : Stage} (hcall : w.calls.lookup callId = some call)
      (hopen : call.stage ≠ .finished) (hstage : stage.settled) :
      Effect w callId env (w.setStage callId call stage)
  | claims {call : Call} {data : UserCreate} (hcall : w.calls.lookup callId = some call)
      (hopen : call.stage ≠ .finished) (hnone : w.accounts.entries = []) :
      Effect w callId env (w.setStage callId call (.unclaimed data))
  | signsIn {username password : String} {userId : Nat} {account : Account}
      (hcall : w.calls.lookup callId = some ⟨.login username password, .started⟩)
      (haccount : w.accounts.lookup userId = some account) (hname : account.username = username)
      (husable : account.usable = true)
      (hpassword : env.verifyPassword password account.passwordHash = true) :
      Effect w callId env ({ w with tokens := createAccessToken userId env :: w.tokens }.setStage
        callId ⟨.login username password, .started⟩ .finished)
  | admits {request : Request} {token : Token} {actorId : Nat} {actor : Account}
      (hcall : w.calls.lookup callId = some ⟨request, .started⟩)
      (htoken : request.token = some token)
      (hdecoded : decodeToken env token = some actorId)
      (hactor : w.accounts.lookup actorId = some actor) (husable : actor.usable = true)
      (hrole : actor.role = .admin) :
      Effect w callId env (w.setStage callId ⟨request, .started⟩ (.admitted actorId actor))
  | loads {call : Call} {actorId : Nat} {actor row : Account}
      (hcall : w.calls.lookup callId = some call) (hstage : call.stage = .admitted actorId actor) :
      Effect w callId env (w.setStage callId call (.loaded actorId actor row))
  | adds {call : Call} {account : Account} (hcall : w.calls.lookup callId = some call)
      (hopen : call.stage ≠ .finished)
      (horigin : account.role = .user ∨ (∃ data, call.stage = .unclaimed data) ∨
        ∃ actorId actor, call.stage = .admitted actorId actor) :
      Effect w callId env ({ w with accounts := AList.insert callId account w.accounts }.setStage
        callId call .finished)
  | changes {call : Call} {actorId userId : Nat} {actor row : Account} {status : UserStatus}
      {isActive : Bool} (hcall : w.calls.lookup callId = some call)
      (hstage : call.stage = .loaded actorId actor row)
      (hsets : call.request.Sets userId status isActive) :
      Effect w callId env (w.setStatus callId call userId row status isActive)

section Steps

variable {w : State} {callId : Nat} {env : Env} {call : Call}

theorem admit_effect {request : Request} {token : Token}
    (hcall : w.calls.lookup callId = some ⟨request, .started⟩) (htoken : request.token = some token) :
    Effect w callId env (w.checkAdmin callId ⟨request, .started⟩ token env) := by
  unfold State.checkAdmin
  split
  · exact .settles hcall (by simp) trivial
  · rename_i userId hdecoded
    split
    · exact .settles hcall (by simp) trivial
    · rename_i account haccount
      split
      · exact .settles hcall (by simp) trivial
      · rename_i husable
        split
        · exact .settles hcall (by simp) trivial
        · rename_i hrole
          exact .admits hcall htoken hdecoded haccount (by simpa using husable) (by simpa using hrole)

theorem addAccount_effect {account : Account} (hcall : w.calls.lookup callId = some call)
    (hopen : call.stage ≠ .finished)
    (horigin : account.role = .user ∨ (∃ data, call.stage = .unclaimed data) ∨
      ∃ actorId actor, call.stage = .admitted actorId actor) :
    Effect w callId env (w.addAccount callId call account) := by
  unfold State.addAccount
  dsimp only
  split
  · exact .adds hcall hopen horigin
  · exact .settles hcall hopen trivial

theorem claim_effect {data : UserCreate} {refusal : Stage}
    (hcall : w.calls.lookup callId = some call) (hopen : call.stage ≠ .finished)
    (hrefusal : refusal.settled) :
    Effect w callId env (w.claim callId call data refusal) := by
  unfold State.claim
  split
  · rename_i hnone
    exact .claims hcall hopen (List.isEmpty_iff.mp hnone)
  · exact .settles hcall hopen hrefusal

theorem load_effect {actorId userId : Nat} {actor : Account}
    (hcall : w.calls.lookup callId = some call) (hstage : call.stage = .admitted actorId actor) :
    Effect w callId env (w.load callId call actorId actor userId) := by
  unfold State.load
  split
  · exact .loads hcall hstage
  · split
    · exact .settles hcall (by simp [hstage]) trivial
    · exact .loads hcall hstage

theorem login_effect {username password : String}
    (hcall : w.calls.lookup callId = some ⟨.login username password, .started⟩) :
    Effect w callId env (w.login callId ⟨.login username password, .started⟩ username password env) := by
  unfold State.login
  split
  · exact .settles hcall (by simp) trivial
  · rename_i userId account hfirst
    obtain ⟨haccount, hname⟩ := Table.first_some hfirst
    split
    · rename_i hchecks
      obtain ⟨husable, hpassword⟩ := Bool.and_eq_true_iff.mp hchecks
      exact .signsIn hcall haccount (by simpa using hname) husable hpassword
    · exact .settles hcall (by simp) trivial

theorem register_effect {data : RegisterData} (hcall : w.calls.lookup callId = some call)
    (hopen : call.stage ≠ .finished) :
    Effect w callId env (w.register callId call data env) := by
  unfold State.register
  dsimp only
  split
  · exact .settles hcall hopen trivial
  · split
    · exact .settles hcall hopen trivial
    · exact .settles hcall hopen trivial
    · apply Effect.settles hcall hopen
      split
      · trivial
      · split <;> trivial

/-- Every stage of a call is one of the effects, so that no later proof looks at the code
again. -/
theorem advance_effect (w : State) (callId : Nat) (env : Env) :
    Effect w callId env (w.advance callId env) := by
  unfold State.advance
  cases hcall : w.calls.lookup callId with
  | none => exact .nothing
  | some call =>
    obtain ⟨request, stage⟩ := call
    dsimp only
    split
    · exact login_effect hcall
    · split
      · exact .settles hcall (by simp) trivial
      · exact claim_effect hcall (by simp) trivial
    · split
      · exact .settles hcall (by simp) trivial
      · exact claim_effect hcall (by simp) trivial
    · exact register_effect hcall (by simp)
    · exact admit_effect hcall rfl
    · exact admit_effect hcall rfl
    · exact admit_effect hcall rfl
    · exact addAccount_effect hcall (by simp) (.inr (.inl ⟨_, rfl⟩))
    · exact addAccount_effect hcall (by simp) (.inr (.inl ⟨_, rfl⟩))
    · exact addAccount_effect hcall (by simp) (.inl rfl)
    · exact addAccount_effect hcall (by simp) (.inr (.inr ⟨_, _, rfl⟩))
    · exact load_effect hcall rfl
    · exact load_effect hcall rfl
    · exact .changes hcall rfl ⟨rfl, rfl, rfl⟩
    · exact .changes hcall rfl ⟨rfl, rfl, rfl⟩
    · exact .nothing

end Steps

/-- The key of a row is that of the request that added it, which is then finished. -/
def Keyed (w : State) : Prop :=
  ∀ i account, w.accounts.lookup i = some account →
    ∃ call, w.calls.lookup i = some call ∧ call.stage = .finished

namespace Keyed

variable {w : State} {callId : Nat} {env : Env} {call : Call} {stage : Stage}

/-- No row has the key of a request that is not finished. -/
theorem free (h : Keyed w) (hcall : w.calls.lookup callId = some call)
    (hopen : call.stage ≠ .finished) : w.accounts.lookup callId = none := by
  cases haccount : w.accounts.lookup callId with
  | none => rfl
  | some account =>
    obtain ⟨other, hother, hfinished⟩ := h callId account haccount
    obtain rfl := Option.some.inj (hcall.symm.trans hother)
    exact absurd hfinished hopen

theorem setStage (h : Keyed w) (hcall : w.calls.lookup callId = some call)
    (hopen : call.stage ≠ .finished) : Keyed (w.setStage callId call stage) := by
  intro i account haccount
  have hne : i ≠ callId := by
    rintro rfl
    cases (h.free hcall hopen).symm.trans haccount
  rw [State.setStage, Table.lookup_insert_eq, if_neg hne]
  exact h i account haccount

theorem addAccount (h : Keyed w) (account : Account) :
    Keyed ({ w with accounts := AList.insert callId account w.accounts }.setStage callId call
      .finished) := by
  intro i other hother
  change (AList.insert callId account w.accounts).lookup i = some other at hother
  rw [Table.lookup_insert_eq] at hother
  rw [State.setStage, Table.lookup_insert_eq]
  split at hother
  · rename_i heq
    rw [if_pos heq]
    exact ⟨_, rfl, rfl⟩
  · rename_i hne
    rw [if_neg hne]
    exact h i other hother

theorem modify (h : Keyed w) (userId : Nat) (f : Account → Account) :
    Keyed { w with accounts := w.accounts.modify userId f } := by
  intro i account haccount
  change (w.accounts.modify userId f).lookup i = some account at haccount
  rw [Table.lookup_modify] at haccount
  split at haccount
  · obtain ⟨old, hold, -⟩ := Option.map_eq_some_iff.mp haccount
    exact h i old hold
  · exact h i account haccount

theorem effect (h : Keyed w) {next : State} (heffect : Effect w callId env next) : Keyed next := by
  cases heffect with
  | nothing => exact h
  | settles hcall hopen hstage => exact h.setStage hcall hopen
  | claims hcall hopen hnone => exact h.setStage hcall hopen
  | signsIn hcall haccount hname husable hpassword =>
    rename_i username password userId account
    have hsigned : Keyed { w with tokens := createAccessToken userId env :: w.tokens } := h
    exact hsigned.setStage hcall (by simp)
  | admits hcall htoken hdecoded hactor husable hrole => exact h.setStage hcall (by simp)
  | loads hcall hstage => exact h.setStage hcall (by simp [hstage])
  | adds hcall hopen horigin => exact h.addAccount _
  | changes hcall hstage hsets =>
    exact (h.modify _ _).setStage hcall (by simp [hstage])

theorem step (h : Keyed w) (e : Event) : Keyed (w.step e) := by
  cases e with
  | advance callId env => exact h.effect (advance_effect w callId env)
  | call callId request =>
    rw [State.step]
    split
    · exact h
    · rename_i hnone
      intro i account haccount
      obtain ⟨other, hother, hfinished⟩ := h i account haccount
      refine ⟨other, ?_, hfinished⟩
      change (AList.insert callId _ w.calls).lookup i = some other
      rw [Table.lookup_insert_eq, if_neg, hother]
      rintro rfl
      exact hnone (hother ▸ rfl)

theorem reachable (h : service.Reachable w) : Keyed w := by
  apply h.induct Keyed
  · intro i account haccount
    cases haccount
  · exact fun s e hs => hs.step e

end Keyed

abbrev History := List (State × Event)

def LoggedIn (past : History) (token : Token) : Prop :=
  ∃ w callId env username password account, (w, .advance callId env) ∈ past ∧
    w.calls.lookup callId = some ⟨.login username password, .started⟩ ∧
    w.accounts.lookup token.sub = some account ∧ account.username = username ∧
    account.usable = true ∧ env.verifyPassword password account.passwordHash = true ∧
    token = createAccessToken token.sub env

def Admitted (past : History) (callId actorId : Nat) (actor : Account) : Prop :=
  ∃ before w env after request token, past = before ++ (w, .advance callId env) :: after ∧
    w.calls.lookup callId = some ⟨request, .started⟩ ∧ request.token = some token ∧
    decodeToken env token = some actorId ∧
    w.accounts.lookup actorId = some actor ∧ actor.usable = true ∧ actor.role = .admin ∧
    LoggedIn before token

def Claimed (past : History) (callId : Nat) : Prop :=
  ∃ w env, (w, .advance callId env) ∈ past ∧ w.accounts.entries = []

inductive Rooted (past : History) : Nat → Prop
  | claimed {callId : Nat} (hclaim : Claimed past callId) : Rooted past callId
  | created {callId actorId : Nat} {actor : Account} (hadmitted : Admitted past callId actorId actor)
      (hactor : Rooted past actorId) : Rooted past callId

section Later

variable {past : History} {x : State × Event} {callId actorId : Nat} {actor : Account}

theorem LoggedIn.later {token : Token} (h : LoggedIn past token) : LoggedIn (past ++ [x]) token := by
  obtain ⟨w, i, env, username, password, account, hmem, hrest⟩ := h
  exact ⟨w, i, env, username, password, account, List.mem_append_left _ hmem, hrest⟩

theorem Admitted.later (h : Admitted past callId actorId actor) :
    Admitted (past ++ [x]) callId actorId actor := by
  obtain ⟨before, w, env, after, request, token, rfl, hrest⟩ := h
  refine ⟨before, w, env, after ++ [x], request, token, ?_, hrest⟩
  rw [List.append_assoc]
  rfl

theorem Claimed.later (h : Claimed past callId) : Claimed (past ++ [x]) callId := by
  obtain ⟨w, env, hmem, hnone⟩ := h
  exact ⟨w, env, List.mem_append_left _ hmem, hnone⟩

theorem Rooted.later (h : Rooted past callId) : Rooted (past ++ [x]) callId := by
  induction h with
  | claimed hclaim => exact .claimed hclaim.later
  | created hadmitted _ ih => exact .created hadmitted.later ih

end Later

def Backed (past : History) (callId : Nat) : Stage → Prop
  | .unclaimed _ => Claimed past callId
  | .admitted actorId actor | .loaded actorId actor _ =>
    Admitted past callId actorId actor ∧ Rooted past actorId
  | _ => True

theorem Backed.later {past : History} {callId : Nat} {stage : Stage} (x : State × Event)
    (h : Backed past callId stage) : Backed (past ++ [x]) callId stage := by
  cases stage with
  | unclaimed data => exact Claimed.later h
  | admitted actorId actor => exact ⟨h.1.later, h.2.later⟩
  | loaded actorId actor row => exact ⟨h.1.later, h.2.later⟩
  | _ => trivial

theorem backed_of_settled {past : History} {callId : Nat} {stage : Stage} (h : stage.settled) :
    Backed past callId stage := by
  cases stage <;> trivial

structure Sound (past : History) (w : State) : Prop where
  tokens : ∀ token ∈ w.tokens, LoggedIn past token
  roots : ∀ i account, w.accounts.lookup i = some account → account.role ≠ .user → Rooted past i
  calls : ∀ i call, w.calls.lookup i = some call → Backed past i call.stage

/-- Signatures cannot be forged: what the step accepts was signed by a login before. -/
def State.Unforged (w : State) : Event → Prop
  | .call _ _ => True
  | .advance _ env => ∀ token, env.verifySignature token = true → token ∈ w.tokens

@[simp] theorem Account.setStatus_role (row : Account) (status : UserStatus) (isActive : Bool)
    (current : Account) : (row.setStatus status isActive current).role = current.role := rfl

namespace Sound

variable {past : History} {w : State} {callId : Nat} {env : Env} {call : Call} {stage : Stage}

theorem later (h : Sound past w) (x : State × Event) : Sound (past ++ [x]) w where
  tokens := fun token htoken => (h.tokens token htoken).later
  roots := fun i account haccount hrole => (h.roots i account haccount hrole).later
  calls := fun i call hcall => (h.calls i call hcall).later x

theorem setStage (h : Sound past w) (call : Call) (hbacked : Backed past callId stage) :
    Sound past (w.setStage callId call stage) where
  tokens := h.tokens
  roots := h.roots
  calls := by
    intro i other hother
    rw [State.setStage, Table.lookup_insert_eq] at hother
    split at hother
    · rename_i heq
      obtain rfl := Option.some.inj hother
      exact heq ▸ hbacked
    · exact h.calls i other hother

theorem addAccount (h : Sound past w) {account : Account}
    (hroot : account.role ≠ .user → Rooted past callId) :
    Sound past ({ w with accounts := AList.insert callId account w.accounts }.setStage callId call
      .finished) where
  tokens := h.tokens
  roots := by
    intro i other hother hrole
    change (AList.insert callId account w.accounts).lookup i = some other at hother
    rw [Table.lookup_insert_eq] at hother
    split at hother
    · rename_i heq
      obtain rfl := Option.some.inj hother
      exact heq ▸ hroot hrole
    · exact h.roots i other hother hrole
  calls := by
    intro i other hother
    rw [State.setStage, Table.lookup_insert_eq] at hother
    split at hother
    · obtain rfl := Option.some.inj hother
      trivial
    · exact h.calls i other hother

theorem setStatus (h : Sound past w) (call : Call) (userId : Nat) (row : Account)
    (status : UserStatus) (isActive : Bool) :
    Sound past (w.setStatus callId call userId row status isActive) := by
  have hmodified : Sound past
      { w with accounts := w.accounts.modify userId (row.setStatus status isActive) } := by
    refine ⟨h.tokens, ?_, h.calls⟩
    intro i account haccount hrole
    change (w.accounts.modify userId _).lookup i = some account at haccount
    rw [Table.lookup_modify] at haccount
    split at haccount
    · obtain ⟨old, hold, rfl⟩ := Option.map_eq_some_iff.mp haccount
      exact h.roots i old hold hrole
    · exact h.roots i account haccount hrole
  exact hmodified.setStage call trivial

/-- A stage of a call keeps what the history accounts for. Tokens are read here alone, and
here they must be unforged. -/
theorem advance (h : Sound past w) (hunforged : w.Unforged (.advance callId env)) :
    Sound (past ++ [(w, .advance callId env)]) (w.advance callId env) := by
  have hlater := h.later (w, .advance callId env)
  have hlast : (w, Event.advance callId env) ∈ past ++ [(w, .advance callId env)] :=
    List.mem_append_right _ List.mem_cons_self
  have heffect := advance_effect w callId env
  revert heffect
  generalize w.advance callId env = after
  intro heffect
  cases heffect with
  | nothing => exact hlater
  | settles hcall hopen hstage => exact hlater.setStage _ (backed_of_settled hstage)
  | claims hcall hopen hnone => exact hlater.setStage _ ⟨w, env, hlast, hnone⟩
  | signsIn hcall haccount hname husable hpassword =>
    rename_i username password userId account
    have htoken : LoggedIn (past ++ [(w, .advance callId env)]) (createAccessToken userId env) :=
      ⟨w, callId, env, username, password, account, hlast, hcall, haccount, hname, husable,
        hpassword, rfl⟩
    have hsigned : Sound (past ++ [(w, .advance callId env)])
        { w with tokens := createAccessToken userId env :: w.tokens } :=
      ⟨List.forall_mem_cons.mpr ⟨htoken, hlater.tokens⟩, hlater.roots, hlater.calls⟩
    exact hsigned.setStage _ trivial
  | admits hcall htoken hdecoded hactor husable hrole =>
    rename_i request token actorId actor
    have hsigned : LoggedIn past token := by
      apply h.tokens
      apply hunforged
      by_contra hno
      rw [decodeToken, if_neg fun hc => hno hc.1] at hdecoded
      cases hdecoded
    have hadmitted : Admitted (past ++ [(w, .advance callId env)]) callId actorId actor :=
      ⟨past, w, env, [], request, token, rfl, hcall, htoken, hdecoded, hactor, husable, hrole,
        hsigned⟩
    have hroot := hlater.roots actorId actor hactor (by simp [hrole])
    exact hlater.setStage _ ⟨hadmitted, hroot⟩
  | loads hcall hstage =>
    have hbacked := hlater.calls callId _ hcall
    rw [hstage] at hbacked
    exact hlater.setStage _ hbacked
  | adds hcall hopen horigin =>
    have hbacked := hlater.calls callId _ hcall
    apply hlater.addAccount
    intro hrole
    rcases horigin with hrole' | ⟨data, hstage⟩ | ⟨actorId, actor, hstage⟩
    · exact absurd hrole' hrole
    · rw [hstage] at hbacked
      exact .claimed hbacked
    · rw [hstage] at hbacked
      exact .created hbacked.1 hbacked.2
  | changes hcall hstage hsets => exact hlater.setStatus ..

theorem step (h : Sound past w) {e : Event} (hunforged : w.Unforged e) :
    Sound (past ++ [(w, e)]) (w.step e) := by
  cases e with
  | advance callId env => exact h.advance hunforged
  | call callId request =>
    have hlater := h.later (w, .call callId request)
    rw [State.step]
    split
    · exact hlater
    · refine ⟨hlater.tokens, hlater.roots, ?_⟩
      intro i other hother
      change (AList.insert callId _ w.calls).lookup i = some other at hother
      rw [Table.lookup_insert_eq] at hother
      split at hother
      · obtain rfl := Option.some.inj hother
        trivial
      · exact hlater.calls i other hother

theorem init : Sound [] service.init := by
  constructor
  all_goals intro _ _
  all_goals simp_all [service, State.empty]

end Sound

/-- What a step does to an account that is there: only its status may change, and only for an
administrator. -/
structure Keeps (past : History) (w : State) (e : Event) (userId : Nat) (before after : Account) :
    Prop where
  role : after.role = before.role
  username : after.username = before.username
  email : after.email = before.email
  passwordHash : after.passwordHash = before.passwordHash
  changed : after ≠ before → ∃ callId env call status isActive actorId actor,
    e = .advance callId env ∧ w.calls.lookup callId = some call ∧
    call.request.Sets userId status isActive ∧ Admitted past callId actorId actor

theorem Keeps.refl (past : History) (w : State) (e : Event) (userId : Nat) (account : Account) :
    Keeps past w e userId account account :=
  ⟨rfl, rfl, rfl, rfl, fun h => absurd rfl h⟩

/-- One step changes no more of an account than its status, and that for an administrator. -/
theorem Sound.keeps {past : History} {w : State} (h : Sound past w) (hkeyed : Keyed w) (e : Event)
    {userId : Nat} {account : Account} (haccount : w.accounts.lookup userId = some account) :
    ∃ after, (w.step e).accounts.lookup userId = some after ∧
      Keeps past w e userId account after := by
  have hsame : ∀ {next : State}, next.accounts = w.accounts →
      ∃ after, next.accounts.lookup userId = some after ∧ Keeps past w e userId account after :=
    fun heq => ⟨account, heq ▸ haccount, .refl ..⟩
  cases e with
  | call callId request =>
    rw [State.step]
    split <;> exact hsame rfl
  | advance callId env =>
    have heffect := advance_effect w callId env
    change ∃ after, (w.advance callId env).accounts.lookup userId = some after ∧ _
    revert heffect
    generalize w.advance callId env = next
    intro heffect
    cases heffect with
    | adds hcall hopen horigin =>
      have hne : userId ≠ callId := by
        rintro rfl
        cases (hkeyed.free hcall hopen).symm.trans haccount
      refine ⟨account, ?_, .refl ..⟩
      change (AList.insert callId _ w.accounts).lookup userId = some account
      rw [Table.lookup_insert_eq, if_neg hne, haccount]
    | changes hcall hstage hsets =>
      rename_i call actorId target actor row status isActive
      have hbacked := h.calls callId _ hcall
      rw [hstage] at hbacked
      change ∃ after, (w.accounts.modify target _).lookup userId = some after ∧ _
      rw [Table.lookup_modify, haccount]
      split
      · rename_i htarget
        refine ⟨_, rfl, rfl, rfl, rfl, rfl, fun _ => ?_⟩
        exact ⟨callId, env, call, status, isActive, actorId, actor, rfl, hcall, htarget ▸ hsets,
          hbacked.1⟩
      · exact ⟨account, rfl, .refl ..⟩
    | _ => exact hsame rfl

/-- Nobody gives himself power: the rights of every account that has any go back, from one
administrator to the next, to a bootstrap that found no user; and an account changes in nothing
but its status, when a request of an administrator who had logged in asks for it. -/
theorem power_comes_from_bootstrap (es : List Event)
    (hunforged : ∀ x ∈ service.steps service.init es, x.1.Unforged x.2) :
    (∀ userId account, (service.runFrom service.init es).accounts.lookup userId = some account →
      account.role ≠ .user → Rooted (service.steps service.init es) userId) ∧
    ∀ before w e after, service.steps service.init es = before ++ (w, e) :: after →
      ∀ userId account, w.accounts.lookup userId = some account →
        ∃ next, (w.step e).accounts.lookup userId = some next ∧
          Keeps before w e userId account next := by
  constructor
  · have hsound := Machine.history_guarded (m := service) State.Unforged Sound
      (fun _ _ _ he h => h.step he) Sound.init hunforged
    exact hsound.roots
  · intro before w e after hsplit userId account haccount
    have hsound := Machine.history_guarded_at (m := service) State.Unforged Sound
      (fun _ _ _ he h => h.step he) Sound.init hunforged hsplit
    have hmem : (w, e) ∈ service.steps service.init es := by simp [hsplit]
    exact hsound.keeps (.reachable (Machine.Reachable.init.of_mem_steps hmem)) e haccount

/-- The settings name the first administrator, who logs in and creates a reviewer. -/
theorem power_comes_from_bootstrap_reviewer :
    let env (signed : List Token) : Env := ⟨0, id, (· ++ "#"),
      fun password hash => password ++ "#" = hash, (· ∈ signed), 60, false, .approval, false⟩
    let es : List Event := [
      .call 0 (.startup ⟨"root", "secret", ""⟩), .advance 0 (env []), .advance 0 (env []),
      .call 1 (.login "root" "secret"), .advance 1 (env []),
      .call 2 (.createUser ⟨0, 3600⟩ ⟨"rev", none, "other", .reviewer, .active⟩),
      .advance 2 (env [⟨0, 3600⟩]), .advance 2 (env [⟨0, 3600⟩])]
    Rooted (service.steps service.init es) 2 := by
  intro env es
  have haccount : (service.runFrom service.init es).accounts.lookup 2 =
      some ⟨"rev", none, "other#", .reviewer, .active, true⟩ := by decide +kernel
  have hunforged : ∀ x ∈ service.steps service.init es, x.1.Unforged x.2 := by
    have hnone : ∀ w callId, State.Unforged w (.advance callId (env [])) := by
      intro w callId token hsigned
      simp [env] at hsigned
    have hone : ∀ w callId, (⟨0, 3600⟩ : Token) ∈ w.tokens →
        State.Unforged w (.advance callId (env [⟨0, 3600⟩])) := by
      intro w callId hmem token hsigned
      obtain rfl : token = ⟨0, 3600⟩ := by simpa [env] using hsigned
      exact hmem
    simp only [es, Machine.steps, List.forall_mem_cons]
    exact ⟨trivial, hnone _ _, hnone _ _, trivial, hnone _ _, trivial, hone _ _ (by decide +kernel),
      hone _ _ (by decide +kernel), List.forall_mem_nil _⟩
  exact (power_comes_from_bootstrap es hunforged).1 2 _ haccount (by decide)

structure Locked (w : State) : Prop where
  claimed : w.accounts.entries ≠ []
  quiet : ∀ i call, w.calls.lookup i = some call → call.stage = .started ∨ call.stage.settled
  powerless : ∀ i account, w.accounts.lookup i = some account → account.role = .admin →
    account.usable = false

structure OnlyUsersJoin (w v : State) : Prop where
  kept : ∀ i account, w.accounts.lookup i = some account → v.accounts.lookup i = some account
  joined : ∀ i account, v.accounts.lookup i = some account → w.accounts.lookup i = none →
    account.role = .user

theorem OnlyUsersJoin.of_eq {w v : State} (h : v.accounts = w.accounts) : OnlyUsersJoin w v :=
  ⟨fun i account haccount => h ▸ haccount,
    fun i account haccount hnone => by rw [h, hnone] at haccount; cases haccount⟩

theorem OnlyUsersJoin.trans {w v u : State} (h : OnlyUsersJoin w v) (h' : OnlyUsersJoin v u) :
    OnlyUsersJoin w u := by
  refine ⟨fun i account haccount => h'.kept i account (h.kept i account haccount), ?_⟩
  intro i account haccount hnone
  cases hmiddle : v.accounts.lookup i with
  | none => exact h'.joined i account haccount hmiddle
  | some middle =>
    obtain rfl := Option.some.inj (haccount.symm.trans (h'.kept i middle hmiddle))
    exact h.joined i account hmiddle hnone

namespace Locked

variable {w : State} {callId : Nat} {env : Env} {call : Call} {stage : Stage}

theorem setStage (h : Locked w) (hstage : stage.settled) :
    Locked (w.setStage callId call stage) where
  claimed := h.claimed
  quiet := by
    intro i other hother
    rw [State.setStage, Table.lookup_insert_eq] at hother
    split at hother
    · obtain rfl := Option.some.inj hother
      exact .inr hstage
    · exact h.quiet i other hother
  powerless := h.powerless

/-- A request that is not settled has only started. -/
theorem started (h : Locked w) (hcall : w.calls.lookup callId = some call)
    (hstage : ¬ call.stage.settled) : call.stage = .started :=
  (h.quiet callId call hcall).resolve_right hstage

/-- No step makes an administrator where none can act: the accounts there stay, and those
that join are users. -/
theorem step (h : Locked w) (hkeyed : Keyed w) (e : Event) :
    Locked (w.step e) ∧ OnlyUsersJoin w (w.step e) := by
  cases e with
  | call callId request =>
    rw [State.step]
    split
    · exact ⟨h, .of_eq rfl⟩
    · refine ⟨⟨h.claimed, ?_, h.powerless⟩, .of_eq rfl⟩
      intro i other hother
      change (AList.insert callId _ w.calls).lookup i = some other at hother
      rw [Table.lookup_insert_eq] at hother
      split at hother
      · obtain rfl := Option.some.inj hother
        exact .inl rfl
      · exact h.quiet i other hother
  | advance callId env =>
    have heffect := advance_effect w callId env
    change Locked (w.advance callId env) ∧ OnlyUsersJoin w (w.advance callId env)
    revert heffect
    generalize w.advance callId env = next
    intro heffect
    cases heffect with
    | nothing => exact ⟨h, .of_eq rfl⟩
    | settles hcall hopen hstage => exact ⟨h.setStage hstage, .of_eq rfl⟩
    | claims hcall hopen hnone => exact absurd hnone h.claimed
    | signsIn hcall haccount hname husable hpassword =>
      rename_i username password userId account
      have hsigned : Locked { w with tokens := createAccessToken userId env :: w.tokens } :=
        ⟨h.claimed, h.quiet, h.powerless⟩
      exact ⟨hsigned.setStage trivial, .of_eq rfl⟩
    | admits hcall htoken hdecoded hactor husable hrole =>
      rw [h.powerless _ _ hactor hrole] at husable
      cases husable
    | loads hcall hstage =>
      have hstarted := h.started hcall (by rw [hstage]; exact id)
      rw [hstage] at hstarted
      cases hstarted
    | adds hcall hopen horigin =>
      rename_i call account
      have huser : account.role = .user := by
        rcases horigin with hrole | ⟨data, hstage⟩ | ⟨actorId, actor, hstage⟩
        · exact hrole
        · have hstarted := h.started hcall (by rw [hstage]; exact id)
          rw [hstage] at hstarted
          cases hstarted
        · have hstarted := h.started hcall (by rw [hstage]; exact id)
          rw [hstage] at hstarted
          cases hstarted
      have hfree := hkeyed.free hcall hopen
      have hadded : Locked { w with accounts := AList.insert callId account w.accounts } := by
        refine ⟨?_, h.quiet, ?_⟩
        · rw [AList.entries_insert]
          exact List.cons_ne_nil _ _
        · intro i other hother hrole
          change (AList.insert callId account w.accounts).lookup i = some other at hother
          rw [Table.lookup_insert_eq] at hother
          split at hother
          · obtain rfl := Option.some.inj hother
            cases huser.symm.trans hrole
          · exact h.powerless i other hother hrole
      refine ⟨hadded.setStage trivial, ?_, ?_⟩
      · intro i other hother
        have hne : i ≠ callId := by
          rintro rfl
          cases hfree.symm.trans hother
        change (AList.insert callId account w.accounts).lookup i = some other
        rw [Table.lookup_insert_eq, if_neg hne, hother]
      · intro i other hother hnone
        change (AList.insert callId account w.accounts).lookup i = some other at hother
        rw [Table.lookup_insert_eq] at hother
        split at hother
        · obtain rfl := Option.some.inj hother
          exact huser
        · cases hnone.symm.trans hother
    | changes hcall hstage hsets =>
      have hstarted := h.started hcall (by rw [hstage]; exact id)
      rw [hstage] at hstarted
      cases hstarted

theorem run (h : Locked w) (hkeyed : Keyed w) (es : List Event) :
    Locked (service.runFrom w es) ∧ OnlyUsersJoin w (service.runFrom w es) := by
  induction es generalizing w with
  | nil => exact ⟨h, .of_eq rfl⟩
  | cons e es ih =>
    obtain ⟨hnext, hjoin⟩ := h.step hkeyed e
    obtain ⟨hlast, hrest⟩ := ih hnext (hkeyed.step e)
    exact ⟨hlast, hjoin.trans hrest⟩

end Locked

/-- Once no administrator is active and no request has passed a check, there is no way back: no
bootstrap and no token gives anybody power, no account changes any more, and only plain users
join, who wait for an approval that cannot come. -/
theorem last_administrator_is_final (es later : List Event)
    (h : Locked (service.runFrom service.init es)) :
    Locked (service.runFrom service.init (es ++ later)) ∧
      OnlyUsersJoin (service.runFrom service.init es)
        (service.runFrom service.init (es ++ later)) := by
  have hkeyed : Keyed (service.runFrom service.init es) := .reachable ⟨es, rfl⟩
  rw [Machine.runFrom_append]
  exact h.run hkeyed later

/-- The administrator disables himself, and a bootstrap is refused. -/
theorem last_administrator_is_final_alone :
    let env : Env := ⟨0, id, (· ++ "#"), fun password hash => password ++ "#" = hash,
      (· = ⟨0, 3600⟩), 60, true, .approval, false⟩
    let es : List Event := [
      .call 0 (.startup ⟨"root", "secret", ""⟩), .advance 0 env, .advance 0 env,
      .call 1 (.login "root" "secret"), .advance 1 env,
      .call 2 (.disableUser ⟨0, 3600⟩ 0), .advance 2 env, .advance 2 env, .advance 2 env]
    Locked (service.runFrom service.init (es ++
      [.call 3 (.bootstrap ⟨"rev", none, "other", .admin, .active⟩), .advance 3 env,
        .advance 3 env])) := by
  intro env es
  have haccounts : (service.runFrom service.init es).accounts.entries =
      [⟨0, ⟨"root", none, "secret#", .admin, .disabled, false⟩⟩] := by decide +kernel
  have hcalls : ∀ row ∈ (service.runFrom service.init es).calls.entries,
      row.2.stage = .finished := by decide +kernel
  refine (last_administrator_is_final es _ ⟨?_, ?_, ?_⟩).1
  · rw [haccounts]
    exact List.cons_ne_nil _ _
  · intro i call hcall
    rw [hcalls _ (Table.mem_entries.mpr hcall)]
    exact .inr trivial
  · intro i account haccount _
    have hrow := Table.mem_entries.mpr haccount
    rw [haccounts, List.mem_singleton] at hrow
    cases hrow
    rfl

end PluginRegistry.Accounts
