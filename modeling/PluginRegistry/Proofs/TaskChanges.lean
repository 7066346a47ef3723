import PluginRegistry.Lib.Tokens
import PluginRegistry.Proofs.LlmAnswers
import PluginRegistry.Services.TaskRuns

namespace PluginRegistry.TaskRuns
open Lib

inductive Token
  | waiting (task : QueueTask)
  | held (task : QueueTask)
  | running (task : QueueTask)
  | returned (task : QueueTask)
  | failing (target : Requeue QueueTask)
  | dying (task : QueueTask)
  | succeeded (task : QueueTask)
  | dead (task : QueueTask)

namespace Token

def task : Token → QueueTask
  | .waiting task | .held task | .running task | .returned task | .dying task
  | .succeeded task | .dead task => task
  | .failing target => target.task

def id (token : Token) : String :=
  token.task.id

end Token

def Stage.token : Stage → Option Token
  | .moving raw _ => some (.waiting raw)
  | .holding task => some (.held task)
  | .handling task => some (.running task)
  | .handled task => some (.returned task)
  | .failed target _ => some (.failing target)
  | .pushing (.push task _) => some (.waiting task)
  | .pushing (.deadLetter task) => some (.dying task)
  | _ => none

def Request.token : Request → Option Token
  | .pushing task _ => some (.waiting task)
  | .retrying _ => none

namespace State

def tokens (w : State) : List Token :=
  w.ready.map .waiting ++ (w.delayed.tokens (fun task _ => some (.waiting task)) ++
    (w.workers.tokens (fun _ stage => stage.token) ++
      (w.requests.tokens (fun _ request => request.token) ++
        (w.succeeded.map .succeeded ++ w.dead.map .dead))))

variable {w : State}

theorem waiting_of_delayed {task : QueueTask} {due : Int} (h : w.delayed.lookup task = some due) :
    .waiting task ∈ w.tokens := by
  have hmem : Token.waiting task ∈ w.delayed.tokens fun task _ => some (.waiting task) :=
    Table.mem_tokens.mpr ⟨task, due, h, rfl⟩
  simp [tokens, hmem]

theorem token_of_worker {i : Nat} {stage : Stage} {token : Token}
    (h : w.workers.lookup i = some stage) (htoken : stage.token = some token) :
    token ∈ w.tokens := by
  have hmem : token ∈ w.workers.tokens fun _ stage => stage.token :=
    Table.mem_tokens.mpr ⟨i, stage, h, htoken⟩
  simp [tokens, hmem]

theorem token_of_request {i : Nat} {request : Request} {token : Token}
    (h : w.requests.lookup i = some request) (htoken : request.token = some token) :
    token ∈ w.tokens := by
  have hmem : token ∈ w.requests.tokens fun _ request => request.token :=
    Table.mem_tokens.mpr ⟨i, request, h, htoken⟩
  simp [tokens, hmem]

end State

def State.retried (w : State) (requestId : Nat) (id : String) : Option String :=
  match w.requests.lookup requestId with
  | some (.retrying row) =>
    if (w.rows.lookup id).isSome then none else some (w.original row.id)
  | _ => none

/-- The moves of one task, with the status that they write and the calls of its
handler. The runtime limit is at most the bound. -/
inductive Move (bound : Int) : Token → Token → Option TaskStatus → List QueueTask → Prop
  | pop (task : QueueTask) : Move bound (.waiting task) (.held task) none []
  | call (task : QueueTask) : Move bound (.held task) (.running task) (some .running) [task]
  | finish (task : QueueTask) : Move bound (.running task) (.returned task) none []
  | fail (task : QueueTask) (error : PyErr) (limits : TaskLimits) (h : limits.maxAttempts ≤ bound) :
    Move bound (.running task) (.failing (requeueTask task error limits)) none []
  | succeed (task : QueueTask) :
    Move bound (.returned task) (.succeeded task) (some .succeeded) []
  | retry (task : QueueTask) (delaySeconds : Int) :
    Move bound (.failing (.push task delaySeconds)) (.waiting task) (some .retrying) []
  | die (task : QueueTask) :
    Move bound (.failing (.deadLetter task)) (.dying task) (some .dead) []
  | bury (task : QueueTask) : Move bound (.dying task) (.dead task.redacted) none []

/-- What a step does to the tasks, their rows and the calls. A task that the retry
endpoint creates descends from the original of the one that is retried. -/
inductive Change (bound : Int) (retried : Option String) (w w' : State) : Prop
  | quiet (tokens : w'.tokens.Perm w.tokens) (rows : w'.rows = w.rows)
    (calls : w'.calls = w.calls) (originals : w'.originals = w.originals)
  | create (task : QueueTask) (row : WorkerTask) (original : String)
    (fresh : w.rows.lookup task.id = none) (attempts : task.attempts = 0)
    (status : row.status = .queued ∨ row.status = .delayed) (id : row.id = task.id)
    (origin : original = retried.getD task.id)
    (tokens : Exchanges w.tokens w'.tokens [] [.waiting task])
    (rows : w'.rows = AList.insert task.id row w.rows) (calls : w'.calls = w.calls)
    (originals : w'.originals = AList.insert task.id original w.originals)
  | move (old new : Token) (status : Option TaskStatus) (calls : List QueueTask)
    (write : WorkerTask → WorkerTask) (move : Move bound old new status calls)
    (tokens : Exchanges w.tokens w'.tokens [old] [new])
    (rows : w'.rows = w.rows.modify old.id write)
    (status_write : ∀ row, (write row).status = status.getD row.status)
    (id_write : ∀ row, (write row).id = row.id)
    (calls_eq : w'.calls = w.calls ++ calls) (originals : w'.originals = w.originals)

namespace State

variable {w : State} {bound : Int} {retried : Option String}

theorem exchanges {w w' : State} {o₁ o₂ o₃ o₄ o₅ o₆ n₁ n₂ n₃ n₄ n₅ n₆ : List Token}
    (ready : Exchanges (w.ready.map .waiting) (w'.ready.map .waiting) o₁ n₁)
    (delayed : Exchanges (w.delayed.tokens fun task _ => some (.waiting task))
      (w'.delayed.tokens fun task _ => some (.waiting task)) o₂ n₂)
    (workers : Exchanges (w.workers.tokens fun _ stage => stage.token)
      (w'.workers.tokens fun _ stage => stage.token) o₃ n₃)
    (requests : Exchanges (w.requests.tokens fun _ request => request.token)
      (w'.requests.tokens fun _ request => request.token) o₄ n₄)
    (succeeded : Exchanges (w.succeeded.map .succeeded) (w'.succeeded.map .succeeded) o₅ n₅)
    (dead : Exchanges (w.dead.map .dead) (w'.dead.map .dead) o₆ n₆) :
    Exchanges w.tokens w'.tokens (o₁ ++ (o₂ ++ (o₃ ++ (o₄ ++ (o₅ ++ o₆)))))
      (n₁ ++ (n₂ ++ (n₃ ++ (n₄ ++ (n₅ ++ n₆))))) :=
  ready.append (delayed.append (workers.append (requests.append (succeeded.append dead))))

/-- A step that only concerns a request. -/
theorem exchanges_requests {w w' : State} {old new : List Token}
    (h : Exchanges (w.requests.tokens fun _ request => request.token)
      (w'.requests.tokens fun _ request => request.token) old new)
    (ready : w'.ready = w.ready) (delayed : w'.delayed = w.delayed)
    (workers : w'.workers = w.workers) (succeeded : w'.succeeded = w.succeeded)
    (dead : w'.dead = w.dead) : Exchanges w.tokens w'.tokens old new := by
  have htokens : Exchanges w.tokens w'.tokens _ _ :=
    exchanges (.of_eq (by rw [ready])) (.of_eq (by rw [delayed])) (.of_eq (by rw [workers])) h
      (.of_eq (by rw [succeeded])) (.of_eq (by rw [dead]))
  simpa using htokens

/-- A step that only concerns a worker. -/
theorem exchanges_workers {w w' : State} {old new : List Token}
    (h : Exchanges (w.workers.tokens fun _ stage => stage.token)
      (w'.workers.tokens fun _ stage => stage.token) old new)
    (ready : w'.ready = w.ready) (delayed : w'.delayed = w.delayed)
    (requests : w'.requests = w.requests) (succeeded : w'.succeeded = w.succeeded)
    (dead : w'.dead = w.dead) : Exchanges w.tokens w'.tokens old new := by
  have htokens : Exchanges w.tokens w'.tokens _ _ :=
    exchanges (.of_eq (by rw [ready])) (.of_eq (by rw [delayed])) h (.of_eq (by rw [requests]))
      (.of_eq (by rw [succeeded])) (.of_eq (by rw [dead]))
  simpa using htokens

/-- A worker's step, by what it does in each place. -/
theorem exchanges_setStage {x : State} {i : Nat} {stage stage' : Stage}
    {o₁ o₂ o₅ o₆ n₁ n₂ n₅ n₆ : List Token} (h : w.workers.lookup i = some stage)
    (hworkers : x.workers = w.workers) (hrequests : x.requests = w.requests)
    (ready : Exchanges (w.ready.map .waiting) (x.ready.map .waiting) o₁ n₁)
    (delayed : Exchanges (w.delayed.tokens fun task _ => some (.waiting task))
      (x.delayed.tokens fun task _ => some (.waiting task)) o₂ n₂)
    (succeeded : Exchanges (w.succeeded.map .succeeded) (x.succeeded.map .succeeded) o₅ n₅)
    (dead : Exchanges (w.dead.map .dead) (x.dead.map .dead) o₆ n₆) :
    Exchanges w.tokens (x.setStage i stage').tokens
      (o₁ ++ (o₂ ++ (stage.token.toList ++ ([] ++ (o₅ ++ o₆)))))
      (n₁ ++ (n₂ ++ (stage'.token.toList ++ ([] ++ (n₅ ++ n₆))))) := by
  have hinsert := Table.exchanges_insert w.workers i stage' fun _ stage => stage.token
  rw [h, Option.bind_some, ← hworkers] at hinsert
  refine exchanges ready delayed ?_ ?_ succeeded dead
  · rw [← hworkers]
    exact hinsert
  · rw [← hrequests]
    exact .refl _

/-- A step that only changes what a worker does. -/
theorem setStage_quiet {i : Nat} {stage stage' : Stage} (h : w.workers.lookup i = some stage)
    (hsame : stage.token = stage'.token) : Change bound retried w (w.setStage i stage') := by
  have htokens : Exchanges w.tokens (w.setStage i stage').tokens _ _ :=
    exchanges_setStage h rfl rfl (.refl _) (.refl _) (.refl _) (.refl _)
  rw [hsame] at htokens
  exact .quiet htokens.perm rfl rfl rfl

/-- A task that is pushed is in neither queue before. -/
theorem pushTask_exchanges {task : QueueTask} (delay : Int) (now : Time)
    (h : w.delayed.lookup task = none) :
    ∃ n₁ n₂, n₁ ++ n₂ = [Token.waiting task] ∧
      Exchanges (w.ready.map .waiting) ((w.pushTask task delay now).ready.map .waiting) [] n₁ ∧
      Exchanges (w.delayed.tokens fun task _ => some (.waiting task))
        ((w.pushTask task delay now).delayed.tokens fun task _ => some (.waiting task)) [] n₂ := by
  rw [pushTask_eq]
  split
  · have hinsert := Table.exchanges_insert w.delayed task ((now : Int) + delay)
      fun task _ => some (Token.waiting task)
    rw [h] at hinsert
    exact ⟨[], [.waiting task], rfl, .refl _, hinsert⟩
  · exact ⟨[.waiting task], [], rfl, exchanges_concat _ _ _, .refl _⟩

theorem pushTask_frame (w : State) (task : QueueTask) (delay : Int) (now : Time) :
    (w.pushTask task delay now).rows = w.rows ∧ (w.pushTask task delay now).calls = w.calls ∧
      (w.pushTask task delay now).originals = w.originals ∧
      (w.pushTask task delay now).workers = w.workers ∧
      (w.pushTask task delay now).requests = w.requests ∧
      (w.pushTask task delay now).succeeded = w.succeeded ∧
      (w.pushTask task delay now).dead = w.dead := by
  rw [pushTask_eq]
  split <;> exact ⟨rfl, rfl, rfl, rfl, rfl, rfl, rfl⟩

/-- A task has one token, so it is not in the delayed set while somebody else holds it. -/
theorem not_delayed (hnodup : (w.tokens.map Token.id).Nodup) {task : QueueTask}
    (h : Token.waiting task ∈ (w.workers.tokens (fun _ stage => stage.token)) ++
      (w.requests.tokens fun _ request => request.token)) : w.delayed.lookup task = none := by
  cases hd : w.delayed.lookup task with
  | none => rfl
  | some due =>
    have hmem : Token.waiting task ∈ w.delayed.tokens fun task _ => some (.waiting task) :=
      Table.mem_tokens.mpr ⟨task, due, hd, rfl⟩
    rw [tokens, List.map_append, List.map_append] at hnodup
    have hdisjoint := (List.nodup_append.mp (List.nodup_append.mp hnodup).2.1).2.2
    refine absurd rfl (hdisjoint _ (List.mem_map_of_mem hmem) _ (List.mem_map_of_mem ?_))
    rw [← List.append_assoc]
    exact List.mem_append_left _ h

theorem worker_token {i : Nat} {stage : Stage} {token : Token}
    (h : w.workers.lookup i = some stage) (htoken : stage.token = some token) :
    token ∈ w.workers.tokens (fun _ stage => stage.token) ++
      (w.requests.tokens fun _ request => request.token) :=
  List.mem_append_left _ (Table.mem_tokens.mpr ⟨i, stage, h, htoken⟩)

theorem request_token {i : Nat} {request : Request} {token : Token}
    (h : w.requests.lookup i = some request) (htoken : request.token = some token) :
    token ∈ w.workers.tokens (fun _ stage => stage.token) ++
      (w.requests.tokens fun _ request => request.token) :=
  List.mem_append_right _ (Table.mem_tokens.mpr ⟨i, request, h, htoken⟩)

/-- A move that writes no row. -/
theorem moves_unwritten {w' : State} {old new : Token} {calls : List QueueTask}
    (hmove : Move bound old new none calls) (htokens : Exchanges w.tokens w'.tokens [old] [new])
    (hrows : w'.rows = w.rows) (hcalls : w'.calls = w.calls ++ calls)
    (horiginals : w'.originals = w.originals) : Change bound retried w w' :=
  .move old new none calls (fun row => row) hmove htokens
    (hrows.trans (Table.modify_id w.rows old.id).symm) (fun _ => rfl) (fun _ => rfl) hcalls
    horiginals

/-- What a worker's step changes. -/
theorem advance_change (hnodup : (w.tokens.map Token.id).Nodup) (i : Nat) {env : WorkerEnv}
    (hbound : env.limits.maxAttempts ≤ bound) : Change bound retried w (w.advance i env) := by
  unfold advance
  cases hi : w.workers.lookup i with
  | none => exact .quiet (.refl _) rfl rfl rfl
  | some stage =>
    cases stage with
    | idle => exact setStage_quiet hi rfl
    | promoting raws =>
      cases raws with
      | nil => exact setStage_quiet hi rfl
      | cons raw raws =>
        dsimp only
        split
        · rename_i hraw
          obtain ⟨due, hdue⟩ := Option.isSome_iff_exists.mp hraw
          have herase := Table.exchanges_erase w.delayed raw fun task _ =>
            some (Token.waiting task)
          rw [hdue] at herase
          have htokens : Exchanges w.tokens
              ({ w with delayed := AList.erase raw w.delayed }.setStage i
                (.moving raw raws)).tokens _ _ :=
            exchanges_setStage hi rfl rfl (.refl _) herase (.refl _) (.refl _)
          exact .quiet htokens.perm rfl rfl rfl
        · exact setStage_quiet hi rfl
    | moving raw raws =>
      have htokens : Exchanges w.tokens
          ({ w with ready := w.ready ++ [raw] }.setStage i (.promoting raws)).tokens _ _ :=
        exchanges_setStage hi rfl rfl (exchanges_concat _ _ _) (.refl _) (.refl _) (.refl _)
      exact .quiet htokens.perm rfl rfl rfl
    | popping =>
      cases hready : w.ready with
      | nil => exact setStage_quiet hi rfl
      | cons task ready =>
        have htail : Exchanges (w.ready.map Token.waiting) (ready.map .waiting) _ _ :=
          hready ▸ exchanges_tail ready task _
        have htokens : Exchanges w.tokens
            ({ w with ready }.setStage i (.holding task)).tokens _ _ :=
          exchanges_setStage hi rfl rfl htail (.refl _) (.refl _) (.refl _)
        exact moves_unwritten (.pop task) htokens rfl (List.append_nil _).symm rfl
    | holding task =>
      have htokens : Exchanges w.tokens
          (({ w with calls := w.calls ++ [task] }.mark task.id fun row =>
            row.markRunning env.workerId task.attempts env.now).setStage i
              (.handling task)).tokens _ _ :=
        exchanges_setStage hi rfl rfl (.refl _) (.refl _) (.refl _) (.refl _)
      exact .move _ _ _ _ _ (.call task) htokens rfl (fun _ => rfl) (fun _ => rfl) rfl rfl
    | handling task =>
      cases hhandled : env.handled with
      | none =>
        have htokens : Exchanges w.tokens (w.setStage i (.handled task)).tokens _ _ :=
          exchanges_setStage hi rfl rfl (.refl _) (.refl _) (.refl _) (.refl _)
        exact moves_unwritten (.finish task) htokens rfl (List.append_nil _).symm rfl
      | some error =>
        have htokens : Exchanges w.tokens
            (w.setStage i (.failed (requeueTask task error env.limits) error)).tokens _ _ :=
          exchanges_setStage hi rfl rfl (.refl _) (.refl _) (.refl _) (.refl _)
        exact moves_unwritten (.fail task error env.limits hbound) htokens rfl
          (List.append_nil _).symm rfl
    | handled task =>
      have htokens : Exchanges w.tokens
          (({ w with succeeded := w.succeeded ++ [task] }.mark task.id fun row =>
            row.markSucceeded env.now).setStage i .idle).tokens _ _ :=
        exchanges_setStage hi rfl rfl (.refl _) (.refl _) (exchanges_concat _ _ _) (.refl _)
      exact .move _ _ _ _ _ (.succeed task) htokens rfl (fun _ => rfl) (fun _ => rfl)
        (List.append_nil _).symm rfl
    | failed target error =>
      cases target with
      | deadLetter task =>
        have htokens : Exchanges w.tokens
            ((w.mark task.id fun row =>
              row.markDead task.attempts error.text env.now).setStage i
                (.pushing (.deadLetter task))).tokens _ _ :=
          exchanges_setStage hi rfl rfl (.refl _) (.refl _) (.refl _) (.refl _)
        exact .move _ _ _ _ _ (.die task) htokens rfl (fun _ => rfl) (fun _ => rfl)
          (List.append_nil _).symm rfl
      | push task delaySeconds =>
        have htokens : Exchanges w.tokens
            ((w.mark task.id fun row =>
              row.markRetrying task.attempts error.text delaySeconds env.now).setStage i
                (.pushing (.push task delaySeconds))).tokens _ _ :=
          exchanges_setStage hi rfl rfl (.refl _) (.refl _) (.refl _) (.refl _)
        exact .move _ _ _ _ _ (.retry task delaySeconds) htokens rfl (fun _ => rfl) (fun _ => rfl)
          (List.append_nil _).symm rfl
    | pushing target =>
      cases target with
      | deadLetter task =>
        have htokens : Exchanges w.tokens
            ({ w with dead := w.dead ++ [task.redacted] }.setStage i .idle).tokens _ _ :=
          exchanges_setStage hi rfl rfl (.refl _) (.refl _) (.refl _) (exchanges_concat _ _ _)
        exact moves_unwritten (.bury task) htokens rfl (List.append_nil _).symm rfl
      | push task delaySeconds =>
        -- The worker's own token is the only one of the task.
        have hfree := not_delayed hnodup (worker_token hi rfl)
        obtain ⟨n₁, n₂, hnew, hready, hdelayed⟩ :=
          pushTask_exchanges (delaySeconds * 1000000) env.now hfree
        obtain ⟨hrows, hcalls, horiginals, hworkers, hrequests, hsucceeded, hdead⟩ :=
          w.pushTask_frame task (delaySeconds * 1000000) env.now
        have htokens : Exchanges w.tokens
            ((w.pushTask task (delaySeconds * 1000000) env.now).setStage i .idle).tokens _ _ :=
          exchanges_setStage hi hworkers hrequests hready hdelayed
            (.of_eq (by rw [hsucceeded])) (.of_eq (by rw [hdead]))
        change Exchanges _ _ [Token.waiting task] (n₁ ++ (n₂ ++ [])) at htokens
        rw [List.append_nil, hnew] at htokens
        exact .quiet htokens.perm hrows hcalls horiginals

/-- A row and a request for a fresh task. -/
theorem createTask_change (settingsMaxAttempts : Int) {requestId : Nat}
    (hrequest : (w.requests.lookup requestId).bind Request.token = none)
    {id original : String}
    (horigin : w.rows.lookup id = none → original = retried.getD id) (taskType : String)
    (payload : JsonObject) (limits : TaskLimits) (delay : Int) (now : Time) :
    Change bound retried w (w.createTask settingsMaxAttempts requestId id original taskType payload limits
      delay now) := by
  unfold createTask
  split
  · exact .quiet (.refl _) rfl rfl rfl
  · rename_i hfresh
    have hfresh := Option.not_isSome_iff_eq_none.mp hfresh
    refine .create (createTaskEnvelope settingsMaxAttempts taskType payload id limits.maxAttempts)
      (createWorkerTask settingsMaxAttempts taskType payload id limits.maxAttempts delay now)
      original hfresh rfl ?_ rfl (horigin hfresh) ?_ rfl rfl rfl
    · change (if 0 < delay then TaskStatus.delayed else .queued) = .queued ∨
        (if 0 < delay then TaskStatus.delayed else .queued) = .delayed
      split
      · exact .inr rfl
      · exact .inl rfl
    · have hinsert := Table.exchanges_insert w.requests requestId (.pushing
        (createTaskEnvelope settingsMaxAttempts taskType payload id limits.maxAttempts) delay)
        fun _ request => request.token
      rw [hrequest] at hinsert
      exact exchanges_requests hinsert rfl rfl rfl rfl rfl

/-- What a request's step changes. -/
theorem serve_change (hnodup : (w.tokens.map Token.id).Nodup) (settingsMaxAttempts : Int)
    (requestId : Nat) (id : String) (limits : TaskLimits) (now : Time) :
    Change bound (w.retried requestId id) w (w.serve settingsMaxAttempts requestId id limits now) := by
  unfold serve
  cases hrequest : w.requests.lookup requestId with
  | none => exact .quiet (.refl _) rfl rfl rfl
  | some request =>
    cases request with
    | retrying row =>
      have horigin : w.rows.lookup id = none →
          w.original row.id = (w.retried requestId id).getD id := by
        intro hfresh
        simp [retried, hrequest, hfresh]
      exact createTask_change _ (by rw [hrequest]; rfl) horigin ..
    | pushing task delay =>
      have hfree := not_delayed hnodup (request_token hrequest rfl)
      obtain ⟨n₁, n₂, hnew, hready, hdelayed⟩ := pushTask_exchanges delay now hfree
      obtain ⟨hrows, hcalls, horiginals, hworkers, hrequests, hsucceeded, hdead⟩ :=
        w.pushTask_frame task delay now
      have herase := Table.exchanges_erase w.requests requestId fun _ request => request.token
      rw [hrequest] at herase
      have htokens : Exchanges w.tokens
          { w.pushTask task delay now with
            requests := AList.erase requestId w.requests }.tokens _ _ :=
        exchanges hready hdelayed (.of_eq (by rw [hworkers])) herase
          (.of_eq (by rw [hsucceeded])) (.of_eq (by rw [hdead]))
      change Exchanges _ _ [Token.waiting task] (n₁ ++ (n₂ ++ [])) at htokens
      rw [List.append_nil, hnew] at htokens
      exact .quiet htokens.perm hrows hcalls horiginals

end State

def Event.limit : Event → Option Int
  | .advance _ env => some env.limits.maxAttempts
  | _ => none

def Event.retried (e : Event) (w : State) : Option String :=
  match e with
  | .serve requestId id _ _ => w.retried requestId id
  | _ => none

/-- Every step is one of the changes, so that an invariant needs one case for each. -/
theorem step_change {bound settingsMaxAttempts : Int} {w : State}
    (hnodup : (w.tokens.map Token.id).Nodup) (e : Event) (hbound : ∀ n ∈ e.limit, n ≤ bound) :
    Change bound (e.retried w) w (w.step settingsMaxAttempts e) := by
  cases e with
  | enqueue requestId id taskType payload limits delay now =>
    simp only [State.step]
    split
    · exact .quiet (.refl _) rfl rfl rfl
    · rename_i hrequest
      rw [Option.not_isSome_iff_eq_none] at hrequest
      exact State.createTask_change _ (by rw [hrequest]; rfl) (fun _ => rfl) ..
  | retry requestId taskId =>
    simp only [State.step, State.readRetried]
    split
    · exact .quiet (.refl _) rfl rfl rfl
    · rename_i hrequest
      rw [Option.not_isSome_iff_eq_none] at hrequest
      split
      · exact .quiet (.refl _) rfl rfl rfl
      · rename_i row hrow
        split
        · exact .quiet (.refl _) rfl rfl rfl
        · have hinsert := Table.exchanges_insert w.requests requestId (.retrying row)
            fun _ request => request.token
          rw [hrequest] at hinsert
          have htokens : Exchanges w.tokens
              (w.setRequest requestId (.retrying row)).tokens [] [] :=
            State.exchanges_requests hinsert rfl rfl rfl rfl rfl
          exact .quiet htokens.perm rfl rfl rfl
  | serve requestId id limits now => exact State.serve_change hnodup ..
  | start workerId =>
    simp only [State.step]
    split
    · exact .quiet (.refl _) rfl rfl rfl
    · rename_i hworker
      rw [Option.not_isSome_iff_eq_none] at hworker
      have hinsert := Table.exchanges_insert w.workers workerId .idle fun _ stage => stage.token
      rw [hworker] at hinsert
      have htokens : Exchanges w.tokens (w.setStage workerId .idle).tokens [] [] :=
        State.exchanges_workers hinsert rfl rfl rfl rfl rfl
      exact .quiet htokens.perm rfl rfl rfl
  | advance i env => exact State.advance_change hnodup i (hbound _ rfl)

end PluginRegistry.TaskRuns
