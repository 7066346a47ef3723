import PluginRegistry.Proofs.ScanTables
import PluginRegistry.Services.TaskObservability

namespace PluginRegistry
open Lib

/-- The same keys in the same order, and the same values but for those under one key. -/
def DifferAt (key : String) (related : Json → Json → Prop) : JsonObject → JsonObject → Prop :=
  List.Forall₂ fun f g => f.1 = g.1 ∧ if f.1 = key then related f.2 g.2 else f.2 = g.2

namespace DifferAt

variable {key other : String} {related : Json → Json → Prop} {d e : JsonObject}

theorem isEmpty (h : DifferAt key related d e) : d.isEmpty = e.isEmpty := by
  cases h <;> rfl

theorem pop (h : DifferAt key related d e) : d.pop key = e.pop key := by
  induction h with
  | nil => rfl
  | @cons f g d e hfield _ ih =>
    have htail : List.filter (fun field => decide (field.1 ≠ key)) d =
        List.filter (fun field => decide (field.1 ≠ key)) e := ih
    unfold JsonObject.pop
    rw [List.filter_cons, List.filter_cons, ← hfield.1, htail]
    by_cases hk : f.1 = key
    · simp [hk]
    · have hvalue := hfield.2
      rw [if_neg hk] at hvalue
      rw [Prod.ext hfield.1 hvalue]

theorem get (h : DifferAt key related d e) (other : String) :
    (d.get other = none ∧ e.get other = none) ∨
      ∃ a b, d.get other = some a ∧ e.get other = some b ∧
        if other = key then related a b else a = b := by
  induction h with
  | nil => exact Or.inl ⟨rfl, rfl⟩
  | @cons f g d e hfield _ ih =>
    by_cases hf : f.1 = other
    · right
      refine ⟨f.2, g.2, ?_, ?_, ?_⟩
      · simp [JsonObject.get, hf]
      · simp [JsonObject.get, ← hfield.1, hf]
      · have hvalue := hfield.2
        rwa [hf] at hvalue
    · have hd : JsonObject.get (f :: d) other = JsonObject.get d other := by
        simp [JsonObject.get, hf]
      have he : JsonObject.get (g :: e) other = JsonObject.get e other := by
        simp [JsonObject.get, ← hfield.1, hf]
      rw [hd, he]
      exact ih

theorem get_ne (h : DifferAt key related d e) (hne : other ≠ key) :
    d.get other = e.get other := by
  rcases h.get other with ⟨hd, he⟩ | ⟨a, b, hd, he, hab⟩
  · rw [hd, he]
  · rw [if_neg hne] at hab
    rw [hd, he, hab]

theorem isSome (h : DifferAt key related d e) (other : String) :
    (d.get other).isSome = (e.get other).isSome := by
  rcases h.get other with ⟨hd, he⟩ | ⟨a, b, hd, he, -⟩
  · rw [hd, he]
  · rw [hd, he]
    rfl

/-- A new value under another key. -/
theorem set (h : DifferAt key related d e) (hne : other ≠ key) (value : Json) :
    DifferAt key related (d.set other value) (e.set other value) := by
  unfold JsonObject.set
  rw [h.isSome other]
  split
  · refine List.forall₂_map_left_iff.mpr (List.forall₂_map_right_iff.mpr (h.imp ?_))
    intro f g hfield
    by_cases hf : f.1 = other
    · rw [if_pos hf, if_pos (hfield.1 ▸ hf)]
      exact ⟨rfl, by rw [if_neg hne]⟩
    · rw [if_neg hf, if_neg (hfield.1 ▸ hf)]
      exact hfield
  · exact List.rel_append h (List.Forall₂.cons ⟨rfl, by rw [if_neg hne]⟩ .nil)

/-- A new value under the key itself takes the difference away. -/
theorem set_key (h : DifferAt key related d e) (hsome : (d.get key).isSome = true) (value : Json) :
    d.set key value = e.set key value := by
  have hsome' := h.isSome key ▸ hsome
  unfold JsonObject.set
  rw [if_pos hsome, if_pos hsome']
  clear hsome hsome'
  induction h with
  | nil => rfl
  | @cons f g d e hfield _ ih =>
    rw [List.map_cons, List.map_cons, ih, ← hfield.1]
    by_cases hk : f.1 = key
    · rw [if_pos hk, if_pos hk]
    · have hvalue := hfield.2
      rw [if_neg hk] at hvalue
      rw [if_neg hk, if_neg hk, Prod.ext hfield.1 hvalue]

end DifferAt

structure TokenVariants (payload payload' : JsonObject) : Prop where
  differ : DifferAt "temporary_token" (fun a b => a.truthy = true ∧ b.truthy = true)
    payload payload'
  present : (payload.get "temporary_token").isSome = true

structure TaskVariants (task task' : JsonObject) : Prop where
  differ : DifferAt "payload" (fun a b => ∃ payload payload' : JsonObject,
    a = .obj payload ∧ b = .obj payload' ∧ TokenVariants payload payload') task task'
  present : (task.get "payload").isSome = true

/-- Two ends of `requeue_task` with nothing of a token in the dead-letter list: two
tasks that die leave the same text there. -/
inductive Confined : Except PyErr (Push Worker.QueueItem) → Except PyErr (Push Worker.QueueItem) →
    Prop
  | error (e : PyErr) : Confined (.error e) (.error e)
  | dead (item : Worker.QueueItem) : Confined (.ok (.dead item)) (.ok (.dead item))
  | ready {task task' : JsonObject} (h : TaskVariants task task') :
    Confined (.ok (.ready (.parsed (.obj task)))) (.ok (.ready (.parsed (.obj task'))))
  | delayed {task task' : JsonObject} (h : TaskVariants task task') (due : Int) :
    Confined (.ok (.delayed (.parsed (.obj task)) due)) (.ok (.delayed (.parsed (.obj task')) due))

/-- Two tasks that `requeue_task` sends to the same place. -/
inductive SameTarget : Except PyErr (Requeue JsonObject) → Except PyErr (Requeue JsonObject) → Prop
  | error (e : PyErr) : SameTarget (.error e) (.error e)
  | deadLetter {task task' : JsonObject} (h : TaskVariants task task') :
    SameTarget (.ok (.deadLetter task)) (.ok (.deadLetter task'))
  | push {task task' : JsonObject} (h : TaskVariants task task') (delaySeconds : Int) :
    SameTarget (.ok (.push task delaySeconds)) (.ok (.push task' delaySeconds))

section
variable {payload payload' task task' : JsonObject}

theorem TokenVariants.stored (h : TokenVariants payload payload') :
    storedPayload payload = storedPayload payload' := by
  have htoken : (payload.get "temporary_token").any Json.truthy =
      (payload'.get "temporary_token").any Json.truthy := by
    rcases h.differ.get "temporary_token" with ⟨ha, hb⟩ | ⟨a, b, ha, hb, hab⟩
    · rw [ha, hb]
    · rw [if_pos rfl] at hab
      rw [ha, hb, Option.any_some, Option.any_some, hab.1, hab.2]
  unfold storedPayload
  rw [h.differ.isEmpty, h.differ.pop, htoken]

theorem TaskVariants.set {key : String} (h : TaskVariants task task') (hne : key ≠ "payload")
    (value : Json) : TaskVariants (task.set key value) (task'.set key value) where
  differ := h.differ.set hne value
  present := by
    rw [JsonObject.get_set, if_neg (Ne.symm hne)]
    exact h.present

/-- The redacted copies are one. -/
theorem TaskVariants.redacted (h : TaskVariants task task') :
    Worker.redactedTask task = Worker.redactedTask task' := by
  rcases h.differ.get "payload" with ⟨hnone, -⟩ | ⟨a, b, ha, hb, hab⟩
  · have hsome := h.present
    rw [hnone] at hsome
    cases hsome
  · rw [if_pos rfl] at hab
    obtain ⟨payload, payload', rfl, rfl, hpayload⟩ := hab
    have hpresent' := hpayload.differ.isSome "temporary_token" ▸ hpayload.present
    unfold Worker.redactedTask redactedPayload
    rw [ha, hb]
    dsimp only
    rw [if_pos hpayload.present, if_pos hpresent', if_pos hpayload.present, if_pos hpresent',
      hpayload.differ.pop, h.differ.set_key h.present]

theorem TaskVariants.deadLetter (h : TaskVariants task task') (env : Worker.TaskEnv) :
    Confined (Worker.deadLetter task env) (Worker.deadLetter task' env) := by
  unfold Worker.deadLetter
  rw [h.redacted]
  cases env.markDead with
  | some e => exact .error e
  | none =>
    cases hitem : Worker.encodeTask (Worker.redactedTask task') with
    | error e => exact .error e
    | ok item => exact .dead item

theorem TaskVariants.encode (h : TaskVariants task task') :
    (∃ e, Worker.encodeTask task = .error e ∧ Worker.encodeTask task' = .error e) ∨
      Worker.encodeTask task = .ok (.parsed (.obj task)) ∧
        Worker.encodeTask task' = .ok (.parsed (.obj task')) := by
  unfold Worker.encodeTask
  rw [h.differ.get_ne (show "attempts" ≠ "payload" by decide)]
  split
  · split
    · exact Or.inl ⟨_, rfl, rfl⟩
    · exact Or.inr ⟨rfl, rfl⟩
  · exact Or.inr ⟨rfl, rfl⟩

theorem TaskVariants.pushTask (h : TaskVariants task task') (delaySeconds : Int) (now : Time) :
    Confined (Worker.pushTask task delaySeconds now) (Worker.pushTask task' delaySeconds now) := by
  unfold Worker.pushTask
  rcases h.encode with ⟨e, he, he'⟩ | ⟨hok, hok'⟩
  · rw [he, he']
    exact .error e
  · rw [except_bind_eq hok, except_bind_eq hok']
    unfold PluginRegistry.pushTask
    split
    · exact .error _
    · split
      · exact .delayed h _
      · exact .ready h

/-- Two tasks that differ in their token alone go to the same place. -/
theorem TaskVariants.requeued (h : TaskVariants task task') (error : PyErr)
    (runtimeMaxAttempts retryDelaySeconds : Except PyErr Int) :
    SameTarget (Worker.requeued task error runtimeMaxAttempts retryDelaySeconds)
      (Worker.requeued task' error runtimeMaxAttempts retryDelaySeconds) := by
  have hattempts : Worker.attempts task = Worker.attempts task' := by
    unfold Worker.attempts
    rw [h.differ.get_ne (show "attempts" ≠ "payload" by decide)]
  unfold Worker.requeued
  rw [hattempts]
  cases Worker.attempts task' with
  | error e => exact .error e
  | ok tried =>
    have hset : TaskVariants
        ((task.set "attempts" (.int (tried + 1))).set "last_error" (.str error.text))
        ((task'.set "attempts" (.int (tried + 1))).set "last_error" (.str error.text)) :=
      (h.set (by decide) _).set (by decide) _
    have hmax := hset.differ.get_ne (show "max_attempts" ≠ "payload" by decide)
    change SameTarget (if _ then _ else _) (if _ then _ else _)
    generalize (task.set "attempts" (.int (tried + 1))).set "last_error" (.str error.text) = next
      at hset hmax ⊢
    generalize (task'.set "attempts" (.int (tried + 1))).set "last_error" (.str error.text) = next'
      at hset hmax ⊢
    by_cases hretryable : isRetryableTaskError error = true
    · rw [hretryable, if_neg (by decide), if_neg (by decide)]
      have hlimit : Worker.maxAttempts next runtimeMaxAttempts =
          Worker.maxAttempts next' runtimeMaxAttempts := by
        unfold Worker.maxAttempts
        rw [hmax]
      rw [hlimit]
      cases Worker.maxAttempts next' runtimeMaxAttempts with
      | error e => exact .error e
      | ok limit =>
        change SameTarget (if _ then _ else _) (if _ then _ else _)
        by_cases hend : limit ≤ tried + 1
        · rw [if_pos hend, if_pos hend]
          exact .deadLetter hset
        · rw [if_neg hend, if_neg hend]
          cases retryDelaySeconds with
          | error e => exact .error e
          | ok retryDelay => exact .push hset retryDelay
    · rw [Bool.not_eq_true] at hretryable
      rw [hretryable, if_pos (by decide), if_pos (by decide)]
      exact .deadLetter hset

theorem TaskVariants.requeue (h : TaskVariants task task') (error : PyErr)
    (env : Worker.TaskEnv) :
    Confined (Worker.requeueTask task error env) (Worker.requeueTask task' error env) := by
  have htarget := h.requeued error env.maxAttempts env.retryDelaySeconds
  unfold Worker.requeueTask
  revert htarget
  generalize Worker.requeued task error env.maxAttempts env.retryDelaySeconds = target
  generalize Worker.requeued task' error env.maxAttempts env.retryDelaySeconds = target'
  intro htarget
  cases htarget with
  | error e => exact .error e
  | deadLetter hset => exact hset.deadLetter env
  | push hset retryDelay =>
    change Confined (Worker.raise _ >>= fun _ => _) (Worker.raise _ >>= fun _ => _)
    cases env.markRetrying with
    | some e => exact .error e
    | none => exact hset.pushTask retryDelay env.now

end

def tokenFlag (payload : JsonObject) : Option Json :=
  payload.get "temporary_token_present"

def payloadOf (task : JsonObject) : JsonObject :=
  match task.get "payload" with
  | some (.obj payload) => payload
  | _ => []

/-- No token at all, or one that is not empty; or the payload has the flag of its own. -/
def TokenSettled (payload : JsonObject) : Prop :=
  payload.get "temporary_token" = none ∨
    (payload.get "temporary_token").any Json.truthy = true ∨
      tokenFlag payload = some (.bool true)

section
variable {payload : JsonObject}

theorem get_pop_ne {key other : String} (h : other ≠ key) (d : JsonObject) :
    (d.pop key).get other = d.get other := by
  unfold JsonObject.pop JsonObject.get
  rw [List.find?_filter]
  congr 2
  funext field
  by_cases hf : field.1 = other
  · simp [hf, h]
  · simp [hf]

theorem storedPayload_flag (payload : JsonObject) :
    tokenFlag (storedPayload payload) =
      if (payload.get "temporary_token").any Json.truthy then some (.bool true)
      else tokenFlag payload := by
  unfold storedPayload tokenFlag
  cases payload with
  | nil => rfl
  | cons field payload =>
    rw [List.isEmpty_cons, if_neg Bool.false_ne_true]
    dsimp only
    split
    · rw [JsonObject.get_set, if_pos rfl]
    · exact get_pop_ne (by decide) _

theorem redactedTask_flag (task payload : JsonObject) :
    tokenFlag (payloadOf (Worker.redactedTask (task.set "payload" (.obj payload)))) =
      if (payload.get "temporary_token").isSome then some (.bool true) else tokenFlag payload := by
  have hget : (task.set "payload" (.obj payload)).get "payload" = some (.obj payload) := by
    rw [JsonObject.get_set, if_pos rfl]
  unfold Worker.redactedTask
  rw [hget]
  dsimp only
  split
  · rename_i hpresent
    unfold payloadOf
    rw [JsonObject.get_set, if_pos rfl]
    dsimp only
    rw [redactedPayload, if_pos hpresent, tokenFlag, JsonObject.get_set, if_pos rfl]
  · unfold payloadOf
    rw [hget]

/-- The two copies of a payload say the same of a token exactly if there is none, or
one that is not empty, or the payload brings the flag along. -/
theorem flags_agree_iff (task payload : JsonObject) :
    tokenFlag (storedPayload payload) =
        tokenFlag (payloadOf (Worker.redactedTask (task.set "payload" (.obj payload)))) ↔
      TokenSettled payload := by
  rw [storedPayload_flag, redactedTask_flag]
  unfold TokenSettled
  cases htoken : payload.get "temporary_token" with
  | none => simp
  | some token => cases htruthy : token.truthy <;> simp [htruthy]

end

/-- A token that is not empty leaves no trace of its value in either copy, however
often its task is queued again, and both copies say the same of whether there was one,
exactly for the settled payloads. -/
theorem token_confinement (task payload : JsonObject) :
    (∀ payload', TokenVariants payload payload' →
        ∀ settingsMax taskType id maxAttempts delay now,
          createWorkerTask settingsMax taskType payload id maxAttempts delay now =
            createWorkerTask settingsMax taskType payload' id maxAttempts delay now) ∧
      (∀ task', TaskVariants (task.set "payload" (.obj payload)) task' → ∀ error env,
        Confined (Worker.requeueTask (task.set "payload" (.obj payload)) error env)
          (Worker.requeueTask task' error env)) ∧
      tokenFlag (storedPayload payload) =
        tokenFlag (payloadOf (Worker.redactedTask (task.set "payload" (.obj payload)))) ↔
    TokenSettled payload := by
  constructor
  · rintro ⟨-, -, hflags⟩
    exact (flags_agree_iff task payload).mp hflags
  · intro hsettled
    refine ⟨?_, fun task' h error env => h.requeue error env,
      (flags_agree_iff task payload).mpr hsettled⟩
    intro payload' h settingsMax taskType id maxAttempts delay now
    unfold createWorkerTask
    rw [h.stored]

def buildPayload (token : Json) : JsonObject :=
  [("plugin_id", .str "p"), ("temporary_token", token)]

theorem buildPayload_variants :
    TokenVariants (buildPayload (.str "a")) (buildPayload (.str "b")) where
  differ := by
    refine .cons ⟨rfl, ?_⟩ (.cons ⟨rfl, ?_⟩ .nil)
    · rw [if_neg (by decide)]
    · rw [if_pos rfl]
      exact ⟨by decide, by decide⟩
  present := rfl

theorem token_confinement_build :
    createWorkerTask 3 "build" (buildPayload (.str "a")) "t" 3 0 0 =
      createWorkerTask 3 "build" (buildPayload (.str "b")) "t" 3 0 0 :=
  ((token_confinement [] (buildPayload (.str "a"))).mpr (by
    right; left
    decide)).1 _ buildPayload_variants 3 "build" "t" 3 0 0

/-- A build without a token: the dead-letter list says that there was one. -/
theorem missing_token_flagged :
    tokenFlag (storedPayload (buildPayload .null)) = none ∧
      tokenFlag (payloadOf (Worker.redactedTask [("payload", .obj (buildPayload .null))])) =
        some (.bool true) := by
  decide

end PluginRegistry
