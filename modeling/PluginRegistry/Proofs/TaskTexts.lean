import PluginRegistry.Lib.Simulation
import PluginRegistry.Proofs.JsonRoundTrip
import PluginRegistry.Services.TextQueue

namespace PluginRegistry
open Lib

/-- The task lies in Redis. -/
def QueueState.Holds (w : QueueState) (task : QueueTask) : Prop :=
  task ∈ w.ready ∨ task ∈ w.delayed ∨ task ∈ w.dead

namespace TextQueue

theorem fields_inj {a b : QueueTask} (h : a.fields = b.fields) : a = b := by
  obtain ⟨id, taskType, payload, attempts, maxAttempts, lastError⟩ := a
  obtain ⟨id', taskType', payload', attempts', maxAttempts', lastError'⟩ := b
  simp only [QueueTask.fields, List.cons_append, List.nil_append, List.cons.injEq, Prod.mk.injEq,
    Json.str.injEq, Json.obj.injEq, Json.int.injEq, true_and] at h
  obtain ⟨hid, htype, hpayload, hattempts, hmax, hlast⟩ := h
  have hlast : lastError = lastError' := by
    cases lastError <;> cases lastError' <;> simp_all
  subst hid htype hpayload hattempts hmax hlast
  rfl

theorem fields_attempts (task : QueueTask) :
    task.fields.get "attempts" = some (.int task.attempts) := by
  simp [QueueTask.fields, JsonObject.get]

theorem fields_payload (task : QueueTask) :
    task.fields.get "payload" = some (.obj task.payload) := by
  simp [QueueTask.fields, JsonObject.get]

theorem fields_maxAttempts (task : QueueTask) :
    task.fields.get "max_attempts" = some (.int task.maxAttempts) := by
  simp [QueueTask.fields, JsonObject.get]

theorem attempts_fields (task : QueueTask) : Worker.attempts task.fields = .ok task.attempts := by
  rw [Worker.attempts, fields_attempts]
  by_cases hzero : task.attempts = 0
  · simp [Json.truthy, hzero]
  · simp [Json.truthy, hzero, Json.toInt]

theorem popTask_fields (task : QueueTask) :
    Worker.popTask (.parsed (.obj task.fields)) = .ok task.fields := by
  have hpayload : (task.fields.get "payload").isSome = true := by rw [fields_payload]; rfl
  have hattempts : (task.fields.get "attempts").isSome = true := by rw [fields_attempts]; rfl
  simp only [Worker.popTask, hpayload, if_true, JsonObject.setDefault, hattempts]

theorem fields_failed (task : QueueTask) (error : PyErr) :
    (task.fields.set "attempts" (.int (task.attempts + 1))).set "last_error" (.str error.text) =
      (task.failed error).fields := by
  cases hlast : task.lastError <;>
    simp [QueueTask.failed, QueueTask.fields, JsonObject.set, JsonObject.get, hlast]

theorem fields_redacted (task : QueueTask) :
    Worker.redactedTask task.fields = task.redacted.fields := by
  rw [Worker.redactedTask, fields_payload, QueueTask.redacted]
  dsimp only
  split
  · cases hlast : task.lastError <;> simp [QueueTask.fields, JsonObject.set, JsonObject.get, hlast]
  · rename_i habsent
    rw [redactedPayload, if_neg habsent]

namespace Codec

variable {codec : Codec} {fields : JsonObject}

theorem prints_iff : codec.writer.PrintsFields codec.reader fields ↔
    (fields.map (·.1)).Nodup ∧ ∀ field ∈ fields, codec.writer.Prints codec.reader field.2 := by
  induction fields with
  | nil => simp [JsonWriter.PrintsFields]
  | cons field fields ih =>
    rw [JsonWriter.PrintsFields, ih, List.map_cons, List.nodup_cons, List.forall_mem_cons,
      List.mem_map]
    constructor
    · rintro ⟨hnew, hvalue, hkeys, hvalues⟩
      exact ⟨⟨fun ⟨other, hother, heq⟩ => hnew other hother heq, hkeys⟩, hvalue, hvalues⟩
    · rintro ⟨⟨hnew, hkeys⟩, hvalue, hvalues⟩
      exact ⟨fun other hother heq => hnew ⟨other, hother, heq⟩, hvalue, hkeys, hvalues⟩

theorem prints_pop (h : codec.writer.PrintsFields codec.reader fields) (key : String) :
    codec.writer.PrintsFields codec.reader (fields.pop key) := by
  obtain ⟨hkeys, hvalues⟩ := prints_iff.mp h
  apply prints_iff.mpr
  exact ⟨hkeys.sublist (List.filter_sublist.map _),
    fun field hfield => hvalues field (List.mem_of_mem_filter hfield)⟩

/-- A field that is set prints where its value does; the others print as before. -/
theorem prints_set (h : codec.writer.PrintsFields codec.reader fields) (key : String) {value : Json}
    (hvalue : codec.writer.Prints codec.reader value) :
    codec.writer.PrintsFields codec.reader (fields.set key value) := by
  obtain ⟨hkeys, hvalues⟩ := prints_iff.mp h
  apply prints_iff.mpr
  rw [JsonObject.set]
  split
  · have hsame : (fields.map fun field => if field.1 = key then (key, value) else field).map (·.1) =
        fields.map (·.1) := by
      rw [List.map_map]
      congr 1
      funext field
      simp only [Function.comp]
      split
      · rename_i heq
        exact heq.symm
      · rfl
    refine ⟨hsame ▸ hkeys, ?_⟩
    intro field hfield
    obtain ⟨old, hold, rfl⟩ := List.mem_map.mp hfield
    split
    · exact hvalue
    · exact hvalues old hold
  · rename_i hnew
    rw [List.map_append, List.nodup_append]
    refine ⟨⟨hkeys, List.nodup_singleton _, ?_⟩, ?_⟩
    · rintro _ hold _ hkey rfl
      obtain ⟨field, hfield, hname⟩ := List.mem_map.mp hold
      apply hnew
      rw [JsonObject.get, Option.isSome_map, List.find?_isSome]
      exact ⟨field, hfield, by simpa [hname] using hkey⟩
    · intro field hfield
      rcases List.mem_append.mp hfield with hfield | hfield
      · exact hvalues field hfield
      · exact List.mem_singleton.mp hfield ▸ hvalue

theorem prints_redacted (h : codec.writer.PrintsFields codec.reader fields) :
    codec.writer.PrintsFields codec.reader (redactedPayload fields) := by
  unfold redactedPayload
  split
  · exact prints_set (prints_pop h _) _ trivial
  · exact h

end Codec

structure Printable (codec : Codec) (task : QueueTask) : Prop where
  attempts : task.attempts.natAbs < 10 ^ intMaxStrDigits
  maxAttempts : task.maxAttempts.natAbs < 10 ^ intMaxStrDigits
  payload : codec.writer.PrintsFields codec.reader task.payload

structure Retriable (codec : Codec) (sent : List QueueEvent) (task : QueueTask) : Prop
    extends Printable codec task where
  more : (task.attempts + 1).natAbs < 10 ^ intMaxStrDigits
  born : ∃ config delaySeconds now,
    .enqueue task.id task.taskType task.payload config delaySeconds now ∈ sent

def text (codec : Codec) (task : QueueTask) : String :=
  codec.writer.dumps (.obj task.fields)

namespace Printable

variable {codec : Codec} {task other : QueueTask}

theorem prints (h : Printable codec task) : codec.writer.Prints codec.reader (.obj task.fields) := by
  cases hlast : task.lastError <;>
    simp [QueueTask.fields, hlast, JsonWriter.Prints, JsonWriter.PrintsFields, h.attempts,
      h.maxAttempts, h.payload]

/-- What a worker pops is what was pushed. -/
theorem popTask (h : Printable codec task) : codec.popTask (text codec task) = .ok task.fields := by
  rw [Codec.popTask, text, JsonWriter.loads_dumps h.prints]
  exact popTask_fields task

/-- Two tasks never share a text. -/
theorem text_inj (h : Printable codec task) (h' : Printable codec other)
    (heq : text codec task = text codec other) : task = other := by
  have hjson := (JsonWriter.dumps_inj h.prints h'.prints).mp heq
  exact fields_inj (Json.obj.inj hjson)

theorem encodeTask (h : Printable codec task) :
    codec.encodeTask task.fields = .ok (text codec task) := by
  have hencode := Worker.encodeTask_ok (fields_attempts task) h.attempts
  rw [Codec.encodeTask, hencode]
  rfl

theorem redacted (h : Printable codec task) : Printable codec task.redacted :=
  ⟨h.attempts, h.maxAttempts, Codec.prints_redacted h.payload⟩

end Printable

def stageOf (codec : Codec) : WorkerStage → Stage
  | .idle => .idle
  | .promoting raws => .promoting (raws.map (text codec))
  | .moving raw raws => .moving (text codec raw) (raws.map (text codec))
  | .popping => .popping
  | .holding task => .holding task.fields
  | .requeueing (.deadLetter task) => .requeueing (.deadLetter task.fields)
  | .requeueing (.push task delaySeconds) => .requeueing (.push task.fields delaySeconds)

structure Shows (codec : Codec) (t : State) (w : QueueState) : Prop where
  ready : t.ready = w.ready.map (text codec)
  delayed : Table.Renamed (text codec) id w.delayed t.delayed
  dead : t.dead = w.dead.map (text codec)
  workers : Table.Renamed id (stageOf codec) w.workers t.workers
  succeeded : t.succeeded = w.succeeded.map QueueTask.fields
  enqueued : t.enqueued = w.enqueued

def StagePrints (codec : Codec) (sent : List QueueEvent) : WorkerStage → Prop
  | .promoting raws => ∀ raw ∈ raws, Retriable codec sent raw
  | .moving raw raws => Retriable codec sent raw ∧ ∀ raw ∈ raws, Retriable codec sent raw
  | .holding task => Retriable codec sent task
  | .requeueing (.deadLetter task) => Printable codec task
  | .requeueing (.push task _) => Retriable codec sent task
  | _ => True

structure AllPrint (codec : Codec) (sent : List QueueEvent) (w : QueueState) : Prop where
  ready : ∀ task ∈ w.ready, Retriable codec sent task
  delayed : ∀ task ∈ w.delayed, Retriable codec sent task
  dead : ∀ task ∈ w.dead, Printable codec task
  workers : ∀ i stage, w.workers.lookup i = some stage → StagePrints codec sent stage

def EventPrints (codec : Codec) : QueueEvent → Prop
  | .enqueue _ _ payload config _ _ =>
    codec.writer.PrintsFields codec.reader payload ∧
      config.maxAttempts.natAbs < 10 ^ intMaxStrDigits ∧
      config.settingsMaxAttempts.natAbs < 10 ^ intMaxStrDigits
  | .start _ => True
  | .advance _ env => env.config.maxAttempts.natAbs < 10 ^ intMaxStrDigits

section Commands

variable {codec : Codec} {sent : List QueueEvent} {t : State} {w : QueueState} {i : Nat}
  {stage : WorkerStage}

theorem Shows.lookup (h : Shows codec t w) (i : Nat) :
    t.workers.lookup i = (w.workers.lookup i).map (stageOf codec) :=
  h.workers.lookup fun _ _ heq => heq

theorem Shows.setStage (h : Shows codec t w) (i : Nat) (stage : WorkerStage) :
    Shows codec (t.setStage i (stageOf codec stage)) (w.setStage i stage) :=
  ⟨h.ready, h.delayed, h.dead, h.workers.insert (fun _ _ heq => heq) stage, h.succeeded, h.enqueued⟩

theorem AllPrint.setStage (h : AllPrint codec sent w) (i : Nat)
    (hstage : StagePrints codec sent stage) :
    AllPrint codec sent (w.setStage i stage) := by
  refine ⟨h.ready, h.delayed, h.dead, ?_⟩
  intro j other hlookup
  rw [QueueState.setStage, Table.lookup_insert_eq] at hlookup
  split at hlookup
  · exact Option.some.inj hlookup ▸ hstage
  · exact h.workers j other hlookup

theorem AllPrint.only (h : AllPrint codec sent w) {task : QueueTask}
    (htask : Printable codec task) :
    Table.Renamed.Only (text codec) w.delayed task :=
  fun _ hother heq => (h.delayed _ hother).text_inj htask heq

theorem AllPrint.holds (h : AllPrint codec sent w) {task : QueueTask} (htask : w.Holds task) :
    Printable codec task := by
  rcases htask with hready | hdelayed | hdead
  · exact (h.ready task hready).toPrintable
  · exact (h.delayed task hdelayed).toPrintable
  · exact h.dead task hdead

/-- The due texts are the texts of the due tasks. -/
theorem Shows.dueTasks (h : Shows codec t w) (now : Time) :
    dueTasks t.delayed now = (dueTasks w.delayed now).map (text codec) := by
  have hsort : ∀ rows : List (Sigma fun _ : QueueTask => Int),
      (rows.map fun row => (⟨text codec row.1, id row.2⟩ : Sigma fun _ : String => Int)).mergeSort
          (fun a b => a.2 ≤ b.2) =
        (rows.mergeSort fun a b => a.2 ≤ b.2).map fun row => ⟨text codec row.1, id row.2⟩ := by
    intro rows
    rw [List.map_mergeSort]
    exact fun _ _ _ _ => rfl
  rw [PluginRegistry.dueTasks, PluginRegistry.dueTasks, h.delayed, List.filter_map, hsort,
    ← List.map_take, List.map_map, List.map_map]
  rfl

structure Mirrors (codec : Codec) (sent : List QueueEvent) (t : State) (w : QueueState) : Prop where
  shown : Shows codec t w
  prints : AllPrint codec sent w

namespace Mirrors

theorem setStage (h : Mirrors codec sent t w) (i : Nat) (stage : WorkerStage)
    (hstage : StagePrints codec sent stage) :
    Mirrors codec sent (t.setStage i (stageOf codec stage)) (w.setStage i stage) :=
  ⟨h.shown.setStage i stage, h.prints.setStage i hstage⟩

theorem push (h : Mirrors codec sent t w) {task : QueueTask} (htask : Retriable codec sent task)
    (delaySeconds : Int) (now : Time) :
    Mirrors codec sent (t.push (text codec task) delaySeconds now)
      (w.pushTask task delaySeconds now) := by
  obtain ⟨h, hprint⟩ := h
  rw [State.push_eq, QueueState.pushTask_eq]
  split
  · have hinsert := h.delayed.insert (hprint.only htask.toPrintable)
      ((now : Int) + delaySeconds * 1000000)
    refine ⟨⟨h.ready, hinsert, h.dead, h.workers, h.succeeded, h.enqueued⟩,
      hprint.ready, ?_, hprint.dead, hprint.workers⟩
    intro other hother
    rcases (AList.mem_insert w.delayed).mp hother with rfl | hother
    · exact htask
    · exact hprint.delayed other hother
  · refine ⟨⟨?_, h.delayed, h.dead, h.workers, h.succeeded, h.enqueued⟩,
      ?_, hprint.delayed, hprint.dead, hprint.workers⟩
    · rw [h.ready, List.map_append]
      rfl
    · intro other hother
      rcases List.mem_append.mp hother with hother | hother
      · exact hprint.ready other hother
      · exact List.mem_singleton.mp hother ▸ htask

end Mirrors

def requeueOf : Requeue QueueTask → Requeue JsonObject
  | .deadLetter task => .deadLetter task.fields
  | .push task delaySeconds => .push task.fields delaySeconds

theorem stageOf_requeueing (codec : Codec) (target : Requeue QueueTask) :
    stageOf codec (.requeueing target) = .requeueing (requeueOf target) := by
  cases target <;> rfl

theorem maxAttempts_fields (task : QueueTask) (n : Int) :
    Worker.maxAttempts task.fields (.ok n) = .ok (task.limit n) := by
  rw [Worker.maxAttempts, fields_maxAttempts, QueueTask.limit]
  by_cases hzero : task.maxAttempts = 0
  · simp [Json.truthy, hzero]
  · simp [Json.truthy, hzero, Json.toInt]

theorem requeued_fields (task : QueueTask) (error : PyErr) (limits : TaskLimits) :
    Worker.requeued task.fields error (.ok limits.maxAttempts) (.ok limits.retryDelaySeconds) =
      .ok (requeueOf (requeueTask task error limits)) := by
  rw [Worker.requeued, attempts_fields]
  simp only [bind, Except.bind, fields_failed, maxAttempts_fields, requeueTask]
  by_cases hretry : (!isRetryableTaskError error) = true
  · rw [if_pos hretry, if_pos hretry]
    rfl
  · rw [if_neg hretry, if_neg hretry]
    by_cases hlimit : (task.failed error).limit limits.maxAttempts ≤ task.attempts + 1
    · rw [if_pos hlimit, if_pos (show _ ≤ (task.failed error).attempts from hlimit)]
      rfl
    · rw [if_neg hlimit, if_neg (show ¬_ ≤ (task.failed error).attempts from hlimit)]
      rfl

theorem requeueTask_prints {task : QueueTask} (h : Retriable codec sent task) (error : PyErr)
    {limits : TaskLimits} (hlimits : limits.maxAttempts.natAbs < 10 ^ intMaxStrDigits) :
    StagePrints codec sent (.requeueing (requeueTask task error limits)) := by
  have hfailed : Printable codec (task.failed error) := ⟨h.more, h.maxAttempts, h.payload⟩
  have hlimit : (task.limit limits.maxAttempts).natAbs < 10 ^ intMaxStrDigits := by
    rw [QueueTask.limit]
    split
    · exact hlimits
    · exact h.maxAttempts
  have hmore := h.more
  unfold requeueTask
  dsimp only
  split
  · exact hfailed
  · split
    · exact hfailed
    · rename_i hlast
      rw [QueueTask.failed_limit, QueueTask.failed_attempts] at hlast
      refine ⟨hfailed, ?_, h.born⟩
      rw [QueueTask.failed_attempts]
      omega

namespace Mirrors

variable {env : WorkerEnv}

theorem promote (h : Mirrors codec sent t w) {raws : List QueueTask}
    (hstage : w.workers.lookup i = some (.promoting raws)) :
    Mirrors codec sent (t.advance codec i env) (w.advance i env) := by
  have hlookup := h.shown.lookup i
  have hraws := h.prints.workers i _ hstage
  rw [hstage] at hlookup
  cases raws with
  | nil =>
    simp only [State.advance, hlookup, Option.map_some, stageOf, List.map_nil, QueueState.advance,
      hstage]
    exact h.setStage i .popping trivial
  | cons raw raws =>
    obtain ⟨hraw, hraws⟩ := List.forall_mem_cons.mp hraws
    have honly := h.prints.only hraw.toPrintable
    simp only [State.advance, hlookup, Option.map_some, stageOf, List.map_cons, QueueState.advance,
      hstage, h.shown.delayed.lookup honly, Option.isSome_map]
    split
    · obtain ⟨h, hprint⟩ := h
      have herase : Mirrors codec sent { t with delayed := AList.erase (text codec raw) t.delayed }
          { w with delayed := AList.erase raw w.delayed } :=
        ⟨⟨h.ready, h.delayed.erase honly, h.dead, h.workers, h.succeeded, h.enqueued⟩,
          hprint.ready, fun task htask => hprint.delayed task (AList.mem_erase.mp htask).2,
          hprint.dead, hprint.workers⟩
      exact herase.setStage i (.moving raw raws) ⟨hraw, hraws⟩
    · exact h.setStage i (.promoting raws) hraws

theorem move (h : Mirrors codec sent t w) {raw : QueueTask} {raws : List QueueTask}
    (hstage : w.workers.lookup i = some (.moving raw raws)) :
    Mirrors codec sent (t.advance codec i env) (w.advance i env) := by
  have hlookup := h.shown.lookup i
  obtain ⟨hraw, hraws⟩ := h.prints.workers i _ hstage
  rw [hstage] at hlookup
  simp only [State.advance, hlookup, Option.map_some, stageOf, QueueState.advance, hstage]
  have hready := h.push hraw 0 0
  exact hready.setStage i (.promoting raws) hraws

theorem pop (h : Mirrors codec sent t w) (hstage : w.workers.lookup i = some .popping) :
    Mirrors codec sent (t.advance codec i env) (w.advance i env) := by
  have hlookup := h.shown.lookup i
  have hready := h.shown.ready
  rw [hstage] at hlookup
  cases hqueue : w.ready with
  | nil =>
    rw [hqueue] at hready
    simp only [State.advance, hlookup, Option.map_some, stageOf, QueueState.advance, hstage, hready,
      hqueue, List.map_nil]
    exact h.setStage i .idle trivial
  | cons task ready =>
    have htask : Retriable codec sent task := h.prints.ready task (hqueue ▸ List.mem_cons_self)
    rw [hqueue, List.map_cons] at hready
    simp only [State.advance, hlookup, Option.map_some, stageOf, QueueState.advance, hstage, hready,
      hqueue, htask.popTask]
    obtain ⟨h, hprint⟩ := h
    have hpopped : Mirrors codec sent { t with ready := ready.map (text codec) } { w with ready } :=
      ⟨⟨rfl, h.delayed, h.dead, h.workers, h.succeeded, h.enqueued⟩,
        fun other hother => hprint.ready other (hqueue ▸ List.mem_cons_of_mem _ hother),
        hprint.delayed, hprint.dead, hprint.workers⟩
    exact hpopped.setStage i (.holding task) htask

theorem finish (h : Mirrors codec sent t w) {task : QueueTask}
    (hstage : w.workers.lookup i = some (.holding task))
    (henv : env.config.maxAttempts.natAbs < 10 ^ intMaxStrDigits) :
    Mirrors codec sent (t.advance codec i env) (w.advance i env) := by
  have hlookup := h.shown.lookup i
  have htask : Retriable codec sent task := h.prints.workers i _ hstage
  rw [hstage] at hlookup
  simp only [State.advance, hlookup, Option.map_some, stageOf, QueueState.advance, hstage,
    State.finish, attempts_fields]
  cases env.handled with
  | none =>
    obtain ⟨h, hprint⟩ := h
    have hdone : Mirrors codec sent { t with succeeded := task.fields :: t.succeeded }
        { w with succeeded := task :: w.succeeded } := by
      refine ⟨⟨h.ready, h.delayed, h.dead, h.workers, ?_, h.enqueued⟩, hprint.ready,
        hprint.delayed, hprint.dead, hprint.workers⟩
      rw [h.succeeded]
      rfl
    exact hdone.setStage i .idle trivial
  | some error =>
    simp only [bind, Except.bind, Worker.raise, requeued_fields]
    rw [← stageOf_requeueing codec]
    exact h.setStage i _ (requeueTask_prints htask error henv)

theorem requeue (h : Mirrors codec sent t w) {target : Requeue QueueTask}
    (hstage : w.workers.lookup i = some (.requeueing target)) :
    Mirrors codec sent (t.advance codec i env) (w.advance i env) := by
  have hlookup := h.shown.lookup i
  have htarget := h.prints.workers i _ hstage
  rw [hstage, Option.map_some, stageOf_requeueing] at hlookup
  cases target with
  | deadLetter task =>
    have htask : Printable codec task := htarget
    simp only [State.advance, hlookup, QueueState.advance, hstage, requeueOf, State.requeue,
      fields_redacted, htask.redacted.encodeTask]
    obtain ⟨h, hprint⟩ := h
    have hdead : Mirrors codec sent { t with dead := t.dead ++ [text codec task.redacted] }
        { w with dead := w.dead ++ [task.redacted] } := by
      refine ⟨⟨h.ready, h.delayed, ?_, h.workers, h.succeeded, h.enqueued⟩, hprint.ready,
        hprint.delayed, ?_, hprint.workers⟩
      · rw [h.dead, List.map_append]
        rfl
      · intro other hother
        rcases List.mem_append.mp hother with hother | hother
        · exact hprint.dead other hother
        · exact List.mem_singleton.mp hother ▸ htask.redacted
    exact hdead.setStage i .idle trivial
  | push task delaySeconds =>
    have htask : Retriable codec sent task := htarget
    simp only [State.advance, hlookup, QueueState.advance, hstage, requeueOf, State.requeue,
      htask.encodeTask]
    exact (h.push htask delaySeconds env.now).setStage i .idle trivial

/-- The text queue mirrors the abstract one through every step of a worker. -/
theorem advance (h : Mirrors codec sent t w) (i : Nat)
    (henv : env.config.maxAttempts.natAbs < 10 ^ intMaxStrDigits) :
    Mirrors codec sent (t.advance codec i env) (w.advance i env) := by
  cases hstage : w.workers.lookup i with
  | none =>
    have hlookup := h.shown.lookup i
    rw [hstage] at hlookup
    simpa only [State.advance, hlookup, Option.map_none, QueueState.advance, hstage] using h
  | some stage =>
    cases stage with
    | idle =>
      have hlookup := h.shown.lookup i
      rw [hstage] at hlookup
      simp only [State.advance, hlookup, Option.map_some, stageOf, QueueState.advance, hstage,
        h.shown.dueTasks]
      apply h.setStage i (.promoting (PluginRegistry.dueTasks w.delayed env.now))
      intro raw hraw
      obtain ⟨due, hdue, -⟩ := TaskRuns.mem_dueTasks hraw
      exact h.prints.delayed raw (AList.lookup_isSome.mp (hdue ▸ rfl))
    | promoting raws => exact h.promote hstage
    | moving raw raws => exact h.move hstage
    | popping => exact h.pop hstage
    | holding task => exact h.finish hstage henv
    | requeueing target => exact h.requeue hstage

end Mirrors

/-- The queue of texts does what the queue of tasks does. -/
theorem service_simulates (codec : Codec) (sent : List QueueEvent) :
    (service codec).Simulates queueService (fun e => e ∈ sent ∧ EventPrints codec e)
      (Mirrors codec sent) where
  init := by
    refine ⟨⟨rfl, rfl, rfl, rfl, rfl, rfl⟩, ?_, ?_, ?_, ?_⟩
    all_goals simp [queueService, QueueState.empty]
  step := by
    rintro t w event h ⟨hsent, hevent⟩
    cases event with
    | start i =>
      simp only [service, State.step, queueService, QueueState.step, h.shown.lookup,
        Option.isSome_map]
      split
      · exact h
      · exact h.setStage i .idle trivial
    | advance i env => exact h.advance i hevent
    | enqueue id taskType payload config delaySeconds now =>
      obtain ⟨hpayload, hmax, hsettings⟩ := hevent
      have htask : Retriable codec sent (createTaskEnvelope config.settingsMaxAttempts taskType
          payload id config.maxAttempts) := by
        have hone : 1 < 10 ^ intMaxStrDigits := Nat.one_lt_pow (by decide) (by omega)
        refine ⟨⟨Nat.lt_of_succ_lt hone, ?_, hpayload⟩, hone, config, delaySeconds, now, hsent⟩
        rw [createTaskEnvelope]
        split
        · exact hsettings
        · exact hmax
      simp only [service, State.step, queueService, QueueState.step, h.shown.enqueued,
        htask.encodeTask]
      split
      · exact h
      · obtain ⟨hshows, hprint⟩ := h.push htask delaySeconds now
        exact ⟨⟨hshows.ready, hshows.delayed, hshows.dead, hshows.workers, hshows.succeeded, rfl⟩,
          hprint.ready, hprint.delayed, hprint.dead, hprint.workers⟩

end Commands

def State.waits (t : State) (raw : String) : Prop :=
  raw ∈ t.ready ∨ raw ∈ t.delayed

/-- The texts in Redis are those of the tasks, whatever the workers do in between: no two tasks
share one, each one that waits is read back as the envelope it was made of, and what a worker
handles is what was enqueued. -/
theorem redis_keeps_the_tasks (codec : Codec) (es : List QueueEvent)
    (hes : ∀ e ∈ es, EventPrints codec e) :
    let t := (service codec).runFrom (service codec).init es
    let w := queueService.runFrom queueService.init es
    Shows codec t w ∧
      (∀ task other, w.Holds task → w.Holds other → text codec task = text codec other →
        task = other) ∧
      (∀ raw, t.waits raw → ∃ task, (task ∈ w.ready ∨ task ∈ w.delayed) ∧
        raw = text codec task ∧ codec.popTask raw = .ok task.fields) ∧
      ∀ i envelope, t.workers.lookup i = some (.holding envelope) →
        ∃ id taskType payload config delaySeconds now,
          .enqueue id taskType payload config delaySeconds now ∈ es ∧
          envelope.get "id" = some (.str id) ∧ envelope.get "type" = some (.str taskType) ∧
          envelope.get "payload" = some (.obj payload) := by
  intro t w
  have hmirrors : Mirrors codec es t w :=
    (service_simulates codec es).run fun e he => ⟨he, hes e he⟩
  obtain ⟨hshown, hprint⟩ := hmirrors
  refine ⟨hshown, ?_, ?_, ?_⟩
  · intro task other htask hother heq
    exact (hprint.holds htask).text_inj (hprint.holds hother) heq
  · rintro raw (hraw | hraw)
    · rw [hshown.ready] at hraw
      obtain ⟨task, htask, rfl⟩ := List.mem_map.mp hraw
      exact ⟨task, .inl htask, rfl, (hprint.ready task htask).popTask⟩
    · obtain ⟨task, htask, rfl⟩ := hshown.delayed.mem_iff.mp hraw
      exact ⟨task, .inr htask, rfl, (hprint.delayed task htask).popTask⟩
  · intro i envelope hholds
    rw [hshown.lookup] at hholds
    obtain ⟨stage, hstage, heq⟩ := Option.map_eq_some_iff.mp hholds
    have hprints := hprint.workers i stage hstage
    cases stage with
    | holding task =>
      obtain ⟨config, delaySeconds, now, hsent⟩ := hprints.born
      obtain rfl := Stage.holding.inj heq
      refine ⟨task.id, task.taskType, task.payload, config, delaySeconds, now, hsent, ?_, ?_,
        fields_payload task⟩
      · simp [QueueTask.fields, JsonObject.get]
      · simp [QueueTask.fields, JsonObject.get]
    | requeueing target =>
      rw [stageOf_requeueing] at heq
      cases heq
    | _ => cases heq

def delayedText : String :=
  "\x7b\"id\":\"a\",\"type\":\"scan\",\"payload\":\x7b\"version_id\":\"v\",\"providers\":null\x7d," ++
    "\"attempts\":1,\"max_attempts\":3,\"last_error\":\"\\\"\\u00e9\\\"\"\x7d"

/-- Two tasks; the first one fails once and waits again. -/
theorem redis_keeps_the_tasks_retried :
    let codec : Codec := ⟨compactWriter, plainReader⟩
    let env : WorkerEnv := ⟨0, some (valueError "\"\u00e9\""), ⟨⟨3, 5⟩, 3⟩⟩
    let w := queueService.runFrom queueService.init [
      .enqueue "a" "scan" [("version_id", .str "v"), ("providers", .null)] ⟨⟨3, 5⟩, 3⟩ 0 0,
      .enqueue "b" "build" [("ref", .str "caf\u00e9\n")] ⟨⟨3, 5⟩, 3⟩ 0 0,
      .start 1, .advance 1 env, .advance 1 env, .advance 1 env, .advance 1 env, .advance 1 env]
    ∃ task, (task ∈ w.ready ∨ task ∈ w.delayed) ∧
      delayedText = text codec task ∧ codec.popTask delayedText = .ok task.fields := by
  intro codec env w
  have hthree : 3 < 10 ^ intMaxStrDigits :=
    Nat.lt_of_lt_of_le (by decide : 3 < 10 ^ 1) (Nat.pow_le_pow_right (by decide) (by decide))
  refine (redis_keeps_the_tasks codec _ ?_).2.2.1 delayedText (.inr ?_)
  · simp only [List.forall_mem_cons, EventPrints, env]
    simp [hthree, JsonWriter.PrintsFields, JsonWriter.Prints]
  · rw [AList.mem_keys]
    decide +kernel

end TextQueue

end PluginRegistry
