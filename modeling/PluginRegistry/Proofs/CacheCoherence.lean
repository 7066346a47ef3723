import PluginRegistry.Proofs.Submissions
import PluginRegistry.Proofs.Uploads
import PluginRegistry.Services.RegistryCache

namespace PluginRegistry
open Lib

namespace CacheStage

def holds : CacheStage → Bool
  | .readConfig _ _ | .setJson _ _ | .setMd5 _ => true
  | _ => false

/-- Whether a write is committed and its refresh has not deleted the keys yet. -/
def isDelete : CacheStage → Bool
  | .reread _ | .deleteKeys => true
  | _ => false

def Fresh (db : Db) : CacheStage → Prop
  | .readConfig rows _ => rows = db
  | .setJson registry _ | .setMd5 registry => registry = db.generateRegistryJson
  | _ => True

theorem fresh_of_not_holds {s : CacheStage} (h : s.holds = false) (db : Db) : s.Fresh db := by
  cases s with
  | readConfig _ _ => cases h
  | setJson _ _ => cases h
  | setMd5 _ => cases h
  | reread _ => trivial
  | deleteKeys => trivial
  | getJson _ => trivial
  | readPlugins _ => trivial
  | getMd5 => trivial
  | finished => trivial

def isFinished : CacheStage → Bool
  | .finished => true
  | _ => false

theorem eq_finished (s : CacheStage) (h : s.isFinished = true) : s = .finished := by
  cases s <;> first | rfl | cases h

theorem fresh_after {db : Db} {registry : Registry} (after : AfterGenerate)
    (h : registry = db.generateRegistryJson) : (after.stage registry).Fresh db := by
  cases after with
  | finish => trivial
  | refreshMd5 => trivial
  | digest => exact h

end CacheStage

/-- The steps that mix two states of the database: a commit while some call keeps what it will
store, a read by a session whose objects are no longer what the database holds, and a digest
taken of a document that a refresh is about to delete. -/
def CacheEvent.interferes (w : CacheState) : CacheEvent → Bool
  | .write _ _ _ _ => w.calls.entries.any fun e => e.2.stage.holds
  | .advance callId => (w.calls.lookup callId).any fun call =>
      match call.stage with
      | .readPlugins _ => !decide (call.session.Agrees w.db)
      | .getJson .digest => w.json.isSome && w.calls.entries.any fun e => e.2.stage.isDelete
      | _ => false
  | _ => false

namespace CacheState

variable {md5 : Registry → String} {w : CacheState}

/-- What is cached is what the database gives now. -/
structure Current (md5 : Registry → String) (db : Db) (json : Option Registry)
    (digest : Option String) : Prop where
  json : ∀ registry, json = some registry → registry = db.generateRegistryJson
  digest : ∀ text, digest = some text → text = md5 db.generateRegistryJson

/-- Once every call has finished, what is cached is current. -/
def Coherent (md5 : Registry → String) (w : CacheState) : Prop :=
  (∀ i call, w.calls.lookup i = some call → call.stage = .finished) →
    Current md5 w.db w.json w.md5

/-- What a run keeps while no step mixes two states of the database. -/
structure Fresh (md5 : Registry → String) (w : CacheState) : Prop where
  calls : ∀ i call, w.calls.lookup i = some call → call.stage.Fresh w.db
  cached : (∀ i call, w.calls.lookup i = some call → call.stage.isDelete = false) →
    Current md5 w.db w.json w.md5

theorem Fresh.coherent (h : w.Fresh md5) : w.Coherent md5 := by
  intro hdone
  apply h.cached
  intro i call hi
  rw [hdone i call hi]
  rfl

/-- A call that goes on keeps the others as they are. -/
theorem calls_setCall (h : w.Fresh md5) (i : Nat) {c : CacheCall} (hc : c.stage.Fresh w.db)
    (j : Nat) (call : CacheCall)
    (hj : (AList.insert i c w.calls).lookup j = some call) : call.stage.Fresh w.db := by
  rw [Table.lookup_insert_eq] at hj
  split at hj
  · obtain rfl := Option.some.inj hj
    exact hc
  · exact h.calls j call hj

/-- A call that is not a pending refresh moves on. -/
theorem Fresh.move (h : w.Fresh md5) {i : Nat} {c c' : CacheCall} {json : Option Registry}
    {digest : Option String} (hi : w.calls.lookup i = some c) (hc : c.stage.isDelete = false)
    (hfresh : c'.stage.Fresh w.db)
    (hkeep : Current md5 w.db w.json w.md5 → Current md5 w.db json digest) :
    ({ w with json, md5 := digest }.setCall i c').Fresh md5 where
  calls := calls_setCall h i hfresh
  cached hno := by
    apply hkeep
    apply h.cached
    intro j call hj
    by_cases hji : j = i
    · subst hji
      obtain rfl := Option.some.inj (hi.symm.trans hj)
      exact hc
    · exact hno j call (by simpa [setCall, Table.lookup_insert_eq, hji] using hj)

theorem Fresh.start (h : w.Fresh md5) (i : Nat) {s : CacheStage} (hs : s.holds = false) :
    (w.start i s).Fresh md5 := by
  unfold CacheState.start
  split
  · exact h
  · rename_i hnew
    refine ⟨calls_setCall h i (CacheStage.fresh_of_not_holds hs w.db), fun hno => ?_⟩
    apply h.cached
    intro j call hj
    have hji : j ≠ i := by
      rintro rfl
      exact hnew (by rw [hj]; rfl)
    exact hno j call (by simpa [setCall, Table.lookup_insert_eq, hji] using hj)

theorem Fresh.write (h : w.Fresh md5) (i : Nat) (db : Db) (session : SessionRows)
    (object : Reread) (hgood : (CacheEvent.write i db session object).interferes w = false) :
    (w.step md5 (.write i db session object)).Fresh md5 := by
  have hidle : ∀ j call, w.calls.lookup j = some call → call.stage.holds = false := by
    intro j call hj
    rw [← Bool.not_eq_true]
    intro hc
    have hany : (w.calls.entries.any fun e => e.2.stage.holds) = true :=
      List.any_eq_true.mpr ⟨⟨j, call⟩, Table.mem_entries.mpr hj, hc⟩
    rw [CacheEvent.interferes, hany] at hgood
    cases hgood
  unfold step
  dsimp only
  split
  · exact h
  · refine ⟨fun j call hj => ?_, fun hno => ?_⟩
    · simp only [setCall, Table.lookup_insert_eq] at hj
      split at hj
      · obtain rfl := Option.some.inj hj
        trivial
      · exact CacheStage.fresh_of_not_holds (hidle j call hj) db
    · have := hno i ⟨session, .reread object⟩ (by simp [setCall])
      cases this

/-- A pending refresh re-reads its object. -/
theorem Fresh.reread (h : w.Fresh md5) (i : Nat) (session : SessionRows) :
    (w.setCall i ⟨session, .deleteKeys⟩).Fresh md5 where
  calls := calls_setCall h i trivial
  cached hno := by
    have hdone := hno i ⟨session, .deleteKeys⟩ (by simp [setCall])
    cases hdone

theorem Fresh.deleteKeys (h : w.Fresh md5) (i : Nat) (session : SessionRows)
    (after : AfterGenerate) :
    ({ w with json := none, md5 := none }.setCall i ⟨session, .getJson after⟩).Fresh md5 where
  calls := calls_setCall h i trivial
  cached _ := ⟨fun _ hc => (by cases hc), fun _ hc => (by cases hc)⟩

/-- A call that is not overtaken writes what the rows say now. The cases are the stages it
can be in. -/
theorem Fresh.advance (h : w.Fresh md5) (i : Nat)
    (hgood : (CacheEvent.advance i).interferes w = false) : (w.advance md5 i).Fresh md5 := by
  unfold CacheState.advance
  cases hi : w.calls.lookup i with
  | none => exact h
  | some call =>
    obtain ⟨session, stage⟩ := call
    have hfresh := h.calls i _ hi
    dsimp only
    cases stage with
    | reread object => exact h.reread i _
    | deleteKeys => exact h.deleteKeys i session .refreshMd5
    | getJson after =>
      dsimp only
      cases hj : w.json with
      | none =>
        exact h.move hi rfl trivial fun hc => hc
      | some registry =>
        refine h.move hi rfl ?_ fun hc => hc
        cases after with
        | finish => trivial
        | refreshMd5 => trivial
        | digest =>
          refine (h.cached fun j call hjs => ?_).json registry hj
          rw [← Bool.not_eq_true]
          intro hd
          have hany : (w.calls.entries.any fun e => e.2.stage.isDelete) = true :=
            List.any_eq_true.mpr ⟨⟨j, call⟩, Table.mem_entries.mpr hjs, hd⟩
          simp [CacheEvent.interferes, hi, hj, hany] at hgood
    | readPlugins after =>
      have hagrees : session.Agrees w.db := by
        simpa [CacheEvent.interferes, hi] using hgood
      exact h.move hi rfl (SessionRows.view_eq hagrees) fun hc => hc
    | readConfig rows after =>
      obtain rfl : rows = w.db := hfresh
      exact h.move hi rfl rfl fun hc => hc
    | setJson registry after =>
      refine h.move hi rfl (CacheStage.fresh_after after hfresh) fun hc => ⟨?_, hc.digest⟩
      intro r hr
      obtain rfl := Option.some.inj hr
      exact hfresh
    | getMd5 =>
      dsimp only
      cases hm : w.md5 with
      | none =>
        exact h.move hi rfl trivial fun hc => hc
      | some text =>
        exact h.move hi rfl trivial fun hc => hc
    | setMd5 registry =>
      refine h.move hi rfl trivial fun hc => ⟨hc.json, ?_⟩
      intro text ht
      obtain rfl := Option.some.inj ht
      rw [show registry = w.db.generateRegistryJson from hfresh]
    | finished => exact h

theorem step_fresh (h : w.Fresh md5) (e : CacheEvent) (hgood : e.interferes w = false) :
    (w.step md5 e).Fresh md5 := by
  cases e with
  | write i db session object => exact h.write i db session object hgood
  | generate i => exact h.start i rfl
  | getMd5 i => exact h.start i rfl
  | expire key =>
    cases key with
    | json =>
      refine ⟨h.calls, fun hno => ⟨fun _ hc => (by cases hc), ?_⟩⟩
      exact (h.cached hno).digest
    | md5 =>
      refine ⟨h.calls, fun hno => ⟨?_, fun _ hc => (by cases hc)⟩⟩
      exact (h.cached hno).json
  | advance i => exact h.advance i hgood

theorem initial_fresh (db : Db) : (CacheState.initial db).Fresh md5 :=
  ⟨fun _ _ h => (by cases h), fun _ => ⟨fun _ h => (by cases h), fun _ h => (by cases h)⟩⟩

end CacheState

/-- In a run where no write commits while a call keeps what it will store, no session reads
the plugins with objects that the database no longer holds, and no digest is taken of a
document that a refresh is about to delete, the caches are current whenever all calls have
finished. -/
theorem cache_coherent (md5 : Registry → String) (db : Db) (events : List CacheEvent)
    (h : ∀ s ∈ (cacheService md5 db).steps (cacheService md5 db).init events,
      s.2.interferes s.1 = false) :
    ∀ w ∈ (cacheService md5 db).states (cacheService md5 db).init events, w.Coherent md5 := by
  intro w hw
  exact (Machine.guarded_run (CacheState.Fresh md5) (fun w e => e.interferes w = false)
    (fun _ e hs he => CacheState.step_fresh hs e he) (CacheState.initial_fresh db) h w hw).coherent

/-- A reader fills both caches, then a session that has read the plugins before refreshes
them. -/
def readThenWrite (db : Db) : List CacheEvent :=
  [.getMd5 0, .advance 0, .advance 0, .advance 0, .advance 0, .advance 0, .advance 0,
    .write 1 db (SessionRows.empty.fetch db) (.version 1), .advance 1, .advance 1, .advance 1,
    .advance 1, .advance 1, .advance 1, .advance 1, .advance 1, .advance 1]

theorem cache_coherent_read_then_write :
    (∀ s ∈ (cacheService (fun _ => "") (.empty .default)).steps
        (cacheService (fun _ => "") (.empty .default)).init
        (readThenWrite (World.run .default publishedRun).db), s.2.interferes s.1 = false) ∧
      ∀ w ∈ (cacheService (fun _ => "") (.empty .default)).states
        (cacheService (fun _ => "") (.empty .default)).init
        (readThenWrite (World.run .default publishedRun).db), w.Coherent fun _ => "" := by
  have h : ∀ s ∈ (cacheService (fun _ => "") (.empty .default)).steps
      (cacheService (fun _ => "") (.empty .default)).init
      (readThenWrite (World.run .default publishedRun).db), s.2.interferes s.1 = false := by
    decide +kernel
  exact ⟨h, cache_coherent _ _ _ h⟩

/-- A session that has re-read its version refreshes after another one has published it. -/
def staleWriter (before after : Db) : List CacheEvent :=
  .write 1 before .empty (.version 1) :: .advance 1 :: .write 2 after .empty .nothing ::
    (List.replicate 9 (.advance 2) ++ List.replicate 8 (.advance 1))

/-- Its document misses the plugin, though every call is over. -/
example :
    let w := (cacheService (fun _ => "") (.empty .default)).runFrom (.initial (.empty .default))
      (staleWriter (World.run .default (publishedRun.take 3)).db
        (World.run .default publishedRun).db)
    (w.calls.entries.all fun e => e.2.stage.isFinished) = true ∧
      (w.json.any fun registry => (registry.lookup "demo").isNone) = true ∧
      (w.db.generateRegistryJson.lookup "demo").isSome = true := by
  decide +kernel

def slowReader (db : Db) : List CacheEvent :=
  [.generate 0, .advance 0, .advance 0, .advance 0,
    .write 1 db .empty .nothing, .advance 1, .advance 1, .advance 1, .advance 1, .advance 1,
    .advance 1, .advance 1, .advance 1, .advance 1, .advance 0]

/-- The cached document misses the plugin that the write has published. -/
theorem slow_reader_incoherent :
    ¬ ∀ (md5 : Registry → String) (db : Db) (events : List CacheEvent),
      ∀ w ∈ (cacheService md5 db).states (cacheService md5 db).init events, w.Coherent md5 := by
  intro h
  have hsafe := h (fun _ => "") (.empty .default)
    (slowReader (World.run .default publishedRun).db) _ (Machine.run_mem_states _ _)
  obtain ⟨registry, hr, hmiss⟩ : ∃ registry,
      ((cacheService (fun _ => "") (.empty .default)).runFrom
        (cacheService (fun _ => "") (.empty .default)).init
        (slowReader (World.run .default publishedRun).db)).json = some registry ∧
      (registry.lookup "demo").isNone = true :=
    (Option.any_eq_true ..).mp (by decide +kernel)
  have hdone : ∀ i call, ((cacheService (fun _ => "") (.empty .default)).runFrom
      (cacheService (fun _ => "") (.empty .default)).init
      (slowReader (World.run .default publishedRun).db)).calls.lookup i = some call →
      call.stage.isFinished = true :=
    Table.forall_row_iff.mp (by decide +kernel)
  have hlisted : (((cacheService (fun _ => "") (.empty .default)).runFrom
      (cacheService (fun _ => "") (.empty .default)).init
      (slowReader (World.run .default publishedRun).db)).db.generateRegistryJson.lookup
        "demo").isNone = false := by
    decide +kernel
  rw [(hsafe fun i call hi => call.stage.eq_finished (hdone i call hi)).json registry hr,
    hlisted] at hmiss
  cases hmiss

end PluginRegistry
