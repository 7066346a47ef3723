import PluginRegistry.Proofs.ConfigReads
import PluginRegistry.Services.ConfigCache

namespace PluginRegistry
open Lib

namespace ConfigStage

def isClear : ConfigStage → Bool
  | .clear => true
  | _ => false

end ConfigStage

def Cached (rows hash : ConfigRows) : Prop :=
  hash = ∅ ∨ ∀ key, hash.lookup key = rows.lookup key

namespace ConfigState

variable {lower : String → String} {w : ConfigState}

def Coherent (w : ConfigState) : Prop :=
  (∀ i stage, w.calls.lookup i = some stage → stage = .finished) → Cached w.rows w.hash

def clearing (w : ConfigState) : Bool :=
  w.calls.entries.any fun e => e.2.isClear

def Settled (w : ConfigState) : Prop :=
  w.clearing = false → Cached w.rows w.hash

theorem clearing_eq_false :
    w.clearing = false ↔ ∀ i stage, w.calls.lookup i = some stage → stage.isClear = false := by
  rw [clearing, List.any_eq_false, ← Table.forall_row_iff]
  simp

theorem Settled.coherent (h : w.Settled) : w.Coherent := by
  intro hdone
  apply h
  rw [clearing_eq_false]
  intro i stage hi
  rw [hdone i stage hi]
  rfl

/-- A call that is not a pending clear moves on, and the rest still waits for
the same clears. -/
theorem clearing_setStage {i : Nat} {stage : ConfigStage} (rows hash : ConfigRows)
    (hi : ∀ old, w.calls.lookup i = some old → old.isClear = false)
    (hc : (({ w with rows, hash } : ConfigState).setStage i stage).clearing = false) :
    w.clearing = false ∧ stage.isClear = false := by
  rw [clearing_eq_false] at hc
  refine ⟨?_, hc i stage (by simp [setStage])⟩
  rw [clearing_eq_false]
  intro j old hj
  by_cases hji : j = i
  · rw [hji] at hj
    exact hi old hj
  · exact hc j old (by simpa [setStage, Table.lookup_insert_eq, hji] using hj)

theorem Settled.move (h : w.Settled) {i : Nat} {stage : ConfigStage} {hash : ConfigRows}
    (hi : ∀ old, w.calls.lookup i = some old → old.isClear = false)
    (hcached : w.clearing = false → Cached w.rows w.hash → Cached w.rows hash) :
    (({ w with hash } : ConfigState).setStage i stage).Settled := by
  intro hc
  obtain ⟨hbefore, -⟩ := clearing_setStage w.rows hash hi hc
  exact hcached hbefore (h hbefore)

end ConfigState

/-- A reader stores a snapshot that the rows no longer agree with, and no clear
is to come. -/
def ConfigEvent.storesStale (w : ConfigState) : ConfigEvent → Bool
  | .advance callId => !w.clearing && (w.calls.lookup callId).any fun stage =>
      match stage with
      | .setHash values => !values.same w.rows
      | _ => false
  | _ => false

namespace ConfigState

variable {lower : String → String} {w : ConfigState}

theorem Settled.start (h : w.Settled) (i : Nat) (stage : ConfigStage) :
    (w.start i stage).Settled := by
  unfold ConfigState.start
  split
  · exact h
  · rename_i hnew
    refine h.move (fun old hi => ?_) fun _ hc => hc
    rw [hi] at hnew
    exact absurd rfl hnew

theorem Settled.getItem (h : w.Settled) {i : Nat} {writes : List ConfigWrite}
    {items : List (String × String)}
    (hi : ∀ old, w.calls.lookup i = some old → old.isClear = false) :
    (w.getItem lower i writes items).Settled := by
  cases items with
  | nil =>
    simp only [ConfigState.getItem]
    split
    · exact h.move hi fun _ hc => hc
    · rename_i rows _
      intro hc
      have hclear := (clearing_setStage rows w.hash hi hc).2
      cases hclear
  | cons item items =>
    simp only [ConfigState.getItem]
    split
    · exact h.move hi fun _ hc => hc
    · exact h.move hi fun _ hc => hc

/-- Storing the rows over what is cached caches the rows. -/
theorem Cached.setHash {rows hash values : ConfigRows} (h : Cached rows hash)
    (hv : ∀ key, values.lookup key = rows.lookup key) : Cached rows (values ∪ hash) := by
  refine .inr fun key => ?_
  rw [Table.lookup_union, hv]
  rcases h with rfl | h
  · simp
  · rw [h]
    cases rows.lookup key <;> rfl

theorem Settled.advance (h : w.Settled) (i : Nat)
    (hgood : (ConfigEvent.advance i).storesStale w = false) :
    (w.advance lower i).Settled := by
  unfold ConfigState.advance
  cases hi : w.calls.lookup i with
  | none => exact h
  | some stage =>
    dsimp only
    have hother : stage.isClear = false → ∀ old, w.calls.lookup i = some old →
        old.isClear = false := by
      intro hs old ho
      rw [hi] at ho
      rwa [← Option.some.inj ho]
    cases stage with
    | getItem items writes => exact h.getItem (hother rfl)
    | clear => exact fun _ => .inl rfl
    | getAll => exact h.move (hother rfl) fun _ hc => hc
    | readRows => exact h.move (hother rfl) fun _ hc => hc
    | setHash values =>
      refine h.move (hother rfl) fun hnone hc => Cached.setHash hc (Table.same_iff.mp ?_)
      simpa [ConfigEvent.storesStale, hnone, hi] using hgood
    | setExpiry => exact h.move (hother rfl) fun _ hc => hc
    | finished => exact h

theorem Settled.fail (h : w.Settled) (i : Nat) : (w.fail i).Settled := by
  unfold ConfigState.fail
  split
  · rename_i items writes hi
    refine h.move (fun old ho => ?_) fun _ hc => hc
    rw [hi] at ho
    rw [← Option.some.inj ho]
    rfl
  · exact h

theorem Settled.step (h : w.Settled) (e : ConfigEvent) (hgood : e.storesStale w = false) :
    (w.step lower e).Settled := by
  cases e with
  | update i values => exact h.start i _
  | read i => exact h.start i _
  | advance i => exact h.advance i hgood
  | fail i => exact h.fail i
  | expire => exact fun _ => .inl rfl

end ConfigState

/-- In a run where every reader that stores its snapshot with no clear to come
stores the rows as they are, the hash is the rows whenever all calls have finished. -/
theorem config_cache_coherent (lower : String → String) (rows : ConfigRows)
    (events : List ConfigEvent)
    (h : ∀ s ∈ (configService lower rows).steps (configService lower rows).init events,
      s.2.storesStale s.1 = false) :
    ∀ w ∈ (configService lower rows).states (configService lower rows).init events,
      w.Coherent := by
  intro w hw
  exact (Machine.guarded_run ConfigState.Settled (fun w e => e.storesStale w = false)
    (fun _ e hs he => hs.step e he) (fun _ => .inl rfl) h w hw).coherent

/-- A reader stores its snapshot between the commit of an update and its clear,
and another reader fills the hash again. -/
def updateWhileReading : List ConfigEvent :=
  [.read 0, .advance 0, .advance 0, .update 1 (oneSetting "CLAMAV_HOST" "scanner"),
    .advance 1, .advance 1, .advance 0, .advance 0, .advance 1,
    .read 2, .advance 2, .advance 2, .advance 2, .advance 2]

theorem config_cache_coherent_update_while_reading :
    (∀ s ∈ (configService id (oneSetting "CLAMAV_PORT" "3310")).steps
        (configService id (oneSetting "CLAMAV_PORT" "3310")).init updateWhileReading,
        s.2.storesStale s.1 = false) ∧
      ∀ w ∈ (configService id (oneSetting "CLAMAV_PORT" "3310")).states
        (configService id (oneSetting "CLAMAV_PORT" "3310")).init updateWhileReading,
        w.Coherent := by
  have h : ∀ s ∈ (configService id (oneSetting "CLAMAV_PORT" "3310")).steps
      (configService id (oneSetting "CLAMAV_PORT" "3310")).init updateWhileReading,
      s.2.storesStale s.1 = false := by
    decide +kernel
  exact ⟨h, config_cache_coherent _ _ _ h⟩

def slowConfigReader : List ConfigEvent :=
  [.read 0, .advance 0, .advance 0, .update 1 (oneSetting "CLAMAV_PORT" ""),
    .advance 1, .advance 1, .advance 1, .advance 0, .advance 0]

theorem slow_config_reader_incoherent :
    ¬ ∀ (lower : String → String) (rows : ConfigRows) (events : List ConfigEvent),
      ∀ w ∈ (configService lower rows).states (configService lower rows).init events,
        w.Coherent := by
  intro h
  have hsafe := h id (oneSetting "CLAMAV_PORT" "3310") slowConfigReader _
    (Machine.run_mem_states _ _)
  have hdone : ∀ i stage, ((configService id (oneSetting "CLAMAV_PORT" "3310")).runFrom
      (configService id (oneSetting "CLAMAV_PORT" "3310")).init slowConfigReader).calls.lookup i =
        some stage → stage = .finished :=
    Table.forall_row_iff.mp (by decide +kernel)
  have hcached : ((configService id (oneSetting "CLAMAV_PORT" "3310")).runFrom
      (configService id (oneSetting "CLAMAV_PORT" "3310")).init slowConfigReader).hash.lookup
        "CLAMAV_PORT" = some "3310" := by
    decide +kernel
  have hdeleted : ((configService id (oneSetting "CLAMAV_PORT" "3310")).runFrom
      (configService id (oneSetting "CLAMAV_PORT" "3310")).init slowConfigReader).rows.lookup
        "CLAMAV_PORT" = none := by
    decide +kernel
  rcases hsafe hdone with hempty | hsame
  · rw [hempty] at hcached
    cases hcached
  · rw [hsame, hdeleted] at hcached
    cases hcached

end PluginRegistry
