import PluginRegistry.Proofs.Isolation
import PluginRegistry.Services.StatsService

namespace PluginRegistry
open Lib

/-- The read of the latest version is the one of `get_latest_version`, in two steps. -/
theorem Db.getLatestVersion_eq (db : Db) (pluginId : PluginId) :
    db.getLatestVersion pluginId = (db.latestRow pluginId).filter fun row =>
      scanProvidersPassed row.2 (some db.config.scanEnabledProviders) := by
  unfold Db.getLatestVersion Db.latestRow
  cases db.versions.first fun _ v => v.pluginId = pluginId && v.isLatest &&
      v.versionStatus = .active && v.buildStatus = .success with
  | none => rfl
  | some row => simp only [Option.filter]

namespace VersionStat

theorem count_setCount (stat : VersionStat) (n : Nat) (kind other : StatKind) :
    (stat.setCount n kind).count other = if other = kind then n else stat.count other := by
  cases kind <;> cases other <;> rfl

@[simp] theorem count_zero (kind : StatKind) : count ⟨0, 0⟩ kind = 0 := by
  cases kind <;> rfl

end VersionStat

namespace StatStage

def versionId : StatStage → Option VersionId
  | .checkScans versionId _ | .increment versionId _ | .write versionId _ _ _
  | .answered (.counted versionId _ _) => some versionId
  | _ => none

def writes : StatStage → Option (VersionId × Day)
  | .write versionId day _ _ => some (versionId, day)
  | _ => none

def countedIn : StatStage → Option (VersionId × Day)
  | .answered (.counted versionId day _) => some (versionId, day)
  | _ => none

end StatStage

def StatRows.counter (stats : StatRows) (kind : StatKind) (key : VersionId × Day) : Nat :=
  (stats.lookup key).elim 0 fun stat => stat.count kind

def StatRequest.countedIn (r : StatRequest) (kind : StatKind) : Option (VersionId × Day) :=
  if r.kind = kind then r.stage.countedIn else none

theorem StatRequest.countedIn_versionId {r : StatRequest} {kind : StatKind} {key : VersionId × Day}
    (h : r.countedIn kind = some key) : r.stage.versionId = some key.1 := by
  obtain ⟨kind', stage⟩ := r
  unfold StatRequest.countedIn at h
  split at h
  · unfold StatStage.countedIn at h
    dsimp only at h
    split at h
    · cases h
      rfl
    · cases h
  · cases h

namespace StatsWorld

variable {dialect : Dialect} {w w' : StatsWorld} {id : Nat} {kind other : StatKind}
  {key : VersionId × Day} {today : Day} {stage : StatStage}

def answers (w : StatsWorld) (kind : StatKind) (key : VersionId × Day) : Nat :=
  w.requests.tally fun r => r.countedIn kind = some key

inductive Effect (dialect : Dialect) (w : StatsWorld) (id : Nat) (today : Day) : StatsWorld → Prop
  | idle : Effect dialect w id today w
  | moves (kind : StatKind) (stage : StatStage)
      (hold : ∀ r, w.requests.lookup id = some r → r.stage.countedIn = none)
      (hwrites : stage.writes = none) (hcounted : stage.countedIn = none)
      (hversion : ∀ v, stage.versionId = some v → w.versionExists v = true ∨
        ∃ r, w.requests.lookup id = some r ∧ r.stage.versionId = some v) :
      Effect dialect w id today (w.setStage id kind stage)
  | reads (kind : StatKind) (key : VersionId × Day) (url : Option String)
      (hdialect : dialect = .other)
      (hr : w.requests.lookup id = some ⟨kind, .increment key.1 url⟩) (hday : key.2 = today) :
      Effect dialect w id today (w.setStage id kind (.write key.1 key.2 (w.stats.lookup key) url))
  | upserts (kind : StatKind) (key : VersionId × Day) (url : Option String)
      (hdialect : dialect = .postgresql)
      (hr : w.requests.lookup id = some ⟨kind, .increment key.1 url⟩)
      (hv : w.versionExists key.1 = true) :
      Effect dialect w id today ({ w with stats := w.stats.upsert kind key }.setStage id kind
        (.answered (.counted key.1 key.2 url)))
  | commits (kind : StatKind) (key : VersionId × Day) (seen : Option VersionStat)
      (url : Option String) (stats : StatRows)
      (hr : w.requests.lookup id = some ⟨kind, .write key.1 key.2 seen url⟩)
      (hc : w.stats.commitSeen kind key seen = some stats) (hv : w.versionExists key.1 = true) :
      Effect dialect w id today ({ w with stats }.setStage id kind
        (.answered (.counted key.1 key.2 url)))

theorem afterScans_writes (kind : StatKind) (versionId : VersionId) (version : PluginVersion) :
    (afterScans kind versionId version).writes = none ∧
      (afterScans kind versionId version).countedIn = none ∧
      ∀ v, (afterScans kind versionId version).versionId = some v → v = versionId := by
  unfold afterScans
  cases kind with
  | install => exact ⟨rfl, rfl, fun v h => (Option.some.inj h).symm⟩
  | download =>
    dsimp only
    split
    · exact ⟨rfl, rfl, fun v h => (Option.some.inj h).symm⟩
    · exact ⟨rfl, rfl, fun v h => by cases h⟩

theorem latestRow_exists {db : Db} {pluginId : PluginId} {row : VersionId × PluginVersion}
    (h : db.latestRow pluginId = some row) : (db.versions.lookup row.1).isSome = true := by
  obtain ⟨hv, -⟩ := Table.first_some h
  rw [hv]
  rfl

/-- The inversion of a request's step. -/
theorem advance_effect (dialect : Dialect) (w : StatsWorld) (id : Nat) (today : Day) :
    Effect dialect w id today (w.advance dialect id today) := by
  unfold advance
  cases hr : w.requests.lookup id with
  | none => exact .idle
  | some r =>
    obtain ⟨kind, stage⟩ := r
    have hquiet : stage.countedIn = none →
        ∀ r, w.requests.lookup id = some r → r.stage.countedIn = none := by
      intro hstage r h
      rwa [← Option.some.inj (hr.symm.trans h)]
    cases stage with
    | findPlugin pluginKey =>
      dsimp only
      split
      · exact .moves _ _ (hquiet rfl) rfl rfl fun v h => by cases h
      · exact .moves _ _ (hquiet rfl) rfl rfl fun v h => by cases h
    | findLatest pluginId =>
      dsimp only
      split
      · exact .moves _ _ (hquiet rfl) rfl rfl fun v h => by cases h
      · rename_i versionId version hrow
        refine .moves _ _ (hquiet rfl) rfl rfl fun v h => .inl ?_
        cases h
        exact latestRow_exists hrow
    | checkScans versionId version =>
      obtain ⟨hwrites, hcounted, hversion⟩ := afterScans_writes kind versionId version
      dsimp only
      split
      · refine .moves _ _ (hquiet rfl) hwrites hcounted fun v h => .inr ⟨_, hr, ?_⟩
        rw [hversion v h]
        rfl
      · exact .moves _ _ (hquiet rfl) rfl rfl fun v h => by cases h
    | increment versionId url =>
      dsimp only [increment]
      cases dialect with
      | other => exact .reads kind (versionId, today) url rfl hr rfl
      | postgresql =>
        dsimp only
        split
        · rename_i hv
          exact .upserts kind (versionId, today) url rfl hr hv
        · exact .moves _ _ (hquiet rfl) rfl rfl fun v h => by cases h
    | write versionId day seen url =>
      dsimp only [write]
      split
      · rename_i stats hc
        split
        · rename_i hv
          exact .commits kind (versionId, day) seen url stats hr hc hv
        · exact .moves _ _ (hquiet rfl) rfl rfl fun v h => by cases h
      · exact .moves _ _ (hquiet rfl) rfl rfl fun v h => by cases h
    | answered answer => exact .idle

theorem start_effect (dialect : Dialect) (w : StatsWorld) (id : Nat) (kind : StatKind)
    (pluginKey : String) (today : Day) : Effect dialect w id today (w.start id kind pluginKey) := by
  unfold start
  split
  · exact .idle
  · rename_i hnone
    refine .moves _ _ (fun r h => ?_) rfl rfl fun v h => by cases h
    rw [h] at hnone
    exact absurd rfl hnone

theorem setStage_lookup (w : StatsWorld) (id i : Nat) (kind : StatKind) (stage : StatStage) :
    (w.setStage id kind stage).requests.lookup i =
      if i = id then some ⟨kind, stage⟩ else w.requests.lookup i :=
  Table.lookup_insert_eq ..

/-- Requests only go on with versions that existed once, counters belong to versions, and
only the fallback has a write apart from its read. -/
structure Sound (dialect : Dialect) (w : StatsWorld) : Prop where
  tracked : w.world.Tracked
  known : ∀ i r v, w.requests.lookup i = some r → r.stage.versionId = some v →
    v < w.world.db.nextId
  owned : ∀ key stat, w.stats.lookup key = some stat → w.versionExists key.1 = true
  writes : ∀ i r, w.requests.lookup i = some r → r.stage.writes ≠ none → dialect = .other

theorem versionExists_lt (h : w.world.db.Sound) {v : VersionId} (hv : w.versionExists v = true) :
    v < w.world.db.nextId := by
  by_contra hlt
  rw [versionExists, (h.numbered v (Nat.le_of_not_lt hlt)).1] at hv
  cases hv

theorem counter_of_lookup {stats : StatRows} {row : Option VersionStat}
    (h : stats.lookup key = row) (kind : StatKind) :
    stats.counter kind key = row.elim 0 fun stat => stat.count kind := by
  rw [StatRows.counter, h]

/-- The row that an upsert leaves. -/
theorem upsert_insert (stats : StatRows) (kind : StatKind) (key : VersionId × Day) :
    ∃ new, stats.upsert kind key = AList.insert key new stats ∧
      ∀ other, new.count other = stats.counter other key + (decide (kind = other)).toNat := by
  unfold StatRows.upsert
  cases hrow : stats.lookup key with
  | none =>
    refine ⟨_, rfl, fun other => ?_⟩
    rw [VersionStat.first, VersionStat.count_setCount, counter_of_lookup hrow]
    by_cases hkind : other = kind
    · simp [hkind]
    · simp [hkind, Ne.symm hkind]
  | some stat =>
    refine ⟨_, rfl, fun other => ?_⟩
    rw [VersionStat.count_setCount, counter_of_lookup hrow]
    by_cases hkind : other = kind
    · simp [hkind]
    · simp [hkind, Ne.symm hkind]

/-- The row that a commit of the fallback leaves, with the count that was read. -/
theorem commitSeen_insert {stats stats' : StatRows} {seen : Option VersionStat}
    (h : stats.commitSeen kind key seen = some stats') :
    ∃ new, stats' = AList.insert key new stats ∧ ∀ other, new.count other =
      if other = kind then seen.elim 0 (fun stat => stat.count kind) + 1
      else stats.counter other key := by
  unfold StatRows.commitSeen at h
  cases seen with
  | none =>
    dsimp only at h
    split at h
    · cases h
    · rename_i hrow
      refine ⟨_, (Option.some.inj h).symm, fun other => ?_⟩
      have hnone : stats.lookup key = none := by simpa using hrow
      rw [VersionStat.first, VersionStat.count_setCount, counter_of_lookup hnone]
      simp
  | some seen =>
    obtain ⟨stat, hrow, hstat⟩ := Option.map_eq_some_iff.mp h
    refine ⟨_, hstat.symm, fun other => ?_⟩
    rw [VersionStat.count_setCount, counter_of_lookup hrow]
    rfl

namespace Sound

/-- A request that takes a stage, with counters that belong to versions. -/
theorem setStage (h : w.Sound dialect) {stats : StatRows} {stage : StatStage} (kind : StatKind)
    (hstats : ∀ key stat, stats.lookup key = some stat → w.versionExists key.1 = true)
    (hversion : ∀ v, stage.versionId = some v → v < w.world.db.nextId)
    (hwrites : stage.writes ≠ none → dialect = .other) :
    ({ w with stats }.setStage id kind stage).Sound dialect where
  tracked := h.tracked
  known := by
    intro i r v hi hr
    rw [setStage_lookup] at hi
    split at hi
    · obtain rfl := Option.some.inj hi
      exact hversion v hr
    · exact h.known i r v hi hr
  owned := hstats
  writes := by
    intro i r hi hr
    rw [setStage_lookup] at hi
    split at hi
    · obtain rfl := Option.some.inj hi
      exact hwrites hr
    · exact h.writes i r hi hr

theorem insert (h : w.Sound dialect) (hv : w.versionExists key.1 = true) (new : VersionStat)
    (k : VersionId × Day) (stat : VersionStat)
    (hk : AList.lookup k (AList.insert key new w.stats) = some stat) :
    w.versionExists k.1 = true := by
  rw [Table.lookup_insert_eq] at hk
  split at hk
  · rename_i hkey
    rw [hkey]
    exact hv
  · exact h.owned k stat hk

/-- One statement of a request keeps what the requests rely on. -/
theorem effect (h : w.Sound dialect) (he : Effect dialect w id today w') : w'.Sound dialect := by
  cases he with
  | idle => exact h
  | moves kind stage hold hwrites hcounted hversion =>
    apply h.setStage kind h.owned
    · intro v hv
      rcases hversion v hv with hexists | ⟨r, hr, hrv⟩
      · exact versionExists_lt h.tracked.sound hexists
      · exact h.known id r v hr hrv
    · intro hw
      exact absurd hwrites hw
  | reads kind key url hdialect hr hday =>
    apply h.setStage kind h.owned
    · intro v hv
      exact h.known id _ v hr hv
    · intro _
      exact hdialect
  | upserts kind key url hdialect hr hv =>
    obtain ⟨new, hnew, -⟩ := upsert_insert w.stats kind key
    rw [hnew]
    apply h.setStage kind (h.insert hv new)
    · intro v hvid
      exact h.known id _ v hr hvid
    · intro hw
      exact absurd rfl hw
  | commits kind key seen url stats hr hc hv =>
    obtain ⟨new, rfl, -⟩ := commitSeen_insert hc
    apply h.setStage kind (h.insert hv new)
    · intro v hvid
      exact h.known id _ v hr hvid
    · intro hw
      exact absurd rfl hw

theorem act (h : w.Sound dialect) (e : Event) : (w.act e).Sound dialect where
  tracked := World.step_tracked h.tracked e
  known := by
    intro i r v hr hv
    exact (h.known i r v hr hv).trans_le (World.step_rows h.tracked e).1
  owned := by
    intro key stat hk
    rw [StatsWorld.act, Table.lookup_keep] at hk
    exact (Option.filter_eq_some_iff.mp hk).2
  writes := h.writes

theorem step (h : w.Sound dialect) (e : StatsEvent) : (w.step dialect e).Sound dialect := by
  cases e with
  | act event => exact h.act event
  | start id kind pluginKey => exact h.effect (start_effect dialect w id kind pluginKey 0)
  | advance id today => exact h.effect (advance_effect dialect w id today)

theorem init (dialect : Dialect) (config : RuntimeConfig) :
    (statsService dialect config).init.Sound dialect where
  tracked := World.init_tracked config
  known := by
    intro i r v hr
    cases hr
  owned := by
    intro key stat hk
    cases hk
  writes := by
    intro i r hr
    cases hr

end Sound

def bump (kind : StatKind) (key : VersionId × Day) (other : StatKind) (k : VersionId × Day) : Nat :=
  (decide (kind = other ∧ key = k)).toNat

theorem answers_setStage (hold : ∀ r, w.requests.lookup id = some r → r.stage.countedIn = none)
    (stats : StatRows) (kind : StatKind) (stage : StatStage) (other : StatKind)
    (k : VersionId × Day) :
    ({ w with stats }.setStage id kind stage).answers other k = w.answers other k +
      (decide (StatRequest.countedIn ⟨kind, stage⟩ other = some k)).toNat := by
  apply Table.tally_insert
  intro r hr
  unfold StatRequest.countedIn
  split
  · simp [hold r hr]
  · simp

/-- A request that is not counted yet leaves the answers as they are. -/
theorem answers_moves (hold : ∀ r, w.requests.lookup id = some r → r.stage.countedIn = none)
    (kind : StatKind) {stage : StatStage} (hcounted : stage.countedIn = none) (other : StatKind)
    (k : VersionId × Day) :
    (w.setStage id kind stage).answers other k = w.answers other k := by
  have hset := answers_setStage hold w.stats kind stage other k
  unfold StatRequest.countedIn at hset
  simpa [hcounted] using hset

theorem answers_reads {v : VersionId} {url : Option String}
    (hr : w.requests.lookup id = some ⟨kind, .increment v url⟩) (day : Day)
    (seen : Option VersionStat) (url' : Option String) (other : StatKind) (k : VersionId × Day) :
    (w.setStage id kind (.write v day seen url')).answers other k = w.answers other k := by
  refine answers_moves (fun r h => ?_) kind rfl other k
  rw [← Option.some.inj (hr.symm.trans h)]
  rfl

theorem answers_counted (hr : w.requests.lookup id = some ⟨kind, stage⟩)
    (hstage : stage.countedIn = none) (stats : StatRows) (key : VersionId × Day)
    (url : Option String) (other : StatKind) (k : VersionId × Day) :
    ({ w with stats }.setStage id kind (.answered (.counted key.1 key.2 url))).answers other k =
      w.answers other k + bump kind key other k := by
  rw [answers_setStage]
  · unfold StatRequest.countedIn StatStage.countedIn bump
    by_cases hkind : kind = other <;> simp [hkind]
  · intro r h
    rwa [← Option.some.inj (hr.symm.trans h)]

theorem counter_insert (stats : StatRows) (key k : VersionId × Day) (stat : VersionStat)
    (other : StatKind) : StatRows.counter (AList.insert key stat stats) other k =
      if k = key then stat.count other else stats.counter other k := by
  unfold StatRows.counter
  rw [Table.lookup_insert_eq]
  split <;> rfl

theorem counter_upsert (stats : StatRows) (kind other : StatKind) (key k : VersionId × Day) :
    (stats.upsert kind key).counter other k = stats.counter other k + bump kind key other k := by
  obtain ⟨new, hnew, hcount⟩ := upsert_insert stats kind key
  rw [hnew, counter_insert]
  unfold bump
  by_cases hk : k = key
  · subst hk
    rw [if_pos rfl, hcount]
    simp
  · simp [hk, Ne.symm hk]

theorem counter_commitSeen {stats stats' : StatRows} {seen : Option VersionStat}
    (hc : stats.commitSeen kind key seen = some stats') (other : StatKind) (k : VersionId × Day) :
    stats'.counter other k = if k = key ∧ other = kind
      then seen.elim 0 (fun stat => stat.count kind) + 1 else stats.counter other k := by
  obtain ⟨new, rfl, hcount⟩ := commitSeen_insert hc
  rw [counter_insert]
  by_cases hk : k = key
  · subst hk
    rw [if_pos rfl, hcount]
    simp
  · simp [hk]

/-- No counter is ahead of the requests that were answered, nor is a count that has been
read. -/
structure Bounded (w : StatsWorld) : Prop where
  counters : ∀ kind key, w.stats.counter kind key ≤ w.answers kind key
  seen : ∀ i kind v day stat url, w.requests.lookup i = some ⟨kind, .write v day (some stat) url⟩ →
    stat.count kind ≤ w.answers kind (v, day)

namespace Bounded

/-- A stage that is no write leaves the counts that others have read. -/
theorem seen_setStage (h : w.Bounded) {stats : StatRows} {stage : StatStage} (kind : StatKind)
    (hwrites : stage.writes = none)
    (hanswers : ∀ other k, w.answers other k ≤
      ({ w with stats }.setStage id kind stage).answers other k)
    (i : Nat) (other : StatKind) (v : VersionId) (day : Day) (stat : VersionStat)
    (url : Option String)
    (hi : ({ w with stats }.setStage id kind stage).requests.lookup i =
      some ⟨other, .write v day (some stat) url⟩) :
    stat.count other ≤ ({ w with stats }.setStage id kind stage).answers other (v, day) := by
  rw [setStage_lookup] at hi
  split at hi
  · cases hi
    cases hwrites
  · exact (h.seen i other v day stat url hi).trans (hanswers other (v, day))

/-- One statement counts nothing that goes unanswered. -/
theorem effect (h : w.Bounded) (he : Effect dialect w id today w') : w'.Bounded := by
  cases he with
  | idle => exact h
  | moves kind stage hold hwrites hcounted hversion =>
    have hanswers := answers_moves hold kind hcounted
    constructor
    · intro other k
      rw [hanswers]
      exact h.counters other k
    · exact h.seen_setStage kind hwrites fun other k => (hanswers other k).ge
  | reads kind key url hdialect hr hday =>
    have hanswers := answers_reads hr key.2 (w.stats.lookup key) url
    constructor
    · intro other k
      rw [hanswers]
      exact h.counters other k
    · intro i other v day stat url' hi
      rw [hanswers]
      rw [setStage_lookup] at hi
      split at hi
      · injection hi with hi
        injection hi with hkind hstage
        injection hstage with hv hday' hstat
        subst hkind hv hday'
        have hcounter := h.counters kind key
        rwa [counter_of_lookup hstat] at hcounter
      · exact h.seen i other v day stat url' hi
  | upserts kind key url hdialect hr hv =>
    have hanswers := answers_counted hr rfl (w.stats.upsert kind key) key url
    constructor
    · intro other k
      rw [hanswers]
      exact (counter_upsert w.stats kind other key k).trans_le
        (Nat.add_le_add_right (h.counters other k) _)
    · apply h.seen_setStage kind rfl
      intro other k
      rw [hanswers]
      exact Nat.le_add_right _ _
  | commits kind key seen url stats hr hc hv =>
    have hanswers := answers_counted hr rfl stats key url
    constructor
    · intro other k
      rw [hanswers]
      refine (counter_commitSeen hc other k).trans_le ?_
      split
      · rename_i hkey
        obtain ⟨rfl, rfl⟩ := hkey
        have hone : bump other k other k = 1 := by
          unfold bump
          simp
        rw [hone]
        cases seen with
        | none => exact Nat.add_le_add_right (Nat.zero_le _) 1
        | some stat => exact Nat.add_le_add_right (h.seen id other k.1 k.2 stat url hr) 1
      · exact (h.counters other k).trans (Nat.le_add_right _ _)
    · apply h.seen_setStage kind rfl
      intro other k
      rw [hanswers]
      exact Nat.le_add_right _ _

theorem act (h : w.Bounded) (e : Event) : (w.act e).Bounded where
  counters := by
    intro kind key
    refine Nat.le_trans ?_ (h.counters kind key)
    unfold StatsWorld.act StatRows.counter
    dsimp only
    rw [Table.lookup_keep]
    cases w.stats.lookup key with
    | none => exact Nat.le_refl _
    | some stat =>
      rw [Option.filter_some]
      split
      · exact Nat.le_refl _
      · exact Nat.zero_le _
  seen := h.seen

theorem step (h : w.Bounded) (e : StatsEvent) : (w.step dialect e).Bounded := by
  cases e with
  | act event => exact h.act event
  | start id kind pluginKey => exact h.effect (start_effect dialect w id kind pluginKey 0)
  | advance id today => exact h.effect (advance_effect dialect w id today)

end Bounded

def overlaps (w : StatsWorld) : StatsEvent → Bool
  | .advance requestId today =>
    match w.requests.lookup requestId with
    | some ⟨_, .increment versionId _⟩ =>
      (w.requests.first fun _ r => r.stage.writes = some (versionId, today)).isSome
    | _ => false
  | _ => false

/-- The counters of a version are its answers, and what a request has read is what is
still stored. -/
structure Exact (w : StatsWorld) : Prop where
  counters : ∀ kind key, w.versionExists key.1 = true →
    w.stats.counter kind key = w.answers kind key
  seen : ∀ i kind key seen url, w.requests.lookup i = some ⟨kind, .write key.1 key.2 seen url⟩ →
    w.versionExists key.1 = true → w.stats.lookup key = seen
  alone : ∀ i j r r' key, w.requests.lookup i = some r → w.requests.lookup j = some r' →
    r.stage.writes = some key → r'.stage.writes = some key → i = j

namespace Exact

/-- A request that takes a stage without a write, while no other one has read the
counters that change. -/
theorem setStage (h : w.Exact) {stats : StatRows} (kind : StatKind) (hwrites : stage.writes = none)
    (hcounters : ∀ other k, w.versionExists k.1 = true → stats.counter other k =
      ({ w with stats }.setStage id kind stage).answers other k)
    (hstats : ∀ i r k, i ≠ id → w.requests.lookup i = some r → r.stage.writes = some k →
      stats.lookup k = w.stats.lookup k) :
    ({ w with stats }.setStage id kind stage).Exact where
  counters := hcounters
  seen := by
    intro i other k seen url hi hv
    rw [setStage_lookup] at hi
    split at hi
    · cases hi
      cases hwrites
    · rename_i hne
      exact (hstats i _ k hne hi rfl).trans (h.seen i other k seen url hi hv)
  alone := by
    intro i j r r' k hi hj hr hr'
    rw [setStage_lookup] at hi hj
    split at hi
    · cases hi
      rw [hwrites] at hr
      cases hr
    · split at hj
      · cases hj
        rw [hwrites] at hr'
        cases hr'
      · exact h.alone i j r r' k hi hj hr hr'

/-- One statement keeps the counters exact, unless it reads for an increment what another
request is about to write. -/
theorem effect (h : w.Exact) (hs : w.Sound dialect) (he : Effect dialect w id today w')
    (hfree : ∀ kind v url, dialect = .other → w.requests.lookup id = some ⟨kind, .increment v url⟩ →
      ∀ i r, w.requests.lookup i = some r → r.stage.writes ≠ some (v, today)) : w'.Exact := by
  cases he with
  | idle => exact h
  | moves kind stage hold hwrites hcounted hversion =>
    apply h.setStage kind hwrites
    · intro other k hv
      rw [answers_moves hold kind hcounted]
      exact h.counters other k hv
    · intros
      rfl
  | reads kind key url hdialect hr hday =>
    obtain ⟨v, day⟩ := key
    subst hday
    have hanswers := answers_reads hr day (w.stats.lookup (v, day)) url
    have hnew := hfree kind v url hdialect hr
    constructor
    · intro other k hv
      rw [hanswers]
      exact h.counters other k hv
    · intro i other k seen url' hi hv
      rw [setStage_lookup] at hi
      split at hi
      · obtain ⟨v', day'⟩ := k
        cases hi
        rfl
      · exact h.seen i other k seen url' hi hv
    · intro i j r r' k hi hj hri hrj
      rw [setStage_lookup] at hi hj
      split at hi <;> split at hj
      · rename_i hi' hj'
        rw [hi', hj']
      · cases hi
        rw [← hri] at hrj
        exact absurd hrj (hnew j r' hj)
      · cases hj
        rw [← hrj] at hri
        exact absurd hri (hnew i r hi)
      · exact h.alone i j r r' k hi hj hri hrj
  | upserts kind key url hdialect hr hv =>
    apply h.setStage kind rfl
    · intro other k hvk
      rw [answers_counted hr rfl, counter_upsert, h.counters other k hvk]
    · intro i r k _ hi hwrites
      have hother := hs.writes i r hi (by rw [hwrites]; simp)
      rw [hdialect] at hother
      cases hother
  | commits kind key seen url stats hr hc hv =>
    apply h.setStage kind rfl
    · intro other k hvk
      rw [answers_counted hr rfl, counter_commitSeen hc, ← h.counters other k hvk]
      unfold bump
      split
      · rename_i hkey
        obtain ⟨rfl, rfl⟩ := hkey
        rw [counter_of_lookup (h.seen id other k seen url hr hv)]
        simp
      · rename_i hkey
        have hne : ¬(kind = other ∧ key = k) := fun hsame => hkey ⟨hsame.2.symm, hsame.1.symm⟩
        simp [hne]
    · intro i r k hne hi hwrites
      obtain ⟨new, rfl, -⟩ := commitSeen_insert hc
      rw [Table.lookup_insert_eq, if_neg]
      rintro rfl
      exact hne (h.alone i id r _ k hi hr hwrites rfl)

theorem act (h : w.Exact) (hs : w.Sound dialect) (e : Event) : (w.act e).Exact := by
  obtain ⟨hnext, hrows⟩ := World.step_rows hs.tracked e
  have hold : ∀ v, v < w.world.db.nextId → (w.act e).versionExists v = true →
      w.versionExists v = true := by
    intro v hlt hv
    obtain ⟨row, hrow⟩ := Option.isSome_iff_exists.mp hv
    rcases hrows v row hrow with ⟨old, hold, -⟩ | ⟨rfl, -⟩
    · rw [versionExists, hold]
      rfl
    · exact absurd hlt (Nat.lt_irrefl _)
  have hkept : ∀ key : VersionId × Day, (w.act e).versionExists key.1 = true →
      (w.act e).stats.lookup key = w.stats.lookup key := by
    intro key hv
    unfold StatsWorld.act
    rw [Table.lookup_keep]
    cases w.stats.lookup key with
    | none => rfl
    | some stat => exact (Option.filter_some ..).trans (if_pos hv)
  constructor
  · intro kind key hv
    rw [counter_of_lookup (hkept key hv)]
    by_cases hlt : key.1 < w.world.db.nextId
    · exact h.counters kind key (hold key.1 hlt hv)
    · have hnone : w.stats.lookup key = none := by
        cases hrow : w.stats.lookup key with
        | none => rfl
        | some stat =>
          exact absurd (versionExists_lt hs.tracked.sound (hs.owned key stat hrow)) hlt
      have hzero : w.answers kind key = 0 := by
        apply Table.tally_eq_zero
        intro r hr
        refine decide_eq_false fun hcounted => hlt ?_
        exact hs.known r.1 r.2 key.1 (Table.mem_entries.mp hr) 
          (StatRequest.countedIn_versionId hcounted)
      rw [hnone]
      exact hzero.symm
  · intro i kind key seen url hi hv
    rw [hkept key hv]
    exact h.seen i kind key seen url hi (hold key.1 (hs.known i _ key.1 hi rfl) hv)
  · exact h.alone

/-- One step keeps the counters exact under PostgreSQL, and elsewhere while no two counts
overlap. -/
theorem step (h : w.Exact) (hs : w.Sound dialect) (e : StatsEvent)
    (hfree : dialect = .postgresql ∨ w.overlaps e = false) : (w.step dialect e).Exact := by
  cases e with
  | act event => exact h.act hs event
  | start id kind pluginKey =>
    -- A request that starts has read nothing: its id is new.
    unfold StatsWorld.step StatsWorld.start
    dsimp only
    split
    · exact h
    · rename_i hnone
      have hnew : ∀ r, w.requests.lookup id ≠ some r := by
        intro r hr
        rw [hr] at hnone
        exact hnone rfl
      have heffect : Effect dialect w id 0 (w.setStage id kind (.findPlugin pluginKey)) := by
        refine .moves kind _ (fun r hr => absurd hr (hnew r)) rfl rfl fun v hv => ?_
        cases hv
      exact h.effect hs heffect fun kind v url _ hr => absurd hr (hnew _)
  | advance id today =>
    apply h.effect hs (advance_effect dialect w id today)
    rintro kind v url rfl hr i r hi hwrites
    rcases hfree with hdialect | hfree
    · cases hdialect
    · unfold overlaps at hfree
      dsimp only at hfree
      rw [hr] at hfree
      have hfirst := Option.isSome_eq_false_iff.mp hfree
      have hnone := Table.first_none.mp (Option.isNone_iff_eq_none.mp hfirst) i r hi
      simp [hwrites] at hnone

end Exact

def answeredNow (w : StatsWorld) (kind : StatKind) : Nat :=
  w.requests.tally fun r => (r.countedIn kind).any fun key => w.versionExists key.1

/-- The counters of a kind add up to the answers of that kind. -/
theorem Exact.total (h : w.Exact) (hs : w.Sound dialect) (kind : StatKind) :
    (w.stats.total fun _ stat => stat.count kind) = w.answeredNow kind := by
  have hrows : ∀ key stat, w.stats.lookup key = some stat →
      stat.count kind = w.requests.tally fun r => r.countedIn kind = some key := by
    intro key stat hk
    have hcounter := h.counters kind key (hs.owned key stat hk)
    rwa [counter_of_lookup hk] at hcounter
  rw [Table.total_eq_tally hrows]
  apply Table.tally_congr
  intro i r hi
  cases hcounted : r.countedIn kind with
  | none => rfl
  | some key =>
    dsimp only [Option.any_some]
    cases hk : w.stats.lookup key with
    | some stat => exact (hs.owned key stat hk).symm
    | none =>
      cases hv : w.versionExists key.1 with
      | false => rfl
      | true =>
        -- The request has been counted, so the counter is not zero.
        have hzero := h.counters kind key hv
        rw [counter_of_lookup hk] at hzero
        have hone : 0 < w.answers kind key := Table.tally_pos hi (decide_eq_true hcounted)
        exact absurd hzero (Nat.ne_of_lt hone)

end StatsWorld

/-- **The counters tell what was handed out.** A counter is never ahead of the requests
that were answered for it; on PostgreSQL, and elsewhere while no two requests are
between reading and writing one counter, the counters of every version are exactly its
answers, and the statistics of the registry add them up. -/
theorem downloads_are_counted (dialect : Dialect) (config : RuntimeConfig)
    (events : List StatsEvent) :
    let service := statsService dialect config
    let w := service.runFrom service.init events
    (∀ kind key, w.stats.counter kind key ≤ w.answers kind key) ∧
    (dialect = .postgresql ∨
        (∀ x ∈ service.steps service.init events, x.1.overlaps x.2 = false) →
      (∀ kind key, w.versionExists key.1 = true →
        w.stats.counter kind key = w.answers kind key) ∧
      w.getStats.totalDownloads = w.answeredNow .download ∧
      w.getStats.totalInstalls = w.answeredNow .install) := by
  intro service w
  have hreach : service.Reachable w := ⟨events, rfl⟩
  have hsound : w.Sound dialect :=
    hreach.induct (StatsWorld.Sound dialect) (.init dialect config) fun w e h => h.step e
  have hbounded : w.Bounded := by
    refine hreach.induct StatsWorld.Bounded ⟨fun _ _ => Nat.zero_le _, ?_⟩ fun w e h => h.step e
    intro i kind v day stat url hi
    cases hi
  refine ⟨hbounded.counters, fun hfree => ?_⟩
  have hexact : w.Exact := by
    refine (Machine.guarded_run (m := service)
      (fun w => w.Sound dialect ∧ w.Exact)
      (fun w e => dialect = .postgresql ∨ w.overlaps e = false) ?_ ?_ ?_ w
      (Machine.run_mem_states _ _)).2
    · exact fun w e h hg => ⟨h.1.step e, h.2.step h.1 e hg⟩
    · refine ⟨.init dialect config, fun _ _ hv => ?_, ?_, ?_⟩
      · cases hv
      · intro i kind key seen url hi
        cases hi
      · intro i j r r' key hi
        cases hi
    · intro x hx
      exact hfree.imp_right fun h => h x hx
  exact ⟨hexact.counters, hexact.total hsound .download, hexact.total hsound .install⟩

end PluginRegistry
