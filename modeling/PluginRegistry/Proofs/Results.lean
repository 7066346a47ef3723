import PluginRegistry.Proofs.BuildRuns
import PluginRegistry.Service

namespace PluginRegistry
open Lib

variable {env : Env} {db : Db} {x : Outside}

def Outside.files (x : Outside) : Bucket × Table String Blob :=
  (x.bucket, x.zipFiles)

@[simp] theorem Outside.files_queued (x : Outside) (task : QueuedTask) :
    (x.queued env task).files = x.files := by
  unfold Outside.queued
  split <;> rfl

/-- How a program that moves no archive ends: the rows it leaves, and whether
the database refused a flush on the way. -/
structure Ends {α : Type} (w : Op α) (db : Db) (x : Outside) (db' : Db) (rejected : Bool) :
    Prop where
  rows : (w.after (Session.start db x)).committed = db'
  refused : (w.after (Session.start db x)).rejected = rejected
  files : (w.after (Session.start db x)).outside.files = x.files

theorem Ends.of_ok {α : Type} {w : Op α} {a : α} {s : Session Db Outside}
    (h : w.run (Session.start db x) = .ok a s) (hx : s.outside.files = x.files) :
    Ends w db x s.committed s.rejected := by
  have hs : w.after (Session.start db x) = s := Work.after_of_run (.inl ⟨a, h⟩)
  exact ⟨by rw [hs], by rw [hs], by rw [hs, hx]⟩

theorem Ends.of_error {α : Type} {w : Op α} {e : PyErr} {s : Session Db Outside}
    (h : w.run (Session.start db x) = .error e s) (hx : s.outside.files = x.files) :
    Ends w db x s.committed s.rejected := by
  have hs : w.after (Session.start db x) = s := Work.after_of_run (.inr ⟨e, h⟩)
  exact ⟨by rw [hs], by rw [hs], by rw [hs, hx]⟩

/-- A program that continues as another one ends as that one does. -/
theorem Ends.of_run {α : Type} {w w' : Op α} {db₁ db' : Db} {x₁ : Outside} {rejected : Bool}
    (h : w.run (Session.start db x) = w'.run (Session.start db₁ x₁)) (hx : x₁.files = x.files)
    (he : Ends w' db₁ x₁ db' rejected) : Ends w db x db' rejected := by
  have hs : w.after (Session.start db x) = w'.after (Session.start db₁ x₁) := by
    simp only [Work.after, h]
  exact ⟨by rw [hs]; exact he.rows, by rw [hs]; exact he.refused,
    by rw [hs]; exact he.files.trans hx⟩

theorem call_ends (site : Site) : Ends (call env site) db x db false := by
  have hrun := call_run env site (Session.start db x)
  cases hf : env.fault site with
  | none =>
    rw [hf] at hrun
    exact .of_ok hrun rfl
  | some e =>
    rw [hf] at hrun
    exact .of_error hrun rfl

namespace Db

def afterPluginStatus (db : Db) (pluginId : PluginId) (status : PluginStatus)
    (reviewStatus : Option ReviewStatus) : Db :=
  if (db.plugins.lookup pluginId).isSome then db.pluginStatusSet pluginId status reviewStatus
  else db

def afterVersionStatus (db : Db) (versionId : VersionId) (status : VersionStatus) : Db :=
  match db.versions.lookup versionId with
  | none => db
  | some v =>
    if status = .active ∧ db.passes v = false then db else db.versionStatusSet versionId status

def afterLatest (db : Db) (pluginId : PluginId) (versionId : VersionId) : Db :=
  if (db.latestRefusal pluginId versionId).isNone then db.latestSet pluginId versionId else db

def afterPublish (db : Db) (now : Time) (pluginId : PluginId) (versionId : VersionId)
    (reviewStatus : ReviewStatus) : Db :=
  if (db.publishRefusal pluginId versionId reviewStatus).isNone then
    db.published now pluginId versionId reviewStatus
  else db

end Db

theorem setPluginStatus_ends (h : db.Sound) (pluginId : PluginId) (status : PluginStatus)
    (reviewStatus : Option ReviewStatus) :
    Ends (setPluginStatus env pluginId status reviewStatus) db x
      (db.afterPluginStatus pluginId status reviewStatus) false := by
  have hrun := setPluginStatus_run env x h pluginId status reviewStatus
  unfold Db.afterPluginStatus
  cases ha : db.plugins.lookup pluginId with
  | none =>
    rw [ha] at hrun
    exact .of_error hrun rfl
  | some a =>
    rw [ha] at hrun
    exact .of_run hrun rfl (call_ends _)

theorem setVersionStatus_ends (h : db.Sound) (versionId : VersionId) (status : VersionStatus) :
    Ends (setVersionStatus env versionId status) db x (db.afterVersionStatus versionId status)
      false := by
  have hrun := setVersionStatus_run env x h versionId status
  unfold Db.afterVersionStatus
  cases hv : db.versions.lookup versionId with
  | none =>
    rw [hv] at hrun
    exact .of_error hrun rfl
  | some v =>
    rw [hv] at hrun
    dsimp only at hrun ⊢
    by_cases hs : status = .active
    · rw [if_pos hs] at hrun
      cases hr : db.passRefusal v "Version build must be successful before activation"
          "Version security scan must pass before activation" with
      | none =>
        rw [hr] at hrun
        rw [if_neg (by simp [Db.passRefusal_eq_none.mp hr])]
        exact .of_run hrun rfl (call_ends _)
      | some e =>
        rw [hr] at hrun
        have hp : db.passes v = false := by
          rw [Bool.eq_false_iff]
          intro hp
          rw [Db.passRefusal_eq_none.mpr hp] at hr
          cases hr
        rw [if_pos ⟨hs, hp⟩]
        exact .of_error hrun rfl
    · rw [if_neg hs] at hrun
      rw [if_neg fun hc => hs hc.1]
      exact .of_run hrun rfl (call_ends _)

theorem setLatestVersion_ends (h : db.Sound) (pluginId : PluginId) (versionId : VersionId) :
    Ends (setLatestVersion env pluginId versionId) db x (db.afterLatest pluginId versionId)
      false := by
  have hrun := setLatestVersion_run env x h pluginId versionId
  unfold Db.afterLatest
  cases hr : db.latestRefusal pluginId versionId with
  | none =>
    rw [hr] at hrun
    exact .of_run hrun rfl (call_ends _)
  | some e =>
    rw [hr] at hrun
    exact .of_error hrun rfl

theorem publishPluginVersion_ends (h : db.Sound) (pluginId : PluginId) (versionId : VersionId)
    (reviewStatus : ReviewStatus) :
    Ends (publishPluginVersion env pluginId versionId reviewStatus) db x
      (db.afterPublish env.now pluginId versionId reviewStatus) false := by
  have hrun := publishPluginVersion_run env x h pluginId versionId reviewStatus
  unfold Db.afterPublish
  cases hr : db.publishRefusal pluginId versionId reviewStatus with
  | none =>
    rw [hr] at hrun
    exact .of_run hrun rfl (call_ends _)
  | some e =>
    rw [hr] at hrun
    exact .of_error hrun rfl

theorem setConfig_ends (h : db.Sound) (config : RuntimeConfig) :
    Ends (setConfig config) db x { db with config } false := by
  have hc := (h.setConfig config).constraints
  have hrun : (setConfig config).run (Session.start db x) =
      .ok () (Session.start { db with config } x) := by
    simp only [setConfig, Session.start, Work.bind_run, Work.change_run, commit_run hc]
  exact .of_ok hrun rfl

namespace Db

def afterScan (db : Db) (env : Env) (versionId : VersionId)
    (outcomes : List (Provider × ScanOutcome)) : Db :=
  if followupTask env outcomes = none ∧ env.fault (.refresh .scanVersion) = none then
    db.autoPublished env.now versionId
  else db

def scanOpened (db : Db) (now : Time) (versionId : VersionId) (v : PluginVersion) : Db :=
  if canMarkBuildScanning v then db.modifyVersion versionId (·.beginScan now) else db

def scanResult (db : Db) (env : Env) (versionId : VersionId)
    (providers : Option (List String)) : Db :=
  match db.selectedProviders providers, db.versions.lookup versionId with
  | .ok selected, some v =>
    match scanSelectedProviders env db.config selected with
    | .error _ => db.scanOpened env.now versionId v
    | .ok outcomes =>
      if v.isLatest ∧ anyPending outcomes then db.scanOpened env.now versionId v
      else (db.scanned env.now versionId outcomes).afterScan env versionId outcomes
  | _, _ => db

def scanRefused (db : Db) (env : Env) (versionId : VersionId)
    (providers : Option (List String)) : Bool :=
  match db.selectedProviders providers, db.versions.lookup versionId with
  | .ok selected, some v =>
    match scanSelectedProviders env db.config selected with
    | .error _ => false
    | .ok outcomes => v.isLatest && anyPending outcomes
  | _, _ => false

end Db

def Db.publishError (db : Db) (env : Env) (versionId : VersionId) : Option PyErr :=
  if (db.versions.lookup versionId).any db.autoPublishes then
    (env.fault (.refresh .publishPluginVersion)).filter fun e => !e.refusal
  else none

theorem autoPublish_run (env : Env) (x : Outside) (h : db.Sound) {versionId : VersionId}
    {v : PluginVersion}
    (hv : db.versions.lookup versionId = some v) :
    (discard (tryAutoPublishAfterScan env versionId)).run (Session.start db x) =
      match db.publishError env versionId with
      | none => .ok () (Session.start (db.autoPublished env.now versionId) x)
      | some e => .error e (Session.start (db.autoPublished env.now versionId) x) := by
  rw [Work.discard_run, tryAutoPublishAfterScan_run h hv]
  simp only [Db.autoPublished, Db.publishError, hv, Option.any_some]
  by_cases hp : db.autoPublishes v = true
  · simp only [hp, if_true]
    cases hf : env.fault (.refresh .publishPluginVersion) with
    | none => rfl
    | some e =>
      cases hcaught : e.refusal <;> simp [Option.filter, hcaught]
  · simp only [hp, Bool.false_eq_true, if_false]

theorem tryAutoPublishAfterScan_ends (h : db.Sound) {versionId : VersionId} {v : PluginVersion}
    (hv : db.versions.lookup versionId = some v) :
    Ends (discard (tryAutoPublishAfterScan env versionId)) db x
      (db.autoPublished env.now versionId) false := by
  have hrun := autoPublish_run env x h hv
  cases he : db.publishError env versionId with
  | none =>
    rw [he] at hrun
    exact .of_ok hrun rfl
  | some e =>
    rw [he] at hrun
    exact .of_error hrun rfl

def Db.afterScanError (db : Db) (env : Env) (versionId : VersionId)
    (outcomes : List (Provider × ScanOutcome)) : Option PyErr :=
  if (followupTask env outcomes).isSome then
    env.fault .enqueueTask <|> env.fault (.refresh .scanVersion)
  else env.fault (.refresh .scanVersion) <|> db.publishError env versionId

/-- The end of a scan leaves the archives alone, whether it raises or not. -/
theorem afterScan_done (env : Env) (x : Outside) (h : db.Sound) {versionId : VersionId}
    {v : PluginVersion}
    (hv : db.versions.lookup versionId = some v) (outcomes : List (Provider × ScanOutcome)) :
    ∃ x', x'.files = x.files ∧ (afterScan env versionId outcomes).run (Session.start db x) =
      match db.afterScanError env versionId outcomes with
      | none => .ok () (Session.start (db.afterScan env versionId outcomes) x')
      | some e => .error e (Session.start (db.afterScan env versionId outcomes) x') := by
  rw [afterScan_run]
  unfold Db.afterScan Db.afterScanError
  cases hf : followupTask env outcomes with
  | some delay =>
    simp only [reduceCtorEq, false_and, if_false, Option.isSome_some, if_true]
    cases hq : env.fault .enqueueTask with
    | some e => exact ⟨x, rfl, rfl⟩
    | none =>
      refine ⟨x.queued env ⟨"virustotal_poll", versionId, delay⟩, Outside.files_queued .., ?_⟩
      simp only [call_run]
      cases env.fault (.refresh .scanVersion) <;> rfl
  | none =>
    simp only [true_and, Option.isSome_none, Bool.false_eq_true, if_false]
    cases hq : env.fault (.refresh .scanVersion) with
    | some e => exact ⟨x, rfl, rfl⟩
    | none =>
      refine ⟨x, rfl, ?_⟩
      simp only [autoPublish_run _ _ h hv, if_true]
      rfl

def Db.afterBuildScan (db : Db) (env : Env) (job : BuildJob)
    (outcomes : List (Provider × ScanOutcome)) : Db :=
  if db.seesResults job.resultsLoaded then db.afterScan env job.versionId outcomes else db

def Db.afterBuildScanError (db : Db) (env : Env) (job : BuildJob)
    (outcomes : List (Provider × ScanOutcome)) : Option PyErr :=
  if db.seesResults job.resultsLoaded then db.afterScanError env job.versionId outcomes
  else if (followupTask env outcomes).isSome then
    env.fault .enqueueTask <|> env.fault (.refresh .scanVersion)
  else env.fault (.refresh .scanVersion)

/-- The end of a build's scan is that of any scan, or publishes nothing. -/
theorem Db.afterBuildScan_cases (db : Db) (env : Env) (job : BuildJob)
    (outcomes : List (Provider × ScanOutcome)) :
    db.afterBuildScan env job outcomes = db.afterScan env job.versionId outcomes ∨
      db.afterBuildScan env job outcomes = db := by
  unfold Db.afterBuildScan
  split
  · exact .inl rfl
  · exact .inr rfl

/-- What holds of a recorded scan and of its publication holds after a build's scan. -/
theorem Db.afterBuildScan_keeps {P : Db → Prop} {job : BuildJob}
    {outcomes : List (Provider × ScanOutcome)} (hdone : P db)
    (hafter : P (db.afterScan env job.versionId outcomes)) :
    P (db.afterBuildScan env job outcomes) := by
  unfold Db.afterBuildScan
  split
  · exact hafter
  · exact hdone

theorem afterBuildScan_done (env : Env) (x : Outside) (h : db.Sound) (job : BuildJob)
    {v : PluginVersion} (hv : db.versions.lookup job.versionId = some v)
    (outcomes : List (Provider × ScanOutcome)) :
    ∃ x', x'.files = x.files ∧
      (afterScan env job.versionId outcomes job.resultsLoaded).run (Session.start db x) =
        match db.afterBuildScanError env job outcomes with
        | none => .ok () (Session.start (db.afterBuildScan env job outcomes) x')
        | some e => .error e (Session.start (db.afterBuildScan env job outcomes) x') := by
  unfold Db.afterBuildScanError Db.afterBuildScan
  cases hsees : db.seesResults job.resultsLoaded with
  | true =>
    rw [afterScan_seen h hv hsees]
    exact afterScan_done env x h hv outcomes
  | false =>
    rw [afterScan_unseen h hv hsees]
    cases followupTask env outcomes with
    | some delay =>
      cases hq : env.fault .enqueueTask with
      | some e => exact ⟨x, rfl, rfl⟩
      | none =>
        refine ⟨x.queued env ⟨"virustotal_poll", job.versionId, delay⟩,
          Outside.files_queued .., ?_⟩
        simp only [call_run]
        cases env.fault (.refresh .scanVersion) <;> rfl
    | none =>
      refine ⟨x, rfl, ?_⟩
      simp only [call_run]
      cases env.fault (.refresh .scanVersion) <;> rfl

theorem afterScan_ends (h : db.Sound) {versionId : VersionId} {v : PluginVersion}
    (hv : db.versions.lookup versionId = some v) (outcomes : List (Provider × ScanOutcome)) :
    Ends (afterScan env versionId outcomes) db x (db.afterScan env versionId outcomes) false := by
  obtain ⟨x', hx, hrun⟩ := afterScan_done env x h hv outcomes
  cases he : db.afterScanError env versionId outcomes with
  | none =>
    rw [he] at hrun
    exact .of_ok hrun hx
  | some e =>
    rw [he] at hrun
    exact .of_error hrun hx

theorem Db.scanned_lookup {versionId : VersionId} {v : PluginVersion} (now : Time)
    (hv : db.versions.lookup versionId = some v) (outcomes : List (Provider × ScanOutcome)) :
    (db.scanned now versionId outcomes).versions.lookup versionId =
      some (v.scanned now outcomes) := by
  simp [Db.scanned, hv]

/-- `scan_version` ends with the rows that `scanResult` computes, whether it returns or raises. -/
theorem scanVersion_ends (h : db.Sound) (versionId : VersionId)
    (providers : Option (List String)) :
    Ends (scanVersion env versionId providers) db x (db.scanResult env versionId providers)
      (db.scanRefused env versionId providers) := by
  have hrun := scanVersion_run env x h versionId providers
  unfold Db.scanResult Db.scanRefused
  cases hsel : db.selectedProviders providers with
  | error e =>
    rw [hsel] at hrun
    exact .of_error hrun rfl
  | ok selected =>
    rw [hsel] at hrun
    cases hv : db.versions.lookup versionId with
    | none =>
      rw [hv] at hrun
      exact .of_error hrun rfl
    | some v =>
      rw [hv] at hrun
      dsimp only at hrun ⊢
      cases hans : scanSelectedProviders env db.config selected with
      | error e =>
        rw [hans] at hrun
        exact .of_error hrun rfl
      | ok outcomes =>
        rw [hans] at hrun
        dsimp only at hrun ⊢
        by_cases hlate : v.isLatest = true ∧ anyPending outcomes = true
        · rw [if_pos hlate] at hrun ⊢
          rw [hlate.1, hlate.2]
          exact .of_error hrun rfl
        · rw [if_neg hlate] at hrun ⊢
          have hno : (v.isLatest && anyPending outcomes) = false := by
            rw [Bool.eq_false_iff, ne_eq, Bool.and_eq_true]
            exact hlate
          rw [hno]
          exact .of_run hrun rfl (afterScan_ends (h.scanned _ hv outcomes hlate)
            (Db.scanned_lookup _ hv outcomes) outcomes)

namespace Db

def afterMarkPending (db : Db) (now : Time) (versionId : VersionId)
    (providers : Option (List String)) : Db :=
  match db.versions.lookup versionId, db.selectedProviders providers with
  | some _, .ok selected => db.modifyVersion versionId (·.markedPending now selected)
  | _, _ => db

def afterMarkSkipped (db : Db) (now : Time) (versionId : VersionId)
    (providers : Option (List String)) : Db :=
  match db.versions.lookup versionId, db.selectedProviders providers with
  | some _, .ok selected =>
    db.modifyVersion versionId (·.markedSkipped now selected (manuallySkippedOutcome db.config))
  | _, _ => db

end Db

theorem markScanPending_ends (h : db.Sound) (versionId : VersionId)
    (providers : Option (List String)) :
    Ends (markScanPending env versionId providers) db x
      (db.afterMarkPending env.now versionId providers) false := by
  have hrun := markScanPending_run env x h versionId providers
  unfold Db.afterMarkPending
  cases hv : db.versions.lookup versionId with
  | none =>
    rw [hv] at hrun
    exact .of_error hrun rfl
  | some v =>
    rw [hv] at hrun
    cases hsel : db.selectedProviders providers with
    | error e =>
      rw [hsel] at hrun
      exact .of_error hrun rfl
    | ok selected =>
      rw [hsel] at hrun
      exact .of_run hrun rfl (call_ends _)

theorem markScanSkipped_ends (h : db.Sound) (versionId : VersionId)
    (providers : Option (List String)) :
    Ends (markScanSkipped env versionId providers) db x
      (db.afterMarkSkipped env.now versionId providers) false := by
  have hrun := markScanSkipped_run env x h versionId providers
  unfold Db.afterMarkSkipped
  cases hv : db.versions.lookup versionId with
  | none =>
    rw [hv] at hrun
    exact .of_error hrun rfl
  | some v =>
    rw [hv] at hrun
    cases hsel : db.selectedProviders providers with
    | error e =>
      rw [hsel] at hrun
      exact .of_error hrun rfl
    | ok selected =>
      rw [hsel] at hrun
      exact .of_run hrun rfl (call_ends _)

namespace Db

def afterPoll (db : Db) (env : Env) (caller : Caller) (versionId : VersionId)
    (outcome : ScanOutcome) : Db :=
  if outcome.mode ≠ .pending ∧ env.fault (.refresh caller) = none then
    db.autoPublished env.now versionId
  else db

def pollResult (db : Db) (env : Env) (versionId : VersionId) : Db :=
  match db.versions.lookup versionId with
  | none => db
  | some v => match v.pollDecision env db.config with
    | .idle | .failed _ => db
    | .complete o => (db.polled env.now versionId o (·.clearTracking .virustotal)).afterPoll env
        .completeProviderOutcome versionId o
    | .recorded o =>
      if v.isLatest ∧ o.mode = .pending then db
      else (db.polled env.now versionId o (·.applyTracking .virustotal o)).afterPoll env
        .pollVirustotalAnalysis versionId o

def pollRefused (db : Db) (env : Env) (versionId : VersionId) : Bool :=
  match db.versions.lookup versionId with
  | none => false
  | some v => match v.pollDecision env db.config with
    | .recorded o => v.isLatest && o.mode = .pending
    | _ => false

end Db

theorem refreshThenPublish_ends (h : db.Sound) {caller : Caller} {versionId : VersionId}
    {v : PluginVersion} (hv : db.versions.lookup versionId = some v) {o : ScanOutcome}
    (ho : o.mode ≠ .pending) :
    Ends (refreshThenPublish env caller versionId) db x
      (db.afterPoll env caller versionId o) false := by
  have hrun : (refreshThenPublish env caller versionId).run (Session.start db x) =
      match env.fault (.refresh caller) with
      | none => (discard (tryAutoPublishAfterScan env versionId)).run (Session.start db x)
      | some e => .error e (Session.start db x) := by
    rw [refreshThenPublish, Work.bind_run, call_run]
    cases env.fault (.refresh caller) <;> rfl
  unfold Db.afterPoll
  cases hf : env.fault (.refresh caller) with
  | none =>
    rw [hf] at hrun
    rw [if_pos ⟨ho, rfl⟩]
    exact .of_run hrun rfl (tryAutoPublishAfterScan_ends h hv)
  | some e =>
    rw [hf] at hrun
    rw [if_neg (by simp)]
    exact .of_error hrun rfl

/-- A poll whose answer is pending only refreshes the row. -/
theorem pendingPoll_run {versionId : VersionId} {o : ScanOutcome} (ho : o.mode = .pending)
    (s : Session Db Outside) :
    (do
      call env (.refresh .pollVirustotalAnalysis)
      Work.when (o.mode ≠ .pending) do
        discard (tryAutoPublishAfterScan env versionId) : Op Unit).run s =
      (call env (.refresh .pollVirustotalAnalysis)).run s := by
  simp only [Work.bind_run, call_run, Work.when_run, ho, ne_eq, not_true_eq_false, if_false]
  cases env.fault (.refresh .pollVirustotalAnalysis) <;> rfl

/-- A pending answer with a next poll time queues that poll first. -/
theorem repoll_run (env : Env) (db : Db) (x : Outside) (versionId : VersionId)
    {o : ScanOutcome} (ho : o.mode = .pending)
    (hnext : o.virustotalNextPollAt.isSome = true) :
    (afterPoll env versionId o).run (Session.start db x) =
      match env.fault .enqueueTask with
      | some e => .error e (Session.start db x)
      | none => (call env (.refresh .pollVirustotalAnalysis)).run
          (Session.start db (x.queued env ⟨"virustotal_poll", versionId,
            o.virustotalNextPollAt.getD env.now - env.now⟩)) := by
  rw [afterPoll, Work.bind_run, Work.when_run, if_pos ⟨ho, hnext⟩, Session.start, enqueueTask_run]
  cases env.fault .enqueueTask with
  | some e => rfl
  | none => exact pendingPoll_run ho _

theorem afterPoll_ends (h : db.Sound) {versionId : VersionId} {v : PluginVersion}
    (hv : db.versions.lookup versionId = some v) (o : ScanOutcome) :
    Ends (afterPoll env versionId o) db x
      (db.afterPoll env .pollVirustotalAnalysis versionId o) false := by
  by_cases ho : o.mode = .pending
  · have hdb : db.afterPoll env .pollVirustotalAnalysis versionId o = db :=
      if_neg fun hc => hc.1 ho
    rw [hdb]
    by_cases hnext : o.virustotalNextPollAt.isSome = true
    · have hafter := repoll_run env db x versionId ho hnext
      cases hq : env.fault .enqueueTask with
      | some e =>
        rw [hq] at hafter
        exact .of_error hafter rfl
      | none =>
        rw [hq] at hafter
        exact .of_run hafter (Outside.files_queued ..) (call_ends _)
    · have hafter : (afterPoll env versionId o).run (Session.start db x) =
          (call env (.refresh .pollVirustotalAnalysis)).run (Session.start db x) := by
        rw [afterPoll, Work.bind_run, Work.when_run, if_neg fun hc => hnext hc.2]
        exact pendingPoll_run ho _
      exact .of_run hafter rfl (call_ends _)
  · have hafter : (afterPoll env versionId o).run (Session.start db x) =
        (refreshThenPublish env .pollVirustotalAnalysis versionId).run (Session.start db x) := by
      rw [afterPoll, Work.bind_run, Work.when_run, if_neg fun hc => ho hc.1, refreshThenPublish]
      simp only [Work.bind_run, Work.when_run, ne_eq, ho, not_false_eq_true, if_true]
    exact .of_run hafter rfl (refreshThenPublish_ends h hv ho)

theorem Db.polled_lookup {versionId : VersionId} {v : PluginVersion} (now : Time)
    (hv : db.versions.lookup versionId = some v) (o : ScanOutcome)
    (track : SecurityScan → SecurityScan) :
    (db.polled now versionId o track).versions.lookup versionId = some (v.polled now o track) := by
  simp [Db.polled, hv]

/-- `poll_virustotal_analysis` ends with the rows that `pollResult` computes. -/
theorem pollVirustotalAnalysis_ends (h : db.Sound) (versionId : VersionId) :
    Ends (pollVirustotalAnalysis env versionId) db x (db.pollResult env versionId)
      (db.pollRefused env versionId) := by
  have hrun := pollVirustotalAnalysis_run env x h versionId
  unfold Db.pollResult Db.pollRefused
  cases hv : db.versions.lookup versionId with
  | none =>
    rw [hv] at hrun
    exact .of_error hrun rfl
  | some v =>
    rw [hv] at hrun
    dsimp only at hrun ⊢
    cases hd : v.pollDecision env db.config with
    | idle =>
      rw [hd] at hrun
      exact .of_ok hrun rfl
    | failed e =>
      rw [hd] at hrun
      exact .of_error hrun rfl
    | complete o =>
      rw [hd] at hrun
      have ho := PluginVersion.complete_not_pending hd
      exact .of_run hrun rfl (refreshThenPublish_ends
        (h.polled _ hv o _ fun hc => ho hc.2) (Db.polled_lookup _ hv o _) ho)
    | recorded o =>
      rw [hd] at hrun
      dsimp only at hrun ⊢
      by_cases hlate : v.isLatest = true ∧ o.mode = .pending
      · rw [if_pos hlate] at hrun ⊢
        simp only [hlate.1, hlate.2, decide_true, Bool.and_self]
        exact .of_error hrun rfl
      · rw [if_neg hlate] at hrun ⊢
        have hno : (v.isLatest && decide (o.mode = .pending)) = false := by
          rw [Bool.eq_false_iff, ne_eq, Bool.and_eq_true, decide_eq_true_eq]
          exact hlate
        rw [hno]
        exact .of_run hrun rfl (afterPoll_ends (h.polled _ hv o _ hlate) (Db.polled_lookup _ hv o _) o)

end PluginRegistry
