import PluginRegistry.Services.ScanWrites
import PluginRegistry.Services.TaskQueue

namespace PluginRegistry
open Lib

/-- A column after a commit. An `UPDATE` sets only what the session has changed. -/
def mergeColumn {α : Type} [DecidableEq α] (read mine stored : α) : α :=
  if mine = read then stored else mine

def SecurityScan.merge (read mine stored : SecurityScan) : SecurityScan where
  virustotalPass := mergeColumn read.virustotalPass mine.virustotalPass stored.virustotalPass
  virustotalMsg := mergeColumn read.virustotalMsg mine.virustotalMsg stored.virustotalMsg
  virustotalMode := mergeColumn read.virustotalMode mine.virustotalMode stored.virustotalMode
  virustotalAnalysisId :=
    mergeColumn read.virustotalAnalysisId mine.virustotalAnalysisId stored.virustotalAnalysisId
  virustotalFileSha256 :=
    mergeColumn read.virustotalFileSha256 mine.virustotalFileSha256 stored.virustotalFileSha256
  virustotalSubmittedAt :=
    mergeColumn read.virustotalSubmittedAt mine.virustotalSubmittedAt stored.virustotalSubmittedAt
  virustotalDeadlineAt :=
    mergeColumn read.virustotalDeadlineAt mine.virustotalDeadlineAt stored.virustotalDeadlineAt
  virustotalNextPollAt :=
    mergeColumn read.virustotalNextPollAt mine.virustotalNextPollAt stored.virustotalNextPollAt
  virustotalPollAttempts :=
    mergeColumn read.virustotalPollAttempts mine.virustotalPollAttempts
      stored.virustotalPollAttempts
  llmAgentPass := mergeColumn read.llmAgentPass mine.llmAgentPass stored.llmAgentPass
  llmAgentMsg := mergeColumn read.llmAgentMsg mine.llmAgentMsg stored.llmAgentMsg
  llmAgentMode := mergeColumn read.llmAgentMode mine.llmAgentMode stored.llmAgentMode
  scannedAt := mergeColumn read.scannedAt mine.scannedAt stored.scannedAt

def ReviewProviderResult.merge (read mine stored : ReviewProviderResult) :
    ReviewProviderResult where
  kind := mergeColumn read.kind mine.kind stored.kind
  passed := mergeColumn read.passed mine.passed stored.passed
  message := mergeColumn read.message mine.message stored.message
  mode := mergeColumn read.mode mine.mode stored.mode
  detailsJson := mergeColumn read.detailsJson mine.detailsJson stored.detailsJson
  externalId := mergeColumn read.externalId mine.externalId stored.externalId
  submittedAt := mergeColumn read.submittedAt mine.submittedAt stored.submittedAt
  deadlineAt := mergeColumn read.deadlineAt mine.deadlineAt stored.deadlineAt
  nextPollAt := mergeColumn read.nextPollAt mine.nextPollAt stored.nextPollAt
  attempts := mergeColumn read.attempts mine.attempts stored.attempts
  completedAt := mergeColumn read.completedAt mine.completedAt stored.completedAt

def mergeRow {α : Type} (merge : α → α → α → α) : Option α → Option α → Option α → Option α
  | some read, some mine, some stored => some (merge read mine stored)
  | none, some mine, none => some mine
  | _, _, stored => stored

/-- An `INSERT` of a row that another session has inserted. -/
def collides {α : Type} (read mine stored : Option α) : Bool :=
  read.isNone && mine.isSome && stored.isSome

/-- The rows of a version once a session that has read some of them and changed
them commits, unless a constraint refuses it. -/
def PluginVersion.commit (read mine stored : PluginVersion) : Option PluginVersion :=
  let merged :=
    { stored with
      buildStatus := mergeColumn read.buildStatus mine.buildStatus stored.buildStatus
      scan := mergeRow SecurityScan.merge read.scan mine.scan stored.scan
      providerResults := fun r => mergeRow ReviewProviderResult.merge (read.providerResults r)
        (mine.providerResults r) (stored.providerResults r) }
  let taken := collides read.scan mine.scan stored.scan || Provider.names.any fun p =>
    collides (read.providerResults (.machine p)) (mine.providerResults (.machine p))
      (stored.providerResults (.machine p))
  if taken = false ∧ merged.Checked then some merged else none

inductive SessionRequest
  | scan (selected : List Provider)
  | markPending (providers : Option (List String))
  | markSkipped (providers : Option (List String))
  | poll (task : Nat)

/-- Where a session stands: before the commit of its results, or after it with
a follow-up task still to be queued. -/
inductive SessionStage
  | opened
  | recorded (followup : Option Time)
  deriving DecidableEq

structure ScanSession where
  request : SessionRequest
  read : PluginVersion
  stage : SessionStage

/-- What a session learns from outside the rows of its version. `afterwards` is
what the cache refresh and the attempt to publish raise. -/
structure SessionEnv where
  env : Env
  config : RuntimeConfig
  taskConfig : TaskConfig
  afterwards : Option PyErr

/-- `_selected_scan_providers`. -/
def RuntimeConfig.selectedProviders (cfg : RuntimeConfig) :
    Option (List String) → Except PyErr (List Provider)
  | none => .ok (Provider.names.filter cfg.scanEnabledProviders.contains)
  | some names => Provider.validate names

structure SessionWrite where
  read : PluginVersion
  mine : PluginVersion
  followup : Option Time

/-- The version as the session read it, with the result rows that it selects anew. The
`SELECT` and the commit after it are one step here. -/
def PluginVersion.rereading (read stored : PluginVersion) : PluginVersion :=
  { read with providerResults := stored.providerResults }

def ScanSession.write (session : ScanSession) (e : SessionEnv) (stored : PluginVersion) :
    Except PyErr (Option SessionWrite) :=
  let read := session.read.rereading stored
  match session.request with
  | .scan selected => do
    let outcomes ← scanSelectedProviders e.env e.config selected
    let recorded := (read.openScan e.env.now).recordAll e.env.now outcomes
    return some ⟨read, recorded.finishScan e.env.now (PluginVersion.scanBuildStatus outcomes),
      followupTask e.env outcomes⟩
  | .markPending providers => do
    let selected ← e.config.selectedProviders providers
    return some ⟨read, read.markedPending e.env.now selected, none⟩
  | .markSkipped providers => do
    let selected ← e.config.selectedProviders providers
    let outcome := manuallySkippedOutcome e.config
    return some ⟨read, read.markedSkipped e.env.now selected outcome, none⟩
  | .poll _ =>
    match session.read.pollDecision e.env e.config with
    | .idle => .ok none
    | .failed error => .error error
    | .complete o =>
      .ok (some ⟨session.read, session.read.polled e.env.now o (·.clearTracking .virustotal), none⟩)
    | .recorded o =>
      let followup := if o.mode = .pending then o.virustotalNextPollAt else none
      .ok (some ⟨session.read, session.read.polled e.env.now o (·.applyTracking .virustotal o),
        followup.map (· - e.env.now)⟩)

def ScanSession.touchesVirustotal (session : ScanSession) (cfg : RuntimeConfig) : Bool :=
  match session.request with
  | .scan selected => selected.contains .virustotal
  | .markPending providers | .markSkipped providers =>
    match cfg.selectedProviders providers with
    | .ok selected => selected.contains .virustotal
    | .error _ => false
  | .poll _ => true

inductive PollStage
  | waiting
  | running (session : Nat)
  | failed (error : PyErr)

structure PollTask where
  envelope : QueueTask
  stage : PollStage

/-- The stored rows of a version, the sessions that work on it, the poll tasks
that are left, and the sessions that have stored a VirusTotal result. Sessions
and tasks are numbered in the order in which they start. -/
structure ScanWorld where
  row : PluginVersion
  sessions : Table Nat ScanSession
  tasks : Table Nat PollTask
  clock : Nat
  recorded : List Nat

structure RowWrite where
  rewrite : PluginVersion → PluginVersion
  keepsScan : ∀ v, (rewrite v).scan = v.scan
  keepsResults : ∀ v p, (rewrite v).providerResults (.machine p) = v.providerResults (.machine p)

inductive ScanEvent
  | scan (providers : Option (List String)) (e : SessionEnv)
  | markPending (providers : Option (List String))
  | markSkipped (providers : Option (List String))
  | take (task : Nat)
  | advance (serial : Nat) (e : SessionEnv)
  | settle (task : Nat) (config : TaskConfig)
  | other (write : RowWrite)

namespace ScanWorld

def openSession (w : ScanWorld) (request : SessionRequest) : ScanWorld :=
  { w with
    sessions := AList.insert w.clock ⟨request, w.row, .opened⟩ w.sessions
    clock := w.clock + 1 }

/-- `scan_version` up to its scanners. -/
def beginScan (w : ScanWorld) (providers : Option (List String)) (e : SessionEnv) : ScanWorld :=
  match e.config.selectedProviders providers with
  | .error _ => w
  | .ok selected =>
    if canMarkBuildScanning w.row then
      if (w.row.beginScan e.env.now).Checked then
        openSession { w with row := w.row.beginScan e.env.now } (.scan selected)
      else w
    else w.openSession (.scan selected)

def take (w : ScanWorld) (task : Nat) : ScanWorld :=
  match w.tasks.lookup task with
  | some ⟨envelope, .waiting⟩ =>
    openSession { w with tasks := AList.insert task ⟨envelope, .running w.clock⟩ w.tasks }
      (.poll task)
  | _ => w

def setSession (w : ScanWorld) (serial : Nat) (session : ScanSession) : ScanWorld :=
  { w with sessions := AList.insert serial session w.sessions }

def raise (w : ScanWorld) (serial : Nat) (session : ScanSession) (error : PyErr) : ScanWorld :=
  { w with
    sessions := AList.erase serial w.sessions
    tasks := match session.request with
      | .poll task => w.tasks.modify task fun t => { t with stage := .failed error }
      | _ => w.tasks }

def finish (w : ScanWorld) (serial : Nat) (session : ScanSession) : ScanWorld :=
  { w with
    sessions := AList.erase serial w.sessions
    tasks := match session.request with
      | .poll task => AList.erase task w.tasks
      | _ => w.tasks }

def record (w : ScanWorld) (serial : Nat) (session : ScanSession) (e : SessionEnv) : ScanWorld :=
  match session.write e w.row with
  | .error error => w.raise serial session error
  | .ok none => w.finish serial session
  | .ok (some write) =>
    match write.read.commit write.mine w.row with
    | none => w.raise serial session (Schema.refused Db)
    | some row =>
      { w with
        row
        recorded := if session.touchesVirustotal e.config then serial :: w.recorded
          else w.recorded }.setSession serial { session with stage := .recorded write.followup }

/-- `enqueue_task` for the next poll. -/
def enqueue (w : ScanWorld) (e : SessionEnv) : ScanWorld :=
  if e.env.redis then
    { w with
      tasks := AList.insert w.clock
        ⟨createTaskEnvelope e.taskConfig.settingsMaxAttempts "virustotal_poll" []
          (toString w.clock) e.taskConfig.maxAttempts, .waiting⟩ w.tasks
      clock := w.clock + 1 }
  else w

def advance (w : ScanWorld) (serial : Nat) (e : SessionEnv) : ScanWorld :=
  match w.sessions.lookup serial with
  | none => w
  | some session =>
    match session.stage with
    | .opened => w.record serial session e
    | .recorded (some _) =>
      match e.env.fault .enqueueTask with
      | some error => w.raise serial session error
      | none => (w.enqueue e).setSession serial { session with stage := .recorded none }
    | .recorded none =>
      match e.afterwards with
      | some error => w.raise serial session error
      | none => w.finish serial session

def settle (w : ScanWorld) (task : Nat) (config : TaskConfig) : ScanWorld :=
  match w.tasks.lookup task with
  | some ⟨envelope, .failed error⟩ =>
    match requeueTask envelope error config.toTaskLimits with
    | .deadLetter _ => { w with tasks := AList.erase task w.tasks }
    | .push envelope _ => { w with tasks := AList.insert task ⟨envelope, .waiting⟩ w.tasks }
  | _ => w

def step (w : ScanWorld) : ScanEvent → ScanWorld
  | .scan providers e => w.beginScan providers e
  | .markPending providers => w.openSession (.markPending providers)
  | .markSkipped providers => w.openSession (.markSkipped providers)
  | .take task => w.take task
  | .advance serial e => w.advance serial e
  | .settle task config => w.settle task config
  | .other write => { w with row := write.rewrite w.row }

end ScanWorld

def PluginVersion.unscanned (v : PluginVersion) : PluginVersion :=
  { v with scan := none, providerResults := fun _ => none }

def scanSessions (v : PluginVersion) : Machine ScanWorld ScanEvent where
  init := ⟨v.unscanned, ∅, ∅, 0, []⟩
  step := ScanWorld.step

end PluginRegistry
