import PluginRegistry.Services.ScanService

namespace PluginRegistry

namespace PluginVersion

variable (v : PluginVersion) (now : Time)

/-- The version once `_get_or_create_scan` has run. -/
def openScan : PluginVersion :=
  { v with scan := some (v.scan.getD (.new now)) }

/-- The version as `scan_version` holds it before it asks the scanners. -/
def beginScan : PluginVersion :=
  if canMarkBuildScanning v then { v.openScan now with buildStatus := .scanning }
  else v.openScan now

def recordAll (outcomes : List (Provider × ScanOutcome)) : PluginVersion :=
  outcomes.foldl (fun v o => v.record now o.1 o.2 (·.applyTracking o.1 o.2)) v

/-- `any(outcome.mode == "pending" …)`. -/
def scanBuildStatus (outcomes : List (Provider × ScanOutcome)) : BuildStatus :=
  if outcomes.any fun o => o.2.mode = .pending then .scanning else .success

/-- The version as `scan_version` leaves it. -/
def scanned (outcomes : List (Provider × ScanOutcome)) : PluginVersion :=
  ((v.beginScan now).recordAll now outcomes).finishScan now (scanBuildStatus outcomes)

def markAll (providers : List Provider) (outcome : ScanOutcome) : PluginVersion :=
  providers.foldl (fun v p => v.record now p outcome (·.clearTracking p)) v

/-- The version as `mark_scan_pending` leaves it. -/
def markedPending (providers : List Provider) : PluginVersion :=
  let w := ((v.openScan now).markAll now providers scanQueuedOutcome).scannedAt now
  if canMarkBuildScanning v then { w with buildStatus := .scanning } else w

/-- The version as `mark_scan_skipped` leaves it. -/
def markedSkipped (providers : List Provider) (outcome : ScanOutcome) : PluginVersion :=
  ((v.openScan now).markAll now providers outcome).finishScan now .success

def openPoll : PluginVersion :=
  (v.openScan now).modifyResult (.machine .virustotal) .scan id

def polled (outcome : ScanOutcome) (track : SecurityScan → SecurityScan) : PluginVersion :=
  ((v.openPoll now).record now .virustotal outcome track).finishScan now
    (if outcome.mode = .pending then .scanning else .success)

end PluginVersion

inductive PollDecision
  | idle
  | failed (e : PyErr)
  | complete (outcome : ScanOutcome)
  | recorded (outcome : ScanOutcome)

def PluginVersion.pollDecision (v : PluginVersion) (env : Env) (cfg : RuntimeConfig) :
    PollDecision :=
  match v.awaitedAnalysis env.now with
  | none => .idle
  | some analysisId =>
    if !cfg.scanEnabledProviders.contains .virustotal then
      .complete
        { passed := some true
          message := "Scan provider disabled: virustotal"
          mode := .skipped
          virustotalAnalysisId := some analysisId }
    else if cfg.virustotal.apiKey.isEmpty then
      .complete { cfg.unconfiguredOutcome with virustotalAnalysisId := some analysisId }
    else if v.pollDeadline env.now cfg.virustotal ≤ env.now then
      .complete (virustotalTimeoutOutcome analysisId (v.pollAttempts env.now)
        (max 1 cfg.virustotal.maxWaitSeconds))
    else match env.pollAnswer with
      | .error e => .failed e
      | .ok answer => .recorded (pollOutcome env cfg.virustotal v analysisId answer)

end PluginRegistry
