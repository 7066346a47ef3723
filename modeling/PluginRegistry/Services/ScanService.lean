import PluginRegistry.Python.Datetime
import PluginRegistry.Services.PluginService

namespace PluginRegistry
open Lib

def Provider.name : Provider → String
  | .clamav => "clamav"
  | .virustotal => "virustotal"
  | .llmAgent => "llm_agent"

/-- `ScanProviderRegistry.validate`: known names only, in registry order. -/
def Provider.validate (selected : List String) : Except PyErr (List Provider) :=
  let known := Provider.names.map Provider.name
  let invalid := (selected.dedup.filter fun n => !known.contains n).mergeSort fun a b => a ≤ b
  if invalid.isEmpty then .ok (Provider.names.filter fun p => selected.contains p.name)
  else .error (valueError ("Invalid scan providers: " ++ String.intercalate ", " invalid))

def ClamavConfig.isConfigured (config : ClamavConfig) : Bool :=
  !config.host.isEmpty && 0 < config.port

def VirusTotalConfig.isConfigured (config : VirusTotalConfig) : Bool :=
  !config.apiKey.isEmpty

/-- `llm_configured`. -/
def LlmAgentConfig.isConfigured (config : LlmAgentConfig) : Bool :=
  !config.baseUrl.isEmpty && !config.model.isEmpty && !config.apiKey.isEmpty

/-- `definition.is_configured(await definition.load_config(db))`. -/
def RuntimeConfig.isConfigured (cfg : RuntimeConfig) : Provider → Bool
  | .clamav => cfg.clamav.isConfigured
  | .virustotal => cfg.virustotal.isConfigured
  | .llmAgent => cfg.llmAgent.isConfigured

def RuntimeConfig.unconfiguredOutcome (cfg : RuntimeConfig) : ScanOutcome where
  passed := some cfg.scanPassWhenUnconfigured
  message := cfg.scanUnconfiguredMessage
  mode := .skipped

def selectedScanProviders (providers : Option (List String)) : Op (List Provider) :=
  match providers with
  | none => do
    let enabled := (← runtimeConfig).scanEnabledProviders
    return Provider.names.filter enabled.contains
  | some names => Work.lift (Provider.validate names)

/-- Record the unconfigured providers as skipped and run the others. `gather`
reports one of the exceptions its tasks raise; here it is the first in
registry order. -/
def scanSelectedProviders (env : Env) (cfg : RuntimeConfig) (selected : List Provider) :
    Except PyErr (List (Provider × ScanOutcome)) := do
  let skipped := selected.filter fun p => !cfg.isConfigured p
  let ran ← (selected.filter cfg.isConfigured).mapM fun p => do
    return (p, ← env.scanAnswer p)
  return skipped.map (·, cfg.unconfiguredOutcome) ++ ran

def SecurityScan.setProviderResult (scan : SecurityScan) (provider : Provider)
    (passed : Option Bool) (message : String) (mode : ScanMode) : SecurityScan :=
  match provider with
  | .clamav => scan
  | .virustotal =>
    { scan with virustotalPass := passed, virustotalMsg := some message, virustotalMode := mode }
  | .llmAgent =>
    { scan with llmAgentPass := passed, llmAgentMsg := some message, llmAgentMode := mode }

def ReviewProviderResult.setReviewProviderResult (result : ReviewProviderResult) (now : Time)
    (provider : Provider) (outcome : ScanOutcome) : ReviewProviderResult :=
  let result :=
    { result with
      kind := .scan
      passed := outcome.passed
      message := some outcome.message
      mode := outcome.mode
      completedAt := if outcome.mode = ScanMode.pending then none else some now }
  match provider with
  | .virustotal =>
    { result with
      externalId := outcome.virustotalAnalysisId
      submittedAt := outcome.virustotalSubmittedAt
      deadlineAt := outcome.virustotalDeadlineAt
      nextPollAt := if outcome.mode = ScanMode.pending then outcome.virustotalNextPollAt else none
      attempts := outcome.virustotalPollAttempts.getD result.attempts
      detailsJson :=
        if truthy outcome.virustotalFileSha256 then outcome.virustotalFileSha256.map (⟨·⟩)
        else result.detailsJson }
  | .clamav | .llmAgent =>
    { result with
      externalId := none
      submittedAt := none
      deadlineAt := none
      nextPollAt := none
      attempts := 0 }

/-- `definition.apply_tracking`: only VirusTotal keeps tracking columns. -/
def SecurityScan.applyTracking (scan : SecurityScan) (provider : Provider)
    (outcome : ScanOutcome) : SecurityScan :=
  match provider with
  | .clamav | .llmAgent => scan
  | .virustotal =>
    { scan with
      virustotalAnalysisId :=
        if truthy outcome.virustotalAnalysisId then outcome.virustotalAnalysisId
        else scan.virustotalAnalysisId
      virustotalFileSha256 :=
        if truthy outcome.virustotalFileSha256 then outcome.virustotalFileSha256
        else scan.virustotalFileSha256
      virustotalSubmittedAt := outcome.virustotalSubmittedAt <|> scan.virustotalSubmittedAt
      virustotalDeadlineAt := outcome.virustotalDeadlineAt <|> scan.virustotalDeadlineAt
      virustotalPollAttempts :=
        outcome.virustotalPollAttempts.getD scan.virustotalPollAttempts
      virustotalNextPollAt :=
        if outcome.mode = .pending then outcome.virustotalNextPollAt else none }

/-- `definition.clear_tracking`. -/
def SecurityScan.clearTracking (scan : SecurityScan) : Provider → SecurityScan
  | .clamav | .llmAgent => scan
  | .virustotal =>
    { scan with
      virustotalAnalysisId := none
      virustotalFileSha256 := none
      virustotalSubmittedAt := none
      virustotalDeadlineAt := none
      virustotalNextPollAt := none
      virustotalPollAttempts := 0 }

def SecurityScan.recordLegacy (scan : SecurityScan) (provider : Provider)
    (outcome : ScanOutcome) : SecurityScan :=
  if provider.legacyPublic then
    scan.setProviderResult provider outcome.passed outcome.message outcome.mode
  else scan

/-- The writes for one provider: its result row, its legacy columns and its
tracking columns. -/
def PluginVersion.record (v : PluginVersion) (now : Time) (provider : Provider)
    (outcome : ScanOutcome) (track : SecurityScan → SecurityScan) : PluginVersion :=
  let v := v.modifyResult (.machine provider) .scan
    (·.setReviewProviderResult now provider outcome)
  { v with scan := v.scan.map fun scan => track (scan.recordLegacy provider outcome) }

/-- `if version.s3_key and version.download_url`. -/
def PluginVersion.hasArtifact (v : PluginVersion) : Bool :=
  truthy v.s3Key && truthy v.downloadUrl

def PluginVersion.scannedAt (v : PluginVersion) (now : Time) : PluginVersion :=
  { v with scan := v.scan.map fun scan => { scan with scannedAt := now } }

def PluginVersion.finishScan (v : PluginVersion) (now : Time) (buildStatus : BuildStatus) :
    PluginVersion :=
  let v := v.scannedAt now
  if v.hasArtifact then { v with buildStatus } else v

/-- Avoid violating the latest-version invariant while rescanning published versions. -/
def canMarkBuildScanning (version : PluginVersion) : Bool :=
  if !version.hasArtifact then false
  else !(version.isLatest && version.versionStatus = .active)

def getOrCreateScan (env : Env) (versionId : VersionId) : Op PluginVersion := do
  match ← getVersion versionId with
  | none => throw (valueError "Version not found")
  | some version =>
    updateVersion versionId fun v => { v with scan := some (v.scan.getD (.new env.now)) }
    return { version with scan := some (version.scan.getD (.new env.now)) }

def recordOutcome (env : Env) (versionId : VersionId) (provider : Provider)
    (outcome : ScanOutcome) (track : SecurityScan → SecurityScan) : Op Unit := do
  Work.flush
  updateVersion versionId (·.record env.now provider outcome track)

def tryAutoPublishAfterScan (env : Env) (versionId : VersionId) (resultsLoaded : Bool := false) :
    Op Bool := do
  let policy ← runtimeConfig
  if !policy.scanAutoPublishEnabled || policy.scanRequireHumanReview then
    return false
  match ← getVersion versionId with
  | none => return false
  | some version =>
    tryCatch
      (do
        publishPluginVersion env version.pluginId versionId .skipped resultsLoaded
        return true)
      fun e =>
        if e.isA [.invalidStateError, .notFoundError, .validationError] then return false
        else throw e

def followupTask (env : Env) (outcomes : List (Provider × ScanOutcome)) : Option Time :=
  outcomes.findSome? fun (provider, outcome) =>
    if provider = .virustotal && truthy outcome.virustotalAnalysisId then
      outcome.virustotalNextPollAt.map (· - env.now)
    else none

/-- What `scan_version` does after its last commit. -/
def afterScan (env : Env) (versionId : VersionId) (outcomes : List (Provider × ScanOutcome))
    (resultsLoaded : Bool := false) : Op Unit := do
  match followupTask env outcomes with
  | some delay =>
    enqueueTask env "virustotal_poll" versionId delay
    call env (.refresh .scanVersion)
  | none =>
    call env (.refresh .scanVersion)
    discard (tryAutoPublishAfterScan env versionId resultsLoaded)

def scanVersion (env : Env) (versionId : VersionId) (providers : Option (List String))
    (resultsLoaded : Bool := false) : Op Unit := do
  let selected ← selectedScanProviders providers
  let version ← getOrCreateScan env versionId
  Work.when (canMarkBuildScanning version) do
    updateVersion versionId fun v => { v with buildStatus := .scanning }
    Work.commit
  let cfg ← runtimeConfig
  let outcomes ← Work.lift (scanSelectedProviders env cfg selected)
  outcomes.forM fun (provider, outcome) =>
    recordOutcome env versionId provider outcome (·.applyTracking provider outcome)
  updateVersion versionId (·.finishScan env.now
    (if outcomes.any fun o => o.2.mode = .pending then .scanning else .success))
  Work.commit
  afterScan env versionId outcomes resultsLoaded

def markScan (env : Env) (versionId : VersionId) (providers : Option (List String))
    (outcome : RuntimeConfig → ScanOutcome) : Op PluginVersion := do
  let version ← getOrCreateScan env versionId
  let cfg ← runtimeConfig
  let selected ← selectedScanProviders providers
  selected.forM fun provider =>
    recordOutcome env versionId provider (outcome cfg) (·.clearTracking provider)
  return version

def scanQueuedOutcome : ScanOutcome where
  passed := none
  message := "Scan queued"
  mode := .pending

def manuallySkippedOutcome (cfg : RuntimeConfig) : ScanOutcome where
  passed := some cfg.scanPassWhenUnconfigured
  message := "Manually skipped"
  mode := .skipped

def markScanPending (env : Env) (versionId : VersionId) (providers : Option (List String)) :
    Op Unit := do
  let version ← markScan env versionId providers fun _ => scanQueuedOutcome
  updateVersion versionId (·.scannedAt env.now)
  Work.when (canMarkBuildScanning version) do
    updateVersion versionId fun v => { v with buildStatus := .scanning }
  Work.commit
  call env (.refresh .markScanPending)

def markScanSkipped (env : Env) (versionId : VersionId) (providers : Option (List String)) :
    Op Unit := do
  let _ ← markScan env versionId providers manuallySkippedOutcome
  updateVersion versionId (·.finishScan env.now .success)
  Work.commit
  call env (.refresh .markScanSkipped)

def completeProviderOutcome (env : Env) (versionId : VersionId) (provider : Provider)
    (outcome : ScanOutcome) : Op Unit := do
  recordOutcome env versionId provider outcome fun scan =>
    if outcome.mode = .pending then scan.applyTracking provider outcome
    else scan.clearTracking provider
  updateVersion versionId (·.finishScan env.now
    (if outcome.mode = .pending then .scanning else .success))
  Work.commit
  call env (.refresh .completeProviderOutcome)
  Work.when (outcome.mode ≠ .pending) do
    discard (tryAutoPublishAfterScan env versionId)

def nextVirustotalDelay (config : VirusTotalConfig) (attempts : Nat) : Int :=
  let base := max 1 config.pollIntervalSeconds
  let maxInterval := max base config.maxPollIntervalSeconds
  min (base * 2 ^ attempts) maxInterval

def virustotalTimeoutOutcome (analysisId : String) (attempts : Nat) (maxWaitSeconds : Int) :
    ScanOutcome where
  passed := some false
  message := "VirusTotal scan timed out: analysis did not complete within " ++
    toString maxWaitSeconds ++ " seconds after " ++ toString attempts ++ " polls, analysis_id=" ++
    analysisId
  mode := .error
  virustotalAnalysisId := some analysisId
  virustotalPollAttempts := some attempts

def PluginVersion.scanRow (v : PluginVersion) (now : Time) : SecurityScan :=
  v.scan.getD (.new now)

def PluginVersion.virustotalResult (v : PluginVersion) : ReviewProviderResult :=
  (v.providerResults (.machine .virustotal)).getD (.new .scan)

/-- The analysis a version waits for. A result row that is not stored yet has
no mode of its own, so the legacy column decides. -/
def PluginVersion.awaitedAnalysis (v : PluginVersion) (now : Time) : Option String :=
  let externalId := v.virustotalResult.externalId
  let analysisId :=
    if truthy externalId then externalId else (v.scanRow now).virustotalAnalysisId
  let mode := (v.providerResults (.machine .virustotal)).elim (v.scanRow now).virustotalMode (·.mode)
  if mode = .pending then analysisId.filter (!·.isEmpty) else none

def PluginVersion.pollDeadline (v : PluginVersion) (now : Time) (config : VirusTotalConfig) :
    Time :=
  (v.virustotalResult.deadlineAt <|> (v.scanRow now).virustotalDeadlineAt).getD
    (now + seconds (max 1 config.maxWaitSeconds).toNat)

/-- `attempts_so_far`. -/
def PluginVersion.pollAttempts (v : PluginVersion) (now : Time) : Nat :=
  max v.virustotalResult.attempts (v.scanRow now).virustotalPollAttempts

def pollPendingOutcome (env : Env) (version : PluginVersion) (analysisId : String)
    (attempts : Nat) (nextPollAt deadline : Time) : ScanOutcome where
  passed := none
  message := "VirusTotal analysis pending: analysis_id=" ++ analysisId ++ ", attempt=" ++
    toString attempts ++ ", next_poll_at=" ++ isoformat nextPollAt ++ ", deadline_at=" ++
    isoformat deadline
  mode := .pending
  virustotalAnalysisId := some analysisId
  virustotalFileSha256 :=
    let stored := version.virustotalResult.detailsJson.map (·.fileSha256)
    if truthy stored then stored else (version.scanRow env.now).virustotalFileSha256
  virustotalSubmittedAt :=
    version.virustotalResult.submittedAt <|> (version.scanRow env.now).virustotalSubmittedAt
  virustotalDeadlineAt := some deadline
  virustotalNextPollAt := some nextPollAt
  virustotalPollAttempts := some attempts

def pollOutcome (env : Env) (config : VirusTotalConfig) (version : PluginVersion)
    (analysisId : String) (answer : ScanOutcome) : ScanOutcome :=
  if answer.mode = .pending then
    let attempts := version.pollAttempts env.now + 1
    let maxAttempts := max 1 config.maxPollAttempts
    if maxAttempts ≤ attempts then
      virustotalTimeoutOutcome analysisId attempts (max 1 config.maxWaitSeconds)
    else
      let delay := nextVirustotalDelay config attempts
      let deadline := version.pollDeadline env.now config
      let nextPollAt := min (env.now + seconds delay.toNat) deadline
      pollPendingOutcome env version analysisId attempts nextPollAt deadline
  else answer

/-- What `poll_virustotal_analysis` does after its commit. -/
def afterPoll (env : Env) (versionId : VersionId) (outcome : ScanOutcome) : Op Unit := do
  Work.when (outcome.mode = .pending ∧ outcome.virustotalNextPollAt.isSome) do
    enqueueTask env "virustotal_poll" versionId
      (outcome.virustotalNextPollAt.getD env.now - env.now)
  call env (.refresh .pollVirustotalAnalysis)
  Work.when (outcome.mode ≠ .pending) do
    discard (tryAutoPublishAfterScan env versionId)

def pollVirustotalAnalysis (env : Env) (versionId : VersionId) : Op Unit := do
  let version ← getOrCreateScan env versionId
  Work.flush
  updateVersion versionId (·.modifyResult (.machine .virustotal) .scan id)
  match version.awaitedAnalysis env.now with
  | none => return
  | some analysisId =>
    let cfg ← runtimeConfig
    if !cfg.scanEnabledProviders.contains .virustotal then
      completeProviderOutcome env versionId .virustotal
        { passed := some true
          message := "Scan provider disabled: virustotal"
          mode := .skipped
          virustotalAnalysisId := some analysisId }
    else if cfg.virustotal.apiKey.isEmpty then
      completeProviderOutcome env versionId .virustotal
        { cfg.unconfiguredOutcome with virustotalAnalysisId := some analysisId }
    else if version.pollDeadline env.now cfg.virustotal ≤ env.now then
      completeProviderOutcome env versionId .virustotal
        (virustotalTimeoutOutcome analysisId (version.pollAttempts env.now)
          (max 1 cfg.virustotal.maxWaitSeconds))
    else
      let answer ← Work.lift env.pollAnswer
      let outcome := pollOutcome env cfg.virustotal version analysisId answer
      updateVersion versionId (·.record env.now .virustotal outcome
        (·.applyTracking .virustotal outcome))
      updateVersion versionId (·.finishScan env.now
        (if outcome.mode = .pending then .scanning else .success))
      Work.commit
      afterPoll env versionId outcome

end PluginRegistry
