import PluginRegistry.Services.LlmAgent

namespace PluginRegistry
open Lib

structure HttpReply where
  status : Nat
  json : Except PyErr Json

/-- `response.raise_for_status()`. Nothing prints the text of the exception. -/
def HttpReply.raiseForStatus (reply : HttpReply) : Except PyErr Unit :=
  if 200 ≤ reply.status ∧ reply.status < 300 then .ok ()
  else .error ⟨.httpStatusError, "", reply.status⟩

/-- What `stat` and `sha256_file` read of an artifact. -/
structure ScannedFile where
  size : Nat
  sha256 : String

/-- What the calls of one scan or one poll return. The report is asked for a
second time only after a conflict. -/
structure VirusTotalCalls where
  download : Except PyErr ScannedFile
  report : Except PyErr HttpReply
  upload : Except PyErr HttpReply
  reportAgain : Except PyErr HttpReply
  analysis : Except PyErr HttpReply

/-- `value.get(key)`. -/
def Json.getKey (key : String) : Json → Except PyErr Json
  | .obj fields => .ok ((JsonObject.get fields key).getD .null)
  | value => .error ⟨.attributeError, "'" ++ value.typeName ++ "' object has no attribute 'get'", 0⟩

/-- `value or {}`. -/
def Json.orEmpty (value : Json) : Json :=
  if value.truthy then value else .obj []

/-- `(response.json().get("data") or {}).get("attributes") or {}`. -/
def HttpReply.attributes (reply : HttpReply) : Except PyErr Json := do
  let data ← (← reply.json).getKey "data"
  let attributes ← data.orEmpty.getKey "attributes"
  return attributes.orEmpty

def getVirustotalFileReport (call : Except PyErr HttpReply) : Except PyErr (Option JsonObject) := do
  let response ← call
  if response.status = 404 then return none
  else
    response.raiseForStatus
    match ← (← response.attributes).getKey "last_analysis_stats" with
    | .obj stats => return some stats
    | _ => return none

def uploadToVirustotal (text : PyText) (call : Except PyErr HttpReply) : Except PyErr String := do
  let response ← call
  response.raiseForStatus
  let data ← response.json
  return (← (← data.item "data").item "id").toStr text

/-- `int(stats.get(key) or 0)`. -/
def Json.counter (key : String) (stats : Json) : Except PyErr Int := do
  let value ← stats.getKey key
  if value.truthy then value.toInt else return 0

def formatVirustotalResult (stats : Json) (analysisId : String) : Except PyErr ScanOutcome := do
  let malicious ← stats.counter "malicious"
  let suspicious ← stats.counter "suspicious"
  let harmless ← stats.counter "harmless"
  let undetected ← stats.counter "undetected"
  let passed := malicious = 0 && suspicious = 0
  let status := if passed then "passed" else "failed"
  return {
    passed := some passed
    message := "VirusTotal " ++ status ++ ": malicious=" ++ toString malicious ++ ", suspicious=" ++
      toString suspicious ++ ", harmless=" ++ toString harmless ++ ", undetected=" ++
      toString undetected ++ ", analysis_id=" ++ analysisId
    mode := .real
    virustotalAnalysisId := some analysisId }

def virustotalFailure (e : PyErr) : Except PyErr ScanOutcome :=
  if e.isA [.httpStatusError] then
    .ok
      { passed := some false
        message := "VirusTotal scan failed: HTTP " ++ toString e.status
        mode := .error }
  else if e.isA [.httpError] then
    .ok { passed := some false, message := "VirusTotal scan failed: " ++ e.text, mode := .error }
  else if e.isA [.keyError, .typeError, .valueError] then
    .ok
      { passed := some false
        message := "VirusTotal scan failed: invalid response: " ++ e.text
        mode := .error }
  else .error e

section
variable (text : PyText) (now : Time) (config : VirusTotalConfig)

def virustotalPendingOutcome (file : ScannedFile) (analysisId : String) : ScanOutcome :=
  let deadline := now + seconds (max 1 config.maxWaitSeconds).toNat
  let nextPollAt := min (now + seconds (nextVirustotalDelay config 0).toNat) deadline
  { passed := none
    message := "VirusTotal analysis pending: analysis_id=" ++ analysisId ++ ", next_poll_at=" ++
      isoformat nextPollAt ++ ", deadline_at=" ++ isoformat deadline
    mode := .pending
    virustotalAnalysisId := some analysisId
    virustotalFileSha256 := some file.sha256
    virustotalSubmittedAt := some now
    virustotalDeadlineAt := some deadline
    virustotalNextPollAt := some nextPollAt
    virustotalPollAttempts := some 0 }

/-- The guarded part of `scan_virustotal`. -/
def askVirustotal (file : ScannedFile) (calls : VirusTotalCalls) : Except PyErr ScanOutcome := do
  match ← getVirustotalFileReport calls.report with
  | some existingStats => formatVirustotalResult (.obj existingStats) ("file:" ++ file.sha256)
  | none =>
    match uploadToVirustotal text calls.upload with
    | .ok analysisId => return virustotalPendingOutcome now config file analysisId
    | .error e =>
      if e.isA [.httpStatusError] && e.status = 409 then
        match ← getVirustotalFileReport calls.reportAgain with
        | some existingStats =>
          formatVirustotalResult (.obj existingStats) ("file:" ++ file.sha256)
        | none => throw e
      else throw e

def scanVirustotal (file : ScannedFile) (calls : VirusTotalCalls) : Except PyErr ScanOutcome :=
  if 0 < config.maxDirectUploadBytes ∧ config.maxDirectUploadBytes < file.size then
    .ok
      { passed := some false
        message := "VirusTotal scan failed: file exceeds direct upload limit (" ++
          toString file.size ++ " > " ++ toString config.maxDirectUploadBytes ++ " bytes)"
        mode := .error }
  else
    match askVirustotal text now config file calls with
    | .ok outcome => .ok outcome
    | .error e => virustotalFailure e

def scanVirustotalForVersion (s3Key : Option String) (localFile : Option ScannedFile)
    (calls : VirusTotalCalls) : Except PyErr ScanOutcome :=
  match localFile with
  | some file => scanVirustotal text now config file calls
  | none =>
    if !truthy s3Key then
      .ok
        { passed := some false
          message := "VirusTotal scan failed: version artifact is missing"
          mode := .error }
    else match calls.download with
      | .ok file => scanVirustotal text now config file calls
      | .error e =>
        .ok
          { passed := some false
            message := "VirusTotal scan failed: could not download artifact: " ++ e.text
            mode := .error }

end

def readAnalysis (text : PyText) (call : Except PyErr HttpReply) :
    Except PyErr (String × Json) := do
  let response ← call
  response.raiseForStatus
  let attributes ← response.attributes
  let status ← attributes.getKey "status"
  return (if status.truthy then status.toStr text else "unknown", attributes)

/-- The guarded part of `poll_virustotal_analysis_once`. -/
def askAnalysis (text : PyText) (analysisId : String) (call : Except PyErr HttpReply) :
    Except PyErr ScanOutcome := do
  let (status, attributes) ← readAnalysis text call
  if status = "completed" then
    formatVirustotalResult (← attributes.getKey "stats").orEmpty analysisId
  else
    return {
      passed := none
      message := "VirusTotal analysis pending: status=" ++ status ++ ", analysis_id=" ++ analysisId
      mode := .pending
      virustotalAnalysisId := some analysisId }

def pollVirustotalAnalysisOnce (text : PyText) (analysisId : String)
    (call : Except PyErr HttpReply) : Except PyErr ScanOutcome :=
  match askAnalysis text analysisId call with
  | .ok outcome => .ok outcome
  | .error e => virustotalFailure e

end PluginRegistry
