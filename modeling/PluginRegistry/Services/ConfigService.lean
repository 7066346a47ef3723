import PluginRegistry.Python.Sqlalchemy
import PluginRegistry.Services.RuntimeConfig

namespace PluginRegistry
open Lib

def sensitiveConfigKeys : List String :=
  ["GITHUB_WEBHOOK_SECRET", "GIT_HTTP_PROXY", "GITHUB_TOKEN", "VIRUSTOTAL_API_KEY",
    "LLM_AGENT_API_KEY"]

/-- `str` of a truth value. -/
def boolText (b : Bool) : String :=
  if b then "True" else "False"

def Settings.effectiveConfigDefaults (settings : Settings) : List (String × String) :=
  [("PUBLIC_CACHE_MAX_AGE", toString settings.publicCacheMaxAge),
    ("REDIS_CACHE_TTL", toString settings.redisCacheTtl),
    ("S3_PUBLIC_URL", settings.s3PublicUrl),
    ("S3_PLUGINS_PREFIX", settings.s3PluginsPrefix),
    ("S3_UNKNOWN_AUTHOR", settings.s3UnknownAuthor),
    ("MAX_UPLOAD_BYTES", toString settings.maxUploadBytes),
    ("MAX_UNZIP_BYTES", toString settings.maxUnzipBytes),
    ("MAX_ZIP_ENTRIES", toString settings.maxZipEntries),
    ("MAX_SINGLE_FILE_BYTES", toString settings.maxSingleFileBytes),
    ("MAX_RELEASE_ZIP_BYTES", toString settings.maxReleaseZipBytes),
    ("GIT_ALLOWED_HOSTS", String.intercalate "," settings.gitAllowedHosts),
    ("GIT_CLONE_TIMEOUT", toString settings.gitCloneTimeout),
    ("GIT_PREFLIGHT_TIMEOUT", toString settings.gitPreflightTimeout),
    ("GIT_MAX_REPO_SIZE_KB", toString settings.gitMaxRepoSizeKb),
    ("GIT_HTTP_PROXY", settings.gitHttpProxy),
    ("GITHUB_TOKEN", settings.githubToken),
    ("USER_REGISTRATION_MODE", settings.userRegistrationMode),
    ("SCAN_ENABLED_PROVIDERS", String.intercalate "," settings.scanEnabledProviders),
    ("SCAN_PASS_WHEN_UNCONFIGURED", boolText settings.scanPassWhenUnconfigured),
    ("SCAN_UNCONFIGURED_MESSAGE", settings.scanUnconfiguredMessage),
    ("SCAN_REQUIRE_HUMAN_REVIEW", boolText settings.scanRequireHumanReview),
    ("SCAN_AUTO_PUBLISH_ENABLED", boolText settings.scanAutoPublishEnabled),
    ("VIRUSTOTAL_TIMEOUT_SECONDS", toString settings.virustotal.timeoutSeconds),
    ("VIRUSTOTAL_POLL_INTERVAL_SECONDS", toString settings.virustotal.pollIntervalSeconds),
    ("VIRUSTOTAL_MAX_POLL_INTERVAL_SECONDS", toString settings.virustotal.maxPollIntervalSeconds),
    ("VIRUSTOTAL_MAX_POLL_ATTEMPTS", toString settings.virustotal.maxPollAttempts),
    ("VIRUSTOTAL_MAX_WAIT_SECONDS", toString settings.virustotal.maxWaitSeconds),
    ("VIRUSTOTAL_MAX_DIRECT_UPLOAD_BYTES", toString settings.virustotal.maxDirectUploadBytes),
    ("CLAMAV_HOST", settings.clamav.host),
    ("CLAMAV_PORT", toString settings.clamav.port),
    ("CLAMAV_TIMEOUT_SECONDS", toString settings.clamav.timeoutSeconds),
    ("CLAMAV_STREAM_CHUNK_BYTES", toString settings.clamav.streamChunkBytes),
    ("CLAMAV_MAX_STREAM_BYTES", toString settings.clamav.maxStreamBytes),
    ("LLM_AGENT_BASE_URL", settings.llmAgent.baseUrl),
    ("LLM_AGENT_MODEL", settings.llmAgent.model),
    ("LLM_AGENT_MAX_CONTEXT_CHARS", toString settings.llmAgent.maxContextChars),
    ("TASK_MAX_ATTEMPTS", toString settings.taskMaxAttempts),
    ("TASK_RETRY_DELAY_SECONDS", toString settings.taskRetryDelaySeconds),
    ("WEBHOOK_AUTO_VERSION", settings.webhookAutoVersion),
    ("GITHUB_WEBHOOK_SECRET", settings.githubWebhookSecret),
    ("VIRUSTOTAL_API_KEY", settings.virustotal.apiKey),
    ("LLM_AGENT_API_KEY", settings.llmAgent.apiKey)]

structure ConfigResponse where
  values : ConfigRows
  effectiveValues : List (String × String)
  sensitiveStatus : List (String × Bool)

def buildConfigResponse (settings : Settings) (values : ConfigRows) : ConfigResponse where
  values := values.keep fun key _ => !sensitiveConfigKeys.contains key
  effectiveValues := (settings.effectiveConfigDefaults.filter fun row =>
    !sensitiveConfigKeys.contains row.1).map fun row =>
      (row.1, (values.lookup row.1).getD row.2)
  sensitiveStatus := sensitiveConfigKeys.map fun key =>
    (key, truthy (values.lookup key) || truthy (settings.effectiveConfigDefaults.lookup key))

def normalizeConfigValue (lower : String → String) (key value : String) :
    Except PyErr String :=
  if key = "USER_REGISTRATION_MODE" && !value.isEmpty then
    let normalized := normalizeRegistrationMode lower value
    if !registrationModes.contains normalized || normalized ≠ lower (strip value) then
      .error ⟨.configValidationError,
        "USER_REGISTRATION_MODE must be one of: disabled, invite, approval", 0⟩
    else .ok normalized
  else .ok value

/-- What a turn of the loop of `update_config` leaves to the commit. -/
inductive ConfigWrite
  | add (key value : String)
  | set (key value : String)
  | remove (key : String)
  deriving DecidableEq

def ConfigWrite.key : ConfigWrite → String
  | .add key _ | .set key _ | .remove key => key

def ConfigWrite.stored : ConfigWrite → Option String
  | .add _ value | .set _ value => some value
  | .remove _ => none

/-- One turn of the loop, from the row that `db.get` found: an empty value takes
the row out, and an unchanged one is no write. -/
def configWrite (lower : String → String) (key value : String) (item : Option String) :
    Except PyErr (List ConfigWrite) := do
  let value ← normalizeConfigValue lower key value
  if hasNul key then
    throw ⟨.dataError, "invalid byte sequence for encoding \"UTF8\": 0x00", 0⟩
  match item with
  | none => return if value = "" then [] else [.add key value]
  | some old =>
    return if value = "" then [.remove key] else if value = old then [] else [.set key value]

def ConfigWrite.apply (rows : ConfigRows) : ConfigWrite → Except PyErr ConfigRows
  | .add key value =>
    if hasNul value then
      .error ⟨.dataError, "invalid byte sequence for encoding \"UTF8\": 0x00", 0⟩
    else if 255 < key.length then
      .error ⟨.dataError, "value too long for type character varying(255)", 0⟩
    else if (rows.lookup key).isSome then
      .error ⟨.integrityError, "duplicate key value violates unique constraint", 0⟩
    else .ok (AList.insert key value rows)
  | .set key value =>
    if hasNul value then
      .error ⟨.dataError, "invalid byte sequence for encoding \"UTF8\": 0x00", 0⟩
    else if (rows.lookup key).isNone then
      .error ⟨.staleDataError, "UPDATE statement expected to update 1 row(s); 0 were matched.", 0⟩
    else .ok (AList.insert key value rows)
  | .remove key => .ok (AList.erase key rows)

def updateRow (lower : String → String) (rows : ConfigRows) (key value : String) :
    Except PyErr ConfigRows := do
  (← configWrite lower key value (rows.lookup key)).foldlM ConfigWrite.apply rows

def updateConfig (lower : String → String) (rows values : ConfigRows) : Except PyErr ConfigRows :=
  values.entries.foldlM (fun rows item => updateRow lower rows item.1 item.2) rows

end PluginRegistry
