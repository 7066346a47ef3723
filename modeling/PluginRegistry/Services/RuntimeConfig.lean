import PluginRegistry.Python.Json
import PluginRegistry.Services.ScanService

namespace PluginRegistry
open Lib

/-- `system_config`. -/
abbrev ConfigRows := Table String String

structure Settings where
  publicCacheMaxAge : Int
  redisCacheTtl : Int
  maxUploadBytes : Int
  maxUnzipBytes : Int
  maxZipEntries : Int
  maxSingleFileBytes : Int
  maxReleaseZipBytes : Int
  gitCloneTimeout : Int
  gitPreflightTimeout : Int
  gitMaxRepoSizeKb : Int
  gitHttpProxy : String
  githubToken : String
  gitAllowedHosts : List String
  userRegistrationMode : String
  scanPassWhenUnconfigured : Bool
  scanUnconfiguredMessage : String
  scanEnabledProviders : List String
  scanRequireHumanReview : Bool
  scanAutoPublishEnabled : Bool
  virustotal : VirusTotalConfig
  clamav : ClamavConfig
  llmAgent : LlmAgentConfig
  taskMaxAttempts : Int
  taskRetryDelaySeconds : Int
  githubWebhookSecret : String
  webhookAutoVersion : String
  s3PublicUrl : String
  s3PluginsPrefix : String
  s3UnknownAuthor : String

/-- `Settings` with nothing set in the environment. -/
def Settings.default : Settings where
  publicCacheMaxAge := 60
  redisCacheTtl := 3600
  maxUploadBytes := 50 * 1024 * 1024
  maxUnzipBytes := 200 * 1024 * 1024
  maxZipEntries := 2000
  maxSingleFileBytes := 50 * 1024 * 1024
  maxReleaseZipBytes := 50 * 1024 * 1024
  gitCloneTimeout := 120
  gitPreflightTimeout := 10
  gitMaxRepoSizeKb := 200 * 1024
  gitHttpProxy := ""
  githubToken := ""
  gitAllowedHosts := ["github.com"]
  userRegistrationMode := "disabled"
  scanPassWhenUnconfigured := true
  scanUnconfiguredMessage := "Scan not configured"
  scanEnabledProviders := ["virustotal", "llm_agent"]
  scanRequireHumanReview := true
  scanAutoPublishEnabled := false
  virustotal := ⟨"", 120, 10, 320, 24, 1800, 32 * 1024 * 1024⟩
  clamav := ⟨"clamav", 3310, 120, 1024 * 1024, 100 * 1024 * 1024⟩
  llmAgent := ⟨"", "", "", 200000⟩
  taskMaxAttempts := 3
  taskRetryDelaySeconds := 5
  githubWebhookSecret := ""
  webhookAutoVersion := "auto"
  s3PublicUrl := "http://localhost:8333/astrbot-plugins"
  s3PluginsPrefix := "plugins"
  s3UnknownAuthor := "unknown"

def toBool (lower : String → String) (raw : String) : Bool :=
  ["1", "true", "yes", "on"].contains (lower (strip raw))

def listItems (raw : String) : List String :=
  ((splitText ',' raw).map strip).filter fun item => !item.isEmpty

/-- `cast_runtime_value` by the type of the setting. -/
class RuntimeType (T : Type) where
  castRuntimeValue (lower : String → String) (raw : String) : Except PyErr T

instance : RuntimeType Bool := ⟨fun lower raw => .ok (toBool lower raw)⟩
instance : RuntimeType Int := ⟨fun _ raw => parseInt raw⟩
instance : RuntimeType (List String) := ⟨fun _ raw => .ok (listItems raw)⟩
instance : RuntimeType String := ⟨fun _ raw => .ok raw⟩

def registrationModes : List String := ["disabled", "invite", "approval"]

def normalizeRegistrationMode (lower : String → String) (mode : String) : String :=
  let normalized := lower (strip mode)
  if registrationModes.contains normalized then normalized else "disabled"

/-- `normalize_scan_provider_list`: known providers in registry order, or none
at all where a switch-off word stands in the list. -/
def normalizeScanProviderList (lower : String → String) (providers : List String) :
    List Provider :=
  let normalized := (providers.filter fun p => !(strip p).isEmpty).map fun p => lower (strip p)
  if normalized.any ["none", "off", "disabled"].contains then []
  else Provider.names.filter fun p => normalized.contains p.name

structure UploadLimits where
  maxUploadBytes : Int
  maxUnzipBytes : Int
  maxZipEntries : Int
  maxSingleFileBytes : Int

structure ScanDefaults where
  passWhenUnconfigured : Bool
  message : String

structure ReviewPolicy where
  requireHumanReview : Bool
  autoPublish : Bool

section
variable (lower : String → String) (settings : Settings) (values : ConfigRows)

def getRuntimeValue {T : Type} [RuntimeType T] (key : String) (default : T) : Except PyErr T :=
  match values.lookup key with
  | none => .ok default
  | some raw => if raw = "" then .ok default else RuntimeType.castRuntimeValue lower raw

def runtimePublicCacheMaxAge : Except PyErr Int :=
  getRuntimeValue lower values "PUBLIC_CACHE_MAX_AGE" settings.publicCacheMaxAge

def runtimeRedisCacheTtl : Except PyErr Int :=
  getRuntimeValue lower values "REDIS_CACHE_TTL" settings.redisCacheTtl

def runtimeUploadLimits : Except PyErr UploadLimits :=
  .mk <$> getRuntimeValue lower values "MAX_UPLOAD_BYTES" settings.maxUploadBytes
    <*> getRuntimeValue lower values "MAX_UNZIP_BYTES" settings.maxUnzipBytes
    <*> getRuntimeValue lower values "MAX_ZIP_ENTRIES" settings.maxZipEntries
    <*> getRuntimeValue lower values "MAX_SINGLE_FILE_BYTES" settings.maxSingleFileBytes

def runtimeGitCloneTimeout : Except PyErr Int :=
  getRuntimeValue lower values "GIT_CLONE_TIMEOUT" settings.gitCloneTimeout

def runtimeGitPreflightTimeout : Except PyErr Int :=
  getRuntimeValue lower values "GIT_PREFLIGHT_TIMEOUT" settings.gitPreflightTimeout

def runtimeGitMaxRepoSizeKb : Except PyErr Int :=
  getRuntimeValue lower values "GIT_MAX_REPO_SIZE_KB" settings.gitMaxRepoSizeKb

def runtimeGitHttpProxy : Except PyErr String :=
  getRuntimeValue lower values "GIT_HTTP_PROXY" settings.gitHttpProxy

def runtimeGithubToken : Except PyErr String :=
  getRuntimeValue lower values "GITHUB_TOKEN" settings.githubToken

def runtimeGitAllowedHosts : Except PyErr (List String) :=
  getRuntimeValue lower values "GIT_ALLOWED_HOSTS" settings.gitAllowedHosts

def runtimeRegistrationMode : Except PyErr String :=
  normalizeRegistrationMode lower <$>
    getRuntimeValue lower values "USER_REGISTRATION_MODE" settings.userRegistrationMode

def runtimeScanDefaults : Except PyErr ScanDefaults :=
  .mk <$> getRuntimeValue lower values "SCAN_PASS_WHEN_UNCONFIGURED"
      settings.scanPassWhenUnconfigured
    <*> getRuntimeValue lower values "SCAN_UNCONFIGURED_MESSAGE" settings.scanUnconfiguredMessage

def runtimeScanEnabledProviders : Except PyErr (List Provider) :=
  normalizeScanProviderList lower <$>
    getRuntimeValue lower values "SCAN_ENABLED_PROVIDERS" settings.scanEnabledProviders

def runtimeReviewPolicy : Except PyErr ReviewPolicy :=
  .mk <$> getRuntimeValue lower values "SCAN_REQUIRE_HUMAN_REVIEW" settings.scanRequireHumanReview
    <*> getRuntimeValue lower values "SCAN_AUTO_PUBLISH_ENABLED" settings.scanAutoPublishEnabled

def runtimeVirustotalConfig : Except PyErr VirusTotalConfig :=
  .mk <$> getRuntimeValue lower values "VIRUSTOTAL_API_KEY" settings.virustotal.apiKey
    <*> getRuntimeValue lower values "VIRUSTOTAL_TIMEOUT_SECONDS" settings.virustotal.timeoutSeconds
    <*> getRuntimeValue lower values "VIRUSTOTAL_POLL_INTERVAL_SECONDS"
      settings.virustotal.pollIntervalSeconds
    <*> getRuntimeValue lower values "VIRUSTOTAL_MAX_POLL_INTERVAL_SECONDS"
      settings.virustotal.maxPollIntervalSeconds
    <*> getRuntimeValue lower values "VIRUSTOTAL_MAX_POLL_ATTEMPTS"
      settings.virustotal.maxPollAttempts
    <*> getRuntimeValue lower values "VIRUSTOTAL_MAX_WAIT_SECONDS"
      settings.virustotal.maxWaitSeconds
    <*> getRuntimeValue lower values "VIRUSTOTAL_MAX_DIRECT_UPLOAD_BYTES"
      settings.virustotal.maxDirectUploadBytes

def runtimeClamavConfig : Except PyErr ClamavConfig :=
  .mk <$> getRuntimeValue lower values "CLAMAV_HOST" settings.clamav.host
    <*> getRuntimeValue lower values "CLAMAV_PORT" settings.clamav.port
    <*> getRuntimeValue lower values "CLAMAV_TIMEOUT_SECONDS" settings.clamav.timeoutSeconds
    <*> getRuntimeValue lower values "CLAMAV_STREAM_CHUNK_BYTES" settings.clamav.streamChunkBytes
    <*> getRuntimeValue lower values "CLAMAV_MAX_STREAM_BYTES" settings.clamav.maxStreamBytes

def runtimeLlmAgentConfig : Except PyErr LlmAgentConfig :=
  .mk <$> getRuntimeValue lower values "LLM_AGENT_BASE_URL" settings.llmAgent.baseUrl
    <*> getRuntimeValue lower values "LLM_AGENT_MODEL" settings.llmAgent.model
    <*> getRuntimeValue lower values "LLM_AGENT_API_KEY" settings.llmAgent.apiKey
    <*> getRuntimeValue lower values "LLM_AGENT_MAX_CONTEXT_CHARS" settings.llmAgent.maxContextChars

def runtimeTaskMaxAttempts : Except PyErr Int :=
  getRuntimeValue lower values "TASK_MAX_ATTEMPTS" settings.taskMaxAttempts

def runtimeTaskRetryDelaySeconds : Except PyErr Int :=
  getRuntimeValue lower values "TASK_RETRY_DELAY_SECONDS" settings.taskRetryDelaySeconds

def runtimeWebhookSecret : Except PyErr String :=
  getRuntimeValue lower values "GITHUB_WEBHOOK_SECRET" settings.githubWebhookSecret

def runtimeWebhookAutoVersion : Except PyErr String :=
  getRuntimeValue lower values "WEBHOOK_AUTO_VERSION" settings.webhookAutoVersion

def runtimeS3PublicUrl : Except PyErr String :=
  getRuntimeValue lower values "S3_PUBLIC_URL" settings.s3PublicUrl

def runtimeS3Layout : Except PyErr S3Layout :=
  .mk <$> getRuntimeValue lower values "S3_PLUGINS_PREFIX" settings.s3PluginsPrefix
    <*> getRuntimeValue lower values "S3_UNKNOWN_AUTHOR" settings.s3UnknownAuthor

def runtimeMaxReleaseZipBytes : Except PyErr Int :=
  getRuntimeValue lower values "MAX_RELEASE_ZIP_BYTES" settings.maxReleaseZipBytes

end

end PluginRegistry
