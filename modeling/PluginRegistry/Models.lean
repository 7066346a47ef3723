import PluginRegistry.Lib.Session
import PluginRegistry.Lib.Table
import PluginRegistry.Python.Exceptions

namespace PluginRegistry
open Lib

abbrev PluginId := Nat
abbrev VersionId := Nat

abbrev Time := Nat

inductive PluginStatus
  | pending | active | disabled | deleted
  deriving DecidableEq, Repr

inductive ReviewStatus
  | pending | approved | skipped | rejected
  deriving DecidableEq, Repr

inductive SourceType
  | gitAuto | manualUpload
  deriving DecidableEq, Repr

inductive BuildStatus
  | pending | building | success | failed | scanning
  deriving DecidableEq, Repr

inductive VersionStatus
  | draft | active | deprecated | deleted
  deriving DecidableEq, Repr

inductive ScanMode
  | pending | real | skipped | error
  deriving DecidableEq, Repr

inductive Provider
  | clamav | virustotal | llmAgent
  deriving DecidableEq, Repr

/-- The `provider` column of a review result: a machine scanner or the human reviewer. -/
inductive Reviewer
  | machine (p : Provider)
  | human
  deriving DecidableEq, Repr

inductive ReviewKind
  | scan | human
  deriving DecidableEq, Repr

/-- The pattern of `idx_versions_git_commit_per_plugin`. -/
def isCommitSha (text : String) : Bool :=
  40 ≤ text.toList.length && text.toList.length ≤ 64 &&
    text.toList.all fun c => c.isDigit || ('a' ≤ c && c ≤ 'f') || ('A' ≤ c && c ≤ 'F')

/-- What `git rev-parse HEAD` prints. -/
structure CommitSha where
  text : String
  wellFormed : isCommitSha text = true
  deriving DecidableEq

structure Plugin where
  pluginKey : String
  author : String
  repoUrl : Option String
  status : PluginStatus
  reviewStatus : ReviewStatus
  deriving DecidableEq

structure SecurityScan where
  virustotalPass : Option Bool
  virustotalMsg : Option String
  virustotalMode : ScanMode
  virustotalAnalysisId : Option String
  virustotalFileSha256 : Option String
  virustotalSubmittedAt : Option Time
  virustotalDeadlineAt : Option Time
  virustotalNextPollAt : Option Time
  virustotalPollAttempts : Nat
  llmAgentPass : Option Bool
  llmAgentMsg : Option String
  llmAgentMode : ScanMode
  scannedAt : Time
  deriving DecidableEq

def SecurityScan.new (now : Time) : SecurityScan :=
  ⟨none, none, .pending, none, none, none, none, none, 0, none, none, .pending, now⟩

/-- The only JSON document stored in `details_json`. -/
structure ScanDetails where
  fileSha256 : String
  deriving DecidableEq

structure ReviewProviderResult where
  kind : ReviewKind
  passed : Option Bool
  message : Option String
  mode : ScanMode
  detailsJson : Option ScanDetails
  externalId : Option String
  submittedAt : Option Time
  deadlineAt : Option Time
  nextPollAt : Option Time
  attempts : Nat
  completedAt : Option Time
  deriving DecidableEq

def ReviewProviderResult.new (kind : ReviewKind) : ReviewProviderResult :=
  ⟨kind, none, none, .pending, none, none, none, none, none, 0, none⟩

/-- A version with its relationships: the legacy scan row and the review
results, at most one for each reviewer. -/
structure PluginVersion where
  pluginId : PluginId
  version : String
  commitSha : Option CommitSha
  sourceType : SourceType
  downloadUrl : Option String
  s3Key : Option String
  buildStatus : BuildStatus
  buildLog : Option String
  versionStatus : VersionStatus
  isLatest : Bool
  createdAt : Time
  scan : Option SecurityScan
  providerResults : Reviewer → Option ReviewProviderResult

structure VirusTotalConfig where
  apiKey : String
  timeoutSeconds : Int
  pollIntervalSeconds : Int
  maxPollIntervalSeconds : Int
  maxPollAttempts : Int
  maxWaitSeconds : Int
  maxDirectUploadBytes : Int

structure ClamavConfig where
  host : String
  port : Int
  timeoutSeconds : Int
  streamChunkBytes : Int
  maxStreamBytes : Int

structure LlmAgentConfig where
  baseUrl : String
  model : String
  apiKey : String
  maxContextChars : Int

/-- What the `runtime_*` readers return, every stored integer parsed. -/
structure RuntimeConfig where
  scanEnabledProviders : List Provider
  scanPassWhenUnconfigured : Bool
  scanUnconfiguredMessage : String
  scanRequireHumanReview : Bool
  scanAutoPublishEnabled : Bool
  virustotal : VirusTotalConfig
  clamav : ClamavConfig
  llmAgent : LlmAgentConfig
  s3PublicUrl : String
  s3PluginsPrefix : String
  s3UnknownAuthor : String
  maxReleaseZipBytes : Int

/-- The values of `Settings` when nothing is set in the environment. -/
def RuntimeConfig.default : RuntimeConfig where
  scanEnabledProviders := [.virustotal, .llmAgent]
  scanPassWhenUnconfigured := true
  scanUnconfiguredMessage := "Scan not configured"
  scanRequireHumanReview := true
  scanAutoPublishEnabled := false
  virustotal := ⟨"", 120, 10, 320, 24, 1800, 32 * 1024 * 1024⟩
  clamav := ⟨"clamav", 3310, 120, 1024 * 1024, 100 * 1024 * 1024⟩
  llmAgent := ⟨"", "", "", 200000⟩
  s3PublicUrl := "http://localhost:8333/astrbot-plugins"
  s3PluginsPrefix := "plugins"
  s3UnknownAuthor := "unknown"
  maxReleaseZipBytes := 50 * 1024 * 1024

/-- The rows the plugin, version, scan, build and registry services work on.
`nextId` stands for `uuid4`: no id is drawn twice. -/
structure Db where
  plugins : Table PluginId Plugin
  versions : Table VersionId PluginVersion
  config : RuntimeConfig
  nextId : Nat

def Db.empty (config : RuntimeConfig) : Db :=
  ⟨∅, ∅, config, 0⟩

/-- `ck_versions_success_has_artifact` and `ck_versions_latest_active_success`. -/
structure PluginVersion.Checked (v : PluginVersion) : Prop where
  successHasArtifact : v.buildStatus = .success → v.s3Key.isSome ∧ v.downloadUrl.isSome
  latestActiveSuccess : v.isLatest → v.versionStatus = .active ∧ v.buildStatus = .success

instance (v : PluginVersion) : Decidable v.Checked :=
  decidable_of_iff ((v.buildStatus = .success → v.s3Key.isSome ∧ v.downloadUrl.isSome) ∧
      (v.isLatest → v.versionStatus = .active ∧ v.buildStatus = .success))
    ⟨fun h => ⟨h.1, h.2⟩, fun h => ⟨h.1, h.2⟩⟩

/-- Two version rows that the unique indexes of `plugin_versions` let coexist. -/
structure PluginVersion.Apart (v w : PluginVersion) : Prop where
  latest : v.pluginId = w.pluginId → v.isLatest → w.isLatest → False
  commit : v.pluginId = w.pluginId → v.sourceType = .gitAuto → w.sourceType = .gitAuto →
    v.commitSha.isSome → v.commitSha = w.commitSha → False

instance (v w : PluginVersion) : Decidable (v.Apart w) :=
  decidable_of_iff ((v.pluginId = w.pluginId → v.isLatest → w.isLatest → False) ∧
      (v.pluginId = w.pluginId → v.sourceType = .gitAuto → w.sourceType = .gitAuto →
        v.commitSha.isSome → v.commitSha = w.commitSha → False))
    ⟨fun h => ⟨h.1, h.2⟩, fun h => ⟨h.1, h.2⟩⟩

/-- The constraints of `plugins` and `plugin_versions` that are not already in
the column types. -/
structure Db.Constraints (db : Db) : Prop where
  checked : ∀ i v, db.versions.lookup i = some v → v.Checked
  apart : ∀ i v, db.versions.lookup i = some v →
    ∀ j w, db.versions.lookup j = some w → i ≠ j → v.Apart w
  owned : ∀ i v, db.versions.lookup i = some v → (db.plugins.lookup v.pluginId).isSome
  keys : ∀ p a, db.plugins.lookup p = some a →
    ∀ q b, db.plugins.lookup q = some b → a.pluginKey = b.pluginKey → p = q

instance (db : Db) : Decidable db.Constraints :=
  decidable_of_iff
    ((∀ i v, db.versions.lookup i = some v → v.Checked) ∧
      (∀ i v, db.versions.lookup i = some v →
        ∀ j w, db.versions.lookup j = some w → i ≠ j → v.Apart w) ∧
      (∀ i v, db.versions.lookup i = some v → (db.plugins.lookup v.pluginId).isSome) ∧
      (∀ p a, db.plugins.lookup p = some a →
        ∀ q b, db.plugins.lookup q = some b → a.pluginKey = b.pluginKey → p = q))
    ⟨fun h => ⟨h.1, h.2.1, h.2.2.1, h.2.2.2⟩, fun h => ⟨h.1, h.2, h.3, h.4⟩⟩

instance : Schema PyErr Db where
  admits := Db.Constraints
  decidable := inferInstance
  refused := ⟨.integrityError, "constraint violated", 0⟩
  inactive := ⟨.pendingRollbackError, "session is not active", 0⟩

end PluginRegistry
