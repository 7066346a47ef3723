import PluginRegistry.Models

namespace PluginRegistry

structure ScanPayload where
  pass : Option Bool
  msg : Option String
  mode : ScanMode
  deriving DecidableEq

/-- `ScanProviderRegistry.names`. -/
def Provider.names : List Provider := [.clamav, .virustotal, .llmAgent]

/-- `ScanProviderRegistry.legacy_public_names`: the providers with legacy columns. -/
def Provider.legacyPublic : Provider → Bool
  | .clamav => false
  | .virustotal | .llmAgent => true

theorem Provider.mem_names (p : Provider) : p ∈ Provider.names := by
  cases p <;> decide

def providerResultPayload (result : ReviewProviderResult) : ScanPayload :=
  ⟨result.passed, result.message, result.mode⟩

def SecurityScan.legacyResult (scan : SecurityScan) : Provider → Option ScanPayload
  | .clamav => none
  | .virustotal => some ⟨scan.virustotalPass, scan.virustotalMsg, scan.virustotalMode⟩
  | .llmAgent => some ⟨scan.llmAgentPass, scan.llmAgentMsg, scan.llmAgentMode⟩

/-- Provider results by provider. A version without a result row for a
provider falls back to its legacy columns. -/
def scanProviderResults (version : PluginVersion) (providers : Option (List Provider) := none)
    (p : Provider) : Option ScanPayload :=
  if providers.all (·.contains p) then
    match version.providerResults (.machine p) with
    | some result =>
      if result.kind = .scan then some (providerResultPayload result)
      else version.scan.bind (·.legacyResult p)
    | none => version.scan.bind (·.legacyResult p)
  else none

def ScanPayload.passes (result : ScanPayload) : Bool :=
  match result.mode with
  | .skipped => true
  | .pending | .error => false
  | .real => result.pass = some true

def scanProvidersPassed (version : PluginVersion) (providers : Option (List Provider)) : Bool :=
  let results := scanProviderResults version
  match providers with
  | some selected => selected.all fun p => (results p).any ScanPayload.passes
  | none => Provider.names.all fun p => (results p).all ScanPayload.passes

def scanProvidersPending (version : PluginVersion) (providers : Option (List Provider)) : Bool :=
  Provider.names.any fun p =>
    (scanProviderResults version providers p).any (·.mode = .pending)

def buildReadyForScanPolicy (version : PluginVersion) (providers : Option (List Provider)) :
    Bool :=
  version.buildStatus = .success ||
    (version.buildStatus = .scanning && !scanProvidersPending version providers)

def effectiveBuildStatus (version : PluginVersion) (providers : Option (List Provider)) :
    BuildStatus :=
  if version.buildStatus = .scanning && !scanProvidersPending version providers then .success
  else version.buildStatus

end PluginRegistry
