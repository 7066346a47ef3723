import PluginRegistry.Python.Json
import PluginRegistry.Services.ScanService

namespace PluginRegistry

def PluginStatus.text : PluginStatus → String
  | .pending => "pending"
  | .active => "active"
  | .disabled => "disabled"
  | .deleted => "deleted"

def BuildStatus.text : BuildStatus → String
  | .pending => "pending"
  | .building => "building"
  | .success => "success"
  | .failed => "failed"
  | .scanning => "scanning"

def VersionStatus.text : VersionStatus → String
  | .draft => "draft"
  | .active => "active"
  | .deprecated => "deprecated"
  | .deleted => "deleted"

def ScanMode.text : ScanMode → String
  | .pending => "pending"
  | .real => "real"
  | .skipped => "skipped"
  | .error => "error"

/-- One provider's payload of `public_sec_scan`, unknown left as it is. -/
def ScanPayload.json (result : ScanPayload) : Json :=
  .obj [("pass", result.pass.elim .null .bool), ("msg", result.msg.elim .null .str),
    ("mode", .str result.mode.text)]

/-- `public_sec_scan`: the providers with legacy columns first. -/
def scanEntries (version : PluginVersion) (providers : Option (List Provider)) : JsonObject :=
  (Provider.names.filter (·.legacyPublic) ++ Provider.names.filter fun p => !p.legacyPublic).filterMap
    fun p => (scanProviderResults version providers p).map fun result => (p.name, result.json)

def versionScanSummary (version : PluginVersion) (providers : Option (List Provider))
    (scannedAt : Option String) : Option JsonObject :=
  let entries := scanEntries version providers
  if entries.isEmpty && version.scan.isNone && providers.isNone then none
  else some (entries.set "scanned_at" (scannedAt.elim .null .str))

structure VersionSummary where
  buildStatus : String
  versionStatus : String
  scan : Json

def versionSummary (version : PluginVersion) (requiredScanProviders : Option (List Provider))
    (scannedAt : Option String) : VersionSummary where
  buildStatus := (effectiveBuildStatus version requiredScanProviders).text
  versionStatus := version.versionStatus.text
  scan :=
    match versionScanSummary version requiredScanProviders scannedAt, requiredScanProviders with
    | none, none => .null
    | some scan, none => .obj scan
    | scan, some required =>
      .obj ((scan.getD [("scanned_at", .null)]).set "required_providers"
        (.arr (required.map fun p => .str p.name)))

def VersionSummary.json (summary : VersionSummary) : JsonObject :=
  [("build_status", .str summary.buildStatus), ("version_status", .str summary.versionStatus),
    ("scan", summary.scan)]

end PluginRegistry
