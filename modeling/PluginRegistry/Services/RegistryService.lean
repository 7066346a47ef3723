import PluginRegistry.Python.Datetime
import PluginRegistry.Services.PluginService

namespace PluginRegistry
open Lib

/-- One `sec_scan` value of a registry entry: unknown counts as not passed. -/
structure PublicScan where
  pass : Bool
  msg : Option String
  mode : ScanMode
  deriving DecidableEq

/-- `public_sec_scan(…, coerce_unknown_to_false=True)`: the providers with
legacy columns first. -/
def publicSecScan (version : PluginVersion) (providers : List Provider) :
    List (Provider × PublicScan) :=
  let results := scanProviderResults version (some providers)
  let order := Provider.names.filter (·.legacyPublic) ++
    Provider.names.filter fun p => !p.legacyPublic
  order.filterMap fun p => (results p).map fun r => (p, ⟨r.pass = some true, r.msg, r.mode⟩)

structure RegistryEntry where
  name : String
  author : String
  repo : Option String
  version : String
  updatedAt : String
  commitSha : Option String
  downloadUrl : String
  secScan : List (Provider × PublicScan)

def Db.getLatest (db : Db) (pluginId : PluginId) (requiredProviders : List Provider) :
    Option PluginVersion :=
  (db.versions.first fun _ version =>
    version.pluginId = pluginId && version.isLatest && version.versionStatus = .active &&
      buildReadyForScanPolicy version (some requiredProviders) &&
      scanProvidersPassed version (some requiredProviders)).map (·.2)

def formatEntry (plugin : Plugin) (version : PluginVersion) (scanProviders : List Provider) :
    RegistryEntry where
  name := plugin.pluginKey
  author := plugin.author
  repo := plugin.repoUrl
  version := version.version
  updatedAt := isoformat version.createdAt
  commitSha := version.commitSha.map (·.text)
  downloadUrl := version.downloadUrl.getD ""
  secScan := publicSecScan version scanProviders

def Db.listPlugin (db : Db) (registry : Table String RegistryEntry)
    (row : Sigma fun _ : PluginId => Plugin) : Table String RegistryEntry :=
  if row.2.status = .active then
    match db.getLatest row.1 db.config.scanEnabledProviders with
    | none => registry
    | some latest =>
      AList.insert row.2.pluginKey (formatEntry row.2 latest db.config.scanEnabledProviders)
        registry
  else registry

def Db.generateRegistryJson (db : Db) : Table String RegistryEntry :=
  db.plugins.entries.foldl db.listPlugin ∅

def Db.downloadPlugin (db : Db) (pluginKey : String) : Except String String :=
  match db.plugins.first fun _ p => p.pluginKey = pluginKey with
  | none => .error "Plugin not found"
  | some (pluginId, _) =>
    match db.getLatestVersion pluginId with
    | none => .error "No active version available"
    | some (_, latest) =>
      match latest.downloadUrl with
      | none => .error "No active version available"
      | some url => if url.isEmpty then .error "No active version available" else .ok url

end PluginRegistry
