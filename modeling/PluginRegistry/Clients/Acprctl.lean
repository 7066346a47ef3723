import PluginRegistry.Api.Admin
import PluginRegistry.Services.ConfigService

namespace PluginRegistry.Acprctl
open Lib

/-- `unicode.IsSpace`: what Python strips, less four separators. -/
def isSpace (c : Char) : Bool :=
  PluginRegistry.isSpace c && !(28 ≤ c.toNat && c.toNat ≤ 31)

/-- `strings.TrimSpace`. -/
def trimSpace (s : String) : String :=
  stripBy isSpace s

/-- `strings.EqualFold(s, "none")`. -/
def foldsToNone (s : String) : Bool :=
  s.toList.map Char.toLower = "none".toList

def splitCSV (value : String) : List String :=
  ((splitText ',' value).map trimSpace).filter fun part => part ≠ ""

def supportedScanProviders : List String := ["virustotal", "llm_agent", "clamav"]

def isSupportedScanProvider (provider : String) : Bool :=
  supportedScanProviders.contains provider

def normalizeProviderList (providers : List String) : List String :=
  let selected := (providers.map trimSpace).filter fun provider =>
    !(provider = "" || foldsToNone provider) && isSupportedScanProvider provider
  supportedScanProviders.filter selected.contains

def appendProvider (providers : List String) (provider : String) : List String :=
  normalizeProviderList (providers ++ [provider])

def removeProvider (providers : List String) (provider : String) : List String :=
  normalizeProviderList (providers.filter (· ≠ provider))

def disabledScanProviders (enabled : List String) : List String :=
  supportedScanProviders.filter fun provider => !enabled.contains provider

structure CliError where
  message : String
  status : Nat
  code : Nat
  deriving DecidableEq, Repr

def exitGeneral : Nat := 1
def exitValidation : Nat := 6

structure ProviderSummary where
  enabled : List String
  disabled : List String
  supported : List String
  key : String
  value : String

def providerConfigSummary (config : ConfigResponse) : ProviderSummary :=
  let effective := (config.effectiveValues.lookup "SCAN_ENABLED_PROVIDERS").getD ""
  let raw := if effective = "" then (config.values.lookup "SCAN_ENABLED_PROVIDERS").getD ""
    else effective
  let normalized := normalizeProviderList (splitCSV raw)
  let enabled := if normalized.isEmpty && foldsToNone (trimSpace raw) then [] else normalized
  ⟨enabled, disabledScanProviders enabled, supportedScanProviders, "SCAN_ENABLED_PROVIDERS",
    String.intercalate "," enabled⟩

inductive ProviderAction
  | enable | disable
  deriving DecidableEq, Repr

def ProviderAction.text : ProviderAction → String
  | .enable => "enable"
  | .disable => "disable"

def switchProvider (action : ProviderAction) (enabled : List String) (provider : String) :
    Except CliError (List String) :=
  if !isSupportedScanProvider provider then
    .error ⟨"unsupported scan provider: " ++ provider, 400, exitValidation⟩
  else .ok (match action with
    | .enable => appendProvider enabled provider
    | .disable => removeProvider enabled provider)

section
variable (lower : String → String) (settings : Settings)

/-- `PUT /admin/config`, answered by the server. -/
def putConfig (rows values : ConfigRows) : Except CliError ConfigRows :=
  match updateConfig lower rows values with
  | .ok rows => .ok rows
  | .error e =>
    if e.cls = .configValidationError then .error ⟨e.text, 400, exitValidation⟩
    else .error ⟨"Internal Server Error", 500, exitGeneral⟩

def updateConfigProviders (rows : ConfigRows) (action : ProviderAction)
    (providers : List String) : Except CliError ConfigRows := do
  let current := providerConfigSummary (buildConfigResponse settings rows)
  let enabled ← providers.foldlM (switchProvider action) current.enabled
  putConfig lower rows
    (AList.insert "SCAN_ENABLED_PROVIDERS" (String.intercalate "," enabled) ∅)

/-- `config providers enable` and `config providers disable`. -/
def dispatchConfigProviders (rows : ConfigRows) (action : ProviderAction)
    (providers : List String) : Except CliError ConfigRows :=
  if providers.isEmpty then
    .error ⟨"config providers " ++ action.text ++ " requires at least one provider", 400,
      exitValidation⟩
  else updateConfigProviders lower settings rows action providers

def afterProviders (rows : ConfigRows) (action : ProviderAction) (providers : List String) :
    ConfigRows :=
  match dispatchConfigProviders lower settings rows action providers with
  | .ok rows => rows
  | .error _ => rows

end

def mapField (values : JsonObject) (key : String) : JsonObject :=
  match values.get key with
  | some (.obj fields) => fields
  | _ => []

def stringField (values : JsonObject) (key : String) : String :=
  match values.get key with
  | some (.str text) => text
  | _ => ""

def boolField (values : JsonObject) (key : String) : Option Bool :=
  match values.get key with
  | some (.bool value) => some value
  | _ => none

def isMap : Json → Bool
  | .obj _ => true
  | _ => false

/-- The providers of a wait: the ones that are named, or else every result of the scan. -/
def resolvedScanProviders (version : JsonObject) (providers : List String) : List String :=
  if !providers.isEmpty then providers
  else (((mapField version "scan").filter fun field =>
    field.1 ≠ "scanned_at" && isMap field.2).map (·.1)).mergeSort (· ≤ ·)

def scanFailed : CliError :=
  ⟨"Scan failed", 0, exitGeneral⟩

/-- The loop of `scanProvidersDone`. -/
def providersDone (scan : JsonObject) : List String → Except CliError Bool
  | [] => .ok true
  | provider :: rest =>
    let result := mapField scan provider
    if result.isEmpty then .ok false
    else
      let mode := stringField result "mode"
      if mode = "" || mode = "pending" then .ok false
      else if mode = "error" then .error scanFailed
      else if mode = "skipped" then providersDone scan rest
      else match boolField result "pass" with
        | none => .ok false
        | some false => .error scanFailed
        | some true => providersDone scan rest

def scanProvidersDone (version : JsonObject) (providers : List String) : Except CliError Bool :=
  let scan := mapField version "scan"
  let resolvedProviders := resolvedScanProviders version providers
  if scan.isEmpty then .ok false
  else if resolvedProviders.isEmpty then .ok false
  else providersDone scan resolvedProviders

/-- The selection of `--provider`. -/
def scanProvidersForWait (provider : String) : List String :=
  if provider = "all" then [] else [provider]

end PluginRegistry.Acprctl
