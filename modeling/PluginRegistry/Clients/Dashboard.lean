import PluginRegistry.Api.Admin

namespace PluginRegistry.Dashboard

def property (value : Json) (key : String) : Option Json :=
  match value with
  | .obj fields => JsonObject.get fields key
  | _ => none

/-- A value of type `string`. -/
def asString : Json → Option String
  | .str text => some text
  | _ => none

def providerOrder : List String := ["clamav", "virustotal", "llm_agent"]

def providerRank (provider : String) : Nat :=
  (providerOrder.idxOf? provider).getD providerOrder.length

/-- `typeof mode === 'string' && 'pass' in candidate`. -/
def isScanProviderResult (value : Json) : Bool :=
  (property value "pass").isSome && ((property value "mode").bind asString).isSome

def enabledScanProviders (scan : Json) : Option (List String) :=
  match property scan "required_providers" with
  | some (.arr items) => some (items.filterMap asString)
  | _ => none

def entryBefore (a b : String × Json) : Bool :=
  providerRank a.1 < providerRank b.1 || (providerRank a.1 = providerRank b.1 && a.1 ≤ b.1)

def scanProviderEntries (scan : Json) : List (String × Json) :=
  match scan with
  | .obj fields =>
    (fields.filter fun field =>
      ((enabledScanProviders scan).all fun enabled => enabled.contains field.1) &&
        field.1 ≠ "scanned_at" && isScanProviderResult field.2).mergeSort entryBefore
  | _ => []

/-- `new Map(entries).get(key)`: a later entry replaces an earlier one. -/
def mapGet (entries : List (String × Json)) (key : String) : Option Json :=
  ((entries.filter fun entry => entry.1 = key).getLast?).map (·.2)

def requiredProviderResults (scan : Json) : Option (List (Option Json)) :=
  (enabledScanProviders scan).map fun enabled =>
    enabled.map fun provider => mapGet (scanProviderEntries scan) provider

/-- `result.mode === mode`. -/
def hasMode (result : Json) (mode : String) : Bool :=
  property result "mode" = some (.str mode)

def scanHasPending (scan : Json) : Bool :=
  match requiredProviderResults scan with
  | some required => required.any fun result => result.all (hasMode · "pending")
  | none => (scanProviderEntries scan).any fun entry => hasMode entry.2 "pending"

def blocks (result : Option Json) : Bool :=
  match result with
  | none => true
  | some result =>
    if hasMode result "skipped" then false
    else if hasMode result "pending" || hasMode result "error" then true
    else if property result "pass" = some (.bool false) then true
    else property result "pass" = some .null

def scanHasBlockingResult (scan : Json) : Bool :=
  let results := (requiredProviderResults scan).getD
    ((scanProviderEntries scan).map fun entry => some entry.2)
  results.any blocks

structure BlockerOptions where
  includePluginStatus : Bool := true
  includeVersionStatus : Bool := true

def getVersionBlockers (pluginStatus : String) (version : VersionSummary)
    (options : BlockerOptions) : List String :=
  let blockers :=
    (if options.includePluginStatus && pluginStatus ≠ "active" then ["插件尚未审核通过"] else []) ++
    (if options.includeVersionStatus && version.versionStatus ≠ "active" then
      ["版本尚未标记为发布候选"] else []) ++
    (if version.buildStatus = "building" || version.buildStatus = "pending" then
      ["构建仍在进行"]
    else if version.buildStatus = "scanning" then ["扫描仍在进行"]
    else if version.buildStatus ≠ "success" then ["构建未成功"]
    else []) ++
    (if scanHasPending version.scan then ["扫描仍在进行"]
    else if scanHasBlockingResult version.scan then ["扫描未通过"]
    else [])
  blockers.eraseDups

structure ActivationCheck where
  ok : Bool
  reason : String
  deriving DecidableEq

def canActivateVersion (version : VersionSummary) : ActivationCheck :=
  if version.buildStatus ≠ "success" then ⟨false, "构建未成功，不能标记为发布候选"⟩
  else if scanHasPending version.scan then ⟨false, "扫描仍在进行，不能标记为发布候选"⟩
  else if scanHasBlockingResult version.scan then ⟨false, "扫描未通过，不能标记为发布候选"⟩
  else ⟨true, ""⟩

end PluginRegistry.Dashboard
