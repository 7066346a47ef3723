import PluginRegistry.Python.Json
import PluginRegistry.Services.Environment

namespace PluginRegistry
open Lib

structure Yaml where
  safeLoad : List UInt8 → Except PyErr Json
  safeDump : JsonObject → List UInt8

/-- What is assumed of PyYAML: a mapping that it has read can be given another
version text, written and read back. -/
def Yaml.RoundTrips (yaml : Yaml) : Prop :=
  ∀ content (data : JsonObject) version, yaml.safeLoad content = .ok (.obj data) →
    yaml.safeLoad (yaml.safeDump (data.set "version" (.str version))) =
      .ok (.obj (data.set "version" (.str version)))

/-- A field that pydantic takes for `str | None`. -/
def isOptionalText : Option Json → Bool
  | none | some .null | some (.str _) => true
  | _ => false

/-- A field that pydantic takes for `list[str]`. -/
def isTextList : Option Json → Bool
  | none => true
  | some (.arr items) => items.all fun item => match item with | .str _ => true | _ => false
  | _ => false

/-- A field that pydantic takes for `dict[str, Any]`. -/
def isMapping : Option Json → Bool
  | none | some (.obj _) => true
  | _ => false

/-- The fields that only have to be of the right type; `description` comes
before its other name `desc`. -/
def otherFieldsValid (data : JsonObject) : Bool :=
  ["display_name", "short_desc", "category", "social_link", "logo", "astrbot_version"].all
      (fun key => isOptionalText (data.get key)) &&
    isOptionalText ((data.get "description").or (data.get "desc")) &&
    isTextList (data.get "tags") && isTextList (data.get "support_platforms") &&
    isMapping (data.get "i18n")

/-- `PluginMetadata.model_validate`. -/
def PluginMetadata.modelValidate (data : JsonObject) : Except PyErr PluginMetadata :=
  match data.get "name", data.get "author", data.get "version", data.get "repo" with
  | some (.str name), some (.str author), some (.str version), repo =>
    if isOptionalText repo && otherFieldsValid data then
      .ok ⟨name, author, version, match repo with | some (.str url) => some url | _ => none⟩
    else .error (valueError "validation error for PluginMetadata")
  | _, _, _, _ => .error (valueError "validation error for PluginMetadata")

def FileSystem.read (files : FileSystem) (path : Path) : Except PyErr (List UInt8) :=
  match files.stat path with
  | some (.file content _) => .ok content
  | _ => .error ⟨.osError, "No such file", 0⟩

def FileSystem.write (files : FileSystem) (path : Path) (content : List UInt8) : FileSystem :=
  match files.resolve path with
  | none => files
  | some target => AList.insert target (.file content content.length) files

def loadMapping (yaml : Yaml) (content : List UInt8) : Except PyErr JsonObject := do
  match ← yaml.safeLoad content with
  | .obj data => return data
  | _ => throw (valueError "metadata.yaml must be a YAML mapping")

def parseMetadataYamlText (yaml : Yaml) (content : List UInt8) : Except PyErr PluginMetadata := do
  PluginMetadata.modelValidate (← loadMapping yaml content)

def parseMetadataYaml (yaml : Yaml) (files : FileSystem) (path : Path) :
    Except PyErr PluginMetadata := do
  parseMetadataYamlText yaml (← files.read path)

end PluginRegistry
