import PluginRegistry.Services.LlmContext
import PluginRegistry.Services.ScanService

namespace PluginRegistry
open Lib

def llmRiskFailLevels : List String := ["high", "critical"]

def llmUncertaintyTerms : List String :=
  ["truncated", "incomplete", "not visible", "not available", "cannot be ruled out",
    "could not be ruled out", "limited confidence", "full source", "hidden malicious behavior"]

def llmExplicitHighRiskTerms : List String :=
  ["unknown domain", "untrusted domain", "third-party domain", "non-github domain",
    "download and execute", "downloads and executes", "downloads code", "remote code execution",
    "eval(", "exec(", "os.system", "subprocess", "pickle.loads", "base64.b64decode",
    "reverse shell", "backdoor", "steals", "exfiltrates", "sends credentials", "sends token",
    "credential theft is implemented"]

/-- The `json` module and the HTTP client. A post that returns has a status
that `raise_for_status` lets pass and a body that parses. -/
structure LlmClient where
  loads : String → Except PyErr Json
  dumps : Json → String
  post : (url apiKey model content : String) → Except PyErr Json

/-- `data[key]` for a text key. -/
def Json.item (key : String) : Json → Except PyErr Json
  | .obj fields =>
    match JsonObject.get fields key with
    | some value => .ok value
    | none => .error ⟨.keyError, "'" ++ key ++ "'", 0⟩
  | .arr _ => .error ⟨.typeError, "list indices must be integers or slices, not str", 0⟩
  | .str _ => .error ⟨.typeError, "string indices must be integers, not 'str'", 0⟩
  | value => .error ⟨.typeError, "'" ++ value.typeName ++ "' object is not subscriptable", 0⟩

/-- `data[0]`. -/
def Json.first : Json → Except PyErr Json
  | .arr (item :: _) => .ok item
  | .arr [] => .error ⟨.indexError, "list index out of range", 0⟩
  | .str value =>
    match value.toList with
    | c :: _ => .ok (.str (String.ofList [c]))
    | [] => .error ⟨.indexError, "string index out of range", 0⟩
  | .obj _ => .error ⟨.keyError, "0", 0⟩
  | value => .error ⟨.typeError, "'" ++ value.typeName ++ "' object is not subscriptable", 0⟩

def callLlmAgent (text : PyText) (client : LlmClient) (context : String) (truncated : Bool)
    (config : LlmAgentConfig) : Except PyErr String := do
  let url := rstripBy (· = '/') config.baseUrl ++ "/chat/completions"
  let data ← client.post url config.apiKey config.model
    ("Context truncated: " ++ (Json.bool truncated).toStr text ++
      ". If truncated, mention that confidence is limited.\n\n" ++ context)
  let choice ← (← data.item "choices").first
  let content ← (← choice.item "message").item "content"
  return content.toStr text

def stripCodeFence (text : String) : String :=
  if startsWith "```" text then
    let lines := splitlines text
    let lines := if lines.head?.any (startsWith "```") then lines.tail else lines
    let lines := if lines.getLast?.any (startsWith "```") then lines.dropLast else lines
    strip (String.intercalate "\n" lines)
  else text

def objectLength : List Char → (depth : Nat) → (inString escape : Bool) → Option Nat
  | [], _, _, _ => none
  | c :: rest, depth, inString, escape =>
    if escape then (objectLength rest depth inString false).map (· + 1)
    else if c = '\\' then (objectLength rest depth inString true).map (· + 1)
    else if c = '"' then (objectLength rest depth (!inString) false).map (· + 1)
    else if inString then (objectLength rest depth inString false).map (· + 1)
    else if c = '\x7b' then (objectLength rest (depth + 1) inString false).map (· + 1)
    else if c = '\x7d' then
      if depth = 1 then some 1 else (objectLength rest (depth - 1) inString false).map (· + 1)
    else (objectLength rest depth inString false).map (· + 1)

def extractJsonObject (raw : String) : Except PyErr String :=
  let text := stripCodeFence (strip raw)
  if startsWith "\x7b" text && text.toList.getLast? = some '\x7d' then .ok text
  else
    match text.toList.dropWhile (· ≠ '\x7b') with
    | [] => .error (valueError "LLM response does not contain a JSON object")
    | found =>
      match objectLength found 0 false false with
      | some length => .ok (String.ofList (found.take length))
      | none => .error (valueError "LLM response contains an incomplete JSON object")

def parseLlmResponse (client : LlmClient) (raw : String) : Except PyErr JsonObject := do
  match ← client.loads (← extractJsonObject raw) with
  | .obj result =>
    if (JsonObject.get result "pass").isSome && (JsonObject.get result "risk_level").isSome then
      return result
    else throw (valueError "LLM response is missing required keys")
  | _ => throw (valueError "LLM response is not a JSON object")

section
variable (text : PyText)

/-- `str(result.get(key) or default)`. -/
def strOr (result : JsonObject) (key default : String) : String :=
  match result.get key with
  | some value => if value.truthy then value.toStr text else default
  | none => default

def riskLevelOf (result : JsonObject) : String :=
  text.lower (strOr text result "risk_level" "unknown")

def findingTexts : Json → List String
  | .obj fields => fields.map fun field => field.2.toStr text
  | finding => [finding.toStr text]

def llmResultText (result : JsonObject) : String :=
  let findings := match result.get "findings" with
    | some (.arr findings) => findings.flatMap (findingTexts text)
    | _ => []
  String.intercalate "\n" (strOr text result "summary" "" :: findings)

def looksUncertaintyOnlyHighRisk (result : JsonObject) : Bool :=
  let resultText := text.lower (llmResultText text result)
  if !llmUncertaintyTerms.any (textContains · resultText) then false
  else !llmExplicitHighRiskTerms.any (textContains · resultText)

def normalizationNote : String :=
  "High risk downgraded because the finding is based on incomplete context " ++
    "or uncertainty without explicit visible high-risk behavior."

def normalizeLlmResult (result : JsonObject) : JsonObject :=
  let riskLevel := riskLevelOf text result
  if llmRiskFailLevels.contains riskLevel && looksUncertaintyOnlyHighRisk text result then
    ((result.set "risk_level" (.str "medium")).set "pass" (.bool true)).set
      "normalization_note" (.str normalizationNote)
  else if !llmRiskFailLevels.contains riskLevel then result.set "pass" (.bool true)
  else result

def llmMessage (result : JsonObject) (passed truncated : Bool) (config : LlmAgentConfig) : Json :=
  let findings := match result.get "findings" with
    | some (.arr findings) => findings
    | _ => []
  let note := match result.get "normalization_note" with
    | some note => if note.truthy then [("normalization_note", note)] else []
    | none => []
  .obj ([("pass", .bool passed), ("risk_level", .str (riskLevelOf text result)),
    ("summary", .str (strip (strOr text result "summary" ""))),
    ("findings", .arr (findings.take 10)), ("context_truncated", .bool truncated),
    ("model", .str config.model)] ++ note)

def llmOutcome (client : LlmClient) (result : JsonObject) (truncated : Bool)
    (config : LlmAgentConfig) : ScanOutcome :=
  let passed := ((result.get "pass").any Json.truthy) &&
    !llmRiskFailLevels.contains (riskLevelOf text result)
  { passed := some passed
    message := client.dumps (llmMessage text result passed truncated config)
    mode := .real }

def llmFailure (e : PyErr) : Except PyErr ScanOutcome :=
  if e.isA [.osError, .badZipFile, .keyError, .typeError, .valueError] then
    .ok { passed := some false, message := "LLM scan failed: " ++ e.text, mode := .error }
  else if e.isA [.httpStatusError] then
    .ok
      { passed := some false
        message := "LLM scan failed: HTTP " ++ toString e.status
        mode := .error }
  else if e.isA [.httpError] then
    .ok { passed := some false, message := "LLM scan failed: " ++ e.text, mode := .error }
  else .error e

/-- The guarded part of `scan_llm`: the normalised result, and whether the
context was truncated. What `zipfile` makes of the artifact is `artifact`. -/
def reviewArtifact (client : LlmClient) (archiveName : String)
    (artifact : Except PyErr ZipArchive) (config : LlmAgentConfig) :
    Except PyErr (JsonObject × Bool) := do
  let (context, truncated) ←
    buildLlmContext text archiveName (← artifact) config.maxContextChars
  let response ← callLlmAgent text client context truncated config
  let result ← parseLlmResponse client response
  return (normalizeLlmResult text result, truncated)

def scanLlm (client : LlmClient) (archiveName : String) (artifact : Except PyErr ZipArchive)
    (config : LlmAgentConfig) : Except PyErr ScanOutcome :=
  match reviewArtifact text client archiveName artifact config with
  | .ok (result, truncated) => .ok (llmOutcome text client result truncated config)
  | .error e => llmFailure e

end

end PluginRegistry
