import PluginRegistry.Python.Codecs
import PluginRegistry.Python.Repr
import PluginRegistry.Services.ZipUtils

namespace PluginRegistry
open Lib

def llmRelevantSuffixes : List String :=
  [".py", ".yaml", ".yml", ".toml", ".json", ".txt", ".md"]

def llmRelevantNames : List String :=
  ["metadata.yaml", "metadata.yml", "requirements.txt", "pyproject.toml", "config.yaml",
    "config.yml"]

def llmSuspiciousTerms : List String :=
  ["eval(", "exec(", "subprocess", "os.system", "socket", "requests.", "httpx.", "urllib",
    "base64", "pickle", "token", "cookie", "password", "secret", "api_key", "open(", "shutil"]

def shouldInclude (text : PyText) (path : String) : Bool :=
  llmRelevantNames.contains (text.lower (posixName path)) ||
    llmRelevantSuffixes.contains (text.lower (posixSuffix path)) ||
    ["main", "plugin", "handler", "service"].any (textContains · (text.lower path))

def maxFileChars : Nat := 4000

def formatLlmFileSection (path content : String) : String :=
  let cut := textPrefix maxFileChars content
  let body := if maxFileChars < content.length then cut ++ "\n[File truncated]" else cut
  "File: " ++ path ++ "\n```text\n" ++ body ++ "\n```"

structure LlmSections where
  sections : List String
  includedFiles : Nat
  skippedFiles : Nat

def LlmSections.addFile (text : PyText) (s : LlmSections) (info : ZipInfo) :
    Except PyErr LlmSections :=
  if !shouldInclude text info.filename then .ok { s with skippedFiles := s.skippedFiles + 1 }
  else match info.data with
    | .ok raw => .ok
      { s with
        includedFiles := s.includedFiles + 1
        sections := s.sections ++ [formatLlmFileSection info.filename (decodeReplace raw)] }
    | .error e =>
      if e.isA [.runtimeError] then .ok { s with skippedFiles := s.skippedFiles + 1 }
      else .error e

def isSuspicious (text : PyText) (s : String) : Bool :=
  llmSuspiciousTerms.any (textContains · (text.lower s))

def matchedLines (text : PyText) (lines : List String) : List String :=
  match lines.findIdx? (isSuspicious text) with
  | none => []
  | some idx =>
    let start := idx - 2
    let stop := min lines.length (idx + 3)
    (List.range' start (stop - start)).map fun lineNo =>
      toString (lineNo + 1) ++ ": " ++ lines.getD lineNo ""

def collectSuspiciousSnippets (text : PyText) :
    List ZipInfo → (snippets : List String) → Except PyErr (List String)
  | [], snippets => .ok snippets
  | info :: rest, snippets =>
    if 20 ≤ snippets.length then .ok snippets
    else if !llmRelevantSuffixes.contains (text.lower (posixSuffix info.filename)) then
      collectSuspiciousSnippets text rest snippets
    else match info.data with
      | .error e =>
        if e.isA [.runtimeError] then collectSuspiciousSnippets text rest snippets else .error e
      | .ok raw =>
        let content := decodeReplace raw
        if !isSuspicious text content then collectSuspiciousSnippets text rest snippets
        else
          let matched := (matchedLines text (splitlines content)).take 8
          let snippet := "File: " ++ info.filename ++ "\n" ++ String.intercalate "\n" matched
          collectSuspiciousSnippets text rest (snippets ++ [snippet])

/-- `sys.maxsize`, the longest a string can be. -/
def maxSize : Nat := 2 ^ 63 - 1

/-- `joint.join(parts)`. -/
def joinText (joint : String) (parts : List String) : Except PyErr String :=
  let joined := String.intercalate joint parts
  if maxSize < joined.length then
    .error ⟨.overflowError, "join() result is too long for a Python string", 0⟩
  else .ok joined

def llmSections (text : PyText) (archiveName : String) (archive : ZipArchive) :
    Except PyErr (List String) := do
  let infos := archive.infolist.filter fun info => !info.isDir
  let files ← infos.foldlM (LlmSections.addFile text)
    ⟨["Archive: " ++ archiveName, "Total files: " ++ toString infos.length], 0, 0⟩
  let suspicious ← collectSuspiciousSnippets text infos []
  let sections := files.sections ++
    if suspicious.isEmpty then [] else "Suspicious snippets:" :: suspicious
  return sections.insertIdx 2 ("Included files: " ++ toString files.includedFiles ++
    "; skipped binary/irrelevant files: " ++ toString files.skippedFiles)

def truncationNotice (maxChars : Int) (length : Nat) : String :=
  "[Context truncated to " ++ toString maxChars ++ " characters from " ++ toString length ++
    " characters. " ++ "Some files or snippets are omitted.]\n\n"

def buildLlmContext (text : PyText) (archiveName : String) (archive : ZipArchive)
    (maxChars : Int) : Except PyErr (String × Bool) := do
  let maxChars := max 1000 maxChars
  let context ← joinText "\n\n" (← llmSections text archiveName archive)
  if (context.length : Int) ≤ maxChars then return (context, false)
  else
    let notice := truncationNotice maxChars context.length
    return (notice ++ sliceTo (maxChars - notice.length) context, true)

end PluginRegistry
