import PluginRegistry.Python.Codecs
import PluginRegistry.Services.ZipUtils

namespace PluginRegistry
open Lib

def maxPreviewBytes : Nat := 512 * 1024

def binaryExtensions : List String :=
  [".7z", ".bin", ".bmp", ".db", ".gif", ".ico", ".jpeg", ".jpg", ".mp3", ".mp4", ".pdf", ".png",
    ".pyc", ".rar", ".so", ".sqlite", ".webp", ".zip"]

def languageByExtension : List (String × String) :=
  [(".css", "css"), (".env", "dotenv"), (".html", "html"), (".js", "javascript"),
    (".json", "json"), (".md", "markdown"), (".py", "python"), (".sh", "shell"), (".toml", "toml"),
    (".ts", "typescript"), (".txt", "plaintext"), (".vue", "vue"), (".yaml", "yaml"),
    (".yml", "yaml")]

def artifactError (text : String) : PyErr := ⟨.runtimeError, text, 0⟩

def normalizeMemberPath (name : String) : Except PyErr String :=
  let normalized := stripBy (· = '/') (forwardSlashes name)
  if normalized.isEmpty then .ok ""
  else if isPosixAbsolute normalized || hasWindowsDrive name ||
      (posixParts normalized).contains ".." then
    .error (artifactError ("Unsafe artifact path: " ++ name))
  else .ok (asPosix normalized)

def normalizeRequestedPath (name : String) : Except PyErr String := do
  let path ← normalizeMemberPath name
  if path.isEmpty then throw (artifactError "Artifact file path is required")
  else return path

def findMember (requestedPath : String) : List ZipInfo → Except PyErr (Option ZipInfo)
  | [] => .ok none
  | info :: rest => do
    let path ← normalizeMemberPath info.filename
    if path = requestedPath then return some info else findMember requestedPath rest

/-- The suffix in lower case. No letter outside ASCII lowers to one of those in
the tables above. -/
def extensionOf (path : String) : String :=
  asciiLower (posixSuffix path)

def languageForPath (path : String) : String :=
  ((languageByExtension.find? (·.1 = extensionOf path)).map (·.2)).getD "plaintext"

structure ArtifactFile where
  path : String
  name : String
  size : Nat
  language : String
  content : Option String
  truncated : Bool
  binary : Bool

def previewMember (requestedPath : String) (info : ZipInfo) : Except PyErr ArtifactFile :=
  let filePayload := ArtifactFile.mk requestedPath (posixName requestedPath) info.fileSize
    (languageForPath requestedPath)
  if binaryExtensions.contains (extensionOf requestedPath) then .ok (filePayload none false true)
  else
    info.data.map fun content =>
      let raw := content.take (maxPreviewBytes + 1)
      let truncated := maxPreviewBytes < raw.length || maxPreviewBytes < info.fileSize
      let shown := raw.take maxPreviewBytes
      if shown.contains 0 then filePayload none false true
      else filePayload (some (decodeReplace shown)) truncated false

def readArtifactFile (archive : ZipArchive) (filePath : String) : Except PyErr ArtifactFile := do
  let requestedPath ← normalizeRequestedPath filePath
  match ← findMember requestedPath archive.infolist with
  | none => throw (artifactError "Artifact file not found")
  | some info =>
    if info.isDir then throw (artifactError "Artifact file not found")
    else previewMember requestedPath info

inductive ArtifactKind
  | dir | file
  deriving DecidableEq

structure ArtifactEntry where
  path : String
  name : String
  kind : ArtifactKind
  size : Option Nat

/-- `entries.setdefault(entry["path"], entry)`. -/
def setDefaultEntry (entries : List ArtifactEntry) (entry : ArtifactEntry) : List ArtifactEntry :=
  if entries.any (·.path = entry.path) then entries else entries ++ [entry]

/-- `entries[entry["path"]] = entry`. -/
def assignEntry (entries : List ArtifactEntry) (entry : ArtifactEntry) : List ArtifactEntry :=
  if entries.any (·.path = entry.path) then
    entries.map fun old => if old.path = entry.path then entry else old
  else entries ++ [entry]

def addParentDirs (entries : List ArtifactEntry) (path : String) : List ArtifactEntry :=
  let parts := posixParts path
  (List.range' 1 (parts.length - 1)).foldl (fun entries index =>
    setDefaultEntry entries
      ⟨String.intercalate "/" (parts.take index), (parts.take index).getLast?.getD "", .dir, none⟩)
    entries

def addMember (entries : List ArtifactEntry) (info : ZipInfo) :
    Except PyErr (List ArtifactEntry) := do
  let path ← normalizeMemberPath info.filename
  if path.isEmpty then return entries
  else
    let entries := addParentDirs entries path
    if info.isDir then return setDefaultEntry entries ⟨path, posixName path, .dir, none⟩
    else return assignEntry entries ⟨path, posixName path, .file, some info.fileSize⟩

def ArtifactEntry.notAfter (lower : String → String) (a b : ArtifactEntry) : Bool :=
  let depth := fun entry : ArtifactEntry => entry.path.toList.count '/'
  if depth a ≠ depth b then depth a < depth b
  else if a.kind ≠ b.kind then a.kind = .dir
  else !decide (lower b.path < lower a.path)

def readArtifactTree (lower : String → String) (archive : ZipArchive) :
    Except PyErr (List ArtifactEntry) := do
  let entries ← archive.infolist.foldlM addMember []
  return entries.mergeSort (ArtifactEntry.notAfter lower)

end PluginRegistry
