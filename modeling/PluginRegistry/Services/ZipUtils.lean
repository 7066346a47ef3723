import PluginRegistry.Python.Pathlib
import PluginRegistry.Services.MetadataParser
import PluginRegistry.Services.RuntimeConfig

namespace PluginRegistry
open Lib

/-- `ZipValidationError`. -/
def zipError (text : String) : PyErr := ⟨.zipValidationError, text, 0⟩

/-- A member of an uploaded archive. `fileSize` is the size that the central
directory states; a read ends there, or before where there is less. A name ends
before its first null character, and `zipfile` knows no error of this package. -/
structure ZipInfo where
  filename : String
  externalAttr : Nat
  fileSize : Nat
  data : Except PyErr (List UInt8)
  within : ∀ content, data = .ok content → content.length ≤ fileSize
  foreign : ∀ e, data = .error e → e.cls ≠ .zipValidationError := by simp

def ZipInfo.isDir (info : ZipInfo) : Bool :=
  info.filename.toList.getLast? = some '/'

/-- An uploaded file that `zipfile` opens. -/
structure ZipArchive where
  byteSize : Nat
  infolist : List ZipInfo

def isSymlink (info : ZipInfo) : Bool :=
  (info.externalAttr >>> 16) &&& 0o170000 = 0o120000

def validateMemberPath (name : String) : Except PyErr Path :=
  let normalized := forwardSlashes name
  if isPosixAbsolute normalized || hasWindowsDrive name then
    .error (zipError ("zip entry uses an absolute path: " ++ name))
  else if (posixParts normalized).contains ".." then
    .error (zipError ("zip entry escapes extraction root: " ++ name))
  else if (posixParts normalized).isEmpty then
    .error (zipError "zip entry has an empty path")
  else .ok (posixParts normalized)

/-- What reading a member by its name gives: a name stands for the last member
of that name. -/
def ZipArchive.readNamed (archive : ZipArchive) (filename : String) :
    Except PyErr (List UInt8) :=
  match archive.infolist.reverse.find? (·.filename = filename) with
  | some info => info.data
  | none => .error ⟨.keyError, filename, 0⟩

/-- `ZipFile.testzip` over the members that are left. -/
def testzip (archive : ZipArchive) : List ZipInfo → Except PyErr (Option String)
  | [] => .ok none
  | info :: rest =>
    match archive.readNamed info.filename with
    | .error e => if e.isA [.badZipFile] then .ok (some info.filename) else .error e
    | .ok _ => testzip archive rest

/-- The checks of `inspect_zip` on the members that are left. -/
def inspectMembers (limits : UploadLimits) :
    List ZipInfo → (fileCount totalSize : Nat) → Except PyErr Unit
  | [], _, _ => .ok ()
  | info :: rest, fileCount, totalSize =>
    if info.isDir then inspectMembers limits rest fileCount totalSize
    else if limits.maxZipEntries < fileCount + 1 then
      .error (zipError "zip contains too many files")
    else if limits.maxSingleFileBytes < info.fileSize then
      .error (zipError ("zip entry is too large: " ++ info.filename))
    else if limits.maxUnzipBytes < totalSize + info.fileSize then
      .error (zipError "zip uncompressed size is too large")
    else if isSymlink info then
      .error (zipError ("zip entry is a symlink: " ++ info.filename))
    else match validateMemberPath info.filename with
      | .error e => .error e
      | .ok _ => inspectMembers limits rest (fileCount + 1) (totalSize + info.fileSize)

def inspectZip (limits : UploadLimits) (archive : ZipArchive) : Except PyErr Unit := do
  match ← testzip archive archive.infolist with
  | some badFile => throw (zipError ("zip contains a corrupt file: " ++ badFile))
  | none => inspectMembers limits archive.infolist 0 0

/-- `mkdir(parents=True, exist_ok=True)` below a directory. -/
def makeDirs (files : FileSystem) (base : Path) : Path → Except PyErr FileSystem
  | [] => .ok files
  | name :: rest =>
    match files.lookup (base ++ [name]) with
    | none => makeDirs (AList.insert (base ++ [name]) .dir files) (base ++ [name]) rest
    | some .dir => makeDirs files (base ++ [name]) rest
    | some _ => .error ⟨.osError, "Not a directory", 0⟩

def writeNew (files : FileSystem) (path : Path) (content : List UInt8) :
    Except PyErr FileSystem :=
  if files.lookup path = some .dir then .error ⟨.osError, "Is a directory", 0⟩
  else .ok (AList.insert path (.file content content.length) files)

/-- One member of `safe_unzip`. Nothing below the extraction root is a link, so
that every path is where it says. -/
def extractMember (files : FileSystem) (info : ZipInfo) : Except PyErr FileSystem := do
  let path ← validateMemberPath info.filename
  if info.isDir then makeDirs files [] path
  else
    let files ← makeDirs files [] path.dropLast
    let content ← info.data
    writeNew files path content

/-- Extract a previously inspected zip without trusting `ZipFile.extractall`:
what is left below the extraction root. -/
def safeUnzip (archive : ZipArchive) : Except PyErr FileSystem :=
  archive.infolist.foldlM extractMember ∅

/-- The kernel takes names of 255 bytes and paths of 4096, with the null byte at the end. -/
def checkPathLength (path : Path) : Except PyErr Unit :=
  if path.any (255 < ·.utf8ByteSize) || 4096 ≤ (path.map (·.utf8ByteSize + 1)).sum then
    .error ⟨.osError, "File name too long", 0⟩
  else .ok ()

/-- One member of `safe_unzip`, on the disk. -/
def extractInto (root : Path) (disk : FileSystem) (info : ZipInfo) : Except PyErr FileSystem := do
  let path ← validateMemberPath info.filename
  if info.isDir then
    checkPathLength (root ++ path)
    makeDirs disk root path
  else
    checkPathLength (root ++ path.dropLast)
    let disk ← makeDirs disk root path.dropLast
    let content ← info.data
    checkPathLength (root ++ path)
    writeNew disk (root ++ path) content

/-- `safe_unzip(zip_path, extract_dir)`: the disk that it leaves. -/
def safeUnzipInto (root : Path) (disk : FileSystem) (archive : ZipArchive) :
    Except PyErr FileSystem :=
  archive.infolist.foldlM (extractInto root) disk

/-- Find the single allowed `metadata.yaml` location in an extracted upload. -/
def findMetadataYaml (files : FileSystem) : Except PyErr Path :=
  let children := files.keys.filter fun path => path.length = 1 && path ≠ ["__MACOSX"]
  let dirs := children.filter fun path => files.lookup path = some .dir
  let nested := (dirs.headD []) ++ ["metadata.yaml"]
  if files.isFile ["metadata.yaml"] then .ok ["metadata.yaml"]
  else if dirs.length = 1 && !children.any files.isFile && files.isFile nested then .ok nested
  else
    match files.keys.filter fun path => path.getLast? = some "metadata.yaml" with
    | [] => .error (zipError "metadata.yaml not found")
    | [_] => .error (zipError "metadata.yaml must be at zip root or single top-level folder")
    | _ => .error (zipError "zip contains multiple metadata.yaml files")

def processUploadedZip (yaml : Yaml) (limits : UploadLimits) (archive : ZipArchive) :
    Except PyErr PluginMetadata := do
  if limits.maxUploadBytes < archive.byteSize then
    throw ⟨.validationError, "Uploaded zip is too large", 413⟩
  else
    inspectZip limits archive
    let files ← safeUnzip archive
    parseMetadataYaml yaml files (← findMetadataYaml files)

end PluginRegistry
