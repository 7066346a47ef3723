import PluginRegistry.Python.Urllib
import PluginRegistry.Services.SubmissionService

namespace PluginRegistry

structure GitSettings where
  tables : UrlTables
  allowedHosts : List String

def gitError (text : String) : PyErr := ⟨.gitError, text, 0⟩

/-- One character under `re.IGNORECASE`, for the letters of the pattern. -/
def foldsTo (pattern c : Char) : Bool :=
  c.toLower = pattern ||
    (pattern = 'i' && (c = Char.ofNat 0x130 || c = Char.ofNat 0x131)) ||
    (pattern = 's' && c = Char.ofNat 0x17f)

def afterLiteral : List Char → List Char → Option (List Char)
  | [], text => some text
  | _ :: _, [] => none
  | p :: pattern, c :: text => if foldsTo p c then afterLiteral pattern text else none

/-- `$`: the end, or a newline at the end. -/
def atEnd (text : List Char) : Bool :=
  text = [] || text = ['\n']

/-- `([^/]+?)(?:\.git)?$`: the shortest name that lets the rest match. -/
def repoGroup : List Char → Option (List Char)
  | [] => none
  | c :: rest =>
    if c = '/' then none
    else if atEnd rest || (afterLiteral ".git".toList rest).any atEnd then some [c]
    else (repoGroup rest).map (c :: ·)

/-- `_GITHUB_URL_RE`. -/
def matchGithubUrl (url : List Char) : Option (List Char × List Char) :=
  match afterLiteral "http".toList url with
  | none => none
  | some rest =>
    let secure := (afterLiteral "s".toList rest).getD rest
    match afterLiteral "://github.com/".toList secure with
    | none => none
    | some path =>
      let owner := path.takeWhile (· ≠ '/')
      if owner.isEmpty then none
      else match path.drop owner.length with
        | [] => none
        | _ :: rest => (repoGroup rest).map fun repo => (owner, repo)

/-- `(urlparse(url).hostname or "").lower()`. -/
def urlHost (settings : GitSettings) (url : String) : Except PyErr String :=
  (urlparse settings.tables url).map fun parsed =>
    settings.tables.lower ((parsed.hostname settings.tables).getD "")

def parseGithubUrl (settings : GitSettings) (url : String) :
    Except PyErr (List Char × List Char) := do
  let host ← urlHost settings url
  if !settings.allowedHosts.contains host then
    throw (valueError ("Git host is not allowed: " ++ host))
  else match matchGithubUrl url.toList with
    | none => throw (valueError ("Invalid GitHub URL: " ++ url))
    | some repo => return repo

def getGitProviderForUrl (settings : GitSettings) (repoUrl : String) : Except PyErr Unit := do
  let host ← urlHost settings repoUrl
  if !settings.allowedHosts.contains host then
    throw (valueError ("Git host is not allowed: " ++ host))
  else if host ≠ "github.com" then
    throw (gitError ("No Git provider is configured for host: " ++ host))
  else return ()

structure NormalizedRepo where
  repoUrl : String
  owner : String
  repo : String
  detectedRef : Option (RefType × String)
  deriving DecidableEq

/-- `repo.removesuffix(".git")`. -/
def removeGitSuffix (name : List Char) : List Char :=
  if ".git".toList.isSuffixOf name then name.take (name.length - 4) else name

def detectRef : List (List Char) → Option (RefType × String)
  | first :: rest =>
    if rest.isEmpty then none
    else if first = "tree".toList then
      some (.branch, String.ofList (['/'].intercalate rest))
    else if first = "commit".toList then some (.commit, String.ofList (rest.headD []))
    else if first = "releases".toList && rest.head? = some "tag".toList && 2 ≤ rest.length then
      some (.tag, String.ofList (['/'].intercalate rest.tail))
    else none
  | [] => none

/-- `GitHubProvider.normalize_url`. -/
def normalizeUrl (settings : GitSettings) (repoUrl : String) : Except PyErr NormalizedRepo := do
  let invalid := valueError ("Invalid GitHub URL: " ++ repoUrl)
  let parsed ← urlparse settings.tables (strip repoUrl)
  if parsed.scheme ≠ "http".toList ∧ parsed.scheme ≠ "https".toList then throw invalid
  else match (parsed.path.splitOn '/').filter (!·.isEmpty) with
    | owner :: second :: rest =>
      let repo := removeGitSuffix second
      let cleanRepoUrl := String.ofList ("https://github.com/".toList ++ owner ++ '/' :: repo)
      let _ ← parseGithubUrl settings cleanRepoUrl
      return ⟨cleanRepoUrl, String.ofList owner, String.ofList repo, detectRef rest⟩
    | _ => throw invalid

end PluginRegistry
