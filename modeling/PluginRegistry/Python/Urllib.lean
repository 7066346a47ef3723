import PluginRegistry.Python.Exceptions
import PluginRegistry.Python.Text

namespace PluginRegistry

/-- What `str.lower` and `urlsplit` look up outside ASCII: the lower case of a
text, whether the checks of a bracketed or normalised host let it through, and what they
say of one that they refuse. -/
structure UrlTables where
  lower : String → String
  netlocAllowed : String → Bool
  netlocRefusal : String → String

structure ParseResult where
  scheme : List Char
  netloc : List Char
  path : List Char
  deriving DecidableEq

/-- What `urlsplit` takes from the front of a URL. -/
def isC0ControlOrSpace (c : Char) : Bool :=
  c.toNat ≤ 32

def isSchemeChar (c : Char) : Bool :=
  c.isAlphanum || c = '+' || c = '-' || c = '.'

def splitScheme (url : List Char) : List Char × List Char :=
  let scheme := url.takeWhile (· ≠ ':')
  match url.drop scheme.length with
  | [] => ([], url)
  | _ :: rest =>
    if scheme.head?.any Char.isAlpha && scheme.all isSchemeChar then (scheme.map Char.toLower, rest)
    else ([], url)

def splitNetloc (url : List Char) : List Char × List Char :=
  match url with
  | '/' :: '/' :: rest =>
    let netloc := rest.takeWhile fun c => c ≠ '/' && c ≠ '?' && c ≠ '#'
    (netloc, rest.drop netloc.length)
  | _ => ([], url)

def dropParams (path : List Char) : List Char :=
  let last := (path.reverse.takeWhile (· ≠ '/')).reverse
  path.take (path.length - last.length) ++ last.takeWhile (· ≠ ';')

def hasParams (scheme : List Char) : Bool :=
  ["", "ftp", "hdl", "prospero", "http", "https", "shttp", "rtsp", "rtsps", "rtspu", "sip", "sips",
    "mms", "sftp", "tel"].contains (String.ofList scheme)

/-- `urllib.parse.urlparse`. -/
def urlparse (tables : UrlTables) (url : String) : Except PyErr ParseResult :=
  let cleaned := (url.toList.dropWhile isC0ControlOrSpace).filter fun c =>
    c ≠ '\t' && c ≠ '\r' && c ≠ '\n'
  let (scheme, rest) := splitScheme cleaned
  let (netloc, rest) := splitNetloc rest
  if netloc.contains '[' ≠ netloc.contains ']' then .error (valueError "Invalid IPv6 URL")
  else if !tables.netlocAllowed (String.ofList netloc) then
    .error (valueError (tables.netlocRefusal (String.ofList netloc)))
  else
    let path := (rest.takeWhile (· ≠ '#')).takeWhile (· ≠ '?')
    .ok ⟨scheme, netloc, if hasParams scheme then dropParams path else path⟩

/-- `ParseResult.hostname`: without user, port or brackets, in lower case up to
a zone. -/
def ParseResult.hostname (tables : UrlTables) (url : ParseResult) : Option String :=
  let hostinfo := (url.netloc.reverse.takeWhile (· ≠ '@')).reverse
  let host :=
    if hostinfo.contains '[' then
      ((hostinfo.dropWhile (· ≠ '[')).drop 1).takeWhile (· ≠ ']')
    else hostinfo.takeWhile (· ≠ ':')
  if host.isEmpty then none
  else
    let name := host.takeWhile (· ≠ '%')
    some (tables.lower (String.ofList name) ++ String.ofList (host.drop name.length))

/-- `ParseResult.password`: what follows the first colon of the text in front of the
last `@`. -/
def ParseResult.password (url : ParseResult) : Option String :=
  if url.netloc.contains '@' then
    let userinfo := ((url.netloc.reverse.dropWhile (· ≠ '@')).drop 1).reverse
    if userinfo.contains ':' then some (String.ofList ((userinfo.dropWhile (· ≠ ':')).drop 1))
    else none
  else none

end PluginRegistry
