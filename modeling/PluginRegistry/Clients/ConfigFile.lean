import PluginRegistry.Clients.Acprctl

namespace PluginRegistry.Acprctl

/-- A `map[string]string` of the configuration. -/
abbrev ConfigValues := String → Option String

/-- The keys in the order in which `writeConfig` writes them. -/
def configKeys : List String :=
  ["server_url", "username", "password", "token", "format", "timeout", "wait_interval",
    "wait_timeout"]

/-- Whether `yamlScalar` puts a value in quotes. -/
def needsQuotes (value : String) : Bool :=
  value.toList.any (fun c => c = '\n' || c = '#') || startsWith " " value || endsWith " " value

def yamlScalar (value : String) : String :=
  if value = "" then "\"\""
  else if needsQuotes value then
    let escaped := String.ofList (value.toList.flatMap fun c => if c = '"' then ['\\', '"'] else [c])
    "\"" ++ escaped ++ "\""
  else value

/-- `key: value`. -/
def configLine (key value : String) : String :=
  key ++ ": " ++ yamlScalar value

def writeConfig (values : ConfigValues) : String :=
  String.join ((configKeys.filterMap fun key => (values key).map (configLine key)).map (· ++ "\n"))

/-- `bufio.MaxScanTokenSize`. -/
def maxScanTokenSize : Nat := 64 * 1024

def scanLines (text : String) : List String :=
  let parts := splitText '\n' text
  if parts.getLast? = some "" then parts.dropLast else parts

def isQuote (c : Char) : Bool :=
  c = '"' || c = '\''

/-- What one line of the file does to the values, or the error that ends the reading. -/
def readLine (values : ConfigValues) (text : String) : Except String ConfigValues :=
  if maxScanTokenSize ≤ text.utf8ByteSize then
    .error "failed to read config file: bufio.Scanner: token too long"
  else
    let line := trimSpace (removeSuffix "\r" text)
    if line = "" || startsWith "#" line then .ok values
    else
      match splitOnce ":" line with
      | none => .error ("invalid config line: " ++ line)
      | some (key, value) =>
        let key := trimSpace key
        let value := stripBy isQuote (trimSpace value)
        .ok (if key ≠ "" then Function.update values key (some value) else values)

def readConfig (file : Option String) : Except String (ConfigValues × Bool) :=
  match file with
  | none => .ok (fun _ => none, false)
  | some text => ((scanLines text).foldlM readLine fun _ => none).map fun values => (values, true)

end PluginRegistry.Acprctl
