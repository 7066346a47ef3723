import PluginRegistry.Clients.Acprctl

namespace PluginRegistry.Acprctl

/-- A flag with a value is `none` until it is set. -/
structure GlobalFlags where
  serverURL : Option String := none
  username : Option String := none
  password : Option String := none
  token : Option String := none
  config : Option String := none
  format : Option String := none
  yes : Bool := false
  verbose : Bool := false
  timeout : Option String := none
  wait : Bool := false
  waitInterval : Option String := none
  waitTimeout : Option String := none
  help : Bool := false
  deriving DecidableEq, Repr

def valueFlags : List (String × (String → GlobalFlags → GlobalFlags)) :=
  [("--server-url", fun v flags => { flags with serverURL := some v }),
    ("-U", fun v flags => { flags with serverURL := some v }),
    ("--username", fun v flags => { flags with username := some v }),
    ("-u", fun v flags => { flags with username := some v }),
    ("--password", fun v flags => { flags with password := some v }),
    ("-p", fun v flags => { flags with password := some v }),
    ("--token", fun v flags => { flags with token := some v }),
    ("-t", fun v flags => { flags with token := some v }),
    ("--config", fun v flags => { flags with config := some v }),
    ("-c", fun v flags => { flags with config := some v }),
    ("--format", fun v flags => { flags with format := some v }),
    ("-f", fun v flags => { flags with format := some v }),
    ("--timeout", fun v flags => { flags with timeout := some v }),
    ("-T", fun v flags => { flags with timeout := some v }),
    ("--wait-interval", fun v flags => { flags with waitInterval := some v }),
    ("-I", fun v flags => { flags with waitInterval := some v }),
    ("--wait-timeout", fun v flags => { flags with waitTimeout := some v })]

def boolFlags : List (String × (Bool → GlobalFlags → GlobalFlags)) :=
  [("--yes", fun v flags => { flags with yes := v }),
    ("-y", fun v flags => { flags with yes := v }),
    ("--verbose", fun v flags => { flags with verbose := v }),
    ("-v", fun v flags => { flags with verbose := v }),
    ("--wait", fun v flags => { flags with wait := v }),
    ("-W", fun v flags => { flags with wait := v }),
    ("--help", fun v flags => { flags with help := v }),
    ("-h", fun v flags => { flags with help := v })]

/-- `strconv.ParseBool`, with the empty text as true. -/
def parseOptionalBool (value : String) : Option Bool :=
  if value = "" then some true
  else if ["1", "t", "T", "TRUE", "true", "True"].contains value then some true
  else if ["0", "f", "F", "FALSE", "false", "False"].contains value then some false
  else none

/-- The name of a flag, and the value that stands behind `=`. -/
def splitFlagValue (arg : String) : String × Option String :=
  if startsWith "--" arg then
    match splitOnce "=" arg with
    | some (name, value) => (name, some value)
    | none => (arg, none)
  else (arg, none)

/-- The loop of `parseGlobalFlags`. -/
def parseGlobalFrom (flags : GlobalFlags) (remaining : List String) :
    List String → Except String (GlobalFlags × List String)
  | [] => .ok (flags, remaining)
  | arg :: rest =>
    let name := (splitFlagValue arg).1
    let inline := (splitFlagValue arg).2
    match valueFlags.lookup name with
    | some setter =>
      match inline with
      | some value => parseGlobalFrom (setter value flags) remaining rest
      | none =>
        match rest with
        | value :: rest => parseGlobalFrom (setter value flags) remaining rest
        | [] => .error (name ++ " requires a value")
    | none =>
      match boolFlags.lookup name with
      | some setter =>
        let value := inline.getD "true"
        match parseOptionalBool value with
        | some value => parseGlobalFrom (setter value flags) remaining rest
        | none => .error ("invalid boolean for " ++ name ++ ": " ++ value)
      | none => parseGlobalFrom flags (remaining ++ [arg]) rest

def parseGlobalFlags (args : List String) : Except String (GlobalFlags × List String) :=
  parseGlobalFrom {} [] args

structure OptionSpec where
  hasValue : Bool := false
  multiple : Bool := false
  deriving DecidableEq, Repr

/-- A `map[string]optionSpec`. -/
abbrev OptionSpecs := String → Option OptionSpec

/-- `strings.TrimPrefix(name, "--")`. -/
def trimDashes (name : String) : String :=
  if startsWith "--" name then String.ofList (name.toList.drop 2) else name

def validationError (message : String) : CliError :=
  ⟨message, 400, exitValidation⟩

/-- The loop of `parseLocalOptions`. -/
def parseLocalFrom (specs : OptionSpecs) (values : String → List String)
    (positionals : List String) :
    List String → Except CliError ((String → List String) × List String)
  | [] => .ok (values, positionals)
  | arg :: rest =>
    let add (spec : OptionSpec) (name value : String) :=
      Function.update values name (if spec.multiple then values name ++ [value] else [value])
    if arg = "--" then .ok (values, positionals ++ rest)
    else if !startsWith "--" arg then parseLocalFrom specs values (positionals ++ [arg]) rest
    else
      let name := trimDashes (splitFlagValue arg).1
      match specs name with
      | none => .error (validationError ("unknown flag: --" ++ name))
      | some spec =>
        match (splitFlagValue arg).2 with
        | some value => parseLocalFrom specs (add spec name value) positionals rest
        | none =>
          if spec.hasValue then
            match rest with
            | value :: rest => parseLocalFrom specs (add spec name value) positionals rest
            | [] => .error (validationError ("--" ++ name ++ " requires a value"))
          else parseLocalFrom specs (add spec name "true") positionals rest

def parseLocalOptions (args : List String) (specs : OptionSpecs) :
    Except CliError ((String → List String) × List String) :=
  parseLocalFrom specs (fun _ => []) [] args

end PluginRegistry.Acprctl
