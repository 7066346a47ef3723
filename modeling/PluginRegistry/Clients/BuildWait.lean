import PluginRegistry.Clients.PluginRefs

namespace PluginRegistry.Acprctl

def exitWaitTimeout : Nat := 5

structure WaitVersion where
  id : String
  version : String
  sourceRef : String
  buildStatus : String
  deriving DecidableEq, Repr

def findVersion (versions : List WaitVersion) (versionRef : String) : Option WaitVersion :=
  versions.find? fun version => version.id = versionRef || version.version = versionRef

def pickWaitVersion (versions : List WaitVersion) (versionRef : String) : Option WaitVersion :=
  if versionRef ≠ "" then findVersion versions versionRef
  else if versions.length = 1 then versions.head?
  else
    (versions.find? fun version =>
      ["pending", "building", "scanning"].contains version.buildStatus).or versions.head?

def pickWaitVersionBySourceRef (versions : List WaitVersion) (sourceRef : String) :
    Option WaitVersion :=
  versions.find? fun version => version.sourceRef = sourceRef

/-- One round of waiting: what `getPluginDetail` returned, and whether the deadline was over
when its error and when the round ended. -/
structure Poll where
  detail : Except CliError (List WaitVersion)
  lateError : Bool
  late : Bool

def Poll.timeout (poll : Poll) : Option (Except CliError WaitVersion) :=
  if poll.late then some (.error ⟨"wait timeout", 0, exitWaitTimeout⟩) else none

def pollResult (pick : List WaitVersion → Option WaitVersion) (poll : Poll) :
    Option (Except CliError WaitVersion) :=
  match poll.detail with
  | .error err =>
    if err.code ≠ exitNotFound || poll.lateError then some (.error err) else poll.timeout
  | .ok versions =>
    match pick versions with
    | none => poll.timeout
    | some version =>
      if version.buildStatus = "success" then some (.ok version)
      else if version.buildStatus = "failed" then some (.error ⟨"Build failed", 0, exitGeneral⟩)
      else poll.timeout

def waitForPluginVersion (versionRef : String) (polls : List Poll) :
    Option (Except CliError WaitVersion) :=
  polls.findSome? (pollResult fun versions => pickWaitVersion versions versionRef)

def waitForPluginVersionBySourceRef (sourceRef : String) (polls : List Poll) :
    Option (Except CliError WaitVersion) :=
  polls.findSome? (pollResult fun versions => pickWaitVersionBySourceRef versions sourceRef)

/-- What stands under `wait` in the result of a command. -/
inductive WaitReport where
  | absent
  | success (version : WaitVersion)
  | skipped (reason : String)
  deriving DecidableEq, Repr

/-- `handlePluginBuild`: `queued` is what the request for the build returned, and the polls
are made after it. -/
def handlePluginBuild (version ref : String) (wait : Bool) (queued : Except CliError String)
    (polls : List Poll) : Option (Except CliError (String × WaitReport)) :=
  match queued with
  | .error err => some (.error err)
  | .ok status =>
    let waited (result : Option (Except CliError WaitVersion)) :=
      result.map fun result => result.map fun version => (status, WaitReport.success version)
    if !wait then some (.ok (status, .absent))
    else if version ≠ "" then waited (waitForPluginVersion version polls)
    else if ref ≠ "" then waited (waitForPluginVersionBySourceRef ref polls)
    else some (.ok (status, .skipped "pass --version or --ref to wait reliably"))

end PluginRegistry.Acprctl
