import PluginRegistry.Python.Codecs
import PluginRegistry.Services.ScanService

namespace PluginRegistry
open Lib

inductive Errno
  | econnrefused | ehostunreach | enetunreach | other
  deriving DecidableEq

/-- An exception of the connection, with its `errno` where it has one. -/
structure SocketError where
  error : PyErr
  errno : Option Errno

/-- `StreamReader.read(n)`: it waits for the first bytes, and takes no more than
have arrived by then. An end without any gives nothing. -/
def streamRead (n : Nat) (segments : List (List UInt8)) : List UInt8 :=
  ((segments.find? fun segment => !segment.isEmpty).getD []).take n

def replyText (data : List UInt8) : String :=
  strip (removeText "\x00" (decodeReplace data))

def clamavInstream (call : Except SocketError (List (List UInt8))) : Except SocketError String :=
  call.map fun segments => replyText (streamRead 4096 segments)

def tenths (value unit : Nat) : String :=
  let quotient := value * 10 / unit
  let rest := value * 10 % unit
  let rounded :=
    if unit < 2 * rest ∨ (2 * rest = unit ∧ quotient % 2 = 1) then quotient + 1 else quotient
  toString (rounded / 10) ++ "." ++ toString (rounded % 10)

def humanBytes (value : Nat) : String :=
  if value < 1024 then toString value ++ " bytes"
  else if value < 1024 ^ 2 then tenths value 1024 ++ " KiB"
  else if value < 1024 ^ 3 then tenths value (1024 ^ 2) ++ " MiB"
  else tenths value (1024 ^ 3) ++ " GiB"

def clamavMessageDetails (reply : String) (fileSize : Option Nat) : String :=
  String.intercalate "; " (["protocol=INSTREAM"] ++
    (fileSize.map fun size => "artifact_size=" ++ humanBytes size).toList ++
    ["clamd_reply=\"" ++ reply ++ "\""])

def clamavFoundSignature (reply : String) : String :=
  let signature := removeSuffix " FOUND" reply
  let signature := (afterLast ": " signature).getD signature
  if signature.isEmpty then "unknown" else signature

def formatClamavReply (reply : String) (fileSize : Option Nat) : ScanOutcome :=
  let normalized := strip reply
  if normalized.isEmpty then
    { passed := some false, message := "ClamAV scan failed: empty response", mode := .error }
  else
    let details := clamavMessageDetails normalized fileSize
    if endsWith " OK" normalized then
      { passed := some true
        message := "ClamAV passed: no signature match (" ++ details ++ ")"
        mode := .real }
    else if textContains " FOUND" normalized then
      { passed := some false
        message := "ClamAV detected malware signature: " ++ clamavFoundSignature normalized ++
          " (" ++ details ++ ")"
        mode := .real }
    else if textContains " ERROR" normalized || startsWith "ERROR" normalized then
      { passed := some false, message := "ClamAV scan failed: " ++ details, mode := .error }
    else
      { passed := some false
        message := "ClamAV scan failed: unexpected response (" ++ details ++ ")"
        mode := .error }

def clamavOsErrorHint (errno : Option Errno) (host : String) (port : Int) : String :=
  match errno with
  | some .econnrefused =>
    "; clamd refused TCP connection at " ++ host ++ ":" ++ toString port ++
      ", check ClamAV health, memory limit, and listener config"
  | some .ehostunreach | some .enetunreach =>
    "; clamd host " ++ host ++ ":" ++ toString port ++
      " is unreachable, check CLAMAV_HOST/CLAMAV_PORT and container networking"
  | _ => ""

def ClamavConfig.streamLimit (config : ClamavConfig) : Int :=
  max 1 config.maxStreamBytes

def scanClamav (config : ClamavConfig) (fileSize : Nat) (reply : Except SocketError String) :
    Except PyErr ScanOutcome :=
  if config.streamLimit < fileSize then
    .ok
      { passed := some false
        message := "ClamAV scan failed: file exceeds stream limit (" ++ toString fileSize ++
          " > " ++ toString config.streamLimit ++ " bytes)"
        mode := .error }
  else
    match reply with
    | .ok reply => .ok (formatClamavReply reply (some fileSize))
    | .error failure =>
      if failure.error.isA [.timeoutError] then
        .ok
          { passed := some false
            message := "ClamAV scan failed: timed out after " ++
              toString (max 1 config.timeoutSeconds) ++ " seconds"
            mode := .error }
      else if failure.error.isA [.osError] then
        .ok
          { passed := some false
            message := "ClamAV scan failed: " ++ failure.error.text ++
              clamavOsErrorHint failure.errno config.host config.port
            mode := .error }
      else .error failure.error

def scanClamavForVersion (config : ClamavConfig) (s3Key : Option String)
    (localSize : Option Nat) (download : Except PyErr Nat) (reply : Except SocketError String) :
    Except PyErr ScanOutcome :=
  match localSize with
  | some size => scanClamav config size reply
  | none =>
    if !truthy s3Key then
      .ok
        { passed := some false
          message := "ClamAV scan failed: version artifact is missing"
          mode := .error }
    else match download with
      | .ok size => scanClamav config size reply
      | .error e =>
        .ok
          { passed := some false
            message := "ClamAV scan failed: could not download artifact: " ++ e.text
            mode := .error }

end PluginRegistry
