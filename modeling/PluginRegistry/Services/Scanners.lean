import PluginRegistry.Services.Clamav
import PluginRegistry.Services.VirusTotal

namespace PluginRegistry
open Lib

/-- An artifact on disk: what `stat` and `sha256_file` read of it, its name, and
what `zipfile` makes of it. -/
structure ScannedArtifact where
  file : ScannedFile
  name : String
  archive : Except PyErr ZipArchive

/-- What the calls of one scan return. Each provider downloads the artifact for
itself, unless the scan is given a local copy. -/
structure ScannerCalls where
  localPath : Option ScannedArtifact
  download : Provider → Except PyErr ScannedArtifact
  clamd : Except SocketError (List (List UInt8))
  virustotal : VirusTotalCalls
  client : LlmClient

def ScannerCalls.virustotalCalls (calls : ScannerCalls) : VirusTotalCalls :=
  { calls.virustotal with download := (calls.download .virustotal).map (·.file) }

section
variable (text : PyText) (now : Time)

def scanLlmForVersion (client : LlmClient) (s3Key : Option String)
    (localPath : Option ScannedArtifact) (download : Except PyErr ScannedArtifact)
    (config : LlmAgentConfig) : Except PyErr ScanOutcome :=
  match localPath with
  | some artifact => scanLlm text client artifact.name artifact.archive config
  | none =>
    if !truthy s3Key then
      .ok
        { passed := some false
          message := "LLM scan failed: version artifact is missing"
          mode := .error }
    else match download with
      | .ok artifact => scanLlm text client artifact.name artifact.archive config
      | .error e =>
        .ok
          { passed := some false
            message := "LLM scan failed: could not download artifact: " ++ e.text
            mode := .error }

/-- `definition.scan(version, config, local_path)`. -/
def scanProvider (cfg : RuntimeConfig) (s3Key : Option String) (calls : ScannerCalls) :
    Provider → Except PyErr ScanOutcome
  | .clamav =>
    scanClamavForVersion cfg.clamav s3Key (calls.localPath.map (·.file.size))
      ((calls.download .clamav).map (·.file.size)) (clamavInstream calls.clamd)
  | .virustotal =>
    scanVirustotalForVersion text now cfg.virustotal s3Key (calls.localPath.map (·.file))
      calls.virustotalCalls
  | .llmAgent =>
    scanLlmForVersion text calls.client s3Key calls.localPath (calls.download .llmAgent)
      cfg.llmAgent

end

end PluginRegistry
