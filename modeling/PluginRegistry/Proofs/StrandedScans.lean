import PluginRegistry.Proofs.LlmVerdict
import PluginRegistry.Proofs.ScanGate
import PluginRegistry.Proofs.ScannerEscapes

namespace PluginRegistry
open Lib

variable {text : PyText} {env : Env} {calls : ScannerCalls}

/-- The environment of a request about a version, with the scanners that are asked in it. -/
def Env.scanning (env : Env) (text : PyText) (cfg : RuntimeConfig) (version : PluginVersion)
    (calls : ScannerCalls) : Env :=
  { env with
    scanAnswer := scanProvider text env.now cfg version.s3Key calls
    pollAnswer := pollVirustotalAnalysisOnce text ((version.awaitedAnalysis env.now).getD "")
      calls.virustotal.analysis }

def ScannerCalls.Aborts (calls : ScannerCalls) (text : PyText) (cfg : RuntimeConfig)
    (version : PluginVersion) (selected : List Provider) : Prop :=
  ∃ p ∈ selected, cfg.isConfigured p = true ∧ calls.LetsThrough text cfg version.s3Key p

theorem scanning_answered {cfg : RuntimeConfig} {v : PluginVersion} {selected : List Provider} :
    Answered (env.scanning text cfg v calls) cfg selected ↔ ¬ calls.Aborts text cfg v selected := by
  have hone : ∀ p, (∃ o, (env.scanning text cfg v calls).scanAnswer p = .ok o) ↔
      ¬ calls.LetsThrough text cfg v.s3Key p := by
    intro p
    rw [← scanProvider_raises env.now]
    change (∃ o, scanProvider text env.now cfg v.s3Key calls p = .ok o) ↔ _
    cases scanProvider text env.now cfg v.s3Key calls p with
    | ok o => simp
    | error e => simp
  constructor
  · rintro h ⟨p, hp, hconf, hraise⟩
    exact (hone p).mp (h p hp hconf) hraise
  · intro h p hp hconf
    exact (hone p).mpr fun hraise => h ⟨p, hp, hconf, hraise⟩

/-- The rows after a scan none of whose scanners raises. -/
theorem Db.scanResult_recorded {db : Db} {versionId : VersionId} {v : PluginVersion}
    {providers : Option (List String)} {selected : List Provider}
    (hv : db.versions.lookup versionId = some v)
    (hsel : db.selectedProviders providers = .ok selected)
    (hans : Answered env db.config selected)
    (hlate : ¬ (v.isLatest = true ∧ Waiting env db.config selected)) :
    ∃ v', (db.scanResult env versionId providers).versions.lookup versionId = some v' ∧
      ∀ p ∈ selected, ∃ o, Reported env db.config p o ∧ v'.result p = some o.payload := by
  obtain ⟨outcomes, hrun⟩ := scanSelectedProviders_ok.mpr hans
  obtain ⟨hrep, hmem, hdis⟩ := scanSelectedProviders_reports hrun
  have hnd := db.selection_nodup providers
  rw [Db.selection_of_ok hsel] at hnd
  have hres : ∀ p ∈ selected, ∃ o, Reported env db.config p o ∧
      (v.scanned env.now outcomes).result p = some o.payload := by
    intro p hp
    obtain ⟨o, ho⟩ := hmem p hp
    refine ⟨o, (hrep p o ho).2, ?_⟩
    exact (PluginVersion.finishScan_result _).trans (PluginVersion.recordAll_result (hdis hnd) ho)
  have hrow := Db.scanned_lookup env.now hv outcomes
  have hnot : ¬ (v.isLatest = true ∧ anyPending outcomes = true) := by
    rw [anyPending_iff hrun]
    exact hlate
  rw [Db.scanResult, hsel, hv]
  dsimp only
  rw [hrun]
  dsimp only
  rw [if_neg hnot, Db.afterScan]
  split
  · have hkept : ∀ p, ∃ v', ((db.scanned env.now versionId outcomes).autoPublished env.now
        versionId).versions.lookup versionId = some v' ∧
        v'.result p = (v.scanned env.now outcomes).result p :=
      fun p => Db.autoPublished_result hrow env.now p
    obtain ⟨v', hv', -⟩ := hkept .clamav
    refine ⟨v', hv', fun p hp => ?_⟩
    obtain ⟨o, hrep, ho⟩ := hres p hp
    obtain ⟨w, hw, hsame⟩ := hkept p
    cases hv'.symm.trans hw
    exact ⟨o, hrep, hsame.trans ho⟩
  · exact ⟨_, hrow, hres⟩

/-- The rows after a scan that an exception cuts short. -/
theorem Db.scanResult_aborted {db : Db} {versionId : VersionId} {v : PluginVersion}
    {providers : Option (List String)} {selected : List Provider}
    (hv : db.versions.lookup versionId = some v)
    (hsel : db.selectedProviders providers = .ok selected)
    (hans : ¬ Answered env db.config selected) :
    (db.scanResult env versionId providers).versions.lookup versionId =
      some (if canMarkBuildScanning v then v.beginScan env.now else v) := by
  have hrun : ∃ e, scanSelectedProviders env db.config selected = .error e := by
    cases hrun : scanSelectedProviders env db.config selected with
    | ok outcomes => exact absurd (scanSelectedProviders_ok.mp ⟨outcomes, hrun⟩) hans
    | error e => exact ⟨e, rfl⟩
  obtain ⟨e, hrun⟩ := hrun
  rw [Db.scanResult, hsel, hv]
  dsimp only
  rw [hrun]
  dsimp only
  rw [Db.scanOpened]
  split
  · simp [hv]
  · exact hv

theorem scanVersion_aborted {db : Db} {x : Outside} (h : db.Sound) {versionId : VersionId}
    {v : PluginVersion} {providers : Option (List String)} {selected : List Provider}
    (hv : db.versions.lookup versionId = some v)
    (hsel : db.selectedProviders providers = .ok selected)
    (hans : ¬ Answered env db.config selected) :
    ((scanVersion env versionId providers).perform db x).outside = x := by
  have hrun := scanVersion_run env x h versionId providers
  rw [hsel] at hrun
  simp only [hv] at hrun
  cases hscan : scanSelectedProviders env db.config selected with
  | ok outcomes => exact absurd (scanSelectedProviders_ok.mp ⟨outcomes, hscan⟩) hans
  | error e =>
    rw [hscan] at hrun
    rw [Work.perform, hrun]

def configWithLlm : RuntimeConfig :=
  { RuntimeConfig.default with scanEnabledProviders := [.llmAgent], llmAgent := llmConfig }

def silentClient : LlmClient :=
  { refusingClient with post := fun _ _ _ _ => .ok (.obj [("choices", .arr [])]) }

def silentCalls : ScannerCalls where
  localPath := none
  download := fun _ => .ok ⟨⟨22, ""⟩, "a.zip", .ok emptyArchive⟩
  clamd := .ok []
  virustotal := .uploading .null
  client := silentClient

theorem silentCalls_abort {cfg : RuntimeConfig} {v : PluginVersion}
    (hllm : cfg.llmAgent = llmConfig) (hkey : truthy v.s3Key = true) :
    silentCalls.Aborts asciiText cfg v [.llmAgent] := by
  refine ⟨.llmAgent, List.mem_singleton_self _, ?_, ?_⟩
  · change cfg.llmAgent.isConfigured = true
    rw [hllm]
    decide
  · refine ⟨⟨⟨22, ""⟩, "a.zip", .ok emptyArchive⟩, ?_, ?_⟩
    · change (if truthy v.s3Key then _ else _) = _
      rw [if_pos hkey]
      rfl
    · rw [hllm]
      exact .choices rfl emptyArchive_context rfl rfl (.inl rfl)

end PluginRegistry
