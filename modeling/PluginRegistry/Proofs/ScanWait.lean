import PluginRegistry.Proofs.FirstUploads

namespace PluginRegistry
open Lib

namespace Acprctl
variable {version : PluginVersion} {required : List Provider} {scannedAt : Option String}

def goesOn (result : JsonObject) : Bool :=
  stringField result "mode" = "skipped" ||
    (!(["", "pending", "error"].contains (stringField result "mode")) &&
      boolField result "pass" = some true)

/-- The wait is done where every provider was skipped or has passed. -/
theorem providersDone_iff {scan : JsonObject} {providers : List String} :
    providersDone scan providers = .ok true ↔
      ∀ provider ∈ providers, goesOn (mapField scan provider) = true := by
  induction providers with
  | nil => simp [providersDone]
  | cons provider rest ih =>
    rw [List.forall_mem_cons, ← ih, providersDone]
    generalize mapField scan provider = result
    cases result with
    | nil => simp [goesOn, stringField, JsonObject.get]
    | cons field fields =>
      dsimp only
      rw [if_neg (by simp)]
      simp only [goesOn]
      generalize stringField (field :: fields) "mode" = mode
      by_cases hskipped : mode = "skipped"
      · simp [hskipped]
      · by_cases hwaits : mode = "" ∨ mode = "pending"
        · rcases hwaits with rfl | rfl <;> simp
        · obtain ⟨hempty, hpending⟩ := not_or.mp hwaits
          by_cases herror : mode = "error"
          · simp [herror]
          · cases boolField (field :: fields) "pass" with
            | none => simp [hskipped, hempty, hpending, herror]
            | some passed => cases passed <;> simp [hskipped, hempty, hpending, herror]

def payloadFields (result : ScanPayload) : JsonObject :=
  [("pass", result.pass.elim .null .bool), ("msg", result.msg.elim .null .str),
    ("mode", .str result.mode.text)]

/-- The client goes on exactly where the policy lets the version through. -/
theorem goesOn_payload (result : ScanPayload) :
    goesOn (payloadFields result) = result.passes := by
  have hmode : stringField (payloadFields result) "mode" = result.mode.text := rfl
  have hpass : boolField (payloadFields result) "pass" = result.pass := by
    cases hp : result.pass <;> simp [boolField, payloadFields, JsonObject.get, hp]
  rw [goesOn, hmode, hpass, ScanPayload.passes]
  cases result.mode with
  | pending => rfl
  | skipped => rfl
  | error => rfl
  | real =>
    cases result.pass with
    | none => rfl
    | some pass => cases pass <;> rfl

theorem mapField_summary (p : Provider) :
    mapField (Dashboard.summaryFields version required scannedAt) p.name =
      ((scanProviderResults version (some required) p).map payloadFields).getD [] := by
  rw [mapField, JsonObject.get, ← List.head?_filter, Dashboard.filter_summaryFields]
  cases scanProviderResults version (some required) p <;> rfl

theorem scan_json (summary : VersionSummary) {fields : JsonObject}
    (h : summary.scan = .obj fields) : mapField summary.json "scan" = fields := by
  rw [mapField, VersionSummary.json, h]
  rfl

/-- Without a selection the wait is for the required providers that have a result. -/
theorem mem_resolved {key : String} :
    key ∈ resolvedScanProviders (versionSummary version (some required) scannedAt).json [] ↔
      ∃ p, (scanProviderResults version (some required) p).isSome ∧ key = p.name := by
  rw [resolvedScanProviders, if_neg (by simp), List.mem_mergeSort,
    scan_json _ (Dashboard.summary_scan version required scannedAt)]
  constructor
  · intro hkey
    obtain ⟨field, hfield, rfl⟩ := List.mem_map.mp hkey
    obtain ⟨hin, hkept⟩ := List.mem_filter.mp hfield
    rw [Dashboard.summaryFields, List.mem_append] at hin
    rcases hin with hentry | hother
    · obtain ⟨p, -, hp⟩ := List.mem_filterMap.mp hentry
      obtain ⟨result, hresult, rfl⟩ := Option.map_eq_some_iff.mp hp
      refine ⟨p, ?_, rfl⟩
      rw [hresult]
      rfl
    · simp only [List.mem_cons, List.not_mem_nil, or_false] at hother
      rcases hother with rfl | rfl
      · simp at hkept
      · simp [isMap] at hkept
  · rintro ⟨p, hp, rfl⟩
    obtain ⟨result, hresult⟩ := Option.isSome_iff_exists.mp hp
    have hfield : (p.name, result.json) ∈
        (Dashboard.summaryFields version required scannedAt).filter
          fun entry => entry.1 = p.name := by
      rw [Dashboard.filter_summaryFields, hresult]
      exact List.mem_singleton_self _
    have hname : p.name ≠ "scanned_at" := by
      cases p <;> simp [Provider.name]
    exact List.mem_map.mpr ⟨_, List.mem_filter.mpr ⟨List.mem_of_mem_filter hfield,
      by simp [hname, ScanPayload.json, isMap]⟩, rfl⟩

/-- The wait ends well where a required provider has a result, and every result
there is lets the version through. -/
theorem scanProvidersDone_summary :
    scanProvidersDone (versionSummary version (some required) scannedAt).json [] = .ok true ↔
      (∃ p, (scanProviderResults version (some required) p).isSome) ∧
        ∀ p result, scanProviderResults version (some required) p = some result →
          result.passes = true := by
  have hscan : (mapField (versionSummary version (some required) scannedAt).json "scan").isEmpty =
      false := by
    rw [scan_json _ (Dashboard.summary_scan version required scannedAt), Dashboard.summaryFields]
    simp
  rw [scanProvidersDone, hscan, if_neg (by simp)]
  cases hnames : (resolvedScanProviders
      (versionSummary version (some required) scannedAt).json []).isEmpty with
  | true =>
    rw [if_pos rfl]
    refine iff_of_false (by simp) ?_
    rintro ⟨⟨p, hp⟩, -⟩
    have hmem : p.name ∈ resolvedScanProviders
        (versionSummary version (some required) scannedAt).json [] := mem_resolved.mpr ⟨p, hp, rfl⟩
    rw [List.isEmpty_iff.mp hnames] at hmem
    cases hmem
  | false =>
    rw [if_neg (by simp), providersDone_iff,
      scan_json _ (Dashboard.summary_scan version required scannedAt)]
    obtain ⟨key, hkey⟩ := List.exists_mem_of_ne_nil _ fun hnil => by
      rw [List.isEmpty_eq_false_iff] at hnames
      exact hnames hnil
    obtain ⟨first, hfirst, -⟩ := mem_resolved.mp hkey
    rw [and_iff_right ⟨first, hfirst⟩]
    constructor
    · intro hall p result hresult
      have hgoes := hall p.name (mem_resolved.mpr ⟨p, by rw [hresult]; rfl, rfl⟩)
      rw [mapField_summary, hresult] at hgoes
      exact goesOn_payload result ▸ hgoes
    · intro hall key hkey
      obtain ⟨p, hp, rfl⟩ := mem_resolved.mp hkey
      obtain ⟨result, hresult⟩ := Option.isSome_iff_exists.mp hp
      rw [mapField_summary, hresult]
      exact (goesOn_payload result).trans (hall p result hresult)

end Acprctl

/-- A wait without a selection that ends well tells the truth exactly where the
required providers have all been recorded, or none has, or one that has been
recorded stops the version. -/
theorem scan_wait_honest_iff (version : PluginVersion) (required : List Provider)
    (scannedAt : Option String) :
    (Acprctl.scanProvidersDone (versionSummary version (some required) scannedAt).json
        (Acprctl.scanProvidersForWait "all") = .ok true →
      scanProvidersPassed version (some required) = true) ↔
    (∀ p ∈ required, (scanProviderResults version none p).isSome) ∨
      (∀ p ∈ required, scanProviderResults version none p = none) ∨
      ∃ p ∈ required, ∃ result, scanProviderResults version none p = some result ∧
        result.passes = false := by
  have hrecorded : ∀ p result, scanProviderResults version (some required) p = some result ↔
      p ∈ required ∧ scanProviderResults version none p = some result := by
    intro p result
    constructor
    · intro h
      have hp := Dashboard.mem_of_result h
      exact ⟨hp, Dashboard.result_of_required hp ▸ h⟩
    · rintro ⟨hp, h⟩
      exact (Dashboard.result_of_required hp).trans h
  have hpassed : scanProvidersPassed version (some required) =
      required.all fun p => (scanProviderResults version none p).any ScanPayload.passes := rfl
  change (Acprctl.scanProvidersDone _ [] = _ → _) ↔ _
  rw [Acprctl.scanProvidersDone_summary, hpassed, List.all_eq_true]
  constructor
  · intro hhonest
    by_contra hnot
    obtain ⟨hmissing, hnot⟩ := not_or.mp hnot
    obtain ⟨hsome, hpass⟩ := not_or.mp hnot
    simp only [not_forall, not_exists, not_and, exists_prop] at hmissing hsome hpass
    obtain ⟨q, hq, hnone⟩ := hmissing
    obtain ⟨p, hp, hp'⟩ := hsome
    obtain ⟨result, hresult⟩ := Option.ne_none_iff_exists'.mp hp'
    have hall := hhonest ⟨⟨p, by rw [(hrecorded p result).mpr ⟨hp, hresult⟩]; rfl⟩,
      fun r other hother => by
        obtain ⟨hr, hother⟩ := (hrecorded r other).mp hother
        simpa using hpass r hr other hother⟩ q hq
    rw [Option.not_isSome_iff_eq_none.mp hnone] at hall
    cases hall
  · rintro hcases ⟨⟨p, hp⟩, hall⟩ q hq
    obtain ⟨result, hresult⟩ := Option.isSome_iff_exists.mp hp
    obtain ⟨hp, hresult⟩ := (hrecorded p result).mp hresult
    rcases hcases with hcomplete | hnone | ⟨r, hr, other, hother, hfails⟩
    · obtain ⟨found, hfound⟩ := Option.isSome_iff_exists.mp (hcomplete q hq)
      rw [hfound]
      exact hall q found ((hrecorded q found).mpr ⟨hq, hfound⟩)
    · rw [hnone p hp] at hresult
      cases hresult
    · rw [hall r other ((hrecorded r other).mpr ⟨hr, hother⟩)] at hfails
      cases hfails

def unseenVersion : PluginVersion :=
  { PluginVersion.new 0 0 "1.0.0" (some "key") (some "url") .manualUpload none .success with
    providerResults := fun reviewer =>
      if reviewer = .machine .virustotal then
        some { ReviewProviderResult.new .scan with passed := some true, mode := .real }
      else none }

theorem unscanned_provider_reported_done :
    Acprctl.scanProvidersDone
        (versionSummary unseenVersion (some [.clamav, .virustotal]) none).json
        (Acprctl.scanProvidersForWait "all") = .ok true ∧
      scanProvidersPassed unseenVersion (some [.clamav, .virustotal]) = false := by
  refine ⟨?_, rfl⟩
  change Acprctl.scanProvidersDone _ [] = _
  rw [Acprctl.scanProvidersDone_summary]
  refine ⟨⟨.virustotal, rfl⟩, ?_⟩
  intro p result hresult
  cases p with
  | clamav => cases hresult
  | virustotal =>
    cases hresult
    rfl
  | llmAgent => cases hresult

end PluginRegistry
