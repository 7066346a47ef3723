import PluginRegistry.Clients.Acprctl
import PluginRegistry.Proofs.ConfigCoherence

namespace PluginRegistry
open Lib

/-- What the two sides do with the name of a provider. -/
theorem Provider.name_texts (p : Provider) :
    (p.name.toList.all fun c => c.toNat < 128 ∧ c ≠ ',' ∧ c ≠ Char.ofNat 0) = true ∧
      strip p.name = p.name ∧ asciiLower p.name = p.name ∧
      ["none", "off", "disabled"].contains p.name = false ∧
      Acprctl.trimSpace p.name = p.name ∧ Acprctl.foldsToNone p.name = false ∧
      Acprctl.isSupportedScanProvider p.name = true := by
  cases p <;> decide

theorem Provider.name_ne_empty (p : Provider) : p.name ≠ "" := by
  cases p <;> decide

theorem Provider.strip_name (p : Provider) : strip p.name = p.name :=
  p.name_texts.2.1

theorem Provider.name_chars (p : Provider) {c : Char} (hc : c ∈ p.name.toList) :
    c.toNat < 128 ∧ c ≠ ',' ∧ c ≠ Char.ofNat 0 :=
  of_decide_eq_true (List.all_eq_true.mp p.name_texts.1 c hc)

theorem Provider.lower_name {lower : String → String} (h : LowersAscii lower) (p : Provider) :
    lower p.name = p.name := by
  rw [h p.name fun c hc => (p.name_chars hc).1]
  exact p.name_texts.2.2.1

theorem Provider.comma_not_mem_name (p : Provider) : ',' ∉ p.name.toList :=
  fun h => (p.name_chars h).2.1 rfl

/-- Names joined by commas read back as the names. -/
theorem listItems_names (ps : List Provider) :
    listItems (String.intercalate "," (ps.map Provider.name)) = ps.map Provider.name := by
  cases ps with
  | nil => decide
  | cons p ps =>
    have hsplit : splitText ',' (String.intercalate "," ((p :: ps).map Provider.name)) =
        (p :: ps).map Provider.name := by
      refine splitText_intercalate rfl (by simp) ?_
      intro text ht
      obtain ⟨q, -, rfl⟩ := List.mem_map.mp ht
      exact q.comma_not_mem_name
    rw [listItems, hsplit, List.map_map]
    have hstrip : (p :: ps).map (strip ∘ Provider.name) = (p :: ps).map Provider.name :=
      List.map_congr_left fun q _ => q.strip_name
    rw [hstrip, List.filter_eq_self]
    intro text ht
    obtain ⟨q, -, rfl⟩ := List.mem_map.mp ht
    simpa [String.isEmpty_iff] using q.name_ne_empty

/-- The server reads provider names as the providers. -/
theorem normalizeScanProviderList_names {lower : String → String} (h : LowersAscii lower)
    (ps : List Provider) (p : Provider) :
    (normalizeScanProviderList lower (ps.map Provider.name)).contains p = ps.contains p := by
  have hnormal : ((ps.map Provider.name).filter fun q => !(strip q).isEmpty).map
      (fun q => lower (strip q)) = ps.map Provider.name := by
    rw [List.filter_eq_self.mpr ?_, List.map_map]
    · refine List.map_congr_left fun q _ => ?_
      rw [Function.comp_apply, q.strip_name, Provider.lower_name h]
    · intro text ht
      obtain ⟨q, -, rfl⟩ := List.mem_map.mp ht
      simpa [q.strip_name, String.isEmpty_iff] using q.name_ne_empty
  have hon : (ps.map Provider.name).any ["none", "off", "disabled"].contains = false := by
    rw [List.any_eq_false]
    intro text ht
    obtain ⟨q, -, rfl⟩ := List.mem_map.mp ht
    simpa using q.name_texts.2.2.2.1
  have hname : (ps.map Provider.name).contains p.name = ps.contains p := by
    rw [Bool.eq_iff_iff, List.contains_iff_mem, List.contains_iff_mem]
    constructor
    · intro hm
      obtain ⟨q, hq, heq⟩ := List.mem_map.mp hm
      have hpq : q = p := by
        revert heq
        cases q <;> cases p <;> decide
      rwa [← hpq]
    · exact List.mem_map_of_mem
  rw [normalizeScanProviderList]
  simp only [hnormal, hon, Bool.false_eq_true, if_false]
  rw [Bool.eq_iff_iff, List.contains_iff_mem, List.mem_filter, hname]
  exact and_iff_right p.mem_names

namespace Acprctl

def cliOrder : List Provider := [.virustotal, .llmAgent, .clamav]

def namesOf (g : Provider → Bool) : List String :=
  (cliOrder.filter g).map Provider.name

theorem mem_cliOrder (p : Provider) : p ∈ cliOrder := by
  cases p <;> decide

theorem name_injective : Function.Injective Provider.name := by
  intro p q h
  revert h
  cases p <;> cases q <;> decide

theorem contains_namesOf (g : Provider → Bool) (p : Provider) :
    (namesOf g).contains p.name = g p := by
  rw [Bool.eq_iff_iff, List.contains_iff_mem, namesOf, List.mem_map_of_injective name_injective,
    List.mem_filter]
  exact and_iff_right (mem_cliOrder p)

theorem trimSpace_name (p : Provider) : trimSpace p.name = p.name :=
  p.name_texts.2.2.2.2.1

theorem normalizeProviderList_eq (providers : List String) :
    normalizeProviderList providers =
      namesOf fun p => (providers.map trimSpace).contains p.name := by
  have hselected : ∀ p : Provider, ((providers.map trimSpace).filter fun provider =>
      !(provider = "" || foldsToNone provider) && isSupportedScanProvider provider).contains
        p.name = (providers.map trimSpace).contains p.name := by
    intro p
    have hkept : (!(p.name = "" || foldsToNone p.name) && isSupportedScanProvider p.name) =
        true := by
      obtain ⟨-, -, -, -, -, hfolds, hsupported⟩ := p.name_texts
      rw [hfolds, hsupported, decide_eq_false p.name_ne_empty]
      rfl
    rw [Bool.eq_iff_iff, List.contains_iff_mem, List.contains_iff_mem, List.mem_filter]
    exact and_iff_left hkept
  have horder : supportedScanProviders = cliOrder.map Provider.name := rfl
  rw [normalizeProviderList, horder, List.filter_map, namesOf]
  congr 1
  exact List.filter_congr fun p _ => hselected p

theorem map_trimSpace_namesOf (g : Provider → Bool) :
    (namesOf g).map trimSpace = namesOf g := by
  rw [namesOf, List.map_map]
  exact List.map_congr_left fun p _ => trimSpace_name p

theorem appendProvider_namesOf (g : Provider → Bool) (q : Provider) :
    appendProvider (namesOf g) q.name = namesOf fun p => g p || p = q := by
  rw [appendProvider, normalizeProviderList_eq, List.map_append, map_trimSpace_namesOf,
    List.map_singleton, trimSpace_name]
  congr 1
  funext p
  rw [List.contains_append, contains_namesOf]
  simp [name_injective.eq_iff]

theorem removeProvider_namesOf (g : Provider → Bool) (q : Provider) :
    removeProvider (namesOf g) q.name = namesOf fun p => g p && p ≠ q := by
  have hfilter : (namesOf g).filter (· ≠ q.name) = namesOf fun p => g p && p ≠ q := by
    rw [namesOf, List.filter_map, List.filter_filter, namesOf]
    congr 1
    refine List.filter_congr fun p _ => ?_
    simp [name_injective.eq_iff, Bool.and_comm]
  rw [removeProvider, hfilter, normalizeProviderList_eq, map_trimSpace_namesOf]
  congr 1
  funext p
  exact contains_namesOf _ p

def ProviderAction.result : ProviderAction → Bool → Bool → Bool
  | .enable, old, named => old || named
  | .disable, old, named => old && !named

/-- The loop enables or disables the named providers and no other. -/
theorem foldlM_switchProvider (action : ProviderAction) (g : Provider → Bool)
    (ps : List Provider) :
    (ps.map Provider.name).foldlM (switchProvider action) (namesOf g) =
      .ok (namesOf fun p => action.result (g p) (ps.contains p)) := by
  induction ps generalizing g with
  | nil => cases action <;> simp [ProviderAction.result, pure, Except.pure]
  | cons q ps ih =>
    have hsupported : isSupportedScanProvider q.name = true := q.name_texts.2.2.2.2.2.2
    rw [List.map_cons, List.foldlM_cons]
    cases action with
    | enable =>
      have hstep : switchProvider .enable (namesOf g) q.name =
          .ok (namesOf fun p => g p || p = q) := by
        simp only [switchProvider, hsupported, Bool.not_true, Bool.false_eq_true, if_false,
          appendProvider_namesOf]
      rw [hstep]
      refine (ih _).trans ?_
      congr 2
      funext p
      simp [ProviderAction.result, Bool.or_assoc]
    | disable =>
      have hstep : switchProvider .disable (namesOf g) q.name =
          .ok (namesOf fun p => g p && p ≠ q) := by
        simp only [switchProvider, hsupported, Bool.not_true, Bool.false_eq_true, if_false,
          removeProvider_namesOf]
      rw [hstep]
      refine (ih _).trans ?_
      congr 2
      funext p
      simp [ProviderAction.result, Bool.and_assoc]

section
variable (lower : String → String) (settings : Settings) (rows : ConfigRows)

def startText : String :=
  (rows.lookup "SCAN_ENABLED_PROVIDERS").getD (String.intercalate "," settings.scanEnabledProviders)

def cliReads (p : Provider) : Bool :=
  (normalizeProviderList (splitCSV (startText settings rows))).contains p.name

theorem effectiveValues_providers :
    (buildConfigResponse settings rows).effectiveValues.lookup "SCAN_ENABLED_PROVIDERS" =
      some (startText settings rows) := by
  rfl

/-- What the CLI takes for the enabled providers is what the server reads from its table. -/
theorem providerConfigSummary_enabled :
    (providerConfigSummary (buildConfigResponse settings rows)).enabled =
      namesOf (cliReads settings rows) := by
  have hraw : (if startText settings rows = "" then
      ((buildConfigResponse settings rows).values.lookup "SCAN_ENABLED_PROVIDERS").getD ""
      else startText settings rows) = startText settings rows := by
    split
    · rename_i hempty
      have hkept : (buildConfigResponse settings rows).values.lookup "SCAN_ENABLED_PROVIDERS" =
          rows.lookup "SCAN_ENABLED_PROVIDERS" := by
        rw [buildConfigResponse, Table.lookup_keep]
        cases rows.lookup "SCAN_ENABLED_PROVIDERS" with
        | none => rfl
        | some text => rfl
      rw [hkept, hempty]
      unfold startText at hempty
      cases hl : rows.lookup "SCAN_ENABLED_PROVIDERS" with
      | none => rfl
      | some text =>
        rw [hl] at hempty
        exact hempty
    · rfl
  have hnormal : normalizeProviderList (splitCSV (startText settings rows)) =
      namesOf (cliReads settings rows) := by
    rw [normalizeProviderList_eq]
    congr 1
    funext p
    rw [cliReads, normalizeProviderList_eq, contains_namesOf]
  simp only [providerConfigSummary, effectiveValues_providers, Option.getD_some, hraw, hnormal]
  split
  · rename_i hnone
    rw [Bool.and_eq_true, List.isEmpty_iff] at hnone
    exact hnone.1.symm
  · rfl

end

theorem configWrite_eq {lower : String → String} {key value : String}
    (hnorm : normalizeConfigValue lower key value = .ok value) (hkey : hasNul key = false)
    (item : Option String) :
    configWrite lower key value item = .ok (item.elim
      (if value = "" then [] else [.add key value]) fun old =>
        if value = "" then [.remove key] else if value = old then [] else [.set key value]) := by
  cases item with
  | none => simp [configWrite, hnorm, hkey, bind, Except.bind, pure, Except.pure]
  | some old => simp [configWrite, hnorm, hkey, bind, Except.bind, pure, Except.pure]

theorem updateRow_isOk (lower : String → String) (rows : ConfigRows) {key value : String}
    (hk : key ≠ "USER_REGISTRATION_MODE") (hkey : hasNul key = false) (hlen : key.length ≤ 255)
    (hvalue : hasNul value = false) : ∃ rows', updateRow lower rows key value = .ok rows' := by
  have hnorm : normalizeConfigValue lower key value = .ok value := by
    simp [normalizeConfigValue, hk]
  have hlong : ¬ 255 < key.length := by omega
  rw [updateRow, configWrite_eq hnorm hkey]
  cases hitem : rows.lookup key with
  | none =>
    by_cases hempty : value = ""
    · exact ⟨rows, by simp [hempty, bind, Except.bind, pure, Except.pure]⟩
    · exact ⟨AList.insert key value rows, by
        simp [hempty, ConfigWrite.apply, hvalue, hlong, hitem, bind, Except.bind, pure,
          Except.pure]⟩
  | some old =>
    by_cases hempty : value = ""
    · exact ⟨AList.erase key rows, by
        simp [hempty, ConfigWrite.apply, bind, Except.bind, pure, Except.pure]⟩
    · by_cases hold : value = old
      · exact ⟨rows, by simp [hempty, ← hold, bind, Except.bind, pure, Except.pure]⟩
      · exact ⟨AList.insert key value rows, by
          simp [hempty, hold, ConfigWrite.apply, hvalue, hitem, bind, Except.bind, pure,
            Except.pure]⟩

/-- An update of one short key with a text that PostgreSQL can store. -/
theorem updateConfig_one (lower : String → String) (rows : ConfigRows) {key value : String}
    (hk : key ≠ "USER_REGISTRATION_MODE") (hkey : hasNul key = false) (hlen : key.length ≤ 255)
    (hvalue : hasNul value = false) :
    ∃ rows', updateConfig lower rows (AList.insert key value ∅) = .ok rows' := by
  obtain ⟨rows', hrow⟩ := updateRow_isOk lower rows hk hkey hlen hvalue
  have hentries : (AList.insert key value ∅ : ConfigRows).entries = [⟨key, value⟩] := rfl
  refine ⟨rows', ?_⟩
  rw [updateConfig, hentries, List.foldlM_cons, hrow]
  rfl

theorem hasNul_names (ps : List Provider) :
    hasNul (String.intercalate "," (ps.map Provider.name)) = false := by
  rw [hasNul, Bool.eq_false_iff, ne_eq, List.contains_iff_mem]
  induction ps with
  | nil => decide
  | cons p ps ih =>
    have hname : Char.ofNat 0 ∉ p.name.toList := fun h => (p.name_chars h).2.2 rfl
    by_cases hps : ps.map Provider.name = []
    · rw [List.map_cons, hps, String.intercalate_singleton]
      exact hname
    · rw [List.map_cons, String.intercalate_cons_of_ne_nil hps]
      simp only [String.toList_append, List.mem_append, not_or]
      exact ⟨⟨hname, by decide⟩, ih⟩

section
variable (lower : String → String) (settings : Settings) (rows : ConfigRows)

def serverReads (p : Provider) : Bool :=
  (normalizeScanProviderList lower ((setText (rows.lookup "SCAN_ENABLED_PROVIDERS")).elim
    settings.scanEnabledProviders listItems)).contains p

def defaultReads (p : Provider) : Bool :=
  (normalizeScanProviderList lower settings.scanEnabledProviders).contains p

theorem runtimeScanEnabledProviders_eq :
    runtimeScanEnabledProviders lower settings rows =
      .ok (normalizeScanProviderList lower ((setText (rows.lookup "SCAN_ENABLED_PROVIDERS")).elim
        settings.scanEnabledProviders listItems)) := by
  rw [runtimeScanEnabledProviders, getRuntimeValue_eq]
  cases setText (rows.lookup "SCAN_ENABLED_PROVIDERS") <;> rfl

def leavesNone (action : ProviderAction) (ps : List Provider) : Bool :=
  Provider.names.all fun p => !action.result (cliReads settings rows p) (ps.contains p)

theorem namesOf_eq_nil {g : Provider → Bool} : namesOf g = [] ↔ ∀ p, g p = false := by
  rw [namesOf, List.map_eq_nil_iff, List.filter_eq_nil_iff]
  simp [mem_cliOrder]

theorem leavesNone_iff {action : ProviderAction} {ps : List Provider} :
    leavesNone settings rows action ps = true ↔
      ∀ p, action.result (cliReads settings rows p) (ps.contains p) = false := by
  rw [leavesNone, List.all_eq_true]
  simp [Provider.mem_names]

/-- What the server reads after the command: the new list, unless it is empty. -/
theorem serverReads_after (hlower : LowersAscii lower) (action : ProviderAction)
    {ps : List Provider} (hps : ps ≠ []) (p : Provider) :
    serverReads lower settings
        (afterProviders lower settings rows action (ps.map Provider.name)) p =
      if leavesNone settings rows action ps then defaultReads lower settings p
      else action.result (cliReads settings rows p) (ps.contains p) := by
  have hlist := foldlM_switchProvider action (cliReads settings rows) ps
  have hnames := hasNul_names (cliOrder.filter fun q =>
    action.result (cliReads settings rows q) (ps.contains q))
  have hshort : "SCAN_ENABLED_PROVIDERS".length ≤ 255 := by
    decide
  obtain ⟨rows', hput⟩ := updateConfig_one lower rows (by decide) (by decide) hshort hnames
  have hafter : afterProviders lower settings rows action (ps.map Provider.name) = rows' := by
    have hgiven : ¬ (ps.map Provider.name).isEmpty = true := by simpa using hps
    rw [afterProviders, dispatchConfigProviders, if_neg hgiven, updateConfigProviders,
      providerConfigSummary_enabled, hlist]
    simp only [bind, Except.bind, putConfig, namesOf, hput]
  have hstored := updateConfig_lookup hput (k := "SCAN_ENABLED_PROVIDERS") (by decide)
  rw [AList.lookup_insert, Option.some_or] at hstored
  rw [hafter, serverReads, hstored]
  cases hnone : leavesNone settings rows action ps with
  | true =>
    have hnil := namesOf_eq_nil.mpr ((leavesNone_iff settings rows).mp hnone)
    rw [namesOf] at hnil
    rw [hnil]
    rfl
  | false =>
    have htext : String.intercalate "," ((cliOrder.filter fun q =>
        action.result (cliReads settings rows q) (ps.contains q)).map Provider.name) ≠ "" := by
      intro hempty
      have hitems := listItems_names (cliOrder.filter fun q =>
        action.result (cliReads settings rows q) (ps.contains q))
      rw [hempty] at hitems
      have hall := (leavesNone_iff settings rows).mpr (namesOf_eq_nil.mp hitems.symm)
      rw [hnone] at hall
      cases hall
    rw [setText, Option.filter_some, if_pos (by simpa using htext), Option.elim_some,
      listItems_names, normalizeScanProviderList_names hlower, if_neg Bool.false_ne_true,
      Bool.eq_iff_iff, List.contains_iff_mem, List.mem_filter]
    exact and_iff_right (mem_cliOrder p)

/-- The condition: the server's default is what is left where the command leaves
no provider to write, and else both sides read the text alike, the named
providers apart. -/
def SwitchReadsAlike (action : ProviderAction) (ps : List Provider) : Prop :=
  ps = [] ∨
    (leavesNone settings rows action ps = true ∧ ∀ p, defaultReads lower settings p =
      action.result (serverReads lower settings rows p) (ps.contains p)) ∨
    (leavesNone settings rows action ps = false ∧
      ∀ p, p ∉ ps → cliReads settings rows p = serverReads lower settings rows p)

def Switched (rows' : ConfigRows) (action : ProviderAction) (ps : List Provider) : Prop :=
  ∃ old new, runtimeScanEnabledProviders lower settings rows = .ok old ∧
    runtimeScanEnabledProviders lower settings rows' = .ok new ∧
    ∀ p, new.contains p = action.result (old.contains p) (ps.contains p)

theorem switched_iff_reads {rows' : ConfigRows} {action : ProviderAction} {ps : List Provider} :
    Switched lower settings rows rows' action ps ↔
      ∀ p, serverReads lower settings rows' p =
        action.result (serverReads lower settings rows p) (ps.contains p) := by
  constructor
  · rintro ⟨old, new, hold, hnew, h⟩
    rw [runtimeScanEnabledProviders_eq] at hold hnew
    rw [← Except.ok.inj hold, ← Except.ok.inj hnew] at h
    exact h
  · intro h
    exact ⟨_, _, runtimeScanEnabledProviders_eq lower settings rows,
      runtimeScanEnabledProviders_eq lower settings rows', h⟩

end

theorem ProviderAction.result_unnamed (action : ProviderAction) (old : Bool) :
    action.result old false = old := by
  cases action <;> simp [result]

theorem ProviderAction.result_named (action : ProviderAction) (old old' : Bool) :
    action.result old true = action.result old' true := by
  cases action <;> simp [result]

/-- Enabling and disabling providers from the command line does what it says
exactly when the condition holds. -/
theorem provider_switch_iff (lower : String → String) (hlower : LowersAscii lower)
    (settings : Settings) (rows : ConfigRows) (action : ProviderAction) (ps : List Provider) :
    Switched lower settings rows
        (afterProviders lower settings rows action (ps.map Provider.name)) action ps ↔
      SwitchReadsAlike lower settings rows action ps := by
  rw [switched_iff_reads, SwitchReadsAlike]
  by_cases hps : ps = []
  · subst hps
    refine iff_of_true (fun p => ?_) (.inl rfl)
    exact (action.result_unnamed _).symm
  · have hafter := serverReads_after lower settings rows hlower action hps
    simp only [hafter, hps, false_or]
    cases leavesNone settings rows action ps with
    | true => simp
    | false =>
      simp only [Bool.false_eq_true, if_false, false_and, false_or, true_and]
      refine forall_congr' fun p => ?_
      by_cases hp : p ∈ ps
      · rw [List.contains_iff_mem.mpr hp]
        exact iff_of_true (action.result_named _ _) fun hno => absurd hp hno
      · have hunnamed : ps.contains p = false := by
          rw [← Bool.not_eq_true, List.contains_iff_mem]
          exact hp
        rw [hunnamed, action.result_unnamed, action.result_unnamed]
        exact ⟨fun heq _ => heq, fun heq => heq hp⟩

theorem provider_switch_iff_enable_clamav :
    LowersAscii asciiLower ∧
      (Switched asciiLower .default ∅
          (afterProviders asciiLower .default ∅ .enable ([.clamav].map Provider.name))
          .enable [.clamav] ↔
        SwitchReadsAlike asciiLower .default ∅ .enable [.clamav]) :=
  ⟨lowersAscii_asciiLower, provider_switch_iff asciiLower lowersAscii_asciiLower .default ∅
    .enable [.clamav]⟩

/-- Disabling the only provider that is enabled brings the default list back. -/
theorem disable_last_restores_default :
    ¬ ∀ (lower : String → String), LowersAscii lower →
      ∀ (settings : Settings) (rows : ConfigRows) (action : ProviderAction)
        (ps : List Provider), Switched lower settings rows
          (afterProviders lower settings rows action (ps.map Provider.name)) action ps := by
  intro h
  have hreads := (switched_iff_reads asciiLower .default
    (oneSetting "SCAN_ENABLED_PROVIDERS" "clamav")).mp
    (h asciiLower lowersAscii_asciiLower .default (oneSetting "SCAN_ENABLED_PROVIDERS" "clamav")
      .disable [.clamav]) .virustotal
  revert hreads
  decide +kernel

end Acprctl

end PluginRegistry
