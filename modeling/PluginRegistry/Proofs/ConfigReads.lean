import PluginRegistry.Proofs.LoginLimits
import PluginRegistry.Services.ConfigService

namespace PluginRegistry
open Lib

theorem isOk_map {ε α β : Type} (f : α → β) (x : Except ε α) : (f <$> x).isOk = x.isOk := by
  cases x <;> rfl

theorem isOk_seq {ε α β : Type} (f : Except ε (α → β)) (x : Except ε α) :
    (f <*> x).isOk = (f.isOk && x.isOk) := by
  cases f <;> cases x <;> rfl

def setText (raw : Option String) : Option String :=
  raw.filter fun text => text ≠ ""

def readsAsInt (raw : Option String) : Bool :=
  (setText raw).all fun text => (parseInt text).isOk

section
variable (lower : String → String) (settings : Settings) (values : ConfigRows)

theorem getRuntimeValue_eq {T : Type} [RuntimeType T] (key : String) (default : T) :
    getRuntimeValue lower values key default =
      (setText (values.lookup key)).elim (.ok default) (RuntimeType.castRuntimeValue lower) := by
  unfold getRuntimeValue setText
  cases values.lookup key with
  | none => rfl
  | some raw =>
    by_cases hraw : raw = ""
    · simp [Option.filter_some, hraw]
    · simp [Option.filter_some, hraw]

theorem isOk_int (key : String) (default : Int) :
    (getRuntimeValue lower values key default).isOk = readsAsInt (values.lookup key) := by
  rw [getRuntimeValue_eq, readsAsInt]
  cases setText (values.lookup key) with
  | none => rfl
  | some raw =>
    rw [Option.elim_some, Option.all_some]
    rfl

/-- A type whose cast never fails. -/
theorem isOk_total {T : Type} [RuntimeType T] (key : String) (default : T)
    (h : ∀ raw, (RuntimeType.castRuntimeValue lower raw : Except PyErr T).isOk = true) :
    (getRuntimeValue lower values key default).isOk = true := by
  rw [getRuntimeValue_eq]
  cases setText (values.lookup key) with
  | none => rfl
  | some raw => exact h raw

theorem isOk_string (key default : String) :
    (getRuntimeValue lower values key default).isOk = true :=
  isOk_total lower values key default fun _ => rfl

theorem isOk_bool (key : String) (default : Bool) :
    (getRuntimeValue lower values key default).isOk = true :=
  isOk_total lower values key default fun _ => rfl

theorem isOk_list (key : String) (default : List String) :
    (getRuntimeValue lower values key default).isOk = true :=
  isOk_total lower values key default fun _ => rfl

end

inductive RuntimeReader
  | publicCacheMaxAge | redisCacheTtl | uploadLimits | gitCloneTimeout | gitPreflightTimeout
  | gitMaxRepoSizeKb | gitHttpProxy | githubToken | gitAllowedHosts | registrationMode
  | scanDefaults | scanEnabledProviders | reviewPolicy | virustotalConfig | clamavConfig
  | llmAgentConfig | taskMaxAttempts | taskRetryDelaySeconds | webhookSecret
  | webhookAutoVersion | s3PublicUrl | s3Layout | maxReleaseZipBytes
  deriving DecidableEq, Repr

namespace RuntimeReader

def returns (lower : String → String) (settings : Settings) (values : ConfigRows) :
    RuntimeReader → Bool
  | publicCacheMaxAge => (runtimePublicCacheMaxAge lower settings values).isOk
  | redisCacheTtl => (runtimeRedisCacheTtl lower settings values).isOk
  | uploadLimits => (runtimeUploadLimits lower settings values).isOk
  | gitCloneTimeout => (runtimeGitCloneTimeout lower settings values).isOk
  | gitPreflightTimeout => (runtimeGitPreflightTimeout lower settings values).isOk
  | gitMaxRepoSizeKb => (runtimeGitMaxRepoSizeKb lower settings values).isOk
  | gitHttpProxy => (runtimeGitHttpProxy lower settings values).isOk
  | githubToken => (runtimeGithubToken lower settings values).isOk
  | gitAllowedHosts => (runtimeGitAllowedHosts lower settings values).isOk
  | registrationMode => (runtimeRegistrationMode lower settings values).isOk
  | scanDefaults => (runtimeScanDefaults lower settings values).isOk
  | scanEnabledProviders => (runtimeScanEnabledProviders lower settings values).isOk
  | reviewPolicy => (runtimeReviewPolicy lower settings values).isOk
  | virustotalConfig => (runtimeVirustotalConfig lower settings values).isOk
  | clamavConfig => (runtimeClamavConfig lower settings values).isOk
  | llmAgentConfig => (runtimeLlmAgentConfig lower settings values).isOk
  | taskMaxAttempts => (runtimeTaskMaxAttempts lower settings values).isOk
  | taskRetryDelaySeconds => (runtimeTaskRetryDelaySeconds lower settings values).isOk
  | webhookSecret => (runtimeWebhookSecret lower settings values).isOk
  | webhookAutoVersion => (runtimeWebhookAutoVersion lower settings values).isOk
  | s3PublicUrl => (runtimeS3PublicUrl lower settings values).isOk
  | s3Layout => (runtimeS3Layout lower settings values).isOk
  | maxReleaseZipBytes => (runtimeMaxReleaseZipBytes lower settings values).isOk

def intKeys : RuntimeReader → List String
  | publicCacheMaxAge => ["PUBLIC_CACHE_MAX_AGE"]
  | redisCacheTtl => ["REDIS_CACHE_TTL"]
  | uploadLimits =>
    ["MAX_UPLOAD_BYTES", "MAX_UNZIP_BYTES", "MAX_ZIP_ENTRIES", "MAX_SINGLE_FILE_BYTES"]
  | gitCloneTimeout => ["GIT_CLONE_TIMEOUT"]
  | gitPreflightTimeout => ["GIT_PREFLIGHT_TIMEOUT"]
  | gitMaxRepoSizeKb => ["GIT_MAX_REPO_SIZE_KB"]
  | virustotalConfig =>
    ["VIRUSTOTAL_TIMEOUT_SECONDS", "VIRUSTOTAL_POLL_INTERVAL_SECONDS",
      "VIRUSTOTAL_MAX_POLL_INTERVAL_SECONDS", "VIRUSTOTAL_MAX_POLL_ATTEMPTS",
      "VIRUSTOTAL_MAX_WAIT_SECONDS", "VIRUSTOTAL_MAX_DIRECT_UPLOAD_BYTES"]
  | clamavConfig =>
    ["CLAMAV_PORT", "CLAMAV_TIMEOUT_SECONDS", "CLAMAV_STREAM_CHUNK_BYTES",
      "CLAMAV_MAX_STREAM_BYTES"]
  | llmAgentConfig => ["LLM_AGENT_MAX_CONTEXT_CHARS"]
  | taskMaxAttempts => ["TASK_MAX_ATTEMPTS"]
  | taskRetryDelaySeconds => ["TASK_RETRY_DELAY_SECONDS"]
  | maxReleaseZipBytes => ["MAX_RELEASE_ZIP_BYTES"]
  | gitHttpProxy | githubToken | gitAllowedHosts | registrationMode | scanDefaults
  | scanEnabledProviders | reviewPolicy | webhookSecret | webhookAutoVersion | s3PublicUrl
  | s3Layout => []

/-- A reader fails only at an integer setting that does not parse. -/
theorem returns_eq (lower : String → String) (settings : Settings) (values : ConfigRows)
    (reader : RuntimeReader) :
    reader.returns lower settings values =
      reader.intKeys.all fun key => readsAsInt (values.lookup key) := by
  cases reader <;>
    simp only [returns, intKeys, runtimePublicCacheMaxAge, runtimeRedisCacheTtl,
      runtimeUploadLimits, runtimeGitCloneTimeout, runtimeGitPreflightTimeout,
      runtimeGitMaxRepoSizeKb, runtimeGitHttpProxy, runtimeGithubToken, runtimeGitAllowedHosts,
      runtimeRegistrationMode, runtimeScanDefaults, runtimeScanEnabledProviders,
      runtimeReviewPolicy, runtimeVirustotalConfig, runtimeClamavConfig, runtimeLlmAgentConfig,
      runtimeTaskMaxAttempts, runtimeTaskRetryDelaySeconds, runtimeWebhookSecret,
      runtimeWebhookAutoVersion, runtimeS3PublicUrl, runtimeS3Layout, runtimeMaxReleaseZipBytes,
      isOk_map, isOk_seq, isOk_int, isOk_string, isOk_bool, isOk_list, List.all_cons,
      List.all_nil, Bool.and_true, Bool.true_and, Bool.and_assoc]

end RuntimeReader

section
variable {lower : String → String}

/-- A write concerns its own key only. -/
theorem ConfigWrite.apply_lookup {rows rows' : ConfigRows} {write : ConfigWrite}
    (h : write.apply rows = .ok rows') (k : String) :
    rows'.lookup k = if k = write.key then write.stored else rows.lookup k := by
  cases write with
  | add key value =>
    simp only [ConfigWrite.apply] at h
    split at h
    · cases h
    · split at h
      · cases h
      · split at h
        · cases h
        · obtain rfl := Except.ok.inj h
          exact Table.lookup_insert_eq rows key k value
  | set key value =>
    simp only [ConfigWrite.apply] at h
    split at h
    · cases h
    · split at h
      · cases h
      · obtain rfl := Except.ok.inj h
        exact Table.lookup_insert_eq rows key k value
  | remove key =>
    obtain rfl := Except.ok.inj h
    exact Table.lookup_erase_eq rows key k

/-- A turn of the loop writes its row, unless the row already says the same. -/
theorem configWrite_ok {key value : String} {item : Option String} {writes : List ConfigWrite}
    (h : configWrite lower key value item = .ok writes) :
    ∃ text, normalizeConfigValue lower key value = .ok text ∧
      ((writes = [] ∧ setText item = setText (some text)) ∨
        ∃ write, writes = [write] ∧ write.key = key ∧ write.stored = setText (some text)) := by
  simp only [configWrite, bind, Except.bind, pure, Except.pure, throw, throwThe,
    MonadExceptOf.throw] at h
  cases hnorm : normalizeConfigValue lower key value with
  | error e =>
    rw [hnorm] at h
    cases h
  | ok text =>
    rw [hnorm] at h
    refine ⟨text, rfl, ?_⟩
    dsimp only at h
    split at h
    · cases h
    · cases item with
      | none =>
        obtain rfl := Except.ok.inj h
        by_cases htext : text = ""
        · exact .inl ⟨by simp [htext], by simp [setText, Option.filter_some, htext]⟩
        · exact .inr ⟨.add key text, by simp [htext], rfl, by
            simp [setText, Option.filter_some, ConfigWrite.stored, htext]⟩
      | some old =>
        obtain rfl := Except.ok.inj h
        by_cases htext : text = ""
        · exact .inr ⟨.remove key, by simp [htext], rfl, by
            simp [setText, Option.filter_some, ConfigWrite.stored, htext]⟩
        · by_cases hold : text = old
          · exact .inl ⟨by simp [← hold, htext], by rw [hold]⟩
          · exact .inr ⟨.set key text, by simp [htext, hold], rfl, by
              simp [setText, Option.filter_some, ConfigWrite.stored, htext]⟩

/-- An accepted update sets its own key and no other. -/
theorem updateRow_lookup {rows rows' : ConfigRows} {key value : String}
    (h : updateRow lower rows key value = .ok rows') {k : String}
    (hk : k ≠ "USER_REGISTRATION_MODE") :
    setText (rows'.lookup k) = if k = key then setText (some value) else setText (rows.lookup k) := by
  simp only [updateRow, bind, Except.bind] at h
  cases hwrites : configWrite lower key value (rows.lookup key) with
  | error e =>
    rw [hwrites] at h
    cases h
  | ok writes =>
    rw [hwrites] at h
    dsimp only at h
    obtain ⟨text, hnorm, hcase⟩ := configWrite_ok hwrites
    have htext : k = key → text = value := by
      rintro rfl
      have hsame : normalizeConfigValue lower k value = .ok value := by
        simp [normalizeConfigValue, hk]
      exact Except.ok.inj (hnorm.symm.trans hsame)
    rcases hcase with ⟨rfl, hold⟩ | ⟨write, rfl, hkey, hstored⟩
    · obtain rfl := Except.ok.inj h
      split
      · rename_i heq
        rw [heq, hold, htext heq]
      · rfl
    · rw [List.foldlM_cons] at h
      cases happly : write.apply rows with
      | error e =>
        rw [happly] at h
        cases h
      | ok written =>
        rw [happly] at h
        obtain rfl := Except.ok.inj h
        rw [ConfigWrite.apply_lookup happly, hkey]
        split
        · rename_i heq
          rw [hstored, htext heq]
          cases hv : setText (some value) with
          | none => rfl
          | some v => rw [← hv, setText, setText, Option.filter_filter]; simp
        · rfl

/-- What a map says about a key, or else what was stored before. -/
theorem updateRows_lookup {items : List (Sigma fun _ : String => String)} (hnd : items.NodupKeys)
    {rows rows' : ConfigRows}
    (h : items.foldlM (fun rows item => updateRow lower rows item.1 item.2) rows = .ok rows')
    {k : String} (hk : k ≠ "USER_REGISTRATION_MODE") :
    setText (rows'.lookup k) = setText ((items.dlookup k).or (rows.lookup k)) := by
  induction items generalizing rows with
  | nil =>
    obtain rfl := Except.ok.inj h
    rfl
  | cons item items ih =>
    obtain ⟨key, value⟩ := item
    obtain ⟨hnew, hrest⟩ := List.nodupKeys_cons.mp hnd
    rw [List.foldlM_cons] at h
    cases hrow : updateRow lower rows key value with
    | error e =>
      rw [hrow] at h
      cases h
    | ok middle =>
      rw [hrow] at h
      have hstep := updateRow_lookup hrow hk
      rw [ih hrest h]
      by_cases hkey : k = key
      · subst hkey
        rw [if_pos rfl] at hstep
        rw [List.dlookup_eq_none.mpr hnew, List.dlookup_cons_eq, Option.none_or, hstep,
          Option.some_or]
      · rw [if_neg hkey] at hstep
        have hskip : List.dlookup k ((⟨key, value⟩ : Sigma fun _ : String => String) :: items) =
            items.dlookup k := List.dlookup_cons_ne items _ hkey
        rw [hskip]
        cases items.dlookup k with
        | none => rw [Option.none_or, Option.none_or, hstep]
        | some given => rfl

theorem updateConfig_lookup {rows values rows' : ConfigRows}
    (h : updateConfig lower rows values = .ok rows') {k : String}
    (hk : k ≠ "USER_REGISTRATION_MODE") :
    setText (rows'.lookup k) = setText ((values.lookup k).or (rows.lookup k)) :=
  updateRows_lookup values.nodupKeys h hk

def updateConfigs (lower : String → String) (rows : ConfigRows) (maps : List ConfigRows) :
    Except PyErr ConfigRows :=
  maps.foldlM (updateConfig lower) rows

def lastGiven (key : String) (before : Option String) (maps : List ConfigRows) : Option String :=
  maps.foldl (fun raw values => (values.lookup key).or raw) before

theorem setText_lastGiven {key : String} {raw raw' : Option String} (maps : List ConfigRows)
    (h : setText raw = setText raw') :
    setText (lastGiven key raw maps) = setText (lastGiven key raw' maps) := by
  induction maps generalizing raw raw' with
  | nil => exact h
  | cons values maps ih =>
    apply ih
    dsimp only
    cases values.lookup key with
    | none => exact h
    | some given => rfl

theorem updateConfigs_lookup {rows rows' : ConfigRows} {maps : List ConfigRows}
    (h : updateConfigs lower rows maps = .ok rows') {k : String}
    (hk : k ≠ "USER_REGISTRATION_MODE") :
    setText (rows'.lookup k) = setText (lastGiven k (rows.lookup k) maps) := by
  induction maps generalizing rows with
  | nil =>
    obtain rfl := Except.ok.inj h
    rfl
  | cons values maps ih =>
    rw [updateConfigs, List.foldlM_cons] at h
    cases hmap : updateConfig lower rows values with
    | error e =>
      rw [hmap] at h
      cases h
    | ok middle =>
      rw [hmap] at h
      rw [ih h]
      exact setText_lastGiven maps (updateConfig_lookup hmap hk)

end

theorem RuntimeReader.intKeys_ne_mode {reader : RuntimeReader} {key : String}
    (h : key ∈ reader.intKeys) : key ≠ "USER_REGISTRATION_MODE" := by
  rintro rfl
  cases reader <;> simp [intKeys] at h

/-- After maps that were accepted, every reader returns a value exactly when the
last value given to each integer setting is empty or reads as an integer. -/
theorem accepted_config_readable (lower : String → String) (settings : Settings)
    (rows rows' : ConfigRows) (maps : List ConfigRows)
    (h : updateConfigs lower rows maps = .ok rows') :
    (∀ reader : RuntimeReader, reader.returns lower settings rows' = true) ↔
      ∀ reader : RuntimeReader, ∀ key ∈ reader.intKeys,
        readsAsInt (lastGiven key (rows.lookup key) maps) = true := by
  refine forall_congr' fun reader => ?_
  rw [RuntimeReader.returns_eq, List.all_eq_true]
  refine forall₂_congr fun key hkey => ?_
  rw [readsAsInt, readsAsInt, updateConfigs_lookup h (RuntimeReader.intKeys_ne_mode hkey)]

def oneSetting (key value : String) : ConfigRows :=
  AList.insert key value ∅

theorem accepted_config_readable_twice :
    updateConfigs id ∅ [oneSetting "TASK_MAX_ATTEMPTS" "abc", oneSetting "TASK_MAX_ATTEMPTS" " 7 "] =
        .ok (oneSetting "TASK_MAX_ATTEMPTS" " 7 ") ∧
      ((∀ reader : RuntimeReader, reader.returns id .default
          (oneSetting "TASK_MAX_ATTEMPTS" " 7 ") = true) ↔
        ∀ reader : RuntimeReader, ∀ key ∈ reader.intKeys,
          readsAsInt (lastGiven key none [oneSetting "TASK_MAX_ATTEMPTS" "abc",
            oneSetting "TASK_MAX_ATTEMPTS" " 7 "]) = true) := by
  have h : updateConfigs id ∅ [oneSetting "TASK_MAX_ATTEMPTS" "abc",
      oneSetting "TASK_MAX_ATTEMPTS" " 7 "] = .ok (oneSetting "TASK_MAX_ATTEMPTS" " 7 ") := by
    rfl
  exact ⟨h, accepted_config_readable id .default ∅ _ _ h⟩

/-- A word is accepted as the number of attempts, and reading it fails. -/
theorem typo_accepted :
    ¬ ∀ (lower : String → String) (settings : Settings) (maps : List ConfigRows)
      (rows : ConfigRows), updateConfigs lower ∅ maps = .ok rows →
        ∀ reader : RuntimeReader, reader.returns lower settings rows = true := by
  intro h
  have hread := h id .default [oneSetting "TASK_MAX_ATTEMPTS" "abc"]
    (oneSetting "TASK_MAX_ATTEMPTS" "abc") rfl .taskMaxAttempts
  have hfails : RuntimeReader.taskMaxAttempts.returns id .default
      (oneSetting "TASK_MAX_ATTEMPTS" "abc") = false := by
    decide +kernel
  rw [hfails] at hread
  cases hread

end PluginRegistry
