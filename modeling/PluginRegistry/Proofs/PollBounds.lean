import Mathlib.Algebra.Order.Ring.Int
import Mathlib.Algebra.Order.GroupWithZero.Basic
import PluginRegistry.Proofs.DueTasks

namespace PluginRegistry
open Lib

variable {env : Env} {db : Db} {versionId : VersionId} {v : PluginVersion}
  {config : VirusTotalConfig} {cfg : RuntimeConfig} {analysisId : String}
  {now last deadline : Time} {n : Nat} {o : ScanOutcome}

def VirusTotalConfig.baseDelay (config : VirusTotalConfig) : Int :=
  max 1 config.pollIntervalSeconds

theorem baseDelay_le_delay (config : VirusTotalConfig) (n : Nat) :
    config.baseDelay ≤ nextVirustotalDelay config n := by
  have hbase : 1 ≤ config.baseDelay := le_max_left ..
  have hpow : (1 : Int) ≤ 2 ^ n := one_le_pow₀ (by omega)
  have hgrown : config.baseDelay * 1 ≤ config.baseDelay * 2 ^ n :=
    mul_le_mul_of_nonneg_left hpow (by omega)
  apply le_min
  · rwa [mul_one] at hgrown
  · exact le_max_left ..

theorem delay_mono (config : VirusTotalConfig) {m n : Nat} (h : m ≤ n) :
    nextVirustotalDelay config m ≤ nextVirustotalDelay config n := by
  have hbase : 1 ≤ config.baseDelay := le_max_left ..
  have hpow : (2 : Int) ^ m ≤ 2 ^ n := pow_le_pow_right₀ (by omega) h
  apply min_le_min_right
  exact mul_le_mul_of_nonneg_left hpow (show 0 ≤ config.baseDelay by omega)

theorem delay_le_maxDelay (config : VirusTotalConfig) (n : Nat) :
    nextVirustotalDelay config n ≤ max config.baseDelay config.maxPollIntervalSeconds :=
  min_le_right ..

/-- The next poll of an analysis that was last asked for at `last`, after `n` polls. -/
def VirusTotalConfig.nextPollAt (config : VirusTotalConfig) (deadline last : Time) (n : Nat) :
    Time :=
  min (last + seconds (nextVirustotalDelay config n).toNat) deadline

structure ScanOutcome.Tracks (o : ScanOutcome) (config : VirusTotalConfig) (analysisId : String)
    (deadline last : Time) (n : Nat) : Prop where
  mode : o.mode = .pending
  analysis : o.virustotalAnalysisId = some analysisId
  deadlineAt : o.virustotalDeadlineAt = some deadline
  nextPollAt : o.virustotalNextPollAt = some (config.nextPollAt deadline last n)
  attempts : o.virustotalPollAttempts = some n

structure ReviewProviderResult.Waits (row : ReviewProviderResult) (config : VirusTotalConfig)
    (analysisId : String) (deadline last : Time) (n : Nat) : Prop where
  mode : row.mode = .pending
  externalId : row.externalId = some analysisId
  deadlineAt : row.deadlineAt = some deadline
  nextPollAt : row.nextPollAt = some (config.nextPollAt deadline last n)
  attempts : row.attempts = n

structure PluginVersion.Waits (v : PluginVersion) (config : VirusTotalConfig)
    (analysisId : String) (deadline last : Time) (n : Nat) : Prop where
  row : ∃ row, v.providerResults (.machine .virustotal) = some row ∧
    row.Waits config analysisId deadline last n
  scan : ∃ scan, v.scan = some scan ∧ scan.virustotalPollAttempts = n

def PluginVersion.Settled (v : PluginVersion) : Prop :=
  ∃ row, v.providerResults (.machine .virustotal) = some row ∧ row.mode ≠ .pending

namespace PluginVersion.Waits

theorem of_record (hscan : v.scan.isSome = true)
    (ho : o.Tracks config analysisId deadline last n) :
    (v.record now .virustotal o (·.applyTracking .virustotal o)).Waits config analysisId
      deadline last n where
  row := by
    refine ⟨_, record_row, ho.mode, ho.analysis, ho.deadlineAt, ?_, ?_⟩
    · exact (if_pos ho.mode).trans ho.nextPollAt
    · exact congrArg (Option.getD · _) ho.attempts
  scan := by
    obtain ⟨scan, hs⟩ := Option.isSome_iff_exists.mp hscan
    refine ⟨_, congrArg (Option.map _) hs, ?_⟩
    exact congrArg (Option.getD · _) ho.attempts

theorem of_record_ne (h : v.Waits config analysisId deadline last n) {p : Provider}
    (hp : p ≠ .virustotal) :
    (v.record now p o (·.applyTracking p o)).Waits config analysisId deadline last n where
  row := by
    obtain ⟨row, hrow, hwaits⟩ := h.row
    exact ⟨row, (record_row_ne (Ne.symm hp)).trans hrow, hwaits⟩
  scan := by
    obtain ⟨scan, hs, hcount⟩ := h.scan
    refine ⟨_, congrArg (Option.map _) hs, ?_⟩
    rw [← hcount]
    cases p with
    | virustotal => exact absurd rfl hp
    | clamav | llmAgent => rfl

theorem finishScan (h : v.Waits config analysisId deadline last n) (b : BuildStatus) :
    (v.finishScan now b).Waits config analysisId deadline last n := by
  have hat : (v.scannedAt now).Waits config analysisId deadline last n := by
    obtain ⟨scan, hs, hcount⟩ := h.scan
    exact ⟨h.row, _, congrArg (Option.map _) hs, hcount⟩
  unfold PluginVersion.finishScan
  dsimp only
  split
  · exact ⟨hat.row, hat.scan⟩
  · exact hat

/-- Once a version waits it does so after the other providers' outcomes too. -/
theorem recordAll (hscan : v.scan.isSome = true) {outcomes : List (Provider × ScanOutcome)}
    (ho : o.Tracks config analysisId deadline last n)
    (hone : ∀ y ∈ outcomes, y.1 = .virustotal → y.2 = o)
    (h : v.Waits config analysisId deadline last n ∨ (.virustotal, o) ∈ outcomes) :
    (v.recordAll now outcomes).Waits config analysisId deadline last n := by
  induction outcomes generalizing v with
  | nil => exact h.resolve_right List.not_mem_nil
  | cons y ys ih =>
    have hfirst : (v.record now y.1 y.2 (·.applyTracking y.1 y.2)).Waits config analysisId
        deadline last n ∨ (.virustotal, o) ∈ ys := by
      by_cases hy : y.1 = .virustotal
      · have hyo := hone y List.mem_cons_self hy
        rw [hy, hyo]
        exact .inl (of_record hscan ho)
      · cases h with
        | inl hw => exact .inl (hw.of_record_ne hy)
        | inr hmem =>
          cases hmem with
          | head => exact absurd rfl hy
          | tail _ hin => exact .inr hin
    exact ih (PluginVersion.InStep.record_scan hscan)
      (fun z hz => hone z (List.mem_cons_of_mem _ hz)) hfirst

theorem awaitedAnalysis (h : v.Waits config analysisId deadline last n) (hid : analysisId ≠ "") :
    v.awaitedAnalysis now = some analysisId := by
  obtain ⟨row, hrow, hw⟩ := h.row
  have hne : analysisId.isEmpty = false := by
    rw [Bool.eq_false_iff, ne_eq, String.isEmpty_iff]
    exact hid
  simp [PluginVersion.awaitedAnalysis, PluginVersion.virustotalResult, hrow, hw.mode,
    hw.externalId, truthy, hne]

theorem pollDeadline (h : v.Waits config analysisId deadline last n) :
    v.pollDeadline now config = deadline := by
  obtain ⟨row, hrow, hw⟩ := h.row
  simp [PluginVersion.pollDeadline, PluginVersion.virustotalResult, hrow, hw.deadlineAt]

theorem pollAttempts (h : v.Waits config analysisId deadline last n) :
    v.pollAttempts now = n := by
  obtain ⟨row, hrow, hw⟩ := h.row
  obtain ⟨scan, hscan, hcount⟩ := h.scan
  simp [PluginVersion.pollAttempts, PluginVersion.virustotalResult, PluginVersion.scanRow, hrow,
    hscan, hw.attempts, hcount]

/-- A version is no longer waiting once its result is final. -/
theorem settled_awaits (h : v.Settled) : v.awaitedAnalysis now = none := by
  obtain ⟨row, hrow, hmode⟩ := h
  simp [PluginVersion.awaitedAnalysis, hrow, hmode]

end PluginVersion.Waits

/-- The outcome of a poll that stays pending waits on. -/
theorem pollOutcome_tracks {answer : ScanOutcome}
    (h : v.Waits config analysisId deadline last n) (hans : answer.mode = .pending)
    (hmore : ((n + 1 : Nat) : Int) < max 1 config.maxPollAttempts) :
    (pollOutcome env config v analysisId answer).Tracks config analysisId deadline env.now
      (n + 1) := by
  have hless : ¬ max 1 config.maxPollAttempts ≤ ((v.pollAttempts env.now + 1 : Nat) : Int) := by
    rw [h.pollAttempts]
    omega
  rw [pollOutcome, if_pos hans]
  dsimp only
  rw [if_neg hless, h.pollAttempts, h.pollDeadline]
  exact ⟨rfl, rfl, rfl, rfl, rfl⟩

/-- The last poll that is allowed ends the analysis. -/
theorem pollOutcome_last {answer : ScanOutcome}
    (h : v.Waits config analysisId deadline last n)
    (hmore : ¬ ((n + 1 : Nat) : Int) < max 1 config.maxPollAttempts) :
    (pollOutcome env config v analysisId answer).mode ≠ .pending := by
  by_cases hans : answer.mode = .pending
  · have hlast : max 1 config.maxPollAttempts ≤ ((v.pollAttempts env.now + 1 : Nat) : Int) := by
      rw [h.pollAttempts]
      omega
    rw [pollOutcome, if_pos hans]
    dsimp only
    rw [if_pos hlast]
    exact fun hc => by cases hc
  · rw [pollOutcome_final hans]
    exact hans

theorem PluginVersion.polled_waits (ho : o.Tracks config analysisId deadline last n) :
    (v.polled now o (·.applyTracking .virustotal o)).Waits config analysisId deadline last n :=
  (PluginVersion.Waits.of_record rfl ho).finishScan _

theorem PluginVersion.finishScan_row (b : BuildStatus) (reviewer : Reviewer) :
    (v.finishScan now b).providerResults reviewer = v.providerResults reviewer := by
  unfold finishScan
  dsimp only
  split <;> rfl

theorem PluginVersion.polled_settled {track : SecurityScan → SecurityScan}
    (ho : o.mode ≠ .pending) : (v.polled now o track).Settled :=
  ⟨_, (finishScan_row ..).trans record_row, ho⟩

theorem PluginVersion.published_row {pluginId : PluginId} {reviewStatus : ReviewStatus}
    (p : Provider) : (v.published pluginId now reviewStatus).providerResults (.machine p) =
      v.providerResults (.machine p) := by
  have hreviewed : (v.published pluginId now reviewStatus).providerResults (.machine p) =
      (v.activated.withoutLatest pluginId).providerResults (.machine p) := by
    simp [PluginVersion.published, modifyResult]
  rw [hreviewed]
  unfold withoutLatest activated settleBuild
  split <;> split <;> rfl

/-- The attempt to publish keeps a result that is final. -/
theorem Db.autoPublished_settled (now : Time) (hv : db.versions.lookup versionId = some v)
    (h : v.Settled) :
    ∃ w, (db.autoPublished now versionId).versions.lookup versionId = some w ∧ w.Settled := by
  simp only [Db.autoPublished, hv]
  split
  · refine ⟨v.published v.pluginId now .skipped, ?_, ?_⟩
    · rw [(Db.published_rewritten ..).versions, hv, Option.map_some, if_pos rfl]
    · obtain ⟨row, hrow, hmode⟩ := h
      exact ⟨row, (PluginVersion.published_row .virustotal).trans hrow, hmode⟩
  · exact ⟨v, hv, h⟩

theorem Db.autoPublished_config : (db.autoPublished now versionId).config = db.config := by
  unfold Db.autoPublished
  split
  · rfl
  · split <;> rfl

def Env.answered (env : Env) : Bool :=
  env.pollAnswer.isOk

/-- A version in a chain of polls, `n` of which were answered: it waits for the next one,
or has its result. -/
structure Db.Polling (db : Db) (cfg : RuntimeConfig) (versionId : VersionId)
    (analysisId : String) (deadline last : Time) (n : Nat) : Prop where
  config : db.config = cfg
  version : ∃ v, db.versions.lookup versionId = some v ∧
    ((v.Waits cfg.virustotal analysisId deadline last n ∧
        (n : Int) < max 1 cfg.virustotal.maxPollAttempts ∧ v.isLatest = false) ∨
      v.Settled)

namespace Db.Polling

/-- The end of a poll that has its result. -/
theorem of_final {track : SecurityScan → SecurityScan} (hv : db.versions.lookup versionId = some v)
    (ho : o.mode ≠ .pending) (caller : Caller) :
    Db.Polling ((db.polled now versionId o track).afterPoll env caller versionId o) db.config
      versionId analysisId deadline last n := by
  have hrow := Db.polled_lookup now hv o track
  have hdone : (v.polled now o track).Settled := PluginVersion.polled_settled ho
  unfold Db.afterPoll
  split
  · obtain ⟨w, hw, hsettled⟩ := Db.autoPublished_settled env.now hrow hdone
    exact ⟨Db.autoPublished_config, w, hw, .inr hsettled⟩
  · exact ⟨rfl, _, hrow, .inr hdone⟩

/-- The end of a poll that goes on waiting. -/
theorem of_pending (hv : db.versions.lookup versionId = some v) (hlate : v.isLatest = false)
    (ho : o.Tracks db.config.virustotal analysisId deadline env.now n)
    (hless : (n : Int) < max 1 db.config.virustotal.maxPollAttempts) (caller : Caller) :
    Db.Polling ((db.polled env.now versionId o (·.applyTracking .virustotal o)).afterPoll env
      caller versionId o) db.config versionId analysisId deadline env.now n := by
  have hrow := Db.polled_lookup env.now hv o (·.applyTracking .virustotal o)
  have hkeeps := v.polled_standing env.now o (·.applyTracking .virustotal o)
  unfold Db.afterPoll
  rw [if_neg fun hc => hc.1 ho.mode]
  exact ⟨rfl, _, hrow, .inl ⟨PluginVersion.polled_waits ho, hless,
    (PluginVersion.isLatest_of_standing hkeeps).trans hlate⟩⟩

/-- A poll of an analysis under way counts itself when it is answered, and keeps the deadline. -/
theorem poll (h : db.Polling cfg versionId analysisId deadline last n) (hid : analysisId ≠ "")
    (env : Env) :
    (db.pollResult env versionId).Polling cfg versionId analysisId deadline
      (if env.answered then env.now else last) (if env.answered then n + 1 else n) := by
  obtain ⟨rfl, v, hv, ⟨hwaits, hless, hlate⟩ | hdone⟩ := h
  · have hcase := v.pollCase env db.config
    simp only [Db.pollResult, hv]
    generalize v.pollDecision env db.config = decision at hcase
    cases hcase with
    | idle hn => rw [hwaits.awaitedAnalysis hid] at hn; cases hn
    | disabled hid' hno ho => exact of_final hv (by rw [ho]; decide) _
    | unconfigured hid' hen hk ho => exact of_final hv (by rw [ho]; decide) _
    | expired hid' hen hk hdue ho => exact of_final hv (by rw [ho]; decide) _
    | failed hask he =>
      have hno : env.answered = false := by rw [Env.answered, he]; rfl
      rw [hno]
      exact ⟨rfl, v, hv, .inl ⟨hwaits, hless, hlate⟩⟩
    | @recorded analysisId' hask answer hans =>
      obtain rfl : analysisId' = analysisId :=
        Option.some.inj (hask.awaits.symm.trans (hwaits.awaitedAnalysis hid))
      have hyes : env.answered = true := by rw [Env.answered, hans]; rfl
      simp only [hyes, if_true, hlate, Bool.false_eq_true, false_and, if_false]
      by_cases hmore : ((n + 1 : Nat) : Int) < max 1 db.config.virustotal.maxPollAttempts
      · by_cases hpend : answer.mode = .pending
        · exact of_pending hv hlate (pollOutcome_tracks hwaits hpend hmore) hmore _
        · rw [pollOutcome_final hpend]
          exact of_final hv hpend _
      · exact of_final hv (pollOutcome_last hwaits hmore) _
  · have hidle : v.pollDecision env db.config = .idle := by
      rw [PluginVersion.pollDecision, PluginVersion.Waits.settled_awaits hdone]
    simp only [Db.pollResult, hv, hidle]
    exact ⟨rfl, v, hv, .inr hdone⟩

end Db.Polling

def lastAnswer (scanned : Time) (polls : List Env) : Time :=
  polls.foldl (fun last env => if env.answered then env.now else last) scanned

/-- Along the polls of a chain only answers count. -/
theorem World.polls_run {w : World} (config : RuntimeConfig) (hs : w.db.Sound)
    (h : w.db.Polling cfg versionId analysisId deadline last n) (hid : analysisId ≠ "")
    (polls : List Env) :
    ((service config).runFrom w
        (polls.map (.perform (.pollVirustotalAnalysis versionId)))).db.Polling cfg versionId
      analysisId deadline (lastAnswer last polls) (n + polls.countP (·.answered)) := by
  induction polls generalizing w last n with
  | nil => exact h
  | cons env polls ih =>
    let event := Event.perform (.pollVirustotalAnalysis versionId) env
    have hrows : (w.step event).db = w.db.pollResult env versionId :=
      World.perform_db hs (.pollVirustotalAnalysis versionId) env
    have hpoll := h.poll hid env
    rw [← hrows] at hpoll
    have hrun := ih (World.step_sound hs event) hpoll
    have hcount : (if env.answered then n + 1 else n) + polls.countP (·.answered) =
        n + (env :: polls).countP (·.answered) := by
      rw [List.countP_cons]
      split <;> omega
    rwa [hcount] at hrun

/-- A scan leaves a pending result only for an artifact it has just uploaded. -/
theorem scanVirustotal_pending {text : PyText} {file : ScannedFile} {calls : VirusTotalCalls}
    (h : scanVirustotal text now config file calls = .ok o) (hpend : o.mode = .pending) :
    ∃ analysisId, o = virustotalPendingOutcome now config file analysisId := by
  have hformat : ∀ stats id, formatVirustotalResult stats id ≠ .ok o := by
    intro stats id hc
    obtain ⟨_, _, _, _, _, _, _, _, hreal, _⟩ := formatVirustotalResult_ok hc
    cases hreal.symm.trans hpend
  unfold scanVirustotal at h
  split at h
  · cases h
    cases hpend
  · cases hask : askVirustotal text now config file calls with
    | error e =>
      rw [hask] at h
      cases (virustotalFailure_mode h).symm.trans hpend
    | ok outcome =>
      rw [hask] at h
      cases h
      obtain ⟨found, -, hask⟩ := except_bind_ok hask
      cases found with
      | some stats => exact absurd hask (hformat _ _)
      | none =>
        dsimp only at hask
        cases hupload : uploadToVirustotal text calls.upload with
        | ok analysisId =>
          rw [hupload] at hask
          cases hask
          exact ⟨analysisId, rfl⟩
        | error e =>
          rw [hupload] at hask
          dsimp only at hask
          split at hask
          · obtain ⟨again, -, hask⟩ := except_bind_ok hask
            cases again with
            | some stats => exact absurd hask (hformat _ _)
            | none => cases hask
          · cases hask

theorem scanVirustotalForVersion_pending {text : PyText} {s3Key : Option String}
    {localFile : Option ScannedFile} {calls : VirusTotalCalls}
    (h : scanVirustotalForVersion text now config s3Key localFile calls = .ok o)
    (hpend : o.mode = .pending) :
    ∃ file analysisId, o = virustotalPendingOutcome now config file analysisId := by
  cases localFile with
  | some file => exact ⟨file, scanVirustotal_pending h hpend⟩
  | none =>
    unfold scanVirustotalForVersion at h
    dsimp only at h
    split at h
    · cases h
      cases hpend
    · cases hfile : calls.download with
      | ok file =>
        rw [hfile] at h
        exact ⟨file, scanVirustotal_pending h hpend⟩
      | error e =>
        rw [hfile] at h
        cases h
        cases hpend

theorem virustotalPendingOutcome_tracks (file : ScannedFile) :
    (virustotalPendingOutcome now config file analysisId).Tracks config analysisId
      (now + seconds (max 1 config.maxWaitSeconds).toNat) now 0 :=
  ⟨rfl, rfl, rfl, rfl, rfl⟩

/-- A scan that returns with a pending outcome for VirusTotal starts a chain. -/
theorem Db.Polling.of_scan (h : db.Sound) {x : Outside} {providers : Option (List String)}
    {selected : List Provider}
    (hdone : ((scanVersion env versionId providers).perform db x).outcome = .ok ())
    (hsel : db.selectedProviders providers = .ok selected) (hin : .virustotal ∈ selected)
    (hconf : db.config.isConfigured .virustotal = true)
    (hans : env.scanAnswer .virustotal = .ok o) (hid : analysisId ≠ "")
    (ho : o.Tracks db.config.virustotal analysisId deadline env.now 0) :
    (db.scanResult env versionId providers).Polling db.config versionId analysisId deadline
      env.now 0 := by
  have hrun := scanVersion_run env x h versionId providers
  have herror : ∀ e s, (scanVersion env versionId providers).run (Session.start db x) ≠
      .error e s := by
    intro e s hc
    rw [Work.perform, hc] at hdone
    cases hdone
  simp only [hsel] at hrun
  cases hv : db.versions.lookup versionId with
  | none =>
    simp only [hv] at hrun
    exact absurd hrun (herror _ _)
  | some v =>
    simp only [hv] at hrun
    cases hran : scanSelectedProviders env db.config selected with
    | error e =>
      simp only [hran] at hrun
      exact absurd hrun (herror _ _)
    | ok outcomes =>
      simp only [hran] at hrun
      have hwaiting : anyPending outcomes = true :=
        (anyPending_iff hran).mpr ⟨.virustotal, hin, hconf, o, hans, ho.mode⟩
      have hfollow : followupTask env outcomes ≠ none := by
        refine Option.isSome_iff_ne_none.mp ((followupTask_iff hran).mpr
          ⟨hin, hconf, o, hans, ?_, ?_⟩)
        · simp [truthy, ho.analysis, hid]
        · rw [ho.nextPollAt, Option.isSome_some]
      have hlate : ¬ (v.isLatest = true ∧ anyPending outcomes = true) := by
        intro hc
        rw [if_pos hc] at hrun
        exact herror _ _ hrun
      have hlatest : v.isLatest = false := by
        rw [← Bool.not_eq_true]
        exact fun hl => hlate ⟨hl, hwaiting⟩
      obtain ⟨hrep, hmem, -⟩ := scanSelectedProviders_reports hran
      have hone : ∀ y ∈ outcomes, y.1 = .virustotal → y.2 = o := by
        rintro ⟨p, o'⟩ hy rfl
        have hr := (hrep _ _ hy).2
        rw [Reported, if_pos hconf, hans] at hr
        exact (Except.ok.inj hr).symm
      have hthere : (.virustotal, o) ∈ outcomes := by
        obtain ⟨o', ho'⟩ := hmem .virustotal hin
        rwa [← hone _ ho' rfl]
      have hscan : (v.beginScan env.now).scan.isSome = true := by
        unfold PluginVersion.beginScan
        split <;> rfl
      have hwaits : (v.scanned env.now outcomes).Waits db.config.virustotal analysisId deadline
          env.now 0 :=
        (PluginVersion.Waits.recordAll hscan ho hone (.inr hthere)).finishScan _
      have hkeeps := v.scanned_standing env.now outcomes
      simp only [Db.scanResult, hsel, hv, hran, if_neg hlate, Db.afterScan, hfollow, false_and,
        if_false]
      refine ⟨rfl, _, Db.scanned_lookup env.now hv outcomes, .inl ⟨hwaits, ?_, ?_⟩⟩
      · exact lt_of_lt_of_le (by decide) (le_max_left ..)
      · exact (PluginVersion.isLatest_of_standing hkeeps).trans hlatest

structure StartsChain (text : PyText) (w : World) (env : Env) (versionId : VersionId)
    (providers : Option (List String)) (analysisId : String) : Prop where
  returns : ((Operation.scanVersion versionId providers).perform env w.db w.outside).outcome =
    .ok ()
  selects : ∃ selected, w.db.selectedProviders providers = .ok selected ∧ .virustotal ∈ selected
  configured : w.db.config.isConfigured .virustotal = true
  pending : ∃ s3Key localFile calls o,
    env.scanAnswer .virustotal =
        scanVirustotalForVersion text env.now w.db.config.virustotal s3Key localFile calls ∧
      env.scanAnswer .virustotal = .ok o ∧ o.mode = .pending ∧
      o.virustotalAnalysisId = some analysisId
  named : analysisId ≠ ""

/-- A chain of polls is bounded, over any history of the service and with polls that fail
in between: as long as the version waits, both tables count the answers and the deadline
stands, and there are fewer answers than are allowed; after that its result is final. -/
theorem poll_chain_is_bounded (text : PyText) (config : RuntimeConfig) (events : List Event)
    (versionId : VersionId) (providers : Option (List String)) (analysisId : String)
    (scanEnv : Env) (polls : List Env)
    (h : StartsChain text (World.run config events) scanEnv versionId providers analysisId) :
    let vt := (World.run config events).db.config.virustotal
    let answered := polls.countP (·.answered)
    let deadline := scanEnv.now + seconds (max 1 vt.maxWaitSeconds).toNat
    (∃ v, (World.run config (events ++ .perform (.scanVersion versionId providers) scanEnv ::
          polls.map (.perform (.pollVirustotalAnalysis versionId)))).db.versions.lookup versionId =
        some v ∧
      (v.Waits vt analysisId deadline (lastAnswer scanEnv.now polls) answered ∧
          (answered : Int) < max 1 vt.maxPollAttempts ∨
        v.Settled)) ∧
      ∀ n, vt.baseDelay ≤ nextVirustotalDelay vt n ∧
        nextVirustotalDelay vt n ≤ nextVirustotalDelay vt (n + 1) ∧
        nextVirustotalDelay vt n ≤ max vt.baseDelay vt.maxPollIntervalSeconds := by
  intro vt answered deadline
  let w := World.run config events
  let scan := Event.perform (.scanVersion versionId providers) scanEnv
  have hs : w.db.Sound := reachable_sound (World.run_reachable config events)
  obtain ⟨selected, hsel, hin⟩ := h.selects
  obtain ⟨s3Key, localFile, calls, o, hcalls, hans, hpend, ho⟩ := h.pending
  have htracks : o.Tracks vt analysisId deadline scanEnv.now 0 := by
    obtain ⟨file, id, rfl⟩ := scanVirustotalForVersion_pending (hcalls.symm.trans hans) hpend
    cases ho
    exact virustotalPendingOutcome_tracks file
  have hstart : (w.step scan).db.Polling w.db.config versionId analysisId deadline scanEnv.now
      0 := by
    rw [World.step, World.perform_db hs]
    exact .of_scan hs h.returns hsel hin h.configured hans h.named htracks
  have hrun := World.polls_run config (World.step_sound hs scan) hstart h.named polls
  rw [Nat.zero_add] at hrun
  obtain ⟨v, hv, hcase⟩ := hrun.version
  refine ⟨⟨v, ?_, ?_⟩, fun n => ?_⟩
  · rw [World.run, Machine.runFrom_append]
    exact hv
  · cases hcase with
    | inl hwaits => exact .inl ⟨hwaits.1, hwaits.2.1⟩
    | inr hdone => exact .inr hdone
  · exact ⟨baseDelay_le_delay vt n, delay_mono vt (Nat.le_succ n), delay_le_maxDelay vt n⟩

def Env.uploading (now : Time) : Env :=
  { Env.calm now with
    scanAnswer := fun _ => scanVirustotalForVersion asciiText now configWithVirustotal.virustotal
      none (some ⟨22, "8739c76e681f900923b900c9df0ef75cf421d39cabb54650c4b9ad19b6a76d85"⟩)
      (.uploading .null) }

def Env.stillQueued (now : Time) : Env :=
  { Env.calm now with
    pollAnswer := pollVirustotalAnalysisOnce asciiText "analysis" (.ok (.found (.obj
      [("data", .obj [("attributes", .obj [("status", .str "queued")])])]))) }

theorem poll_chain_is_bounded_twice :
    let polls := [Env.stillQueued (seconds 20), .stillQueued (seconds 60)]
    ∃ v, (World.run configWithVirustotal (uploadedRun ++
        .perform (.scanVersion 1 none) (.uploading 2) ::
          polls.map (.perform (.pollVirustotalAnalysis 1)))).db.versions.lookup 1 = some v ∧
      v.pollAttempts 0 = 2 := by
  intro polls
  have hstarts : StartsChain asciiText (World.run configWithVirustotal uploadedRun)
      (.uploading 2) 1 none "analysis" := by
    refine ⟨by decide +kernel, ⟨_, rfl, by decide +kernel⟩, by decide +kernel, ?_, by decide⟩
    exact ⟨none, some ⟨22, "8739c76e681f900923b900c9df0ef75cf421d39cabb54650c4b9ad19b6a76d85"⟩,
      .uploading .null, _, rfl, rfl, rfl, rfl⟩
  obtain ⟨⟨v, hv, hcase⟩, -⟩ := poll_chain_is_bounded asciiText configWithVirustotal uploadedRun
    1 none "analysis" (.uploading 2) polls hstarts
  refine ⟨v, hv, ?_⟩
  cases hcase with
  | inl hwaits => exact hwaits.1.pollAttempts
  | inr hdone =>
    have hwaiting : ((World.run configWithVirustotal (uploadedRun ++
        .perform (.scanVersion 1 none) (.uploading 2) ::
          polls.map (.perform (.pollVirustotalAnalysis 1)))).db.versions.lookup 1).any
        (fun v => (v.awaitedAnalysis 0).isSome) = true := by
      decide +kernel
    rw [hv, Option.any_some, PluginVersion.Waits.settled_awaits hdone] at hwaiting
    cases hwaiting

end PluginRegistry
