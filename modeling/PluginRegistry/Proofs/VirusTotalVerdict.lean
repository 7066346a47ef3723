import PluginRegistry.Proofs.ScanRecords
import PluginRegistry.Services.VirusTotal

namespace PluginRegistry
open Lib

variable {text : PyText} {config : VirusTotalConfig} {calls : VirusTotalCalls} {o : ScanOutcome}
  {stats : Json} {analysisId : String}

def verdictKeys : List String := ["malicious", "suspicious", "harmless", "undetected"]

def Json.CutsOff (key : String) (stats : Json) : Prop :=
  ∃ f, stats.getKey key = .ok (.float f) ∧ (Json.float f).truthy = true ∧
    (Json.float f).toInt = .ok 0

def Json.ReportsZero (key : String) (stats : Json) : Prop :=
  stats.counter key = .ok 0 ∧ ¬ stats.CutsOff key

structure Json.Clean (stats : Json) : Prop where
  malicious : stats.ReportsZero "malicious"
  suspicious : stats.ReportsZero "suspicious"
  verdict : ∃ key ∈ verdictKeys, ∃ n, stats.counter key = .ok n ∧ 0 < n

/-- Counters that can all be read, the two bad ones as zero, but no verdict
behind them, or one that `int` cut off. -/
def Json.Blank (stats : Json) : Prop :=
  ∃ harmless undetected, stats.counter "malicious" = .ok 0 ∧ stats.counter "suspicious" = .ok 0 ∧
    stats.counter "harmless" = .ok harmless ∧ stats.counter "undetected" = .ok undetected ∧
    (harmless ≤ 0 ∧ undetected ≤ 0 ∨ stats.CutsOff "malicious" ∨ stats.CutsOff "suspicious")

/-- The formatter reads four counters and passes on the first two. -/
theorem formatVirustotalResult_ok (h : formatVirustotalResult stats analysisId = .ok o) :
    ∃ malicious suspicious harmless undetected, stats.counter "malicious" = .ok malicious ∧
      stats.counter "suspicious" = .ok suspicious ∧ stats.counter "harmless" = .ok harmless ∧
      stats.counter "undetected" = .ok undetected ∧ o.mode = .real ∧
      o.passed = some (malicious = 0 && suspicious = 0) := by
  obtain ⟨malicious, hm, h⟩ := except_bind_ok h
  obtain ⟨suspicious, hs, h⟩ := except_bind_ok h
  obtain ⟨harmless, hh, h⟩ := except_bind_ok h
  obtain ⟨undetected, hu, h⟩ := except_bind_ok h
  cases h
  exact ⟨malicious, suspicious, harmless, undetected, hm, hs, hh, hu, rfl, rfl⟩

theorem formatVirustotalResult_eq {malicious suspicious harmless undetected : Int}
    (hm : stats.counter "malicious" = .ok malicious)
    (hs : stats.counter "suspicious" = .ok suspicious)
    (hh : stats.counter "harmless" = .ok harmless)
    (hu : stats.counter "undetected" = .ok undetected) (analysisId : String) :
    ∃ o, formatVirustotalResult stats analysisId = .ok o ∧
      o.passed = some (malicious = 0 && suspicious = 0) := by
  unfold formatVirustotalResult
  rw [hm, hs, hh, hu]
  exact ⟨_, rfl, rfl⟩

/-- A pass is a pass for clean statistics exactly if they are not blank. -/
theorem Json.pass_clean_iff (stats : Json) :
    (∀ analysisId o, formatVirustotalResult stats analysisId = .ok o → o.passed = some true →
      stats.Clean) ↔ ¬ stats.Blank := by
  constructor
  · rintro h ⟨harmless, undetected, hm, hs, hh, hu, hbad⟩
    obtain ⟨o, ho, hp⟩ := formatVirustotalResult_eq hm hs hh hu ""
    have hclean := h "" o ho hp
    rcases hbad with ⟨hharmless, hundetected⟩ | hcut | hcut
    · obtain ⟨key, hkey, n, hn, hpos⟩ := hclean.verdict
      have hle : n ≤ 0 := by
        have hcases : key = "malicious" ∨ key = "suspicious" ∨ key = "harmless" ∨
            key = "undetected" := by
          simpa [verdictKeys] using hkey
        rcases hcases with rfl | rfl | rfl | rfl
        · exact (Except.ok.inj (hm.symm.trans hn)).symm.le
        · exact (Except.ok.inj (hs.symm.trans hn)).symm.le
        · exact (Except.ok.inj (hh.symm.trans hn)).symm.le.trans hharmless
        · exact (Except.ok.inj (hu.symm.trans hn)).symm.le.trans hundetected
      omega
    · exact hclean.malicious.2 hcut
    · exact hclean.suspicious.2 hcut
  · intro h analysisId o ho hp
    obtain ⟨malicious, suspicious, harmless, undetected, hm, hs, hh, hu, -, hpassed⟩ :=
      formatVirustotalResult_ok ho
    rw [hpassed] at hp
    obtain ⟨rfl, rfl⟩ : malicious = 0 ∧ suspicious = 0 := by simpa using hp
    have hnot : ∀ p : Prop, (p → harmless ≤ 0 ∧ undetected ≤ 0 ∨ stats.CutsOff "malicious" ∨
        stats.CutsOff "suspicious") → ¬ p :=
      fun p hbad hp => h ⟨harmless, undetected, hm, hs, hh, hu, hbad hp⟩
    refine ⟨⟨hm, hnot _ fun hc => .inr (.inl hc)⟩, ⟨hs, hnot _ fun hc => .inr (.inr hc)⟩, ?_⟩
    by_cases hharmless : 0 < harmless
    · exact ⟨"harmless", by decide, harmless, hh, hharmless⟩
    · refine ⟨"undetected", by decide, undetected, hu, ?_⟩
      by_contra hundetected
      exact hnot True (fun _ => .inl ⟨not_lt.mp hharmless, not_lt.mp hundetected⟩) trivial

inductive VirusTotalCalls.Scans (text : PyText) (calls : VirusTotalCalls) : Json → Prop
  | existing {stats : JsonObject}
      (hreport : getVirustotalFileReport calls.report = .ok (some stats)) :
    Scans text calls (.obj stats)
  | conflict {stats : JsonObject} {e : PyErr}
      (hreport : getVirustotalFileReport calls.report = .ok none)
      (hupload : uploadToVirustotal text calls.upload = .error e)
      (hconflict : (e.isA [.httpStatusError] && e.status = 409) = true)
      (hagain : getVirustotalFileReport calls.reportAgain = .ok (some stats)) :
    Scans text calls (.obj stats)

inductive VirusTotalCalls.Polls (text : PyText) (calls : VirusTotalCalls) : Json → Prop
  | completed {attributes value : Json}
      (hanalysis : readAnalysis text calls.analysis = .ok ("completed", attributes))
      (hstats : attributes.getKey "stats" = .ok value) :
    Polls text calls value.orEmpty

theorem virustotalFailure_mode {e : PyErr} (h : virustotalFailure e = .ok o) :
    o.mode = .error := by
  unfold virustotalFailure at h
  split at h
  · cases h
    rfl
  · split at h
    · cases h
      rfl
    · split at h
      · cases h
        rfl
      · cases h

/-- A scan reports a real result only from the statistics of a report. -/
theorem askVirustotal_real {now : Time} {file : ScannedFile}
    (h : askVirustotal text now config file calls = .ok o) (hreal : o.mode = .real) :
    ∃ stats analysisId, calls.Scans text stats ∧
      formatVirustotalResult stats analysisId = .ok o := by
  obtain ⟨found, hreport, h⟩ := except_bind_ok h
  cases found with
  | some stats => exact ⟨_, _, .existing hreport, h⟩
  | none =>
    dsimp only at h
    cases hupload : uploadToVirustotal text calls.upload with
    | ok analysisId =>
      rw [hupload] at h
      cases h
      cases hreal
    | error e =>
      rw [hupload] at h
      dsimp only at h
      split at h
      · rename_i hconflict
        obtain ⟨again, hagain, h⟩ := except_bind_ok h
        cases again with
        | some stats => exact ⟨_, _, .conflict hreport hupload hconflict hagain, h⟩
        | none => cases h
      · cases h

theorem scanVirustotal_real {now : Time} {file : ScannedFile}
    (h : scanVirustotal text now config file calls = .ok o) (hreal : o.mode = .real) :
    ∃ stats analysisId, calls.Scans text stats ∧
      formatVirustotalResult stats analysisId = .ok o := by
  unfold scanVirustotal at h
  split at h
  · cases h
    cases hreal
  · cases hask : askVirustotal text now config file calls with
    | ok outcome =>
      rw [hask] at h
      cases h
      exact askVirustotal_real hask hreal
    | error e =>
      rw [hask] at h
      cases (virustotalFailure_mode h).symm.trans hreal

theorem scanVirustotalForVersion_real {now : Time} {s3Key : Option String}
    {localFile : Option ScannedFile}
    (h : scanVirustotalForVersion text now config s3Key localFile calls = .ok o)
    (hreal : o.mode = .real) :
    ∃ stats analysisId, calls.Scans text stats ∧
      formatVirustotalResult stats analysisId = .ok o := by
  cases localFile with
  | some file => exact scanVirustotal_real h hreal
  | none =>
    unfold scanVirustotalForVersion at h
    dsimp only at h
    split at h
    · cases h
      cases hreal
    · cases hfile : calls.download with
      | ok file =>
        rw [hfile] at h
        exact scanVirustotal_real h hreal
      | error e =>
        rw [hfile] at h
        cases h
        cases hreal

/-- A poll reports a real result only from a completed analysis. -/
theorem pollVirustotalAnalysisOnce_real
    (h : pollVirustotalAnalysisOnce text analysisId calls.analysis = .ok o)
    (hreal : o.mode = .real) :
    ∃ stats, calls.Polls text stats ∧ formatVirustotalResult stats analysisId = .ok o := by
  unfold pollVirustotalAnalysisOnce at h
  cases hask : askAnalysis text analysisId calls.analysis with
  | error e =>
    rw [hask] at h
    cases (virustotalFailure_mode h).symm.trans hreal
  | ok outcome =>
    rw [hask] at h
    cases h
    obtain ⟨⟨status, attributes⟩, hanalysis, hask⟩ := except_bind_ok hask
    dsimp only at hask
    split at hask
    · rename_i hstatus
      obtain ⟨value, hvalue, hask⟩ := except_bind_ok hask
      subst hstatus
      exact ⟨_, .completed hanalysis hvalue, hask⟩
    · cases hask
      cases hreal

structure VirusTotalEvent where
  event : Event
  localFile : Option ScannedFile
  calls : VirusTotalCalls

def Env.askingVirustotal (env : Env) (text : PyText) (config : VirusTotalConfig)
    (version : Option PluginVersion) (t : VirusTotalEvent) : Env :=
  { env with
    scanAnswer := fun p =>
      if p = .virustotal then
        scanVirustotalForVersion text env.now config (version.bind (·.s3Key)) t.localFile t.calls
      else env.scanAnswer p
    pollAnswer := pollVirustotalAnalysisOnce text
      ((version.bind (·.awaitedAnalysis env.now)).getD "") t.calls.analysis }

def World.asking (w : World) (text : PyText) (t : VirusTotalEvent) : Event :=
  let ask (versionId : VersionId) (env : Env) : Env :=
    env.askingVirustotal text w.db.config.virustotal (w.db.versions.lookup versionId) t
  match t.event with
  | .perform (.scanVersion versionId providers) env =>
    .perform (.scanVersion versionId providers) (ask versionId env)
  | .perform (.pollVirustotalAnalysis versionId) env =>
    .perform (.pollVirustotalAnalysis versionId) (ask versionId env)
  | .advance versionId env => .advance versionId (ask versionId env)
  | event => event

def virustotalService (text : PyText) (config : RuntimeConfig) : Machine World VirusTotalEvent where
  init := (service config).init
  step := fun w t => w.step (w.asking text t)

def VirusTotalEvent.Reads (text : PyText) (t : VirusTotalEvent) : Json → Prop :=
  match t.event with
  | .perform (.scanVersion _ _) _ | .advance _ _ => t.calls.Scans text
  | .perform (.pollVirustotalAnalysis _) _ => t.calls.Polls text
  | _ => fun _ => False

def VirusTotalEvent.Computes (text : PyText) (t : VirusTotalEvent) (stats : Json)
    (r : ScanPayload) : Prop :=
  t.Reads text stats ∧
    ∃ analysisId o, formatVirustotalResult stats analysisId = .ok o ∧ o.payload = r

/-- What an event may add to the record for VirusTotal was computed from its statistics. -/
theorem World.source_computed {w : World} {t : VirusTotalEvent} {r : ScanPayload}
    (h : (w.asking text t).Source .virustotal r) (hreal : r.mode = .real) :
    ∃ stats, t.Computes text stats r := by
  have hscan : ∀ versionId env,
      (Env.askingVirustotal env text w.db.config.virustotal (w.db.versions.lookup versionId)
        t).Scanned .virustotal r →
      ∃ stats, t.calls.Scans text stats ∧
        ∃ analysisId o, formatVirustotalResult stats analysisId = .ok o ∧ o.payload = r := by
    rintro versionId env ⟨o, ho, rfl⟩
    have hanswer : scanVirustotalForVersion text env.now w.db.config.virustotal
        ((w.db.versions.lookup versionId).bind (·.s3Key)) t.localFile t.calls = .ok o := ho
    obtain ⟨stats, analysisId, hstats, hformat⟩ := scanVirustotalForVersion_real hanswer hreal
    exact ⟨stats, hstats, analysisId, o, hformat, rfl⟩
  obtain ⟨event, localFile, calls⟩ := t
  cases event with
  | startBuild pluginId version env => cases h
  | advance versionId env => exact hscan versionId env h
  | perform op env =>
    cases op with
    | scanVersion versionId providers => exact hscan versionId env h
    | pollVirustotalAnalysis versionId =>
      obtain ⟨-, o, ho, rfl⟩ := h
      obtain ⟨stats, hstats, hformat⟩ := pollVirustotalAnalysisOnce_real ho hreal
      exact ⟨stats, hstats, _, o, hformat, rfl⟩
    | _ => cases h

/-- Every real pass on record for VirusTotal was computed from clean statistics of
one of these events. -/
def World.ClosedBy (text : PyText) (events : List VirusTotalEvent) (w : World) : Prop :=
  ∀ i v r, w.db.versions.lookup i = some v → v.Records .virustotal r → r.mode = .real →
    r.pass = some true → ∃ t ∈ events, ∃ stats, t.Computes text stats r ∧ stats.Clean

/-- A step whose statistics are not blank. -/
theorem World.ClosedBy.step {events : List VirusTotalEvent} {w : World} {t : VirusTotalEvent}
    (hsound : w.db.Sound) (h : w.ClosedBy text events) (ht : t ∈ events)
    (hgood : ∀ stats, t.Reads text stats → ¬ stats.Blank) :
    (w.step (w.asking text t)).ClosedBy text events := by
  intro i v' r hv' hr hreal hpass
  rcases World.step_extends hsound _ i v' hv' _ r hr hreal with ⟨v, hv, hold⟩ | hnew
  · exact h i v r hv hold hreal hpass
  · obtain ⟨stats, hcomputes⟩ := World.source_computed hnew hreal
    refine ⟨t, ht, stats, hcomputes, ?_⟩
    obtain ⟨hreads, analysisId, o, hformat, rfl⟩ := hcomputes
    exact stats.pass_clean_iff.mpr (hgood stats hreads) analysisId o hformat hpass

/-- The formatter passes only clean statistics exactly if they are not blank, and a
run that meets no blank ones records no other pass. -/
theorem virustotal_fails_closed_iff (text : PyText) (config : RuntimeConfig)
    (events : List VirusTotalEvent) :
    (∀ stats : Json, (∀ analysisId o, formatVirustotalResult stats analysisId = .ok o →
        o.passed = some true → stats.Clean) ↔ ¬ stats.Blank) ∧
      ((∀ t ∈ events, ∀ stats, t.Reads text stats → ¬ stats.Blank) →
        ∀ w ∈ (virustotalService text config).states (virustotalService text config).init events,
          w.ClosedBy text events) := by
  refine ⟨Json.pass_clean_iff, fun hgood w hw => ?_⟩
  have hrun : ∀ w ∈ (virustotalService text config).states (virustotalService text config).init
      events, w.db.Sound ∧ w.ClosedBy text events := by
    apply Machine.guarded_run (fun w : World => w.db.Sound ∧ w.ClosedBy text events)
      (fun _ t => t ∈ events)
    · intro w t hinv ht
      exact ⟨World.step_sound hinv.1 _, hinv.2.step hinv.1 ht (hgood t ht)⟩
    · refine ⟨.empty config, ?_⟩
      intro i v r hv
      cases hv
    · intro x hx
      exact Machine.mem_of_mem_steps hx
  exact (hrun w hw).2

def HttpReply.found (json : Json) : HttpReply := ⟨200, .ok json⟩

def VirusTotalCalls.uploading (analysis : Json) : VirusTotalCalls where
  download := .ok ⟨22, "8739c76e681f900923b900c9df0ef75cf421d39cabb54650c4b9ad19b6a76d85"⟩
  report := .ok ⟨404, .ok .null⟩
  upload := .ok (.found (.obj [("data", .obj [("id", .str "analysis")])]))
  reportAgain := .ok ⟨404, .ok .null⟩
  analysis := .ok (.found (.obj [("data", .obj [("attributes", analysis)])]))

def analysedRun (analysis : Json) : List VirusTotalEvent :=
  [.perform (.createPlugin .demo "") (.calm 0), .perform (.uploadVersion 0 .demo [] "") (.calm 1),
    .perform (.scanVersion 1 none) (.calm 2),
    .perform (.pollVirustotalAnalysis 1) (.calm (seconds 20))].map fun event =>
      ⟨event, none, .uploading analysis⟩

theorem analysedRun_reads {analysis stats : Json} {t : VirusTotalEvent}
    (ht : t ∈ analysedRun analysis) (hreads : t.Reads asciiText stats) :
    ∃ value, analysis.orEmpty.getKey "stats" = .ok value ∧ stats = value.orEmpty := by
  obtain ⟨event, hevent, rfl⟩ := List.mem_map.mp ht
  have hcases : event = .perform (.createPlugin .demo "") (.calm 0) ∨
      event = .perform (.uploadVersion 0 .demo [] "") (.calm 1) ∨
      event = .perform (.scanVersion 1 none) (.calm 2) ∨
      event = .perform (.pollVirustotalAnalysis 1) (.calm (seconds 20)) := by
    simpa using hevent
  rcases hcases with rfl | rfl | rfl | rfl
  · cases hreads
  · cases hreads
  · cases hreads with
    | existing hreport => cases hreport
    | conflict hreport hupload => cases hupload
  · cases hreads with
    | completed hanalysis hstats =>
      obtain ⟨response, hresponse, hanalysis⟩ := except_bind_ok hanalysis
      cases hresponse
      obtain ⟨_, -, hanalysis⟩ := except_bind_ok hanalysis
      obtain ⟨attributes, hattributes, hanalysis⟩ := except_bind_ok hanalysis
      obtain ⟨status, -, hanalysis⟩ := except_bind_ok hanalysis
      have hsame := congrArg Prod.snd (Except.ok.inj hanalysis)
      cases hattributes
      dsimp only at hsame
      subst hsame
      exact ⟨_, hstats, rfl⟩

def analysedWorld (analysis : Json) : World :=
  let m := virustotalService asciiText configWithVirustotal
  m.runFrom m.init (analysedRun analysis)

def passOnRecord (analysis : Json) : Bool :=
  ((analysedWorld analysis).db.versions.lookup 1).any fun v =>
    (v.result .virustotal).any fun r => r.mode = .real && r.pass = some true

def cleanAnalysis : Json :=
  .obj [("status", .str "completed"), ("stats", .obj [("harmless", .int 70)])]

theorem virustotal_fails_closed_iff_clean :
    (analysedWorld cleanAnalysis).ClosedBy asciiText (analysedRun cleanAnalysis) ∧
      passOnRecord cleanAnalysis = true := by
  refine ⟨?_, by decide +kernel⟩
  refine (virustotal_fails_closed_iff asciiText configWithVirustotal _).2 (fun t ht stats hreads => ?_)
    _ (Machine.run_mem_states _ _)
  obtain ⟨value, hvalue, rfl⟩ := analysedRun_reads ht hreads
  cases hvalue
  rintro ⟨harmless, undetected, -, hs, hh, -, ⟨hneg, -⟩ | ⟨f, hf, -⟩ | ⟨f, hf, -⟩⟩
  · cases hh
    omega
  · cases hf
  · cases hf

def blankAnalysis : Json := .obj [("status", .str "completed")]

/-- A completed analysis without a single verdict is recorded as a real pass. -/
theorem blank_statistics_pass :
    ¬∀ (text : PyText) (config : RuntimeConfig) (events : List VirusTotalEvent),
      ∀ w ∈ (virustotalService text config).states (virustotalService text config).init events,
        w.ClosedBy text events := by
  intro h
  have hclosed := h asciiText configWithVirustotal (analysedRun blankAnalysis) _
    (Machine.run_mem_states _ _)
  have hpass : passOnRecord blankAnalysis = true := by decide +kernel
  obtain ⟨v, hv, hr⟩ := (Option.any_eq_true ..).mp hpass
  obtain ⟨r, hr, hbad⟩ := (Option.any_eq_true ..).mp hr
  obtain ⟨hmode, hpass⟩ : r.mode = .real ∧ r.pass = some true := by simpa using hbad
  obtain ⟨t, ht, stats, ⟨hreads, -⟩, hclean⟩ :=
    hclosed 1 v r hv (PluginVersion.records_result hr) hmode hpass
  obtain ⟨value, hvalue, rfl⟩ := analysedRun_reads ht hreads
  cases hvalue
  obtain ⟨key, -, n, hn, hpos⟩ := hclean.verdict
  cases hn
  omega

end PluginRegistry
