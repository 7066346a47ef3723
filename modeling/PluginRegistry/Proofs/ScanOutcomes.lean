import PluginRegistry.Proofs.PollRuns

namespace PluginRegistry
open Lib

variable {env : Env} {cfg : RuntimeConfig} {outcomes : List (Provider × ScanOutcome)}

/-- A list of calls succeeds with the results of each, in order. -/
theorem mapM_forall₂ {α γ ε : Type} (g : α → Except ε γ) (as : List α) (ys : List γ) :
    as.mapM g = .ok ys ↔ List.Forall₂ (fun a y => g a = .ok y) as ys := by
  induction as generalizing ys with
  | nil =>
    rw [List.mapM_nil, List.forall₂_nil_left_iff]
    exact ⟨fun h => (Except.ok.inj h).symm, fun h => h ▸ rfl⟩
  | cons a as ih =>
    rw [List.mapM_cons, List.forall₂_cons_left_iff]
    constructor
    · intro h
      cases ha : g a with
      | error e =>
        rw [ha] at h
        cases h
      | ok y =>
        cases hrest : as.mapM g with
        | error e =>
          rw [ha, hrest] at h
          cases h
        | ok zs =>
          rw [ha, hrest] at h
          cases h
          exact ⟨y, zs, rfl, (ih zs).mp hrest, rfl⟩
    · rintro ⟨y, zs, ha, hrest, rfl⟩
      rw [ha, (ih zs).mpr hrest]
      rfl

/-- A list of calls that each succeed succeeds. -/
theorem mapM_total {α γ ε : Type} {g : α → Except ε γ} {as : List α}
    (h : ∀ a ∈ as, ∃ y, g a = .ok y) : ∃ ys, as.mapM g = .ok ys := by
  induction as with
  | nil => exact ⟨[], rfl⟩
  | cons a as ih =>
    obtain ⟨y, hy⟩ := h a List.mem_cons_self
    obtain ⟨ys, hys⟩ := ih fun b hb => h b (List.mem_cons_of_mem _ hb)
    exact ⟨y :: ys, (mapM_forall₂ ..).mpr (.cons hy ((mapM_forall₂ ..).mp hys))⟩

/-- One scanner's answer, next to its name. -/
theorem named_answer {p : Provider} {y : Provider × ScanOutcome} :
    (do return (p, ← env.scanAnswer p) : Except PyErr (Provider × ScanOutcome)) = .ok y ↔
      y.1 = p ∧ env.scanAnswer p = .ok y.2 := by
  cases h : env.scanAnswer p with
  | error e =>
    constructor
    · intro hc
      cases hc
    · intro hc
      cases hc.2
  | ok o =>
    constructor
    · intro hc
      cases hc
      exact ⟨rfl, rfl⟩
    · rintro ⟨rfl, ho⟩
      cases ho
      rfl

/-- The answers of several scanners, each next to its scanner. -/
theorem named_answers {ps : List Provider} {ys : List (Provider × ScanOutcome)}
    (h : (ps.mapM fun p => do return (p, ← env.scanAnswer p)) = .ok ys) :
    ys.map Prod.fst = ps ∧ ∀ y ∈ ys, env.scanAnswer y.1 = .ok y.2 := by
  have hall := (mapM_forall₂ ..).mp h
  clear h
  induction hall with
  | nil => exact ⟨rfl, by simp⟩
  | cons hy _ ih =>
    obtain ⟨rfl, ho⟩ := named_answer.mp hy
    refine ⟨by rw [List.map_cons, ih.1], ?_⟩
    intro y hy
    rcases List.mem_cons.mp hy with rfl | hy
    · exact ho
    · exact ih.2 y hy

def Answered (env : Env) (cfg : RuntimeConfig) (selected : List Provider) : Prop :=
  ∀ p ∈ selected, cfg.isConfigured p = true → ∃ o, env.scanAnswer p = .ok o

def Reported (env : Env) (cfg : RuntimeConfig) (p : Provider) (o : ScanOutcome) : Prop :=
  if cfg.isConfigured p then env.scanAnswer p = .ok o else o = cfg.unconfiguredOutcome

theorem scanSelectedProviders_reports {selected : List Provider}
    (h : scanSelectedProviders env cfg selected = .ok outcomes) :
    (∀ p o, (p, o) ∈ outcomes → p ∈ selected ∧ Reported env cfg p o) ∧
      (∀ p ∈ selected, ∃ o, (p, o) ∈ outcomes) ∧
      (selected.Nodup → (outcomes.map Prod.fst).Nodup) := by
  unfold scanSelectedProviders at h
  cases hran : (selected.filter cfg.isConfigured).mapM fun p => do
      return (p, ← env.scanAnswer p) with
  | error e =>
    rw [hran] at h
    cases h
  | ok ran =>
    rw [hran] at h
    cases h
    obtain ⟨hmap, hall⟩ := named_answers hran
    have hskip : ∀ ps : List Provider,
        (ps.map fun p => (p, cfg.unconfiguredOutcome)).map Prod.fst = ps := by
      intro ps
      rw [List.map_map]
      exact List.map_id _
    refine ⟨?_, ?_, ?_⟩
    · intro p o hmem
      rcases List.mem_append.mp hmem with hs | hr
      · obtain ⟨q, hq, heq⟩ := List.mem_map.mp hs
        cases heq
        obtain ⟨hsel, hun⟩ := List.mem_filter.mp hq
        refine ⟨hsel, ?_⟩
        rw [Reported, if_neg (by simpa using hun)]
      · have hp : p ∈ selected.filter cfg.isConfigured := by
          rw [← hmap]
          exact List.mem_map_of_mem (f := Prod.fst) hr
        obtain ⟨hsel, hconf⟩ := List.mem_filter.mp hp
        refine ⟨hsel, ?_⟩
        rw [Reported, if_pos hconf]
        exact hall (p, o) hr
    · intro p hp
      by_cases hconf : cfg.isConfigured p = true
      · have hm : p ∈ ran.map Prod.fst := by
          rw [hmap]
          exact List.mem_filter.mpr ⟨hp, hconf⟩
        obtain ⟨⟨q, o⟩, hr, rfl⟩ := List.mem_map.mp hm
        exact ⟨o, List.mem_append_right _ hr⟩
      · refine ⟨cfg.unconfiguredOutcome, List.mem_append_left _ ?_⟩
        exact List.mem_map.mpr ⟨p, List.mem_filter.mpr ⟨hp, by simpa using hconf⟩, rfl⟩
    · intro hnd
      rw [List.map_append, hskip, hmap, List.nodup_append]
      refine ⟨hnd.filter _, hnd.filter _, ?_⟩
      intro a ha b hb hab
      subst hab
      have h1 := (List.mem_filter.mp ha).2
      have h2 := (List.mem_filter.mp hb).2
      rw [h2] at h1
      cases h1

/-- A selection is scanned without an exception exactly when it is answered. -/
theorem scanSelectedProviders_ok {selected : List Provider} :
    (∃ outcomes, scanSelectedProviders env cfg selected = .ok outcomes) ↔
      Answered env cfg selected := by
  constructor
  · rintro ⟨outcomes, h⟩ p hp hconf
    obtain ⟨hrep, hmem, -⟩ := scanSelectedProviders_reports h
    obtain ⟨o, ho⟩ := hmem p hp
    have hr := (hrep p o ho).2
    rw [Reported, if_pos hconf] at hr
    exact ⟨o, hr⟩
  · intro h
    have hran : ∃ ys, ((selected.filter cfg.isConfigured).mapM fun p => do
        return (p, ← env.scanAnswer p)) = .ok ys := by
      refine mapM_total fun p hp => ?_
      obtain ⟨hsel, hconf⟩ := List.mem_filter.mp hp
      obtain ⟨o, ho⟩ := h p hsel hconf
      exact ⟨(p, o), named_answer.mpr ⟨rfl, ho⟩⟩
    obtain ⟨ys, hys⟩ := hran
    exact ⟨_, by unfold scanSelectedProviders; rw [hys]; rfl⟩

def ScanOutcome.payload (o : ScanOutcome) : ScanPayload :=
  ⟨o.passed, some o.message, o.mode⟩

namespace SecurityScan

variable (scan : SecurityScan) (p q : Provider) (o : ScanOutcome)

theorem applyTracking_legacy : (scan.applyTracking p o).legacyResult q = scan.legacyResult q := by
  cases p <;> cases q <;> rfl

theorem clearTracking_legacy : (scan.clearTracking p).legacyResult q = scan.legacyResult q := by
  cases p <;> cases q <;> rfl

theorem recordLegacy_ne {p q : Provider} (h : q ≠ p) :
    (scan.recordLegacy p o).legacyResult q = scan.legacyResult q := by
  cases p <;> cases q <;> first | rfl | exact absurd rfl h

end SecurityScan

def KeepsLegacy (track : SecurityScan → SecurityScan) : Prop :=
  ∀ scan q, (track scan).legacyResult q = scan.legacyResult q

namespace PluginVersion

variable {v : PluginVersion} {now : Time} {p q : Provider} {o : ScanOutcome}
  {track : SecurityScan → SecurityScan}

def result (v : PluginVersion) (p : Provider) : Option ScanPayload :=
  scanProviderResults v none p

theorem setReviewProviderResult_payload (now : Time) (r : ReviewProviderResult) :
    (r.setReviewProviderResult now p o).kind = .scan ∧
      providerResultPayload (r.setReviewProviderResult now p o) = o.payload := by
  cases p <;> exact ⟨rfl, rfl⟩

theorem result_of_row {r : ReviewProviderResult} (h : v.providerResults (.machine p) = some r)
    (hk : r.kind = .scan) : v.result p = some (providerResultPayload r) := by
  simp [result, scanProviderResults, h, hk]

theorem record_row : (v.record now p o track).providerResults (.machine p) =
    some (((v.providerResults (.machine p)).getD (.new .scan)).setReviewProviderResult now p o) :=
  Function.update_self ..

theorem record_row_ne (h : q ≠ p) : (v.record now p o track).providerResults (.machine q) =
    v.providerResults (.machine q) :=
  Function.update_of_ne (fun hc => h (Reviewer.machine.inj hc)) ..

theorem record_result : (v.record now p o track).result p = some o.payload := by
  obtain ⟨hk, hp⟩ := setReviewProviderResult_payload (p := p) (o := o)
    now ((v.providerResults (.machine p)).getD (.new .scan))
  rw [result_of_row record_row hk, hp]

theorem record_result_ne (h : q ≠ p) (ht : KeepsLegacy track) :
    (v.record now p o track).result q = v.result q := by
  have hscan : (v.record now p o track).scan.bind (·.legacyResult q) =
      v.scan.bind (·.legacyResult q) := by
    change (v.scan.map fun scan => track (scan.recordLegacy p o)).bind _ = _
    cases v.scan with
    | none => rfl
    | some scan => exact (ht _ q).trans (scan.recordLegacy_ne o h)
  simp only [result, scanProviderResults, record_row_ne h, hscan]

theorem recordAll_result_ne {outcomes : List (Provider × ScanOutcome)}
    (h : q ∉ outcomes.map Prod.fst) : (v.recordAll now outcomes).result q = v.result q := by
  induction outcomes generalizing v with
  | nil => rfl
  | cons y ys ih =>
    rw [List.map_cons, List.mem_cons, not_or] at h
    exact (ih h.2).trans (record_result_ne h.1 fun scan q => scan.applyTracking_legacy ..)

/-- Each outcome of a scan is what the rows say about its provider afterwards. -/
theorem recordAll_result {outcomes : List (Provider × ScanOutcome)}
    (hnd : (outcomes.map Prod.fst).Nodup) (h : (p, o) ∈ outcomes) :
    (v.recordAll now outcomes).result p = some o.payload := by
  induction outcomes generalizing v with
  | nil => cases h
  | cons y ys ih =>
    rw [List.map_cons, List.nodup_cons] at hnd
    rcases List.mem_cons.mp h with rfl | h
    · exact (recordAll_result_ne hnd.1).trans record_result
    · exact ih hnd.2 h

theorem finishScan_result (b : BuildStatus) : (v.finishScan now b).result p = v.result p := by
  have hscan : (v.finishScan now b).result p = (v.scannedAt now).result p := by
    unfold finishScan
    dsimp only
    split <;> rfl
  rw [hscan]
  simp only [result, scanProviderResults, scannedAt]
  cases v.scan with
  | none => rfl
  | some scan => cases p <;> rfl

def resultPasses (v : PluginVersion) (p : Provider) : Bool :=
  (v.result p).any ScanPayload.passes

/-- A new legacy row passes nothing. -/
theorem openScan_resultPasses : (v.openScan now).resultPasses p = v.resultPasses p := by
  unfold resultPasses result scanProviderResults openScan
  cases v.providerResults (.machine p) with
  | none =>
    cases v.scan with
    | none => cases p <;> rfl
    | some scan => rfl
  | some r =>
    cases v.scan with
    | none =>
      by_cases hk : r.kind = .scan
      · simp only [hk, if_true]
      · simp only [hk, if_false]
        cases p <;> rfl
    | some scan => rfl

theorem beginScan_resultPasses : (v.beginScan now).resultPasses p = v.resultPasses p := by
  have hopen := @openScan_resultPasses v now p
  unfold beginScan
  split
  · exact hopen
  · exact hopen

end PluginVersion

theorem passes_result {r : ScanPayload} (h : r.passes = true) : r.mode ≠ .pending := by
  intro hm
  simp [ScanPayload.passes, hm] at h

/-- Once a version's build is done or only waits for scans, its results decide. -/
theorem Db.passes_iff {db : Db} {v : PluginVersion}
    (hb : v.buildStatus = .success ∨ v.buildStatus = .scanning) :
    db.passes v = true ↔ ∀ p ∈ db.config.scanEnabledProviders, v.resultPasses p = true := by
  have hpass : scanProvidersPassed v (some db.config.scanEnabledProviders) = true ↔
      ∀ p ∈ db.config.scanEnabledProviders, v.resultPasses p = true :=
    List.all_eq_true
  rw [Db.passes, Bool.and_eq_true, hpass, and_iff_right_iff_imp]
  intro hall
  rw [buildReadyForScanPolicy, Bool.or_eq_true, Bool.and_eq_true, decide_eq_true_eq,
    decide_eq_true_eq]
  rcases hb with hb | hb
  · exact .inl hb
  · refine .inr ⟨hb, ?_⟩
    rw [Bool.not_eq_true', scanProvidersPending, List.any_eq_false]
    intro p _ hpend
    by_cases hin : p ∈ db.config.scanEnabledProviders
    · have heq : scanProviderResults v (some db.config.scanEnabledProviders) p = v.result p := by
        simp [scanProviderResults, PluginVersion.result, hin]
      have hp := hall p hin
      rw [heq] at hpend
      rw [PluginVersion.resultPasses] at hp
      cases hr : v.result p with
      | none =>
        rw [hr] at hp
        cases hp
      | some r =>
        rw [hr] at hp hpend
        exact passes_result hp (of_decide_eq_true hpend)
    · simp [scanProviderResults, hin] at hpend

def Passing (env : Env) (cfg : RuntimeConfig) (selected : List Provider) (v : PluginVersion)
    (p : Provider) : Prop :=
  if p ∈ selected then
    cfg.isConfigured p = true → ∃ o, env.scanAnswer p = .ok o ∧ o.payload.passes = true
  else v.resultPasses p = true

theorem scanned_resultPasses {v : PluginVersion} {now : Time} {selected : List Provider}
    (hnd : selected.Nodup) (h : scanSelectedProviders env cfg selected = .ok outcomes)
    (p : Provider) :
    (v.scanned now outcomes).resultPasses p = true ↔ Passing env cfg selected v p := by
  obtain ⟨hrep, hmem, hdis⟩ := scanSelectedProviders_reports h
  have hres : (v.scanned now outcomes).result p =
      ((v.beginScan now).recordAll now outcomes).result p :=
    PluginVersion.finishScan_result _
  unfold Passing
  split
  · rename_i hp
    obtain ⟨o, ho⟩ := hmem p hp
    have hrow : (v.scanned now outcomes).result p = some o.payload :=
      hres.trans (PluginVersion.recordAll_result (hdis hnd) ho)
    have hr := (hrep p o ho).2
    rw [PluginVersion.resultPasses, hrow, Option.any_some]
    unfold Reported at hr
    by_cases hconf : cfg.isConfigured p = true
    · rw [if_pos hconf] at hr
      simp only [hconf, hr, Except.ok.injEq, exists_eq_left', true_implies]
    · rw [if_neg hconf] at hr
      subst hr
      simp only [hconf, Bool.false_eq_true, false_implies, iff_true]
      rfl
  · rename_i hp
    have hno : p ∉ outcomes.map Prod.fst := by
      intro hc
      obtain ⟨⟨q, o⟩, hq, rfl⟩ := List.mem_map.mp hc
      exact hp (hrep q o hq).1
    rw [PluginVersion.resultPasses, hres, PluginVersion.recordAll_result_ne hno]
    exact Iff.of_eq (congrArg (· = true) PluginVersion.beginScan_resultPasses)

theorem scanned_passes {db : Db} {v : PluginVersion} {now : Time} {selected : List Provider}
    (hart : v.hasArtifact = true) (hnd : selected.Nodup)
    (h : scanSelectedProviders env db.config selected = .ok outcomes) :
    db.passes (v.scanned now outcomes) = true ↔
      ∀ p ∈ db.config.scanEnabledProviders, Passing env db.config selected v p := by
  have hb : (v.scanned now outcomes).buildStatus = .success ∨
      (v.scanned now outcomes).buildStatus = .scanning := by
    rw [PluginVersion.scanned_buildStatus now hart, PluginVersion.scanBuildStatus]
    split
    · exact .inr rfl
    · exact .inl rfl
  rw [Db.passes_iff hb]
  exact forall₂_congr fun p _ => scanned_resultPasses hnd h p

theorem PluginVersion.openPoll_resultPasses {v : PluginVersion} {now : Time} {p : Provider}
    (hp : p ≠ .virustotal) : (v.openPoll now).resultPasses p = v.resultPasses p := by
  have hrow : (v.openPoll now).providerResults (.machine p) =
      (v.openScan now).providerResults (.machine p) :=
    Function.update_of_ne (fun hc => hp (Reviewer.machine.inj hc)) ..
  have hres : (v.openPoll now).result p = (v.openScan now).result p := by
    simp only [PluginVersion.result, scanProviderResults, hrow]
    rfl
  rw [PluginVersion.resultPasses, hres]
  exact PluginVersion.openScan_resultPasses

/-- After a poll the new outcome counts for VirusTotal, the rows for the others. -/
theorem polled_passes {db : Db} {v : PluginVersion} {now : Time} {o : ScanOutcome}
    {track : SecurityScan → SecurityScan} (hart : v.hasArtifact = true) (ht : KeepsLegacy track) :
    db.passes (v.polled now o track) = true ↔
      (.virustotal ∈ db.config.scanEnabledProviders → o.payload.passes = true) ∧
        ∀ p ∈ db.config.scanEnabledProviders, p ≠ .virustotal → v.resultPasses p = true := by
  have hb : (v.polled now o track).buildStatus = .success ∨
      (v.polled now o track).buildStatus = .scanning := by
    rw [PluginVersion.polled_buildStatus now hart]
    split
    · exact .inr rfl
    · exact .inl rfl
  have hres : ∀ p, (v.polled now o track).resultPasses p =
      ((v.openPoll now).record now .virustotal o track).resultPasses p := by
    intro p
    rw [PluginVersion.resultPasses, PluginVersion.polled, PluginVersion.finishScan_result]
    rfl
  have hself : (v.polled now o track).resultPasses .virustotal = o.payload.passes := by
    rw [hres, PluginVersion.resultPasses, PluginVersion.record_result]
    rfl
  have hother : ∀ p, p ≠ .virustotal →
      (v.polled now o track).resultPasses p = v.resultPasses p := by
    intro p hp
    rw [hres, PluginVersion.resultPasses, PluginVersion.record_result_ne hp ht]
    exact PluginVersion.openPoll_resultPasses hp
  rw [Db.passes_iff hb]
  constructor
  · intro h
    exact ⟨fun hin => hself ▸ h _ hin, fun p hin hp => hother p hp ▸ h p hin⟩
  · rintro ⟨hvt, hrest⟩ p hin
    by_cases hp : p = .virustotal
    · subst hp
      rw [hself]
      exact hvt hin
    · rw [hother p hp]
      exact hrest p hin hp

theorem Db.autoPublishes_iff {db : Db} {v : PluginVersion} :
    db.autoPublishes v = true ↔
      (db.config.scanAutoPublishEnabled = true ∧ db.config.scanRequireHumanReview = false) ∧
        db.passes v = true := by
  rw [Db.autoPublishes, Bool.and_eq_true, Bool.and_eq_true, Bool.not_eq_true']

def Db.selection (db : Db) (providers : Option (List String)) : List Provider :=
  match db.selectedProviders providers with
  | .ok selected => selected
  | .error _ => []

theorem Db.selection_of_ok {db : Db} {providers : Option (List String)} {selected : List Provider}
    (h : db.selectedProviders providers = .ok selected) : db.selection providers = selected := by
  rw [Db.selection, h]

theorem Provider.names_nodup : Provider.names.Nodup := by
  decide

theorem Db.selection_nodup (db : Db) (providers : Option (List String)) :
    (db.selection providers).Nodup := by
  unfold Db.selection Db.selectedProviders
  cases providers with
  | none => exact Provider.names_nodup.filter _
  | some names =>
    unfold Provider.validate
    dsimp only
    split
    · rename_i selected h
      split at h
      · cases h
        exact Provider.names_nodup.filter _
      · cases h
    · exact List.nodup_nil

def Waiting (env : Env) (cfg : RuntimeConfig) (selected : List Provider) : Prop :=
  ∃ p ∈ selected, cfg.isConfigured p = true ∧ ∃ o, env.scanAnswer p = .ok o ∧ o.mode = .pending

theorem anyPending_iff {selected : List Provider}
    (h : scanSelectedProviders env cfg selected = .ok outcomes) :
    anyPending outcomes = true ↔ Waiting env cfg selected := by
  obtain ⟨hrep, hmem, -⟩ := scanSelectedProviders_reports h
  rw [anyPending, List.any_eq_true]
  constructor
  · rintro ⟨⟨p, o⟩, ho, hpend⟩
    obtain ⟨hp, hr⟩ := hrep p o ho
    have hpend : o.mode = .pending := of_decide_eq_true hpend
    unfold Reported at hr
    by_cases hconf : cfg.isConfigured p = true
    · rw [if_pos hconf] at hr
      exact ⟨p, hp, hconf, o, hr, hpend⟩
    · rw [if_neg hconf] at hr
      subst hr
      cases hpend
  · rintro ⟨p, hp, hconf, o, ho, hpend⟩
    obtain ⟨o', ho'⟩ := hmem p hp
    have hr := (hrep p o' ho').2
    rw [Reported, if_pos hconf, ho] at hr
    cases hr
    exact ⟨(p, o), ho', decide_eq_true hpend⟩

def FollowedUp (env : Env) (cfg : RuntimeConfig) (selected : List Provider) : Prop :=
  .virustotal ∈ selected ∧ cfg.isConfigured .virustotal = true ∧
    ∃ o, env.scanAnswer .virustotal = .ok o ∧ truthy o.virustotalAnalysisId = true ∧
      o.virustotalNextPollAt.isSome = true

theorem followupTask_iff {selected : List Provider}
    (h : scanSelectedProviders env cfg selected = .ok outcomes) :
    (followupTask env outcomes).isSome = true ↔ FollowedUp env cfg selected := by
  obtain ⟨hrep, hmem, -⟩ := scanSelectedProviders_reports h
  rw [followupTask, List.isSome_findSome?, List.any_eq_true]
  constructor
  · rintro ⟨⟨p, o⟩, ho, htask⟩
    obtain ⟨hp, hr⟩ := hrep p o ho
    dsimp only at htask
    by_cases hvt : (p = .virustotal && truthy o.virustotalAnalysisId) = true
    · rw [if_pos hvt, Option.isSome_map] at htask
      rw [Bool.and_eq_true, decide_eq_true_eq] at hvt
      obtain ⟨rfl, hid⟩ := hvt
      unfold Reported at hr
      by_cases hconf : cfg.isConfigured .virustotal = true
      · rw [if_pos hconf] at hr
        exact ⟨hp, hconf, o, hr, hid, htask⟩
      · rw [if_neg hconf] at hr
        subst hr
        cases hid
    · rw [if_neg hvt] at htask
      cases htask
  · rintro ⟨hp, hconf, o, ho, hid, hnext⟩
    obtain ⟨o', ho'⟩ := hmem .virustotal hp
    have hr := (hrep .virustotal o' ho').2
    rw [Reported, if_pos hconf, ho] at hr
    cases hr
    refine ⟨(.virustotal, o), ho', ?_⟩
    dsimp only
    rw [if_pos (by simp [hid]), Option.isSome_map]
    exact hnext

end PluginRegistry
