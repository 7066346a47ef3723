import PluginRegistry.Proofs.ReviewContext
import PluginRegistry.Services.LlmAgent

namespace PluginRegistry
open Lib

def riskLevels : List String := ["none", "low", "medium", "high", "critical"]

def statedRisk (text : PyText) (result : JsonObject) : Option String :=
  match result.get "risk_level" with
  | some (.str level) => some (text.lower level)
  | _ => none

inductive MayPass (text : PyText) (result : JsonObject) : Prop
  | lowRisk (level : String) (hlevel : statedRisk text result = some level)
      (hlow : level ∈ ["none", "low", "medium"])
  | uncertain (level : String) (hlevel : statedRisk text result = some level)
      (hhigh : level ∈ ["high", "critical"])
      (honly : looksUncertaintyOnlyHighRisk text result = true)
  | ownPass (hunknown : ∀ level, statedRisk text result = some level → level ∉ riskLevels)
      (hpass : result.get "pass" = some (.bool true))

def AnswersWith (text : PyText) (client : LlmClient) (archiveName : String)
    (artifact : Except PyErr ZipArchive) (config : LlmAgentConfig) (result : JsonObject) : Prop :=
  ∃ archive context truncated response object, artifact = .ok archive ∧
    buildLlmContext text archiveName archive config.maxContextChars = .ok (context, truncated) ∧
    callLlmAgent text client context truncated config = .ok response ∧
    extractJsonObject response = .ok object ∧ client.loads object = .ok (.obj result)

theorem statedRisk_some {text : PyText} {result : JsonObject} {level : String}
    (h : statedRisk text result = some level) :
    ∃ stated, result.get "risk_level" = some (.str stated) ∧ level = text.lower stated := by
  simp only [statedRisk] at h
  split at h
  · rename_i stated hget
    exact ⟨stated, hget, (Option.some.inj h).symm⟩
  · cases h

theorem lower_unknown {text : PyText} (htext : text.Documented) :
    text.lower "unknown" = "unknown" := by
  rw [htext.lowersAscii "unknown" (by simp)]
  decide

theorem lower_empty {text : PyText} (htext : text.Documented) : text.lower "" = "" := by
  rw [htext.lowersAscii "" (by simp)]
  decide

theorem isDigit_lower {c : Char} (h : c.isDigit = true) :
    c.toNat < 128 ∧ c.toLower ≠ 'h' ∧ c.toLower ≠ 'c' := by
  simp only [Char.isDigit, Bool.and_eq_true, decide_eq_true_eq] at h
  have hlower : c.toLower = c := by
    refine dif_neg ?_
    simp only [ge_iff_le, UInt32.le_iff_toNat_le] at h ⊢
    simp at h ⊢
    omega
  have hrange : 48 ≤ c.toNat ∧ c.toNat ≤ 57 := by
    simp only [ge_iff_le, UInt32.le_iff_toNat_le] at h
    exact h
  rw [hlower]
  refine ⟨by omega, ?_, ?_⟩
  · rintro rfl
    exact absurd hrange.2 (by decide)
  · rintro rfl
    exact absurd hrange.2 (by decide)

/-- What is no string never reads as a failing level. -/
theorem lower_toStr_notFail {text : PyText} (htext : text.Documented) {value : Json}
    (h : ∀ s, value ≠ .str s) : text.lower (value.toStr text) ∉ llmRiskFailLevels := by
  obtain ⟨c, hhead, hfirst⟩ := Json.toStr_head htext h
  have hc : c.toNat < 128 ∧ c.toLower ≠ 'h' ∧ c.toLower ≠ 'c' := by
    rcases hfirst with hdigit | hmem
    · exact isDigit_lower hdigit
    · have hfirsts : ∀ c ∈ ['-', 'i', 'n', 'N', 'T', 'F', '[', '\x7b'],
          c.toNat < 128 ∧ c.toLower ≠ 'h' ∧ c.toLower ≠ 'c' := by simp
      exact hfirsts c hmem
  have hlower := htext.lowersFirst _ c hhead hc.1
  intro hfail
  rcases List.mem_cons.mp hfail with heq | hfail
  · rw [heq] at hlower
    exact hc.2.1 (Option.some.inj hlower).symm
  · rw [List.mem_singleton.mp hfail] at hlower
    exact hc.2.2 (Option.some.inj hlower).symm

theorem failLevel_recognised {level : String} (h : level ∈ llmRiskFailLevels) :
    level ∈ riskLevels :=
  List.mem_append_right ["none", "low", "medium"] h

/-- A failing level is one that the answer states. -/
theorem riskLevelOf_fail {text : PyText} (htext : text.Documented) {result : JsonObject}
    (h : riskLevelOf text result ∈ llmRiskFailLevels) :
    statedRisk text result = some (riskLevelOf text result) := by
  have hunknown : text.lower "unknown" ∉ llmRiskFailLevels := by
    rw [lower_unknown htext]
    decide
  rw [riskLevelOf, strOr] at h ⊢
  rw [statedRisk]
  cases hget : result.get "risk_level" with
  | none =>
    rw [hget] at h
    exact absurd h hunknown
  | some value =>
    rw [hget] at h
    dsimp only at h ⊢
    cases htruthy : value.truthy with
    | false =>
      rw [if_neg (by simp [htruthy])] at h
      exact absurd h hunknown
    | true =>
      rw [if_pos htruthy] at h
      cases value with
      | str level => simp [Json.toStr]
      | _ => exact absurd h (lower_toStr_notFail htext (by intro s hs; cases hs))

theorem riskLevelOf_stated {text : PyText} (htext : text.Documented) {result : JsonObject}
    {level : String} (h : statedRisk text result = some level) (hmem : level ∈ riskLevels) :
    riskLevelOf text result = level := by
  obtain ⟨stated, hget, rfl⟩ := statedRisk_some h
  have hne : stated ≠ "" := by
    rintro rfl
    rw [lower_empty htext] at hmem
    exact absurd hmem (by decide)
  rw [riskLevelOf, strOr, hget]
  dsimp only
  rw [if_pos (by simpa [Json.truthy] using hne)]
  rfl

theorem riskLevelOf_set_pass (text : PyText) (result : JsonObject) (value : Json) :
    riskLevelOf text (result.set "pass" value) = riskLevelOf text result := by
  rw [riskLevelOf, riskLevelOf, strOr, strOr, JsonObject.get_set, if_neg (by decide)]

/-- A scan passes unless the level is a failing one that is not put down to uncertainty. -/
theorem llmOutcome_passed {text : PyText} (htext : text.Documented) (client : LlmClient)
    (result : JsonObject) (truncated : Bool) (config : LlmAgentConfig) :
    (llmOutcome text client (normalizeLlmResult text result) truncated config).passed =
      some (!llmRiskFailLevels.contains (riskLevelOf text result) ||
        looksUncertaintyOnlyHighRisk text result) := by
  simp only [llmOutcome, normalizeLlmResult]
  cases hfail : llmRiskFailLevels.contains (riskLevelOf text result) with
  | false =>
    simp only [Bool.false_and, Bool.false_eq_true, if_false, Bool.not_false, if_true,
      JsonObject.get_set, riskLevelOf_set_pass, hfail]
    rfl
  | true =>
    cases honly : looksUncertaintyOnlyHighRisk text result with
    | false => simpa using fun _ => List.contains_iff_mem.mp hfail
    | true =>
      have hmedium : text.lower "medium" = "medium" := by
        rw [htext.lowersAscii "medium" (by simp)]
        decide
      have hlevel : ∀ r : JsonObject, riskLevelOf text (((r.set "risk_level" (.str "medium")).set
          "pass" (.bool true)).set "normalization_note" (.str normalizationNote)) = "medium" := by
        intro r
        rw [riskLevelOf, strOr, JsonObject.get_set, if_neg (by decide), JsonObject.get_set,
          if_neg (by decide), JsonObject.get_set, if_pos rfl]
        exact hmedium
      have hpass : ∀ r : JsonObject, (((r.set "risk_level" (.str "medium")).set
          "pass" (.bool true)).set "normalization_note" (.str normalizationNote)).get "pass" =
            some (.bool true) := by
        intro r
        rw [JsonObject.get_set, if_neg (by decide), JsonObject.get_set, if_pos rfl]
      simp only [Bool.and_self, if_true, hlevel, hpass]
      rfl

/-- A pass on a recognised level is one of the first two kinds. -/
theorem mayPass_of_recognised {text : PyText} (htext : text.Documented) {result : JsonObject}
    {level : String} (hlevel : statedRisk text result = some level) (hmem : level ∈ riskLevels)
    (hpass : (!llmRiskFailLevels.contains (riskLevelOf text result) ||
      looksUncertaintyOnlyHighRisk text result) = true) : MayPass text result := by
  rw [riskLevelOf_stated htext hlevel hmem] at hpass
  rcases List.mem_append.mp (show level ∈ ["none", "low", "medium"] ++ llmRiskFailLevels from hmem)
    with hlow | hhigh
  · exact .lowRisk level hlevel hlow
  · rw [List.contains_iff_mem.mpr hhigh] at hpass
    exact .uncertain level hlevel hhigh (by simpa using hpass)

/-- The outcome of a scan whose answer has been read. -/
theorem scanLlm_answer {text : PyText} {client : LlmClient} {archiveName : String}
    {artifact : Except PyErr ZipArchive} {config : LlmAgentConfig} {result : JsonObject}
    (h : AnswersWith text client archiveName artifact config result) :
    ∃ truncated, scanLlm text client archiveName artifact config =
      if (result.get "pass").isSome && (result.get "risk_level").isSome then
        .ok (llmOutcome text client (normalizeLlmResult text result) truncated config)
      else llmFailure (valueError "LLM response is missing required keys") := by
  obtain ⟨archive, context, truncated, response, object, rfl, hcontext, hcall, hobject, hload⟩ := h
  have hparse : parseLlmResponse client response =
      if (result.get "pass").isSome && (result.get "risk_level").isSome then .ok result
      else .error (valueError "LLM response is missing required keys") := by
    rw [parseLlmResponse, except_bind_eq hobject, except_bind_eq hload]
    rfl
  have hreview : reviewArtifact text client archiveName (.ok archive) config =
      (parseLlmResponse client response).map fun result =>
        (normalizeLlmResult text result, truncated) := by
    rw [reviewArtifact, except_bind_eq (a := archive) rfl, except_bind_eq hcontext]
    dsimp only
    rw [except_bind_eq hcall]
    generalize parseLlmResponse client response = parsed
    cases parsed <;> rfl
  refine ⟨truncated, ?_⟩
  rw [scanLlm, hreview, hparse]
  cases (result.get "pass").isSome && (result.get "risk_level").isSome <;> rfl

/-- A scan whose answer has been read fails closed exactly if the answer lacks
one of its two keys, states a recognised level, or passes on its own. -/
theorem llm_fails_closed_iff {text : PyText} (htext : text.Documented) {client : LlmClient}
    {archiveName : String} {artifact : Except PyErr ZipArchive} {config : LlmAgentConfig}
    {result : JsonObject} (h : AnswersWith text client archiveName artifact config result) :
    (∀ outcome, scanLlm text client archiveName artifact config = .ok outcome →
        outcome.passed = some true → MayPass text result) ↔
      (result.get "pass" = none ∨ result.get "risk_level" = none) ∨
        (∃ level, statedRisk text result = some level ∧ level ∈ riskLevels) ∨
        result.get "pass" = some (.bool true) := by
  obtain ⟨truncated, hscan⟩ := scanLlm_answer h
  rw [hscan]
  by_cases hkeys : ((result.get "pass").isSome && (result.get "risk_level").isSome) = true
  · rw [if_pos hkeys]
    constructor
    · intro hclosed
      by_cases hfail : riskLevelOf text result ∈ llmRiskFailLevels
      · right; left
        exact ⟨_, riskLevelOf_fail htext hfail, failLevel_recognised hfail⟩
      · have hpassed := llmOutcome_passed htext client result truncated config
        rw [Bool.eq_false_iff.mpr (fun hc => hfail (List.contains_iff_mem.mp hc))] at hpassed
        cases hclosed _ rfl hpassed with
        | lowRisk level hlevel hlow =>
          exact .inr (.inl ⟨level, hlevel, List.mem_append_left ["high", "critical"] hlow⟩)
        | uncertain level hlevel hhigh =>
          exact .inr (.inl ⟨level, hlevel, failLevel_recognised hhigh⟩)
        | ownPass hunknown hpass => exact .inr (.inr hpass)
    · intro hcond outcome houtcome hpass
      rw [← Except.ok.inj houtcome, llmOutcome_passed htext] at hpass
      rw [Bool.and_eq_true, Option.isSome_iff_ne_none, Option.isSome_iff_ne_none] at hkeys
      rcases hcond with hmissing | ⟨level, hlevel, hmem⟩ | hown
      · rcases hmissing with hmissing | hmissing
        · exact absurd hmissing hkeys.1
        · exact absurd hmissing hkeys.2
      · exact mayPass_of_recognised htext hlevel hmem (Option.some.inj hpass)
      · by_cases hknown : ∃ level, statedRisk text result = some level ∧ level ∈ riskLevels
        · obtain ⟨level, hlevel, hmem⟩ := hknown
          exact mayPass_of_recognised htext hlevel hmem (Option.some.inj hpass)
        · exact .ownPass (fun level hlevel hmem => hknown ⟨level, hlevel, hmem⟩) hown
  · rw [if_neg hkeys]
    constructor
    · intro _
      left
      rw [Bool.and_eq_true, Option.isSome_iff_ne_none, Option.isSome_iff_ne_none] at hkeys
      by_cases hpass : result.get "pass" = none
      · exact .inl hpass
      · right
        by_contra hrisk
        exact hkeys ⟨hpass, hrisk⟩
    · intro _ outcome houtcome hpass
      rw [llmFailure, if_pos (by decide)] at houtcome
      rw [← Except.ok.inj houtcome] at hpass
      cases hpass

theorem asciiText_documented : asciiText.Documented where
  lowersAscii := lowersAscii_asciiLower
  lowersFirst := by
    intro s c hc _
    change (asciiLower s).toList.head? = some c.toLower
    rw [asciiLower, String.toList_ofList, List.head?_map, hc]
    rfl
  reprFirst := by
    intro f
    refine ⟨'0', ?_, .inl rfl⟩
    change "0.0".toList.head? = some '0'
    decide

def emptyArchive : ZipArchive := ⟨22, []⟩

theorem emptyArchive_context : buildLlmContext asciiText "a.zip" emptyArchive 24000 =
    .ok (emptyArchive.reviewText asciiText "a.zip", false) := by
  have hlength : (emptyArchive.reviewText asciiText "a.zip").length ≤ 1000 := by decide
  have hsize : 1000 ≤ maxSize := by decide
  apply buildLlmContext_fits
  · intro info hinfo
    cases hinfo
  · omega
  · omega

def llmConfig : LlmAgentConfig := ⟨"https://api.example.com/v1", "gpt-test", "secret", 24000⟩

def refusal : String := "\x7b\"pass\":false,\"risk_level\":null\x7d"

def refusalResult : JsonObject := [("pass", .bool false), ("risk_level", .null)]

def refusingClient : LlmClient where
  loads := fun raw =>
    if raw = refusal then .ok (.obj refusalResult)
    else .error ⟨.jsonDecodeError, "Expecting value: line 1 column 1 (char 0)", 0⟩
  dumps := fun _ => "\x7b\"pass\":true,\"risk_level\":\"unknown\",\"summary\":\"\",\"findings\":[]," ++
    "\"context_truncated\":false,\"model\":\"gpt-test\"\x7d"
  post := fun _ _ _ _ => .ok (.obj [("choices", .arr [.obj [("message", .obj
    [("content", .str refusal)])]])])

theorem refusal_answers : AnswersWith asciiText refusingClient "a.zip" (.ok emptyArchive) llmConfig
    refusalResult :=
  ⟨emptyArchive, _, _, refusal, refusal, rfl, emptyArchive_context, rfl, by decide, rfl⟩

theorem llm_fails_closed_iff_refusal :
    (∀ outcome, scanLlm asciiText refusingClient "a.zip" (.ok emptyArchive) llmConfig =
        .ok outcome → outcome.passed = some true → MayPass asciiText refusalResult) ↔
      (refusalResult.get "pass" = none ∨ refusalResult.get "risk_level" = none) ∨
        (∃ level, statedRisk asciiText refusalResult = some level ∧ level ∈ riskLevels) ∨
        refusalResult.get "pass" = some (.bool true) :=
  llm_fails_closed_iff asciiText_documented refusal_answers

/-- A refusal without a level is recorded as a pass. -/
theorem refusal_passes :
    ¬∀ (text : PyText), text.Documented → ∀ (client : LlmClient) (archiveName : String)
      (artifact : Except PyErr ZipArchive) (config : LlmAgentConfig) (result : JsonObject),
      AnswersWith text client archiveName artifact config result → ∀ outcome,
        scanLlm text client archiveName artifact config = .ok outcome →
          outcome.passed = some true → MayPass text result := by
  intro hall
  have hclosed := hall _ asciiText_documented _ _ _ _ _ refusal_answers
  obtain ⟨truncated, hscan⟩ := scanLlm_answer refusal_answers
  rw [if_pos (by decide)] at hscan
  have hlevel : riskLevelOf asciiText refusalResult = "unknown" := by decide
  have hpassed := llmOutcome_passed asciiText_documented refusingClient refusalResult truncated
    llmConfig
  rw [hlevel] at hpassed
  have hstated : statedRisk asciiText refusalResult = none := by decide
  cases hclosed _ hscan hpassed with
  | lowRisk level h =>
    rw [hstated] at h
    cases h
  | uncertain level h =>
    rw [hstated] at h
    cases h
  | ownPass _ h => exact absurd h (by decide)

end PluginRegistry
