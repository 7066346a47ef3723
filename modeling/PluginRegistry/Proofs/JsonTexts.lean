import PluginRegistry.Proofs.Sha256Digest
import PluginRegistry.Python.JsonDecoder
import PluginRegistry.Services.LlmAgent

namespace PluginRegistry
open Lib

def isWordChar (c : Char) : Bool :=
  c.isAlphanum || c = '-' || c = '+' || c = '.'

theorem isWordChar_of_isDigit {c : Char} (h : c.isDigit = true) : isWordChar c = true := by
  have hanum : c.isAlphanum = true := by
    delta Char.isAlphanum
    rw [h, Bool.or_true]
  simp [isWordChar, hanum]

def ReadsWord (chars rest : List Char) : Prop :=
  ∃ front, chars = front ++ rest ∧ ∀ c ∈ front, isWordChar c = true

theorem ReadsWord.refl (chars : List Char) : ReadsWord chars chars :=
  ⟨[], rfl, by simp⟩

theorem ReadsWord.cons {c : Char} {chars rest : List Char} (hc : isWordChar c = true)
    (h : ReadsWord chars rest) : ReadsWord (c :: chars) rest := by
  obtain ⟨front, rfl, hfront⟩ := h
  refine ⟨c :: front, rfl, ?_⟩
  intro d hd
  rcases List.mem_cons.mp hd with rfl | hd
  · exact hc
  · exact hfront d hd

theorem ReadsWord.trans {chars middle rest : List Char} (h : ReadsWord chars middle)
    (h' : ReadsWord middle rest) : ReadsWord chars rest := by
  obtain ⟨front, rfl, hfront⟩ := h
  obtain ⟨front', rfl, hfront'⟩ := h'
  refine ⟨front ++ front', (List.append_assoc ..).symm, ?_⟩
  intro c hc
  rcases List.mem_append.mp hc with hc | hc
  · exact hfront c hc
  · exact hfront' c hc

theorem skipDigits_reads {chars rest : List Char} (h : skipDigits chars = some rest) :
    ReadsWord chars rest := by
  cases chars with
  | nil => cases h
  | cons c chars =>
    simp only [skipDigits] at h
    split at h
    · rename_i hc
      obtain rfl := Option.some.inj h
      apply ReadsWord.cons (isWordChar_of_isDigit hc)
      refine ⟨chars.takeWhile Char.isDigit, List.takeWhile_append_dropWhile.symm, ?_⟩
      exact fun d hd => isWordChar_of_isDigit (List.mem_takeWhile_imp hd)
    · cases h

theorem skipInteger_reads {chars rest : List Char} (h : skipInteger chars = some rest) :
    ReadsWord chars rest := by
  unfold skipInteger at h
  split at h
  · obtain rfl := Option.some.inj h
    exact .cons (by decide) (.cons (by decide) (.refl _))
  · obtain rfl := Option.some.inj h
    exact .cons (by decide) (.refl _)
  · exact .cons (by decide) (skipDigits_reads h)
  · exact skipDigits_reads h

theorem skipFraction_reads {chars rest : List Char} (h : skipFraction chars = some rest) :
    ReadsWord chars rest := by
  unfold skipFraction at h
  split at h
  · exact .cons (by decide) (skipDigits_reads h)
  · exact Option.some.inj h ▸ .refl _

theorem skipExponent_reads {chars rest : List Char} (h : skipExponent chars = some rest) :
    ReadsWord chars rest := by
  unfold skipExponent at h
  split at h
  · exact .cons (by decide) (.cons (by decide) (skipDigits_reads h))
  · exact .cons (by decide) (.cons (by decide) (skipDigits_reads h))
  · exact .cons (by decide) (skipDigits_reads h)
  · exact .cons (by decide) (.cons (by decide) (skipDigits_reads h))
  · exact .cons (by decide) (.cons (by decide) (skipDigits_reads h))
  · exact .cons (by decide) (skipDigits_reads h)
  · exact Option.some.inj h ▸ .refl _

theorem numberLiteral_chars {chars : List Char} {broken : Bool}
    (h : numberLiteral chars = some broken) : ∀ c ∈ chars, isWordChar c = true := by
  obtain ⟨afterInteger, hinteger, h⟩ := Option.bind_eq_some_iff.mp h
  obtain ⟨afterFraction, hfraction, h⟩ := Option.bind_eq_some_iff.mp h
  obtain ⟨rest, hexponent, h⟩ := Option.bind_eq_some_iff.mp h
  have hreads := ((skipInteger_reads hinteger).trans (skipFraction_reads hfraction)).trans
    (skipExponent_reads hexponent)
  split at h
  · rename_i hrest
    obtain ⟨front, hchars, hfront⟩ := hreads
    rw [hrest, List.append_nil] at hchars
    exact hchars ▸ hfront
  · cases h

theorem JsonReader.wordValue_chars {reader : JsonReader} {chars : List Char} {value : Json}
    (h : reader.wordValue chars = some value) : ∀ c ∈ chars, isWordChar c = true := by
  unfold wordValue at h
  split at h
  · rename_i hconstant
    obtain ⟨field, hfind, -⟩ := Option.map_eq_some_iff.mp hconstant
    have hname : field.1 = String.ofList chars := by simpa using List.find?_some hfind
    have hall : ∀ field ∈ jsonConstants, field.1.toList.all isWordChar = true := by decide
    simpa [hname] using hall field (List.mem_of_find?_eq_some hfind)
  · split at h
    · rename_i hnumber
      exact numberLiteral_chars hnumber
    · rename_i hnumber
      exact numberLiteral_chars hnumber
    · cases h

theorem hexDigit?_printable {c : Char} {value : Nat} (h : hexDigit? c = some value) :
    32 ≤ c.toNat := by
  have hle : ∀ first : Char, first ≤ c → first.toNat ≤ c.toNat := fun _ h => h
  unfold hexDigit? at h
  split at h
  · exact Nat.le_trans (by decide) (hle '0' (And.left ‹_›))
  split at h
  · exact Nat.le_trans (by decide) (hle 'a' (And.left ‹_›))
  split at h
  · exact Nat.le_trans (by decide) (hle 'A' (And.left ‹_›))
  · cases h

theorem fourHexDigits_printable {a b c d : Char} {point : Nat}
    (h : fourHexDigits a b c d = some point) : ∀ x ∈ [a, b, c, d], 32 ≤ x.toNat := by
  obtain ⟨_, ha, h⟩ := Option.bind_eq_some_iff.mp h
  obtain ⟨_, hb, h⟩ := Option.bind_eq_some_iff.mp h
  obtain ⟨_, hc, h⟩ := Option.bind_eq_some_iff.mp h
  obtain ⟨_, hd, h⟩ := Option.bind_eq_some_iff.mp h
  simp [hexDigit?_printable ha, hexDigit?_printable hb, hexDigit?_printable hc,
    hexDigit?_printable hd]

theorem escapedChar_printable {c e : Char} (h : escapedChar c = some e) : 32 ≤ c.toNat := by
  unfold escapedChar at h
  split at h
  all_goals first | decide | cases h

/-- A string literal holds no control character. -/
theorem literalPoints_printable {raw : List Char} {points : List Nat}
    (h : literalPoints raw = some points) : ∀ c ∈ raw, 32 ≤ c.toNat := by
  fun_induction literalPoints raw generalizing points with
  | case1 => simp
  | case2 a b c d rest ih =>
    obtain ⟨point, hpoint, h⟩ := Option.bind_eq_some_iff.mp h
    obtain ⟨more, hmore, -⟩ := Option.bind_eq_some_iff.mp h
    have hhex := fourHexDigits_printable hpoint
    simp only [List.mem_cons, forall_eq_or_imp] at hhex ⊢
    exact ⟨by decide, by decide, hhex.1, hhex.2.1, hhex.2.2.1, hhex.2.2.2.1, ih hmore⟩
  | case3 c rest hne ih =>
    obtain ⟨e, he, h⟩ := Option.bind_eq_some_iff.mp h
    obtain ⟨more, hmore, -⟩ := Option.bind_eq_some_iff.mp h
    simp only [List.mem_cons, forall_eq_or_imp]
    exact ⟨by decide, escapedChar_printable he, ih hmore⟩
  | case4 => cases h
  | case5 c rest _ _ hc ih =>
    obtain ⟨more, hmore, -⟩ := Option.bind_eq_some_iff.mp h
    simp only [List.mem_cons, forall_eq_or_imp]
    refine ⟨?_, ih hmore⟩
    simp only [Bool.or_eq_true, decide_eq_true_eq, not_or, Nat.not_lt] at hc
    exact hc.1

def JsonReader.Reads (reader : JsonReader) : JsonToken → Prop
  | .mark _ => True
  | .text raw => (reader.textOf raw).isSome
  | .word chars => (reader.wordValue chars).isSome

namespace JsonReader

variable {reader : JsonReader}

theorem Reads.word {chars : List Char} (h : reader.Reads (.word chars)) :
    ∀ c ∈ chars, isWordChar c = true := by
  obtain ⟨value, hvalue⟩ := Option.isSome_iff_exists.mp h
  exact wordValue_chars hvalue

theorem Reads.text {raw : List Char} (h : reader.Reads (.text raw)) :
    ∀ c ∈ raw, 32 ≤ c.toNat := by
  obtain ⟨text, htext⟩ := Option.isSome_iff_exists.mp h
  obtain ⟨points, hpoints, -⟩ := Option.map_eq_some_iff.mp htext
  exact literalPoints_printable hpoints

end JsonReader

def JsonFrame.isField : JsonFrame → Bool
  | .item _ => false
  | .field _ _ => true

namespace JsonState

def openObjects : JsonState → Nat
  | .value outer | .firstItem outer | .afterItem _ outer => outer.countP JsonFrame.isField
  | .firstKey outer | .nextKey _ outer | .colon _ _ outer | .afterField _ outer =>
    outer.countP JsonFrame.isField + 1
  | .done _ => 0

def Sealed (outer : List JsonFrame) : Prop :=
  ∀ frame ∈ outer.getLast?, frame.isField = true

def InObject : JsonState → Prop
  | .value outer | .firstItem outer | .afterItem _ outer => outer ≠ [] ∧ Sealed outer
  | .firstKey outer | .nextKey _ outer | .colon _ _ outer | .afterField _ outer => Sealed outer
  | .done _ => True

theorem sealed_field (fields : JsonObject) (key : String) {outer : List JsonFrame} :
    Sealed (.field fields key :: outer) ↔ Sealed outer := by
  cases outer <;> simp [Sealed, JsonFrame.isField]

theorem sealed_item (items : List Json) {outer : List JsonFrame} :
    Sealed (.item items :: outer) ↔ outer ≠ [] ∧ Sealed outer := by
  cases outer <;> simp [Sealed, JsonFrame.isField]

theorem openObjects_put (value : Json) (outer : List JsonFrame) :
    (put value outer).openObjects = outer.countP JsonFrame.isField := by
  cases outer with
  | nil => rfl
  | cons frame outer =>
    cases frame with
    | item items =>
      rw [List.countP_cons_of_neg (by simp [JsonFrame.isField])]
      rfl
    | field fields key =>
      rw [List.countP_cons_of_pos rfl]
      rfl

theorem inObject_put {outer : List JsonFrame} (value : Json) (h : Sealed outer) :
    InObject (put value outer) := by
  cases outer with
  | nil => trivial
  | cons frame outer =>
    cases frame with
    | item items => exact (sealed_item items).mp h
    | field fields key => exact (sealed_field fields key).mp h

/-- Inside an object some object is open. -/
theorem InObject.openObjects_pos {state : JsonState} (h : InObject state)
    (hdone : ∀ value, state ≠ .done value) : 0 < state.openObjects := by
  have hopen : ∀ {outer : List JsonFrame}, outer ≠ [] ∧ Sealed outer →
      0 < outer.countP JsonFrame.isField := by
    rintro outer ⟨hne, hsealed⟩
    refine List.countP_pos_iff.mpr ⟨outer.getLast hne, List.getLast_mem hne, ?_⟩
    exact hsealed _ (List.getLast_mem_getLast? hne)
  cases state with
  | value outer => exact hopen h
  | firstItem outer => exact hopen h
  | afterItem items outer => exact hopen h
  | done value => exact absurd rfl (hdone value)
  | _ => exact Nat.succ_pos _

end JsonState

namespace JsonToken

def opens : JsonToken → Nat
  | .mark '\x7b' => 1
  | _ => 0

def closes : JsonToken → Nat
  | .mark '\x7d' => 1
  | _ => 0

end JsonToken

namespace JsonReader

variable {reader : JsonReader}

structure StepKeeps (reader : JsonReader) (state : JsonState) (token : JsonToken)
    (after : JsonState) : Prop where
  reads : reader.Reads token
  objects : after.openObjects + token.closes = state.openObjects + token.opens
  inObject : state.InObject → after.InObject

theorem startValue_keeps {outer : List JsonFrame} {token : JsonToken} {after : JsonState}
    (h : reader.startValue outer token = some after) :
    reader.Reads token ∧
      after.openObjects + token.closes = outer.countP JsonFrame.isField + token.opens ∧
      (outer ≠ [] ∧ JsonState.Sealed outer → after.InObject) := by
  unfold startValue at h
  split at h
  · obtain rfl := Option.some.inj h
    exact ⟨trivial, rfl, fun hin => hin.2⟩
  · obtain rfl := Option.some.inj h
    exact ⟨trivial, rfl, fun hin => hin⟩
  · cases h
  · obtain ⟨text, htext, rfl⟩ := Option.map_eq_some_iff.mp h
    refine ⟨Option.isSome_iff_exists.mpr ⟨text, htext⟩, ?_, fun hin => ?_⟩
    · exact JsonState.openObjects_put ..
    · exact JsonState.inObject_put _ hin.2
  · obtain ⟨value, hvalue, rfl⟩ := Option.map_eq_some_iff.mp h
    refine ⟨Option.isSome_iff_exists.mpr ⟨value, hvalue⟩, ?_, fun hin => ?_⟩
    · exact JsonState.openObjects_put ..
    · exact JsonState.inObject_put _ hin.2

/-- A step of the reader keeps the open objects in balance with the braces it has read. -/
theorem step_keeps {state : JsonState} {token : JsonToken} {after : JsonState}
    (h : reader.step state token = some after) : StepKeeps reader state token after := by
  unfold step at h
  split at h
  · obtain ⟨hreads, hobjects, hin⟩ := startValue_keeps h
    exact ⟨hreads, hobjects, hin⟩
  · rename_i outer
    obtain rfl := Option.some.inj h
    exact ⟨trivial, JsonState.openObjects_put .., fun hin => JsonState.inObject_put _ hin.2⟩
  · rename_i outer hne
    obtain ⟨hreads, hobjects, hin⟩ := startValue_keeps h
    refine ⟨hreads, hobjects, fun hstate => hin ⟨by simp, ?_⟩⟩
    exact (JsonState.sealed_item []).mpr hstate
  · rename_i items outer
    obtain rfl := Option.some.inj h
    refine ⟨trivial, rfl, fun hin => ⟨by simp, ?_⟩⟩
    exact (JsonState.sealed_item items).mpr hin
  · rename_i items outer
    obtain rfl := Option.some.inj h
    exact ⟨trivial, JsonState.openObjects_put .., fun hin => JsonState.inObject_put _ hin.2⟩
  · rename_i outer
    obtain rfl := Option.some.inj h
    refine ⟨trivial, ?_, fun hin => JsonState.inObject_put _ hin⟩
    rw [JsonState.openObjects_put]
    rfl
  · rename_i outer raw
    obtain ⟨text, htext, rfl⟩ := Option.map_eq_some_iff.mp h
    exact ⟨Option.isSome_iff_exists.mpr ⟨text, htext⟩, rfl, id⟩
  · rename_i fields outer raw
    obtain ⟨text, htext, rfl⟩ := Option.map_eq_some_iff.mp h
    exact ⟨Option.isSome_iff_exists.mpr ⟨text, htext⟩, rfl, id⟩
  · rename_i fields key outer
    obtain rfl := Option.some.inj h
    refine ⟨trivial, ?_, fun hin => ⟨by simp, (JsonState.sealed_field fields key).mpr hin⟩⟩
    change (JsonFrame.field fields key :: outer).countP JsonFrame.isField = _
    rw [List.countP_cons_of_pos rfl]
    rfl
  · obtain rfl := Option.some.inj h
    exact ⟨trivial, rfl, id⟩
  · rename_i fields outer
    obtain rfl := Option.some.inj h
    refine ⟨trivial, ?_, fun hin => JsonState.inObject_put _ hin⟩
    rw [JsonState.openObjects_put]
    rfl
  · cases h

/-- Every token of a text with a value is read. -/
theorem run_reads {tokens : List JsonToken} {state after : JsonState}
    (h : tokens.foldlM reader.step state = some after) : ∀ token ∈ tokens, reader.Reads token := by
  induction tokens generalizing state with
  | nil => simp
  | cons token tokens ih =>
    obtain ⟨middle, hstep, hrun⟩ := Option.bind_eq_some_iff.mp h
    intro read hread
    rcases List.mem_cons.mp hread with rfl | hread
    · exact (step_keeps hstep).reads
    · exact ih hrun read hread

end JsonReader

def ClosesAtEnd : List JsonToken → Nat → Prop
  | [], _ => False
  | token :: rest, depth =>
    if depth + token.opens = token.closes then rest = []
    else ClosesAtEnd rest (depth + token.opens - token.closes)

namespace JsonReader

variable {reader : JsonReader}

theorem run_done {tokens : List JsonToken} {value : Json} {after : JsonState}
    (h : tokens.foldlM reader.step (.done value) = some after) : tokens = [] := by
  cases tokens with
  | nil => rfl
  | cons token tokens =>
    rw [List.foldlM_cons] at h
    obtain ⟨middle, hstep, -⟩ := Option.bind_eq_some_iff.mp h
    cases token <;> cases hstep

/-- A value that is read to its end inside an object ends with that object. -/
theorem run_closes {tokens : List JsonToken} {state : JsonState} {value : Json}
    (h : tokens.foldlM reader.step state = some (.done value)) (hin : state.InObject)
    (hdone : ∀ value, state ≠ .done value) : ClosesAtEnd tokens state.openObjects := by
  induction tokens generalizing state with
  | nil => exact hdone value (Option.some.inj h)
  | cons token tokens ih =>
    obtain ⟨after, hstep, hrun⟩ := Option.bind_eq_some_iff.mp h
    have hkeeps := step_keeps hstep
    have hobjects := hkeeps.objects
    rw [ClosesAtEnd]
    by_cases hafter : ∃ value, after = .done value
    · obtain ⟨result, rfl⟩ := hafter
      have hzero : (JsonState.done result).openObjects = 0 := rfl
      rw [if_pos (by omega)]
      exact run_done hrun
    · have hafter : ∀ value, after ≠ .done value := not_exists.mp hafter
      have hpos := (hkeeps.inObject hin).openObjects_pos hafter
      rw [if_neg (by omega)]
      have hih := ih hrun (hkeeps.inObject hin) hafter
      have hdepth : state.openObjects + token.opens - token.closes = after.openObjects := by omega
      rwa [hdepth]

end JsonReader

namespace JsonReading

theorem tokens_cons {reading : JsonReading} {c : Char} {rest : List Char}
    {tokens : List JsonToken} (h : reading.tokens (c :: rest) = some tokens) :
    ∃ more, (reading.next c).1.tokens rest = some more ∧ tokens = (reading.next c).2 ++ more := by
  have hcons : reading.tokens (c :: rest) =
      ((reading.next c).1.tokens rest).map ((reading.next c).2 ++ ·) := by
    cases reading <;> rfl
  obtain ⟨more, hmore, rfl⟩ := Option.map_eq_some_iff.mp (hcons ▸ h)
  exact ⟨more, hmore, rfl⟩

theorem tokens_end {reading : JsonReading} {tokens : List JsonToken}
    (h : reading.tokens [] = some tokens) : tokens = reading.ended := by
  cases reading with
  | between => exact (Option.some.inj h).symm
  | word chars => exact (Option.some.inj h).symm
  | _ => cases h

def Outside : JsonReading → Prop
  | .between | .word _ => True
  | _ => False

/-- What a character does outside a literal. -/
theorem Outside.next {reading : JsonReading} (h : reading.Outside) (c : Char) :
    reading.next c =
      if isJsonSpace c then (.between, reading.ended)
      else if isJsonMark c then (.between, reading.ended ++ [.mark c])
      else if c = '"' then (.text [], reading.ended)
      else (.word (reading.begun ++ [c]), []) := by
  cases reading with
  | between => rfl
  | word chars => rfl
  | _ => exact h.elim

/-- A word that is begun ends up in a token. -/
theorem word_completes {chars rest : List Char} {tokens : List JsonToken}
    (h : (JsonReading.word chars).tokens rest = some tokens) :
    ∃ more, .word (chars ++ more) ∈ tokens := by
  induction rest generalizing chars tokens with
  | nil =>
    obtain rfl := Option.some.inj h
    exact ⟨[], by simp [ended]⟩
  | cons c rest ih =>
    obtain ⟨more, hmore, rfl⟩ := tokens_cons h
    have houtside : (JsonReading.word chars).Outside := trivial
    rw [houtside.next] at hmore ⊢
    split
    · exact ⟨[], by simp [ended]⟩
    split
    · exact ⟨[], by simp [ended]⟩
    split
    · exact ⟨[], by simp [ended]⟩
    · rename_i hspace hmark hquote
      rw [if_neg hspace, if_neg hmark, if_neg hquote] at hmore
      obtain ⟨more', hword⟩ := ih hmore
      exact ⟨c :: more', by simpa [begun] using hword⟩

/-- A literal that is begun ends up in a token. -/
theorem text_completes {raw rest : List Char} {tokens : List JsonToken}
    {reading : JsonReading} (hreading : reading = .text raw ∨ reading = .escape raw)
    (h : reading.tokens rest = some tokens) : ∃ more, .text (raw ++ more) ∈ tokens := by
  induction rest generalizing raw tokens reading with
  | nil => rcases hreading with rfl | rfl <;> cases h
  | cons c rest ih =>
    obtain ⟨more, hmore, rfl⟩ := tokens_cons h
    rcases hreading with rfl | rfl
    · by_cases hquote : c = '"'
      · refine ⟨[], ?_⟩
        simp [JsonReading.next, hquote]
      · by_cases hescape : c = '\\'
        · simp only [JsonReading.next, if_neg hquote, if_pos hescape] at hmore ⊢
          obtain ⟨more', htext⟩ := ih (.inr rfl) hmore
          exact ⟨c :: more', by simpa using htext⟩
        · simp only [JsonReading.next, if_neg hquote, if_neg hescape] at hmore ⊢
          obtain ⟨more', htext⟩ := ih (.inl rfl) hmore
          exact ⟨c :: more', by simpa using htext⟩
    · obtain ⟨more', htext⟩ := ih (.inl rfl) hmore
      exact ⟨c :: more', by simpa [JsonReading.next] using htext⟩

/-- Blanks alone make no token. -/
theorem tokens_nil_blank {chars : List Char} (h : JsonReading.between.tokens chars = some []) :
    ∀ c ∈ chars, isJsonSpace c = true := by
  induction chars with
  | nil => simp
  | cons c chars ih =>
    obtain ⟨more, hmore, hnil⟩ := tokens_cons h
    obtain ⟨hemitted, rfl⟩ := List.append_eq_nil_iff.mp hnil.symm
    have houtside : JsonReading.between.Outside := trivial
    rw [houtside.next] at hemitted hmore
    split at hemitted
    · rename_i hspace
      rw [if_pos hspace] at hmore
      simp only [List.mem_cons, forall_eq_or_imp]
      exact ⟨hspace, ih hmore⟩
    split at hemitted
    · simp at hemitted
    split at hemitted
    · rename_i hspace hmark hquote
      rw [if_neg hspace, if_neg hmark, if_pos hquote] at hmore
      obtain ⟨_, htext⟩ := text_completes (.inl rfl) hmore
      cases htext
    · rename_i hspace hmark hquote
      rw [if_neg hspace, if_neg hmark, if_neg hquote] at hmore
      obtain ⟨_, hword⟩ := word_completes hmore
      cases hword

end JsonReading

theorem ClosesAtEnd.skip {token : JsonToken} {tokens : List JsonToken} {depth : Nat}
    (h : ClosesAtEnd (token :: tokens) depth) (hdepth : 0 < depth) (hopens : token.opens = 0)
    (hcloses : token.closes = 0) : ClosesAtEnd tokens depth := by
  rwa [ClosesAtEnd, hopens, hcloses, if_neg (by omega)] at h

theorem ClosesAtEnd.ended {reading : JsonReading} {tokens : List JsonToken} {depth : Nat}
    (h : ClosesAtEnd (reading.ended ++ tokens) depth) (hdepth : 0 < depth) :
    ClosesAtEnd tokens depth := by
  cases reading with
  | word chars => exact h.skip hdepth rfl rfl
  | _ => exact h

theorem mark_counts {c : Char} (hopen : c ≠ '\x7b') (hclose : c ≠ '\x7d') :
    (JsonToken.mark c).opens = 0 ∧ (JsonToken.mark c).closes = 0 := by
  constructor
  · unfold JsonToken.opens
    split
    · rename_i h
      exact absurd (JsonToken.mark.inj h) hopen
    · rfl
  · unfold JsonToken.closes
    split
    · rename_i h
      exact absurd (JsonToken.mark.inj h) hclose
    · rfl

namespace JsonReading

def inString : JsonReading → Bool
  | .text _ | .escape _ => true
  | _ => false

def escaped : JsonReading → Bool
  | .escape _ => true
  | _ => false

theorem Outside.flags {reading : JsonReading} (h : reading.Outside) :
    reading.inString = false ∧ reading.escaped = false := by
  cases reading with
  | between => exact ⟨rfl, rfl⟩
  | word chars => exact ⟨rfl, rfl⟩
  | _ => exact h.elim

/-- What `objectLength` does with a character outside a string. -/
theorem objectLength_outside {c : Char} (hescape : c ≠ '\\') (hquote : c ≠ '"')
    (hopen : c ≠ '\x7b') (hclose : c ≠ '\x7d') (rest : List Char) (depth : Nat) :
    objectLength (c :: rest) depth false false =
      (objectLength rest depth false false).map (· + 1) := by
  simp [objectLength, hescape, hquote, hopen, hclose]

def BraceStep (reading : JsonReading) (c : Char) (more : List JsonToken) (depth : Nat) : Prop :=
  (more = [] ∧ (reading.next c).1 = .between ∧ ∀ rest,
    objectLength (c :: rest) depth reading.inString reading.escaped = some 1) ∨
  ∃ depth', 0 < depth' ∧ ClosesAtEnd more depth' ∧ ∀ rest,
    objectLength (c :: rest) depth reading.inString reading.escaped =
      (objectLength rest depth' (reading.next c).1.inString (reading.next c).1.escaped).map (· + 1)

theorem braceStep_literal {reading : JsonReading} (houtside : ¬ reading.Outside) {c : Char}
    {more : List JsonToken} {depth : Nat} (hdepth : 0 < depth)
    (hcloses : ClosesAtEnd ((reading.next c).2 ++ more) depth) :
    BraceStep reading c more depth := by
  cases reading with
  | text raw =>
    by_cases hquote : c = '"'
    · simp only [JsonReading.next, if_pos hquote] at hcloses
      refine .inr ⟨depth, hdepth, hcloses.skip hdepth rfl rfl, fun rest => ?_⟩
      simp [JsonReading.next, objectLength, inString, escaped, hquote]
    by_cases hescape : c = '\\'
    · simp only [JsonReading.next, if_neg hquote, if_pos hescape] at hcloses
      refine .inr ⟨depth, hdepth, hcloses, fun rest => ?_⟩
      simp [JsonReading.next, objectLength, inString, escaped, hescape]
    · simp only [JsonReading.next, if_neg hquote, if_neg hescape] at hcloses
      refine .inr ⟨depth, hdepth, hcloses, fun rest => ?_⟩
      simp [JsonReading.next, objectLength, inString, escaped, hquote, hescape]
  | escape raw =>
    refine .inr ⟨depth, hdepth, hcloses, fun rest => ?_⟩
    simp [JsonReading.next, objectLength, inString, escaped]
  | _ => exact absurd trivial houtside

theorem braceStep_mark {reading : JsonReading} (houtside : reading.Outside) {c : Char}
    (hmark : isJsonMark c = true) {more : List JsonToken} {depth : Nat} (hdepth : 0 < depth)
    (hnext : reading.next c = (.between, reading.ended ++ [.mark c]))
    (hcloses : ClosesAtEnd ((reading.next c).2 ++ more) depth) :
    BraceStep reading c more depth := by
  rw [hnext, List.append_assoc, List.singleton_append] at hcloses
  have hcloses := hcloses.ended hdepth
  unfold BraceStep
  rw [houtside.flags.1, houtside.flags.2, hnext]
  by_cases hopen : c = '\x7b'
  · subst hopen
    have hopens : (JsonToken.mark '\x7b').opens = 1 ∧ (JsonToken.mark '\x7b').closes = 0 :=
      ⟨rfl, rfl⟩
    rw [ClosesAtEnd, hopens.1, hopens.2, if_neg (by omega)] at hcloses
    refine .inr ⟨depth + 1, Nat.succ_pos _, hcloses, fun rest => ?_⟩
    simp [objectLength, inString, escaped]
  by_cases hclose : c = '\x7d'
  · subst hclose
    have hcounts : (JsonToken.mark '\x7d').opens = 0 ∧ (JsonToken.mark '\x7d').closes = 1 :=
      ⟨rfl, rfl⟩
    rw [ClosesAtEnd, hcounts.1, hcounts.2] at hcloses
    by_cases hone : depth = 1
    · rw [if_pos (by omega)] at hcloses
      refine .inl ⟨hcloses, rfl, fun rest => ?_⟩
      simp [objectLength, hone]
    · rw [if_neg (by omega)] at hcloses
      refine .inr ⟨depth - 1, by omega, hcloses, fun rest => ?_⟩
      simp [objectLength, hone, inString, escaped]
  · obtain ⟨hopens, hzero⟩ := mark_counts hopen hclose
    refine .inr ⟨depth, hdepth, hcloses.skip hdepth hopens hzero, fun rest => ?_⟩
    exact objectLength_outside (by rintro rfl; cases hmark) (by rintro rfl; cases hmark)
      hopen hclose rest depth

theorem braceStep_outside {reading : JsonReading} (houtside : reading.Outside) {c : Char}
    {more : List JsonToken} {depth : Nat} (hdepth : 0 < depth)
    (hcloses : ClosesAtEnd ((reading.next c).2 ++ more) depth)
    (hword : ∀ chars, (reading.next c).1 = .word chars → '\\' ∉ chars) :
    BraceStep reading c more depth := by
  have hnext := houtside.next c
  by_cases hspace : isJsonSpace c = true
  · rw [if_pos hspace] at hnext
    rw [hnext] at hcloses
    refine .inr ⟨depth, hdepth, hcloses.ended hdepth, fun rest => ?_⟩
    rw [houtside.flags.1, houtside.flags.2, hnext]
    exact objectLength_outside (by rintro rfl; cases hspace) (by rintro rfl; cases hspace)
      (by rintro rfl; cases hspace) (by rintro rfl; cases hspace) rest depth
  rw [if_neg hspace] at hnext
  by_cases hmark : isJsonMark c = true
  · rw [if_pos hmark] at hnext
    exact braceStep_mark houtside hmark hdepth hnext hcloses
  rw [if_neg hmark] at hnext
  by_cases hquote : c = '"'
  · rw [if_pos hquote] at hnext
    rw [hnext] at hcloses
    refine .inr ⟨depth, hdepth, hcloses.ended hdepth, fun rest => ?_⟩
    rw [houtside.flags.1, houtside.flags.2, hnext]
    simp [objectLength, hquote, inString, escaped]
  · rw [if_neg hquote] at hnext
    rw [hnext] at hcloses hword
    refine .inr ⟨depth, hdepth, hcloses, fun rest => ?_⟩
    rw [houtside.flags.1, houtside.flags.2, hnext]
    have hescape : c ≠ '\\' := by
      rintro rfl
      exact hword _ rfl (by simp)
    exact objectLength_outside hescape hquote (by rintro rfl; exact hmark rfl)
      (by rintro rfl; exact hmark rfl) rest depth

/-- The scanner of braces stops where the tokens of an object end. -/
theorem objectLength_eq {chars : List Char} (rest : List Char) {reading : JsonReading}
    {tokens : List JsonToken} {depth : Nat} (h : reading.tokens chars = some tokens)
    (hdepth : 0 < depth) (hcloses : ClosesAtEnd tokens depth)
    (hwords : ∀ word, .word word ∈ tokens → '\\' ∉ word) (hlast : chars.getLast? = some '\x7d') :
    objectLength (chars ++ rest) depth reading.inString reading.escaped = some chars.length := by
  induction chars generalizing reading tokens depth with
  | nil => cases hlast
  | cons c chars ih =>
    obtain ⟨more, hmore, rfl⟩ := tokens_cons h
    have hmoreWords : ∀ word, .word word ∈ more → '\\' ∉ word :=
      fun word hword => hwords word (List.mem_append_right _ hword)
    have hnext : chars ≠ [] → chars.getLast? = some '\x7d' := by
      intro hne
      rwa [List.getLast?_cons_of_ne_nil hne] at hlast
    have hstep : BraceStep reading c more depth := by
      by_cases houtside : reading.Outside
      · apply braceStep_outside houtside hdepth hcloses
        intro word hword hescape
        rw [hword] at hmore
        obtain ⟨_, hmem⟩ := word_completes hmore
        exact hmoreWords _ hmem (List.mem_append_left _ hescape)
      · exact braceStep_literal houtside hdepth hcloses
    rw [List.cons_append, List.length_cons]
    rcases hstep with ⟨rfl, hbetween, hend⟩ | ⟨depth', hpos, hmoreCloses, hon⟩
    · have hnil : chars = [] := by
        by_contra hne
        rw [hbetween] at hmore
        have hblank := tokens_nil_blank hmore _ (List.mem_of_getLast? (hnext hne))
        cases hblank
      rw [hend, hnil]
      rfl
    · have hne : chars ≠ [] := by
        rintro rfl
        rw [tokens_end hmore, ← List.append_nil (ended _)] at hmoreCloses
        exact hmoreCloses.ended hpos
      rw [hon, ih hmore hpos hmoreCloses hmoreWords (hnext hne)]
      rfl

end JsonReading

structure JsonReader.ObjectText (reader : JsonReader) (object : String) (result : JsonObject) :
    Prop where
  denotes : reader.loads object = .ok (.obj result)
  first : object.toList.head? = some '\x7b'
  last : object.toList.getLast? = some '\x7d'

namespace JsonReader

variable {reader : JsonReader}

theorem loads_ok_iff {text : String} {value : Json} :
    reader.loads text = .ok value ↔
      ∃ tokens, JsonReading.between.tokens text.toList = some tokens ∧
        tokens.foldlM reader.step (.value []) = some (.done value) := by
  unfold loads
  cases htokens : JsonReading.between.tokens text.toList with
  | none => simp
  | some tokens =>
    rw [Option.bind_some, valueOf]
    cases hrun : tokens.foldlM reader.step (.value []) with
    | none => simp [hrun]
    | some state => cases state <;> simp [hrun]

/-- Whatever follows the text of an object, the brace scanner stops at its end. -/
theorem ObjectText.length {object : String} {result : JsonObject}
    (h : reader.ObjectText object result) (rest : List Char) :
    objectLength (object.toList ++ rest) 0 false false = some object.toList.length := by
  obtain ⟨tokens, htokens, hrun⟩ := loads_ok_iff.mp h.denotes
  have hreads := run_reads hrun
  obtain ⟨chars, hchars⟩ := List.head?_eq_some_iff.mp h.first
  have hlast := h.last
  rw [hchars] at htokens hlast ⊢
  obtain ⟨more, hmore, rfl⟩ := JsonReading.tokens_cons htokens
  have hsealed : (JsonState.firstKey []).InObject := by
    intro frame hframe
    cases hframe
  have hinside : more.foldlM reader.step (.firstKey []) = some (.done (.obj result)) := hrun
  have hcloses : ClosesAtEnd more 1 := run_closes hinside hsealed (by simp)
  have hmoreLast : chars.getLast? = some '\x7d' := by
    cases chars with
    | nil => cases hlast
    | cons c chars => rwa [List.getLast?_cons_cons] at hlast
  have hwords : ∀ word, .word word ∈ more → '\\' ∉ word := by
    intro word hword hescape
    have hchar := (hreads _ (List.mem_append_right _ hword)).word _ hescape
    cases hchar
  have hlength : objectLength (chars ++ rest) 1 false false = some chars.length :=
    JsonReading.objectLength_eq rest hmore Nat.one_pos hcloses hwords hmoreLast
  simp [objectLength, hlength]

end JsonReader

def asNewline (c : Char) : Char :=
  if isLineBoundary c then '\n' else c

def newlines : List Char → List Char
  | '\r' :: '\n' :: rest => '\n' :: newlines rest
  | c :: rest => asNewline c :: newlines rest
  | [] => []

def JsonToken.asNewlines : JsonToken → JsonToken
  | .text raw => .text (raw.map asNewline)
  | token => token

theorem isLineBoundary_of_isWordChar {c : Char} (h : isWordChar c = true) :
    isLineBoundary c = false := by
  have hval : c.val.toNat = c.toNat := rfl
  unfold isWordChar at h
  delta Char.isAlphanum Char.isAlpha Char.isUpper Char.isLower Char.isDigit at h
  simp only [Bool.or_eq_true, Bool.and_eq_true, decide_eq_true_eq, UInt32.le_iff_toNat_le,
    ge_iff_le] at h
  change (((((65 ≤ c.toNat ∧ c.toNat ≤ 90) ∨ (97 ≤ c.toNat ∧ c.toNat ≤ 122)) ∨
    (48 ≤ c.toNat ∧ c.toNat ≤ 57)) ∨ c = '-') ∨ c = '+') ∨ c = '.' at h
  have hrange : 33 ≤ c.toNat ∧ c.toNat ≤ 122 := by
    rcases h with ((((h | h) | h) | rfl) | rfl) | rfl
    · omega
    · omega
    · omega
    all_goals decide
  simp only [isLineBoundary, Bool.or_eq_false_iff, Bool.and_eq_false_iff, decide_eq_false_iff_not]
  omega

namespace JsonReading

def asNewlines : JsonReading → JsonReading
  | .text raw => .text (raw.map asNewline)
  | .escape raw => .escape (raw.map asNewline)
  | reading => reading

/-- Reading does not tell one line boundary from another, where those between tokens are
JSON spaces. -/
theorem next_asNewlines {reading : JsonReading} {c : Char}
    (hc : reading.Outside → isLineBoundary c = true → isJsonSpace c = true) :
    reading.asNewlines.next (asNewline c) =
      ((reading.next c).1.asNewlines, (reading.next c).2.map JsonToken.asNewlines) := by
  by_cases houtside : reading.Outside
  · have hsame : reading.asNewlines = reading := by
      cases reading with
      | between => rfl
      | word chars => rfl
      | _ => exact houtside.elim
    have hended : reading.ended.map JsonToken.asNewlines = reading.ended := by
      cases reading <;> rfl
    rw [hsame, houtside.next, houtside.next]
    by_cases hbreak : isLineBoundary c = true
    · have hspace := hc houtside hbreak
      rw [asNewline, if_pos hbreak, if_pos hspace, if_pos (by rfl), hended]
      rfl
    · rw [asNewline, if_neg hbreak]
      split
      · rw [hended]
        rfl
      split
      · rw [List.map_append, hended]
        rfl
      split
      · rw [hended]
        rfl
      · rfl
  · cases reading with
    | text raw =>
      by_cases hquote : c = '"'
      · subst hquote
        rfl
      by_cases hescape : c = '\\'
      · subst hescape
        simp [asNewlines, JsonReading.next, asNewline, isLineBoundary]
      · have hne : asNewline c ≠ '"' ∧ asNewline c ≠ '\\' := by
          unfold asNewline
          split
          · decide
          · exact ⟨hquote, hescape⟩
        simp [asNewlines, JsonReading.next, hquote, hescape, hne.1, hne.2]
    | escape raw => simp [asNewlines, JsonReading.next]
    | _ => exact absurd trivial houtside

theorem tokens_cons_of {reading after : JsonReading} {c : Char} {rest : List Char}
    {emitted more : List JsonToken} (hnext : reading.next c = (after, emitted))
    (h : after.tokens rest = some more) :
    reading.tokens (c :: rest) = some (emitted ++ more) := by
  have hcons : reading.tokens (c :: rest) =
      ((reading.next c).1.tokens rest).map ((reading.next c).2 ++ ·) := by
    cases reading <;> rfl
  rw [hcons, hnext, h]
  rfl

/-- Neither a blank nor structural. -/
theorem not_mark_of_isLineBoundary {c : Char} (h : isLineBoundary c = true) :
    ¬ isJsonMark c = true ∧ c ≠ '"' := by
  constructor
  · intro hmark
    simp only [isJsonMark, Bool.or_eq_true, decide_eq_true_eq] at hmark
    rcases hmark with ((((rfl | rfl) | rfl) | rfl) | rfl) | rfl <;> cases h
  · rintro rfl
    cases h

/-- Outside a literal only blanks end lines. -/
theorem Outside.break {reader : JsonReader} {reading : JsonReading} (houtside : reading.Outside)
    {c : Char} {rest : List Char} {more : List JsonToken}
    (h : (reading.next c).1.tokens rest = some more)
    (hreads : ∀ token ∈ more, reader.Reads token) (hbreak : isLineBoundary c = true) :
    isJsonSpace c = true := by
  by_contra hspace
  obtain ⟨hmark, hquote⟩ := not_mark_of_isLineBoundary hbreak
  rw [houtside.next, if_neg hspace, if_neg hmark, if_neg hquote] at h
  obtain ⟨_, hword⟩ := word_completes h
  have hchar := (hreads _ hword).word c (by simp)
  rw [isLineBoundary_of_isWordChar hchar] at hbreak
  cases hbreak

/-- No literal goes on with a carriage return. -/
theorem outside_of_return {reader : JsonReader} {reading : JsonReading} {rest : List Char}
    {more : List JsonToken} (h : (reading.next '\r').1.tokens rest = some more)
    (hreads : ∀ token ∈ more, reader.Reads token) : reading.Outside := by
  have hliteral : ∀ raw, (JsonReading.text (raw ++ ['\r'])).tokens rest = some more → False := by
    intro raw htext
    obtain ⟨_, hmem⟩ := text_completes (.inl rfl) htext
    have hle := (hreads _ hmem).text '\r' (by simp)
    exact absurd hle (by decide)
  cases reading with
  | between => trivial
  | word chars => trivial
  | text raw => exact (hliteral raw h).elim
  | escape raw => exact (hliteral raw h).elim

/-- Tokens that are read stay the same under other line ends, literals apart. -/
theorem tokens_newlines {reader : JsonReader} {chars : List Char} {reading : JsonReading}
    {tokens : List JsonToken} (h : reading.tokens chars = some tokens)
    (hreads : ∀ token ∈ tokens, reader.Reads token) :
    reading.asNewlines.tokens (newlines chars) = some (tokens.map JsonToken.asNewlines) := by
  induction chars using newlines.induct generalizing reading tokens with
  | case1 rest ih =>
    obtain ⟨later, hlater, rfl⟩ := tokens_cons h
    have houtside := outside_of_return hlater fun token ht => hreads token
      (List.mem_append_right _ ht)
    have hreturn : reading.next '\r' = (.between, reading.ended) := houtside.next '\r'
    have hnewline : reading.asNewlines.next (asNewline '\n') = ((reading.next '\n').1.asNewlines,
        (reading.next '\n').2.map JsonToken.asNewlines) := next_asNewlines fun _ _ => rfl
    rw [hreturn] at hlater
    obtain ⟨more, hmore, rfl⟩ := tokens_cons hlater
    have hih := ih hmore fun token ht => hreads token (List.mem_append_right _ ht)
    rw [newlines, hreturn, List.map_append]
    have hblank : reading.next '\n' = (.between, reading.ended) := houtside.next '\n'
    rw [hblank] at hnewline
    exact tokens_cons_of hnewline hih
  | case2 c rest hne ih =>
    obtain ⟨more, hmore, rfl⟩ := tokens_cons h
    have hmoreReads : ∀ token ∈ more, reader.Reads token :=
      fun token ht => hreads token (List.mem_append_right _ ht)
    have hnext := next_asNewlines (fun houtside hbreak => Outside.break houtside hmore
      hmoreReads hbreak)
    have hih := ih hmore hmoreReads
    rw [newlines, List.map_append]
    · exact tokens_cons_of hnext hih
    · exact hne
  | case3 =>
    obtain rfl := tokens_end h
    cases reading with
    | between => rfl
    | word chars => rfl
    | _ => cases h

def held : JsonReading → List Char
  | .text raw | .escape raw => raw
  | _ => []

theorem held_next (reading : JsonReading) (c : Char) :
    (∀ d ∈ (reading.next c).1.held, d ∈ reading.held ∨ d = c) ∧
      ∀ raw, .text raw ∈ (reading.next c).2 → raw = reading.held := by
  by_cases houtside : reading.Outside
  · rw [houtside.next]
    have hended : ∀ raw, .text raw ∉ reading.ended := by
      cases reading <;> simp [ended]
    split
    · exact ⟨by simp [held], fun raw h => absurd h (hended raw)⟩
    split
    · refine ⟨by simp [held], fun raw h => ?_⟩
      rcases List.mem_append.mp h with h | h
      · exact absurd h (hended raw)
      · simp at h
    split
    · exact ⟨by simp [held], fun raw h => absurd h (hended raw)⟩
    · simp [held]
  · cases reading with
    | text raw =>
      by_cases hquote : c = '"'
      · simp [JsonReading.next, hquote, held]
      by_cases hescape : c = '\\'
      · simp [JsonReading.next, hescape, held]
      · simp [JsonReading.next, hquote, hescape, held]
    | escape raw => simp [JsonReading.next, held]
    | _ => exact absurd trivial houtside

/-- The characters of a literal stand in the text. -/
theorem text_chars {chars : List Char} {reading : JsonReading} {tokens : List JsonToken}
    (h : reading.tokens chars = some tokens) {raw : List Char} (hraw : .text raw ∈ tokens) :
    ∀ c ∈ raw, c ∈ reading.held ∨ c ∈ chars := by
  intro c hc
  induction chars generalizing reading tokens with
  | nil =>
    rw [tokens_end h] at hraw
    cases reading <;> simp [ended] at hraw
  | cons d chars ih =>
    obtain ⟨more, hmore, rfl⟩ := tokens_cons h
    obtain ⟨hheld, htext⟩ := held_next reading d
    rcases List.mem_append.mp hraw with hraw | hraw
    · exact .inl (htext raw hraw ▸ hc)
    · rcases ih hmore hraw with hnext | hrest
      · rcases hheld c hnext with hbefore | rfl
        · exact .inl hbefore
        · exact .inr List.mem_cons_self
      · exact .inr (List.mem_cons_of_mem _ hrest)

/-- What is neither blank nor structural stands in a literal or a word. -/
theorem char_completes {chars : List Char} {reading : JsonReading} {tokens : List JsonToken}
    (h : reading.tokens chars = some tokens) {c : Char} (hc : c ∈ chars)
    (hspace : ¬ isJsonSpace c = true) (hmark : ¬ isJsonMark c = true) (hquote : c ≠ '"') :
    (∃ raw, .text raw ∈ tokens ∧ c ∈ raw) ∨ ∃ word, .word word ∈ tokens ∧ c ∈ word := by
  induction chars generalizing reading tokens with
  | nil => cases hc
  | cons d chars ih =>
    obtain ⟨more, hmore, rfl⟩ := tokens_cons h
    rcases List.mem_cons.mp hc with rfl | hc
    · by_cases houtside : reading.Outside
      · rw [houtside.next, if_neg hspace, if_neg hmark, if_neg hquote] at hmore ⊢
        obtain ⟨_, hword⟩ := word_completes hmore
        exact .inr ⟨_, List.mem_append_right _ hword, by simp⟩
      · have hlater : (reading.next c).1 = .text (reading.held ++ [c]) ∨
            (reading.next c).1 = .escape (reading.held ++ [c]) := by
          cases reading with
          | text raw =>
            by_cases hescape : c = '\\'
            · simp [JsonReading.next, hescape, held]
            · simp [JsonReading.next, hquote, hescape, held]
          | escape raw => exact .inl rfl
          | _ => exact absurd trivial houtside
        obtain ⟨_, htext⟩ := text_completes hlater hmore
        exact .inl ⟨_, List.mem_append_right _ htext, by simp⟩
    · rcases ih hmore hc with ⟨raw, hraw, hmem⟩ | ⟨word, hword, hmem⟩
      · exact .inl ⟨raw, List.mem_append_right _ hraw, hmem⟩
      · exact .inr ⟨word, List.mem_append_right _ hword, hmem⟩

end JsonReading

def rawLineEnds : List Char := ['\u0085', '\u2028', '\u2029']

theorem mem_rawLineEnds_iff {c : Char} :
    c ∈ rawLineEnds ↔ isLineBoundary c = true ∧ 32 ≤ c.toNat := by
  have hnext : c = '\u0085' ↔ c.toNat = 0x85 := Char.toNat_inj.symm
  have hline : c = '\u2028' ↔ c.toNat = 0x2028 := Char.toNat_inj.symm
  have hparagraph : c = '\u2029' ↔ c.toNat = 0x2029 := Char.toNat_inj.symm
  simp only [rawLineEnds, List.mem_cons, List.not_mem_nil, or_false, hnext, hline, hparagraph,
    isLineBoundary, Bool.or_eq_true, Bool.and_eq_true, decide_eq_true_eq]
  omega

namespace JsonReader

variable {reader : JsonReader}

/-- The text of an object has the same object behind it under other line ends exactly
if its strings hold no line end of their own. -/
theorem ObjectText.newlines_iff {object : String} {result : JsonObject}
    (h : reader.ObjectText object result) :
    reader.loads (String.ofList (newlines object.toList)) = .ok (.obj result) ↔
      ∀ c ∈ rawLineEnds, c ∉ object.toList := by
  obtain ⟨tokens, htokens, hrun⟩ := loads_ok_iff.mp h.denotes
  have hreads := run_reads hrun
  have hnewlines := JsonReading.tokens_newlines htokens hreads
  constructor
  · intro hloads c hc hmem
    obtain ⟨hbreak, hprintable⟩ := mem_rawLineEnds_iff.mp hc
    obtain ⟨hmark, hquote⟩ := JsonReading.not_mark_of_isLineBoundary hbreak
    have hspace : ¬ isJsonSpace c = true := by
      intro hspace
      simp only [isJsonSpace, Bool.or_eq_true, decide_eq_true_eq] at hspace
      rcases hspace with ((rfl | rfl) | rfl) | rfl
      · cases hbreak
      all_goals exact absurd hprintable (by decide)
    rcases JsonReading.char_completes htokens hmem hspace hmark hquote with
      ⟨raw, hraw, hc⟩ | ⟨word, hword, hc⟩
    · obtain ⟨tokens', htokens', hrun'⟩ := loads_ok_iff.mp hloads
      rw [String.toList_ofList] at htokens'
      obtain rfl := Option.some.inj (htokens'.symm.trans hnewlines)
      have hread := run_reads hrun' _ (List.mem_map_of_mem hraw)
      have hle := hread.text '\n' (List.mem_map.mpr ⟨c, hc, if_pos hbreak⟩)
      exact absurd hle (by decide)
    · have hchar := (hreads _ hword).word c hc
      rw [isLineBoundary_of_isWordChar hchar] at hbreak
      cases hbreak
  · intro hno
    have hsame : ∀ token ∈ tokens, token.asNewlines = token := by
      intro token htoken
      cases token with
      | text raw =>
        have hraw : ∀ c ∈ raw, asNewline c = c := by
          intro c hc
          apply if_neg
          intro hbreak
          have hend := mem_rawLineEnds_iff.mpr ⟨hbreak, (hreads _ htoken).text c hc⟩
          rcases JsonReading.text_chars htokens htoken c hc with hheld | hmem
          · cases hheld
          · exact hno c hend hmem
        exact congrArg JsonToken.text ((List.map_congr_left hraw).trans (List.map_id' raw))
      | _ => rfl
    refine loads_ok_iff.mpr ⟨tokens, ?_, hrun⟩
    rw [String.toList_ofList]
    refine hnewlines.trans (congrArg some ?_)
    exact (List.map_congr_left hsame).trans (List.map_id' tokens)

end JsonReader

end PluginRegistry
