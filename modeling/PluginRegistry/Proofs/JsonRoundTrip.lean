import PluginRegistry.Proofs.ReleaseRoundTrip
import PluginRegistry.Python.JsonEncoder

namespace PluginRegistry

def utf16Units (c : Char) : List Nat :=
  if c.toNat < 0x10000 then [c.toNat]
  else [0xd800 + (c.toNat - 0x10000) / 1024, 0xdc00 + (c.toNat - 0x10000) % 1024]

theorem toNat_valid (c : Char) :
    c.toNat < 0xd800 ∨ (0xdfff < c.toNat ∧ c.toNat < 0x110000) :=
  c.valid

theorem hexDigit?_char {n : Nat} (h : n < 16) : hexDigit? (hexDigitChar n) = some n := by
  have hall : ∀ n : Fin 16, hexDigit? (hexDigitChar n) = some n.val := by decide
  exact hall ⟨n, h⟩

theorem literalPoints_unicode {point : Nat} (h : point < 0x10000) (rest : List Char) :
    literalPoints (unicodeEscape point ++ rest) = (literalPoints rest).map (point :: ·) := by
  have hdigits : fourHexDigits (hexDigitChar (point / 4096)) (hexDigitChar (point / 256 % 16))
      (hexDigitChar (point / 16 % 16)) (hexDigitChar (point % 16)) = some point := by
    simp only [fourHexDigits, hexDigit?_char (show point / 4096 < 16 by omega),
      hexDigit?_char (show point / 256 % 16 < 16 by omega),
      hexDigit?_char (show point / 16 % 16 < 16 by omega),
      hexDigit?_char (show point % 16 < 16 by omega), Option.bind_eq_bind, Option.bind_some,
      Option.pure_def, Option.some.injEq]
    omega
  simp only [unicodeEscape, List.cons_append, List.nil_append, literalPoints, hdigits]
  cases literalPoints rest <;> rfl

theorem literalPoints_short {c : Char} {e : Char} (hu : c ≠ 'u') (h : escapedChar c = some e)
    (rest : List Char) :
    literalPoints ('\\' :: c :: rest) = (literalPoints rest).map (e.toNat :: ·) := by
  rw [literalPoints, h]
  · cases literalPoints rest <;> rfl
  · intro _ _ _ _ _ hc _
    exact hu hc

theorem literalPoints_plain {c : Char} (hprint : 32 ≤ c.toNat) (hescape : c ≠ '\\')
    (rest : List Char) :
    literalPoints (c :: rest) = (literalPoints rest).map (c.toNat :: ·) := by
  have hno : ¬ (decide (c.toNat < 32) || decide (c = '\\')) = true := by simp [hescape]; omega
  rw [literalPoints, if_neg hno]
  · cases literalPoints rest <;> rfl
  · exact fun _ _ _ _ _ hc _ => hescape hc
  · exact fun _ _ hc _ => hescape hc

/-- One escaped character reads back as its UTF-16 units. -/
theorem literalPoints_escape (c : Char) (rest : List Char) :
    literalPoints (escapeChar c ++ rest) = (literalPoints rest).map (utf16Units c ++ ·) := by
  unfold escapeChar
  split
  case h_8 =>
    rename_i hquote hescape _ _ _ _ _
    split
    · rename_i hprint
      have hunits : utf16Units c = [c.toNat] := if_pos (by omega)
      rw [hunits]
      exact literalPoints_plain hprint.1 hescape rest
    · split
      · rename_i hsmall
        have hunits : utf16Units c = [c.toNat] := if_pos hsmall
        rw [hunits]
        exact literalPoints_unicode hsmall rest
      · rename_i hlarge
        have hvalid := toNat_valid c
        have hunits : utf16Units c = [0xd800 + (c.toNat - 0x10000) / 1024,
          0xdc00 + (c.toNat - 0x10000) % 1024] := if_neg hlarge
        rw [hunits, List.append_assoc, literalPoints_unicode (by omega),
          literalPoints_unicode (by omega), Option.map_map]
        rfl
  all_goals exact literalPoints_short (by decide) rfl rest

namespace JsonReader

variable (reader : JsonReader)

/-- A character above the first plane comes as two units, which are joined again. -/
theorem joinSurrogates_units (c : Char) (points : List Nat) :
    reader.joinSurrogates (utf16Units c ++ points) = c :: reader.joinSurrogates points := by
  have hvalid := toNat_valid c
  by_cases hsmall : c.toNat < 0x10000
  · have hunits : utf16Units c = [c.toNat] := if_pos hsmall
    have hhigh : isHighSurrogate c.toNat = false := by
      simp [isHighSurrogate]
      omega
    have hlow : isLowSurrogate c.toNat = false := by
      simp [isLowSurrogate]
      omega
    have hchar : reader.pointChar c.toNat = c := by
      simp [pointChar, hhigh, hlow]
    rw [hunits]
    cases points with
    | nil => simp [joinSurrogates, hchar]
    | cons next points => simp [joinSurrogates, hhigh, hchar]
  · have hunits : utf16Units c = [0xd800 + (c.toNat - 0x10000) / 1024,
      0xdc00 + (c.toNat - 0x10000) % 1024] := if_neg hsmall
    have hhigh : isHighSurrogate (0xd800 + (c.toNat - 0x10000) / 1024) = true := by
      simp [isHighSurrogate]
      omega
    have hlow : isLowSurrogate (0xdc00 + (c.toNat - 0x10000) % 1024) = true := by
      simp [isLowSurrogate]
      omega
    have hjoin : 0x10000 + (0xd800 + (c.toNat - 0x10000) / 1024 - 0xd800) * 0x400 +
        (0xdc00 + (c.toNat - 0x10000) % 1024 - 0xdc00) = c.toNat := by
      omega
    rw [hunits, List.cons_append, List.cons_append, List.nil_append, joinSurrogates, hhigh, hlow,
      Bool.true_and, if_pos rfl, hjoin, Char.ofNat_toNat]

theorem textOf_escape (text : String) : reader.textOf (escapeText text) = some text := by
  have hpoints : ∀ chars : List Char,
      literalPoints (chars.flatMap escapeChar) = some (chars.flatMap utf16Units) := by
    intro chars
    induction chars with
    | nil => rfl
    | cons c chars ih =>
      rw [List.flatMap_cons, literalPoints_escape, ih, Option.map_some, List.flatMap_cons]
  have hjoin : ∀ chars : List Char, reader.joinSurrogates (chars.flatMap utf16Units) = chars := by
    intro chars
    induction chars with
    | nil => rfl
    | cons c chars ih => rw [List.flatMap_cons, joinSurrogates_units, ih]
  rw [textOf, escapeText, hpoints, Option.map_some, hjoin, String.ofList_toList]

end JsonReader

def EndsWord (rest : List Char) : Prop :=
  ∀ c ∈ rest.head?, isJsonSpace c = true ∨ isJsonMark c = true

theorem isJsonSpace_of_mark {c : Char} (h : isJsonMark c = true) : isJsonSpace c = false := by
  simp only [isJsonMark, Bool.or_eq_true, decide_eq_true_eq] at h
  rcases h with ((((rfl | rfl) | rfl) | rfl) | rfl) | rfl <;> decide

namespace JsonReading

theorem tokens_step {reading : JsonReading} {c : Char} (rest : List Char) :
    reading.tokens (c :: rest) =
      ((reading.next c).1.tokens rest).map ((reading.next c).2 ++ ·) := by
  cases reading <;> rfl

theorem tokens_silent {reading after : JsonReading} {c : Char} (rest : List Char)
    (h : reading.next c = (after, [])) : reading.tokens (c :: rest) = after.tokens rest := by
  rw [tokens_step, h]
  exact Option.map_id_fun' ▸ rfl

/-- Characters that mean themselves stay inside the literal. -/
theorem tokens_plain {chars : List Char} (h : ∀ c ∈ chars, c ≠ '"' ∧ c ≠ '\\')
    (raw rest : List Char) :
    (JsonReading.text raw).tokens (chars ++ rest) =
      (JsonReading.text (raw ++ chars)).tokens rest := by
  induction chars generalizing raw with
  | nil => rw [List.nil_append, List.append_nil]
  | cons c chars ih =>
    obtain ⟨hquote, hescape⟩ := h c List.mem_cons_self
    have hnext : (JsonReading.text raw).next c = (.text (raw ++ [c]), []) := by
      simp [next, hquote, hescape]
    rw [List.cons_append, tokens_silent _ hnext, ih fun d hd => h d (List.mem_cons_of_mem _ hd),
      List.append_assoc, List.singleton_append]

theorem tokens_short (c : Char) (raw rest : List Char) :
    (JsonReading.text raw).tokens ('\\' :: c :: rest) =
      (JsonReading.text (raw ++ ['\\', c])).tokens rest := by
  have hescape : (JsonReading.text raw).next '\\' = (.escape (raw ++ ['\\']), []) := by
    simp [next]
  have hnext : (JsonReading.escape (raw ++ ['\\'])).next c = (.text (raw ++ ['\\'] ++ [c]), []) :=
    rfl
  rw [tokens_silent _ hescape, tokens_silent _ hnext, List.append_assoc]
  rfl

theorem tokens_unicode {point : Nat} (h : point < 0x10000) (raw rest : List Char) :
    (JsonReading.text raw).tokens (unicodeEscape point ++ rest) =
      (JsonReading.text (raw ++ unicodeEscape point)).tokens rest := by
  have hdigit : ∀ n : Fin 16, hexDigitChar n ≠ '"' ∧ hexDigitChar n ≠ '\\' := by decide
  have hplain : ∀ c ∈ [hexDigitChar (point / 4096), hexDigitChar (point / 256 % 16),
      hexDigitChar (point / 16 % 16), hexDigitChar (point % 16)], c ≠ '"' ∧ c ≠ '\\' := by
    intro c hc
    simp only [List.mem_cons, List.not_mem_nil, or_false] at hc
    rcases hc with rfl | rfl | rfl | rfl
    · exact hdigit ⟨point / 4096, by omega⟩
    · exact hdigit ⟨point / 256 % 16, by omega⟩
    · exact hdigit ⟨point / 16 % 16, by omega⟩
    · exact hdigit ⟨point % 16, by omega⟩
  have hrest := tokens_plain hplain (raw ++ ['\\', 'u']) rest
  rw [List.append_assoc] at hrest
  exact (tokens_short 'u' raw _).trans hrest

/-- An escaped character stays inside the literal. -/
theorem tokens_escape (c : Char) (raw rest : List Char) :
    (JsonReading.text raw).tokens (escapeChar c ++ rest) =
      (JsonReading.text (raw ++ escapeChar c)).tokens rest := by
  unfold escapeChar
  split
  case h_8 =>
    rename_i hquote hescape _ _ _ _ _
    split
    · exact tokens_plain (by simpa using ⟨hquote, hescape⟩) raw rest
    · split
      · rename_i hsmall
        exact tokens_unicode hsmall raw rest
      · have hvalid := toNat_valid c
        rw [List.append_assoc, tokens_unicode (by omega), tokens_unicode (by omega),
          List.append_assoc]
  all_goals exact tokens_short _ raw rest

theorem tokens_quote (text : String) (rest : List Char) :
    JsonReading.between.tokens (JsonWriter.quote text ++ rest) =
      (JsonReading.between.tokens rest).map (.text (escapeText text) :: ·) := by
  have hbody : ∀ (chars raw : List Char),
      (JsonReading.text raw).tokens (chars.flatMap escapeChar ++ '"' :: rest) =
        (JsonReading.between.tokens rest).map (.text (raw ++ chars.flatMap escapeChar) :: ·) := by
    intro chars
    induction chars with
    | nil =>
      intro raw
      rw [List.flatMap_nil, List.nil_append, List.append_nil]
      exact tokens_step rest
    | cons c chars ih =>
      intro raw
      rw [List.flatMap_cons, List.append_assoc, tokens_escape, ih, List.append_assoc]
  have hopen : JsonReading.between.next '"' = (.text [], []) := rfl
  rw [JsonWriter.quote, List.append_assoc, List.cons_append, List.singleton_append,
    tokens_silent _ hopen]
  exact hbody text.toList []

theorem tokens_mark {c : Char} (h : isJsonMark c = true) (rest : List Char) :
    JsonReading.between.tokens (c :: rest) =
      (JsonReading.between.tokens rest).map (.mark c :: ·) := by
  have hspace := isJsonSpace_of_mark h
  have hnext : JsonReading.between.next c = (.between, [.mark c]) := by
    simp [next, hspace, h, ended]
  rw [tokens_step, hnext]
  rfl

theorem tokens_gap {gap : List Char} (h : ∀ c ∈ gap, isJsonSpace c = true) (rest : List Char) :
    JsonReading.between.tokens (gap ++ rest) = JsonReading.between.tokens rest := by
  induction gap with
  | nil => rfl
  | cons c gap ih =>
    have hnext : JsonReading.between.next c = (.between, []) := by
      simp [next, h c List.mem_cons_self, ended]
    rw [List.cons_append, tokens_silent _ hnext, ih fun d hd => h d (List.mem_cons_of_mem _ hd)]

theorem tokens_word {chars rest : List Char} (hne : chars ≠ [])
    (h : ∀ c ∈ chars, isJsonSpace c = false ∧ isJsonMark c = false ∧ c ≠ '"')
    (hrest : EndsWord rest) :
    JsonReading.between.tokens (chars ++ rest) =
      (JsonReading.between.tokens rest).map (.word chars :: ·) := by
  have hgrow : ∀ {chars : List Char} (word : List Char),
      (∀ c ∈ chars, isJsonSpace c = false ∧ isJsonMark c = false ∧ c ≠ '"') →
      (JsonReading.word word).tokens (chars ++ rest) =
        (JsonReading.word (word ++ chars)).tokens rest := by
    intro chars
    induction chars with
    | nil =>
      intro word _
      rw [List.nil_append, List.append_nil]
    | cons c chars ih =>
      intro word hall
      obtain ⟨hspace, hmark, hquote⟩ := hall c List.mem_cons_self
      have hnext : (JsonReading.word word).next c = (.word (word ++ [c]), []) := by
        simp [next, hspace, hmark, hquote, begun]
      rw [List.cons_append, tokens_silent _ hnext,
        ih (word ++ [c]) fun d hd => hall d (List.mem_cons_of_mem _ hd), List.append_assoc,
        List.singleton_append]
  have hend : (JsonReading.word chars).tokens rest =
      (JsonReading.between.tokens rest).map (.word chars :: ·) := by
    cases rest with
    | nil => rfl
    | cons c rest =>
      rcases hrest c rfl with hspace | hmark
      · have hword : (JsonReading.word chars).next c = (.between, [.word chars]) := by
          simp [next, hspace, ended]
        have hgap : JsonReading.between.next c = (.between, []) := by
          simp [next, hspace, ended]
        rw [tokens_step, hword, tokens_silent _ hgap]
        rfl
      · have hspace := isJsonSpace_of_mark hmark
        have hword : (JsonReading.word chars).next c = (.between, [.word chars, .mark c]) := by
          simp [next, hspace, hmark, ended]
        rw [tokens_step, hword, tokens_mark hmark, Option.map_map]
        rfl
  cases chars with
  | nil => exact absurd rfl hne
  | cons c chars =>
    obtain ⟨hspace, hmark, hquote⟩ := h c List.mem_cons_self
    have hnext : JsonReading.between.next c = (.word [c], []) := by
      simp [next, hspace, hmark, hquote, begun]
    rw [List.cons_append, tokens_silent _ hnext,
      hgrow [c] fun d hd => h d (List.mem_cons_of_mem _ hd)]
    exact hend

end JsonReading

theorem isWordChar_plain {c : Char} (h : isWordChar c = true) :
    isJsonSpace c = false ∧ isJsonMark c = false ∧ c ≠ '"' := by
  have hno : ∀ d : Char, isWordChar d = false → c ≠ d := by
    rintro d hd rfl
    exact Bool.false_ne_true (hd.symm.trans h)
  simp [isJsonSpace, isJsonMark, hno ' ' (by decide), hno '\t' (by decide), hno '\n' (by decide),
    hno '\r' (by decide), hno '\x7b' (by decide), hno '\x7d' (by decide), hno '[' (by decide),
    hno ']' (by decide), hno ',' (by decide), hno ':' (by decide), hno '"' (by decide)]

theorem tokens_value {reader : JsonReader} {chars rest : List Char} {value : Json}
    (h : reader.wordValue chars = some value) (hrest : EndsWord rest) :
    JsonReading.between.tokens (chars ++ rest) =
      (JsonReading.between.tokens rest).map (.word chars :: ·) := by
  apply JsonReading.tokens_word _ _ hrest
  · rintro rfl
    cases h
  · exact fun c hc => isWordChar_plain (JsonReader.wordValue_chars h c hc)

theorem toDigits_head {n : Nat} (h : n ≠ 0) : (Nat.toDigits 10 n).head? ≠ some '0' := by
  induction n using Nat.strongRecOn with
  | ind n ih =>
    rw [Nat.toDigits_eq_if (by omega)]
    split
    · rename_i hsmall
      have hall : ∀ n : Fin 10, n.val ≠ 0 → n.val.digitChar ≠ '0' := by decide
      exact fun hc => hall ⟨n, hsmall⟩ h (Option.some.inj hc)
    · rename_i hlarge
      have hrest := ih (n / 10) (by omega) (by omega)
      cases hdigits : Nat.toDigits 10 (n / 10) with
      | nil => exact absurd hdigits Nat.toDigits_ne_nil
      | cons c rest =>
        rw [hdigits] at hrest
        exact hrest

/-- A number is printed with digits of its own only. -/
theorem toDigits_digit {n : Nat} {c : Char} (h : c ∈ Nat.toDigits 10 n) : c.isDigit = true :=
  Nat.isDigit_of_mem_toDigits (by omega) (by omega) h

theorem digit_bounds {c : Char} (h : c.isDigit = true) : 48 ≤ c.toNat ∧ c.toNat ≤ 57 := by
  delta Char.isDigit at h
  rw [Bool.and_eq_true, decide_eq_true_eq, decide_eq_true_eq] at h
  exact h

theorem decimalDigit_digit {c : Char} (h : c.isDigit = true) :
    decimalDigit c = some (c.toNat - '0'.toNat) := by
  obtain ⟨hlow, hhigh⟩ := digit_bounds h
  rw [decimalDigit, decimalZeros, List.find?_cons_of_pos]
  · rfl
  · rw [Bool.and_eq_true, decide_eq_true_eq, decide_eq_true_eq]
    omega

theorem literalDigits_digits {chars : List Char} (hne : chars ≠ [])
    (h : ∀ c ∈ chars, c.isDigit = true) :
    literalDigits chars = some (chars.map fun c => c.toNat - '0'.toNat) := by
  induction chars with
  | nil => exact absurd rfl hne
  | cons c chars ih =>
    have hc := decimalDigit_digit (h c List.mem_cons_self)
    cases chars with
    | nil => rw [literalDigits, hc]; rfl
    | cons d rest =>
      have hrest := ih (List.cons_ne_nil _ _) fun x hx => h x (List.mem_cons_of_mem _ hx)
      have hscore : d ≠ '_' := by
        rintro rfl
        exact absurd (h '_' (by simp)) (by decide)
      rw [literalDigits, hc, hrest]
      · rfl
      · exact fun hnil => by cases hnil
      · exact fun _ heq => hscore (List.cons.inj heq).1

theorem skipDigits_digits {chars : List Char} (hne : chars ≠ [])
    (h : ∀ c ∈ chars, c.isDigit = true) : skipDigits chars = some [] := by
  cases chars with
  | nil => exact absurd rfl hne
  | cons c rest =>
    have hrest : rest.dropWhile Char.isDigit = [] :=
      List.dropWhile_eq_nil_iff.mpr fun x hx => h x (List.mem_cons_of_mem _ hx)
    rw [skipDigits, if_pos (h c List.mem_cons_self), hrest]

/-- The printed form of an integer: a sign at most, and digits. -/
theorem toString_int (n : Int) : (toString n).toList =
    if n < 0 then '-' :: Nat.toDigits 10 n.natAbs else Nat.toDigits 10 n.natAbs := by
  rw [Int.toString_eq_repr, Int.repr_eq_if]
  by_cases hneg : n < 0
  · have habs : (-n).toNat = n.natAbs := by omega
    rw [if_neg (by omega), if_pos hneg, String.toList_append, Nat.toList_repr, habs]
    rfl
  · have habs : n.toNat = n.natAbs := by omega
    rw [if_pos (by omega), if_neg hneg, Nat.toList_repr, habs]

theorem skipInteger_digits (n : Nat) :
    skipInteger (Nat.toDigits 10 n) = some [] ∧ skipInteger ('-' :: Nat.toDigits 10 n) = some [] := by
  by_cases hzero : n = 0
  · rw [hzero, Nat.toDigits_zero]
    exact ⟨rfl, rfl⟩
  · have hhead := toDigits_head hzero
    have hdigits : ∀ c ∈ Nat.toDigits 10 n, c.isDigit = true := fun c => toDigits_digit
    have hskip := skipDigits_digits Nat.toDigits_ne_nil hdigits
    generalize Nat.toDigits 10 n = chars at hhead hdigits hskip
    cases chars with
    | nil => cases hskip
    | cons c rest =>
      have hc : c ≠ '0' := fun hc => hhead (congrArg some hc)
      have hsign : c ≠ '-' := by
        rintro rfl
        exact absurd (hdigits '-' List.mem_cons_self) (by decide)
      constructor
      · rw [skipInteger, hskip]
        · exact fun _ heq => hsign (List.cons.inj heq).1
        · exact fun _ heq => hc (List.cons.inj heq).1
        · exact fun _ heq => hsign (List.cons.inj heq).1
      · rw [skipInteger, hskip]
        exact fun _ heq => hc (List.cons.inj heq).1

theorem numberLiteral_int (n : Int) : numberLiteral (toString n).toList = some false := by
  have hskip : skipInteger (toString n).toList = some [] := by
    rw [toString_int]
    split
    · exact (skipInteger_digits n.natAbs).2
    · exact (skipInteger_digits n.natAbs).1
  rw [numberLiteral, hskip]
  rfl

theorem intChars {n : Int} {c : Char} (h : c ∈ (toString n).toList) :
    c.isDigit = true ∨ c = '-' := by
  rw [toString_int] at h
  split at h
  · rcases List.mem_cons.mp h with rfl | h
    · exact .inr rfl
    · exact .inl (toDigits_digit h)
  · exact .inl (toDigits_digit h)

theorem foldl_digits (chars : List Char) (n : Nat) :
    (chars.map fun c => c.toNat - '0'.toNat).foldl (fun n digit => 10 * n + digit) n =
      Nat.ofDigitChars 10 chars n := by
  rw [Nat.ofDigitChars_eq_foldl, List.foldl_map]

/-- `int` reads what `str` prints, up to the limit on digits. -/
theorem parseInt_toString {n : Int} (h : n.natAbs < 10 ^ intMaxStrDigits) :
    parseInt (toString n) = .ok n := by
  have hpos : 0 < intMaxStrDigits := by decide
  have hlen : (Nat.toDigits 10 n.natAbs).length ≤ intMaxStrDigits :=
    (Nat.length_toDigits_le_iff (by omega) hpos).mpr h
  have hstrip : stripBy (fun c => isSpace c && !(28 ≤ c.toNat && c.toNat ≤ 31)) (toString n) =
      toString n := by
    apply stripBy_eq_self_iff.mpr
    intro c hc
    have hmem : c ∈ (toString n).toList := by
      rcases hc with hc | hc
      · exact List.mem_of_mem_head? hc
      · exact List.mem_of_getLast? hc
    have hspace : isSpace c = false := by
      rcases intChars hmem with hdigit | rfl
      · obtain ⟨hlow, hhigh⟩ := digit_bounds hdigit
        simp [isSpace]
        omega
      · decide
    rw [hspace]
    rfl
  have hdigits := literalDigits_digits Nat.toDigits_ne_nil
    fun c (hc : c ∈ Nat.toDigits 10 n.natAbs) => toDigits_digit hc
  have hvalue : ((Nat.toDigits 10 n.natAbs).map fun c => c.toNat - '0'.toNat).foldl
      (fun n digit => 10 * n + digit) 0 = n.natAbs :=
    (foldl_digits ..).trans Nat.ofDigitChars_ten_toDigits
  have hlimit : ¬ intMaxStrDigits <
      ((Nat.toDigits 10 n.natAbs).map fun c => c.toNat - '0'.toNat).length := by
    rw [List.length_map]
    omega
  rw [parseInt, hstrip, toString_int]
  by_cases hneg : n < 0
  · simp only [if_pos hneg, hdigits, if_neg hlimit, hvalue, if_true]
    congr 1
    omega
  · have hsign : ∀ sign rest, sign.isDigit = false → Nat.toDigits 10 n.natAbs ≠ sign :: rest := by
      intro sign rest hsign heq
      have hdigit : sign.isDigit = true := toDigits_digit (heq ▸ List.mem_cons_self)
      exact Bool.false_ne_true (hsign.symm.trans hdigit)
    have hminus : ∀ rest, Nat.toDigits 10 n.natAbs ≠ '-' :: rest := (hsign '-' · (by decide))
    have hplus : ∀ rest, Nat.toDigits 10 n.natAbs ≠ '+' :: rest := (hsign '+' · (by decide))
    simp only [if_neg hneg, hdigits, if_neg hlimit, hvalue, Bool.false_eq_true, if_false]
    congr 1
    omega

theorem wordValue_int (reader : JsonReader) {n : Int}
    (h : n.natAbs < 10 ^ intMaxStrDigits) :
    reader.wordValue (toString n).toList = some (.int n) := by
  have hconst : JsonObject.get jsonConstants (String.ofList (toString n).toList) = none := by
    have hall : ∀ field ∈ jsonConstants,
        field.1.toList.any (fun c => !c.isDigit && c != '-') = true := by decide
    rw [JsonObject.get, Option.map_eq_none_iff, List.find?_eq_none]
    intro field hfield hname
    obtain ⟨c, hc, hother⟩ := List.any_eq_true.mp (hall field hfield)
    rw [decide_eq_true_eq.mp hname, String.toList_ofList] at hc
    rcases intChars hc with hdigit | rfl
    · rw [hdigit] at hother
      cases hother
    · exact absurd hother (by decide)
  rw [JsonReader.wordValue, hconst, numberLiteral_int, String.ofList_toList, parseInt_toString h]
  rfl

theorem wordValue_null (reader : JsonReader) : reader.wordValue "null".toList = some .null :=
  rfl

theorem wordValue_bool (reader : JsonReader) (value : Bool) :
    reader.wordValue (if value then "true" else "false").toList = some (.bool value) := by
  cases value <;> rfl

theorem wordValue_nan (reader : JsonReader) :
    reader.wordValue "NaN".toList = some (.float .nan) :=
  rfl

theorem wordValue_infinite (reader : JsonReader) (negative : Bool) :
    reader.wordValue (if negative then "-Infinity" else "Infinity").toList =
      some (.float (.infinite negative)) := by
  cases negative <;> rfl

namespace JsonWriter

variable (writer : JsonWriter) (reader : JsonReader)

mutual

/-- A value whose text is read back: no integer is too long to print, the floats are read
back, and no key stands twice. -/
def Prints : Json → Prop
  | .int n => n.natAbs < 10 ^ intMaxStrDigits
  | .float (.finite significand exponent) =>
    reader.wordValue (writer.floatRepr (.finite significand exponent)).toList =
      some (.float (.finite significand exponent))
  | .arr items => PrintsItems items
  | .obj fields => PrintsFields fields
  | _ => True

def PrintsItems : List Json → Prop
  | [] => True
  | item :: items => Prints item ∧ PrintsItems items

def PrintsFields : List (String × Json) → Prop
  | [] => True
  | (key, value) :: fields =>
    (∀ field ∈ fields, field.1 ≠ key) ∧ Prints value ∧ PrintsFields fields

end

mutual

def tokensOf : Json → List JsonToken
  | .str text => [.text (escapeText text)]
  | .arr [] => [.mark '[', .mark ']']
  | .arr (item :: items) => .mark '[' :: (tokensOf item ++ (itemTokens items ++ [.mark ']']))
  | .obj [] => [.mark '\x7b', .mark '\x7d']
  | .obj ((key, value) :: fields) =>
    .mark '\x7b' :: .text (escapeText key) :: .mark ':' ::
      (tokensOf value ++ (fieldTokens fields ++ [.mark '\x7d']))
  | value => [.word (writer.write value)]

def itemTokens : List Json → List JsonToken
  | [] => []
  | item :: items => .mark ',' :: (tokensOf item ++ itemTokens items)

def fieldTokens : List (String × Json) → List JsonToken
  | [] => []
  | (key, value) :: fields =>
    .mark ',' :: .text (escapeText key) :: .mark ':' :: (tokensOf value ++ fieldTokens fields)

end

end JsonWriter

theorem endsWord_mark {c : Char} (h : isJsonMark c = true) (rest : List Char) :
    EndsWord (c :: rest) := by
  intro d hd
  obtain rfl := Option.some.inj hd
  exact .inr h

def Lexes (chars : List Char) (tokens : List JsonToken) : Prop :=
  ∀ rest, EndsWord rest → JsonReading.between.tokens (chars ++ rest) =
    (JsonReading.between.tokens rest).map (tokens ++ ·)

namespace Lexes

variable {chars more : List Char} {tokens others : List JsonToken}

theorem nil : Lexes [] [] := by
  intro rest _
  rw [List.nil_append]
  cases JsonReading.between.tokens rest <;> rfl

theorem mark {c : Char} (hc : isJsonMark c = true) (h : Lexes chars tokens) :
    Lexes (c :: chars) (.mark c :: tokens) := by
  intro rest hrest
  rw [List.cons_append, JsonReading.tokens_mark hc, h rest hrest, Option.map_map]
  rfl

theorem gap {gap : List Char} (hgap : ∀ c ∈ gap, isJsonSpace c = true) (h : Lexes chars tokens) :
    Lexes (gap ++ chars) tokens := by
  intro rest hrest
  rw [List.append_assoc, JsonReading.tokens_gap hgap, h rest hrest]

theorem quote (text : String) (h : Lexes chars tokens) :
    Lexes (JsonWriter.quote text ++ chars) (.text (escapeText text) :: tokens) := by
  intro rest hrest
  rw [List.append_assoc, JsonReading.tokens_quote, h rest hrest, Option.map_map]
  rfl

theorem append (h : Lexes chars tokens) (hmore : Lexes more others)
    (hends : ∀ rest, EndsWord rest → EndsWord (more ++ rest)) :
    Lexes (chars ++ more) (tokens ++ others) := by
  intro rest hrest
  rw [List.append_assoc, h _ (hends rest hrest), hmore rest hrest, Option.map_map]
  congr 1
  funext x
  exact (List.append_assoc ..).symm

theorem word {reader : JsonReader} {value : Json} (h : reader.wordValue chars = some value) :
    Lexes chars [.word chars] :=
  fun _ => tokens_value h

end Lexes

namespace JsonWriter

variable {writer : JsonWriter} {reader : JsonReader}

theorem endsWord_items (items : List Json) {rest : List Char} (h : EndsWord rest) :
    EndsWord (writer.writeItems items ++ rest) := by
  cases items with
  | nil => exact h
  | cons item items => exact endsWord_mark rfl _

theorem endsWord_fields (fields : List (String × Json)) {rest : List Char} (h : EndsWord rest) :
    EndsWord (writer.writeFields fields ++ rest) := by
  cases fields with
  | nil => exact h
  | cons field fields => exact endsWord_mark rfl _

theorem lexes_mark {c : Char} (hc : isJsonMark c = true) : Lexes [c] [.mark c] :=
  Lexes.mark hc .nil

mutual

theorem lexes_write : ∀ value : Json, writer.Prints reader value →
    Lexes (writer.write value) (writer.tokensOf value)
  | .null, _ => Lexes.word (wordValue_null reader)
  | .bool value, _ => Lexes.word (wordValue_bool reader value)
  | .int n, h => Lexes.word (wordValue_int reader h)
  | .float .nan, _ => Lexes.word (wordValue_nan reader)
  | .float (.infinite true), _ => Lexes.word (wordValue_infinite reader true)
  | .float (.infinite false), _ => Lexes.word (wordValue_infinite reader false)
  | .float (.finite significand exponent), h => Lexes.word h
  | .str text, _ => by
    have h := Lexes.quote text .nil
    rwa [List.append_nil] at h
  | .arr [], _ => Lexes.mark rfl (lexes_mark rfl)
  | .arr (item :: items), h =>
    Lexes.mark rfl ((lexes_write item h.1).append
      ((lexes_items items h.2).append (lexes_mark rfl) fun _ _ => endsWord_mark rfl _)
      fun _ _ => by
        rw [List.append_assoc]
        exact endsWord_items items (endsWord_mark rfl _))
  | .obj [], _ => Lexes.mark rfl (lexes_mark rfl)
  | .obj ((key, value) :: fields), h =>
    Lexes.mark rfl (Lexes.quote key (Lexes.mark rfl (Lexes.gap writer.blank
      ((lexes_write value h.2.1).append
        ((lexes_fields fields h.2.2).append (lexes_mark rfl) fun _ _ => endsWord_mark rfl _)
        fun _ _ => by
          rw [List.append_assoc]
          exact endsWord_fields fields (endsWord_mark rfl _)))))

theorem lexes_items : ∀ items : List Json, writer.PrintsItems reader items →
    Lexes (writer.writeItems items) (writer.itemTokens items)
  | [], _ => .nil
  | item :: items, h =>
    Lexes.mark rfl (Lexes.gap writer.blank
      ((lexes_write item h.1).append (lexes_items items h.2) fun _ => endsWord_items items))

theorem lexes_fields : ∀ fields : List (String × Json), writer.PrintsFields reader fields →
    Lexes (writer.writeFields fields) (writer.fieldTokens fields)
  | [], _ => .nil
  | (key, value) :: fields, h =>
    Lexes.mark rfl (Lexes.gap writer.blank (Lexes.quote key (Lexes.mark rfl (Lexes.gap writer.blank
      ((lexes_write value h.2.1).append (lexes_fields fields h.2.2)
        fun _ => endsWord_fields fields)))))

end

end JsonWriter

namespace JsonReader

variable {reader : JsonReader}

theorem run_cons {state middle after : JsonState} {token : JsonToken} {tokens : List JsonToken}
    (h : reader.step state token = some middle)
    (hrest : tokens.foldlM reader.step middle = some after) :
    (token :: tokens).foldlM reader.step state = some after := by
  rw [List.foldlM_cons, h]
  exact hrest

theorem run_append {state middle after : JsonState} {tokens rest : List JsonToken}
    (h : tokens.foldlM reader.step state = some middle)
    (hrest : rest.foldlM reader.step middle = some after) :
    (tokens ++ rest).foldlM reader.step state = some after := by
  rw [List.foldlM_append, h]
  exact hrest

theorem run_word {chars : List Char} {value : Json} (h : reader.wordValue chars = some value)
    (outer : List JsonFrame) :
    [JsonToken.word chars].foldlM reader.step (.value outer) = some (.put value outer) := by
  apply run_cons _ rfl
  rw [step, startValue, h]
  rfl

theorem step_key (reader : JsonReader) (key : String) (outer : List JsonFrame) :
    reader.step (.firstKey outer) (.text (escapeText key)) = some (.colon [] key outer) := by
  rw [step, textOf_escape]
  rfl

theorem step_nextKey (reader : JsonReader) (fields : JsonObject) (key : String)
    (outer : List JsonFrame) :
    reader.step (.nextKey fields outer) (.text (escapeText key)) =
      some (.colon fields key outer) := by
  rw [step, textOf_escape]
  rfl

end JsonReader

/-- A key that is not there is added at the end. -/
theorem JsonObject.set_new {fields : JsonObject} {key : String} {value : Json}
    (h : ∀ field ∈ fields, field.1 ≠ key) : fields.set key value = fields ++ [(key, value)] := by
  have hnone : fields.get key = none := by
    rw [JsonObject.get, Option.map_eq_none_iff, List.find?_eq_none]
    simpa using h
  rw [JsonObject.set, hnone, if_neg (by simp)]

namespace JsonWriter

variable {writer : JsonWriter} {reader : JsonReader}

/-- The first token of a value, which no list ends with. -/
theorem tokensOf_head (writer : JsonWriter) (value : Json) :
    ∃ token rest, writer.tokensOf value = token :: rest ∧ token ≠ .mark ']' := by
  fun_cases writer.tokensOf value
  all_goals exact ⟨_, _, rfl, by simp⟩

/-- A list begins like its first item. -/
theorem run_firstItem (value : Json) (outer : List JsonFrame) :
    (writer.tokensOf value).foldlM reader.step (.firstItem outer) =
      (writer.tokensOf value).foldlM reader.step (.value (.item [] :: outer)) := by
  obtain ⟨token, rest, heq, hend⟩ := tokensOf_head writer value
  have hstep : reader.step (.firstItem outer) token =
      reader.step (.value (.item [] :: outer)) token := by
    rw [JsonReader.step, JsonReader.step]
    exact hend
  rw [heq, List.foldlM_cons, List.foldlM_cons, hstep]

mutual

/-- The reader takes the tokens of a printed value as that value, in any context. The
induction is on the value; lists and objects need the two lemmas beside it. -/
theorem run_value : ∀ value : Json, writer.Prints reader value → ∀ outer : List JsonFrame,
    (writer.tokensOf value).foldlM reader.step (.value outer) = some (.put value outer)
  | .null, _, outer => JsonReader.run_word (wordValue_null reader) outer
  | .bool value, _, outer => JsonReader.run_word (wordValue_bool reader value) outer
  | .int _, h, outer => JsonReader.run_word (wordValue_int reader h) outer
  | .float .nan, _, outer => JsonReader.run_word (wordValue_nan reader) outer
  | .float (.infinite true), _, outer => JsonReader.run_word (wordValue_infinite reader true) outer
  | .float (.infinite false), _, outer =>
    JsonReader.run_word (wordValue_infinite reader false) outer
  | .float (.finite _ _), h, outer => JsonReader.run_word h outer
  | .str text, _, outer => by
    apply JsonReader.run_cons _ rfl
    rw [JsonReader.step, JsonReader.startValue, JsonReader.textOf_escape]
    rfl
  | .arr [], _, _ => rfl
  | .arr (item :: items), h, outer => by
    apply JsonReader.run_cons rfl
    apply JsonReader.run_append ((run_firstItem item outer).trans (run_value item h.1 _))
    exact JsonReader.run_append (run_items items h.2 [item] outer) rfl
  | .obj [], _, _ => rfl
  | .obj ((key, value) :: fields), h, outer => by
    apply JsonReader.run_cons rfl
    apply JsonReader.run_cons (JsonReader.step_key reader key outer)
    apply JsonReader.run_cons rfl
    apply JsonReader.run_append (run_value value h.2.1 _)
    refine JsonReader.run_append (run_fields fields h.2.2 [(key, value)] outer ?_) rfl
    simpa using fun other value hother => (h.1 (other, value) hother).symm

theorem run_items : ∀ items : List Json, writer.PrintsItems reader items →
    ∀ (before : List Json) (outer : List JsonFrame),
      (writer.itemTokens items).foldlM reader.step (.afterItem before outer) =
        some (.afterItem (before ++ items) outer)
  | [], _, before, outer => by
    rw [List.append_nil]
    rfl
  | item :: items, h, before, outer => by
    apply JsonReader.run_cons rfl
    apply JsonReader.run_append (run_value item h.1 _)
    have hitems := run_items items h.2 (before ++ [item]) outer
    rwa [List.append_assoc] at hitems

theorem run_fields : ∀ fields : List (String × Json), writer.PrintsFields reader fields →
    ∀ (before : JsonObject) (outer : List JsonFrame),
      (∀ field ∈ before, ∀ other ∈ fields, field.1 ≠ other.1) →
      (writer.fieldTokens fields).foldlM reader.step (.afterField before outer) =
        some (.afterField (before ++ fields) outer)
  | [], _, before, outer, _ => by
    rw [List.append_nil]
    rfl
  | (key, value) :: fields, h, before, outer, hnew => by
    apply JsonReader.run_cons rfl
    apply JsonReader.run_cons (JsonReader.step_nextKey reader before key outer)
    apply JsonReader.run_cons rfl
    apply JsonReader.run_append (run_value value h.2.1 _)
    have hset : before.set key value = before ++ [(key, value)] :=
      JsonObject.set_new fun field hfield => hnew field hfield _ List.mem_cons_self
    have hdistinct : ∀ field ∈ before ++ [(key, value)], ∀ other ∈ fields, field.1 ≠ other.1 := by
      intro field hfield other hother
      rcases List.mem_append.mp hfield with hfield | hfield
      · exact hnew field hfield other (List.mem_cons_of_mem _ hother)
      · rw [List.mem_singleton.mp hfield]
        exact (h.1 other hother).symm
    have hfields := run_fields fields h.2.2 (before ++ [(key, value)]) outer hdistinct
    rw [List.append_assoc] at hfields
    rw [JsonState.put, hset]
    exact hfields

end

/-- What `json.dumps` prints, `json.loads` reads back. -/
theorem loads_dumps {value : Json} (h : writer.Prints reader value) :
    reader.loads (writer.dumps value) = .ok value := by
  have htokens : JsonReading.between.tokens (writer.write value) =
      some (writer.tokensOf value) := by
    have hlexes := lexes_write value h [] (by simp [EndsWord])
    rw [List.append_nil] at hlexes
    rw [hlexes]
    exact congrArg some (List.append_nil _)
  rw [JsonReader.loads, dumps, String.toList_ofList, htokens, Option.bind_some,
    JsonReader.valueOf, run_value value h []]
  rfl

/-- Two values never print alike. -/
theorem dumps_inj {a b : Json} (ha : writer.Prints reader a) (hb : writer.Prints reader b) :
    writer.dumps a = writer.dumps b ↔ a = b := by
  constructor
  · intro h
    have hread := loads_dumps ha
    rw [h, loads_dumps hb] at hread
    exact (Except.ok.inj hread).symm
  · exact congrArg _

end JsonWriter

end PluginRegistry
