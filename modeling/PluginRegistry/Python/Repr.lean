import PluginRegistry.Python.Json

namespace PluginRegistry

structure PyText where
  lower : String → String
  isPrintable : Char → Bool
  reprFloat : PyFloat → String

/-- What is assumed of them: ASCII letters lower to ASCII letters, and a float
prints as digits, a sign, `inf` or `nan`. -/
structure PyText.Documented (text : PyText) : Prop where
  lowersAscii : LowersAscii text.lower
  lowersFirst : ∀ s : String, ∀ c : Char, s.toList.head? = some c → c.toNat < 128 →
    (text.lower s).toList.head? = some c.toLower
  reprFirst : ∀ f : PyFloat, ∃ c : Char, (text.reprFloat f).toList.head? = some c ∧
    (c.isDigit = true ∨ c ∈ ['-', 'i', 'n'])

def hexEscape (width code : Nat) : List Char :=
  let digits := Nat.toDigits 16 code
  List.replicate (width - digits.length) '0' ++ digits

/-- One character of `repr(text)` between quotes. -/
def reprChar (isPrintable : Char → Bool) (quote c : Char) : List Char :=
  let code := c.toNat
  if c = quote || c = '\\' then ['\\', c]
  else if c = '\t' then ['\\', 't']
  else if c = '\n' then ['\\', 'n']
  else if c = '\r' then ['\\', 'r']
  else if 32 ≤ code && code < 127 || 127 < code && isPrintable c then [c]
  else if code < 0x100 then '\\' :: 'x' :: hexEscape 2 code
  else if code < 0x10000 then '\\' :: 'u' :: hexEscape 4 code
  else '\\' :: 'U' :: hexEscape 8 code

/-- `repr(text)`: single quotes, unless only these stand in the text. -/
def reprStr (isPrintable : Char → Bool) (s : String) : String :=
  let chars := s.toList
  let quote := if chars.contains '\'' && !chars.contains '"' then '"' else '\''
  String.ofList (quote :: chars.flatMap (reprChar isPrintable quote) ++ [quote])

namespace Json
variable (text : PyText)

mutual

/-- `repr(value)`. -/
def repr : Json → String
  | .null => "None"
  | .bool value => if value then "True" else "False"
  | .int value => toString value
  | .float value => text.reprFloat value
  | .str value => reprStr text.isPrintable value
  | .arr items => "[" ++ String.intercalate ", " (reprItems items) ++ "]"
  | .obj fields => "\x7b" ++ String.intercalate ", " (reprFields fields) ++ "\x7d"

def reprItems : List Json → List String
  | [] => []
  | item :: rest => repr item :: reprItems rest

def reprFields : List (String × Json) → List String
  | [] => []
  | (key, value) :: rest =>
    (reprStr text.isPrintable key ++ ": " ++ repr value) :: reprFields rest

end

/-- `str(value)`. -/
def toStr : Json → String
  | .str value => value
  | value => value.repr text

end Json

theorem toString_nat_head (n : Nat) :
    ∃ c, (toString n).toList.head? = some c ∧ c.isDigit = true := by
  have hdigits : (toString n).toList = Nat.toDigits 10 n := Nat.toList_repr
  rw [hdigits]
  cases h : Nat.toDigits 10 n with
  | nil => exact absurd h Nat.toDigits_ne_nil
  | cons c rest =>
    refine ⟨c, rfl, ?_⟩
    apply Nat.isDigit_of_mem_toDigits (b := 10) (n := n) (by omega) (by omega)
    rw [h]
    exact List.mem_cons_self

/-- What is not a string prints with a sign, a digit, a bracket or the first
letter of a constant in front. -/
theorem Json.toStr_head {text : PyText} (htext : text.Documented) {value : Json}
    (h : ∀ s, value ≠ .str s) : ∃ c, (value.toStr text).toList.head? = some c ∧
      (c.isDigit = true ∨ c ∈ ['-', 'i', 'n', 'N', 'T', 'F', '[', '\x7b']) := by
  cases value with
  | null => exact ⟨'N', by simp [toStr, repr], by simp⟩
  | bool b =>
    cases b
    · exact ⟨'F', by simp [toStr, repr], by simp⟩
    · exact ⟨'T', by simp [toStr, repr], by simp⟩
  | int i =>
    cases i with
    | ofNat n =>
      obtain ⟨c, hc, hdigit⟩ := toString_nat_head n
      refine ⟨c, ?_, .inl hdigit⟩
      simp only [toStr, repr]
      exact hc
    | negSucc n => exact ⟨'-', by simp [toStr, repr, toString, Int.repr], by simp⟩
  | float f =>
    obtain ⟨c, hc, hfirst⟩ := htext.reprFirst f
    refine ⟨c, by simpa only [toStr, repr] using hc, hfirst.imp_right fun hmem => ?_⟩
    exact List.mem_append_left ['N', 'T', 'F', '[', '\x7b'] hmem
  | str s => exact absurd rfl (h s)
  | arr items => exact ⟨'[', by simp [toStr, repr], by simp⟩
  | obj fields => exact ⟨'\x7b', by simp [toStr, repr], by simp⟩

end PluginRegistry
