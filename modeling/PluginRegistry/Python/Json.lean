import Mathlib.Algebra.Ring.Int.Defs
import PluginRegistry.Python.Exceptions
import PluginRegistry.Python.Text

namespace PluginRegistry

/-- A `float`: a finite one is `significand * 2 ^ exponent`. -/
inductive PyFloat
  | finite (significand exponent : Int)
  | infinite (negative : Bool)
  | nan
  deriving DecidableEq

/-- What `json.loads` builds. -/
inductive Json
  | null
  | bool (value : Bool)
  | int (value : Int)
  | float (value : PyFloat)
  | str (value : String)
  | arr (items : List Json)
  | obj (fields : List (String × Json))

/-- A `dict` in insertion order. -/
abbrev JsonObject := List (String × Json)

namespace JsonObject

/-- `d.get(key)`. -/
def get (d : JsonObject) (key : String) : Option Json :=
  (d.find? fun field => field.1 = key).map (·.2)

/-- `d[key] = value`: an old key keeps its place. -/
def set (d : JsonObject) (key : String) (value : Json) : JsonObject :=
  if (d.get key).isSome then d.map fun field => if field.1 = key then (key, value) else field
  else d ++ [(key, value)]

/-- `d.pop(key, None)`. -/
def pop (d : JsonObject) (key : String) : JsonObject :=
  d.filter fun field => field.1 ≠ key

/-- `d.setdefault(key, value)`. -/
def setDefault (d : JsonObject) (key : String) (value : Json) : JsonObject :=
  if (d.get key).isSome then d else d.set key value

theorem get_append (d e : JsonObject) (key : String) :
    get (d ++ e) key = (d.get key).or (e.get key) := by
  simp only [get, List.find?_append]
  cases List.find? (fun field => decide (field.1 = key)) d <;> rfl

theorem get_map_set (d : JsonObject) (key other : String) (value : Json) :
    get (d.map fun field => if field.1 = key then (key, value) else field) other =
      if other = key then (d.get key).map fun _ => value else d.get other := by
  induction d with
  | nil => split <;> rfl
  | cons field d ih =>
    by_cases hk : field.1 = key
    · by_cases ho : other = key
      · simp [get, hk, ho]
      · have hne : ¬key = other := Ne.symm ho
        simpa [get, hk, hne, ho] using ih
    · by_cases ho : other = key
      · subst ho
        simpa [get, hk] using ih
      · by_cases hf : field.1 = other
        · simp [get, hf, ho]
        · simpa [get, hk, hf, ho] using ih

theorem get_set (d : JsonObject) (key other : String) (value : Json) :
    (d.set key value).get other = if other = key then some value else d.get other := by
  unfold set
  split
  · rename_i hd
    obtain ⟨old, hold⟩ := Option.isSome_iff_exists.mp hd
    rw [get_map_set, hold]
    rfl
  · rename_i hd
    rw [get_append]
    by_cases ho : other = key
    · subst ho
      rw [Option.not_isSome_iff_eq_none.mp hd, if_pos rfl]
      simp [get]
    · have hnone : get [(key, value)] other = none := by
        simp [get, Ne.symm ho]
      rw [hnone, Option.or_none, if_neg ho]

end JsonObject

namespace Json

mutual

def same : Json → Json → Bool
  | .null, .null => true
  | .bool a, .bool b => a = b
  | .int a, .int b => a = b
  | .float a, .float b => a = b
  | .str a, .str b => a = b
  | .arr xs, .arr ys => sameItems xs ys
  | .obj xs, .obj ys => sameFields xs ys
  | _, _ => false

def sameItems : List Json → List Json → Bool
  | [], [] => true
  | x :: xs, y :: ys => same x y && sameItems xs ys
  | _, _ => false

def sameFields : List (String × Json) → List (String × Json) → Bool
  | [], [] => true
  | (k, x) :: xs, (l, y) :: ys => k = l && same x y && sameFields xs ys
  | _, _ => false

end

mutual

theorem same_iff : ∀ a b : Json, same a b = true ↔ a = b
  | .arr xs, b => by cases b <;> simp [same, sameItems_iff xs]
  | .obj xs, b => by cases b <;> simp [same, sameFields_iff xs]
  | .null, b => by cases b <;> simp [same]
  | .bool a, b => by cases b <;> simp [same]
  | .int a, b => by cases b <;> simp [same]
  | .float a, b => by cases b <;> simp [same]
  | .str a, b => by cases b <;> simp [same]

theorem sameItems_iff : ∀ xs ys : List Json, sameItems xs ys = true ↔ xs = ys
  | [], ys => by cases ys <;> simp [sameItems]
  | x :: xs, ys => by cases ys <;> simp [sameItems, same_iff x, sameItems_iff xs]

theorem sameFields_iff : ∀ xs ys : List (String × Json), sameFields xs ys = true ↔ xs = ys
  | [], ys => by cases ys <;> simp [sameFields]
  | (k, x) :: xs, ys => by
    rcases ys with _ | ⟨⟨l, y⟩, ys⟩
    · simp [sameFields]
    · simp [sameFields, same_iff x, sameFields_iff xs, and_assoc]

end

instance : DecidableEq Json := fun a b => decidable_of_iff _ (same_iff a b)

def truthy : Json → Bool
  | .null => false
  | .bool value => value
  | .int value => value ≠ 0
  | .float (.finite significand _) => significand ≠ 0
  | .float _ => true
  | .str value => !value.isEmpty
  | .arr items => !items.isEmpty
  | .obj fields => !fields.isEmpty

/-- `type(value).__name__`. -/
def typeName : Json → String
  | .null => "NoneType"
  | .bool _ => "bool"
  | .int _ => "int"
  | .float _ => "float"
  | .str _ => "str"
  | .arr _ => "list"
  | .obj _ => "dict"

end Json

def decimalZeros : List Nat :=
  [0x30, 0x660, 0x6f0, 0x7c0, 0x966, 0x9e6, 0xa66, 0xae6, 0xb66, 0xbe6, 0xc66, 0xce6, 0xd66,
    0xde6, 0xe50, 0xed0, 0xf20, 0x1040, 0x1090, 0x17e0, 0x1810, 0x1946, 0x19d0, 0x1a80, 0x1a90,
    0x1b50, 0x1bb0, 0x1c40, 0x1c50, 0xa620, 0xa8d0, 0xa900, 0xa9d0, 0xa9f0, 0xaa50, 0xabf0,
    0xff10, 0x104a0, 0x10d30, 0x11066, 0x110f0, 0x11136, 0x111d0, 0x112f0, 0x11450, 0x114d0,
    0x11650, 0x116c0, 0x11730, 0x118e0, 0x11950, 0x11c50, 0x11d50, 0x11da0, 0x11f50, 0x16a60,
    0x16ac0, 0x16b50, 0x1d7ce, 0x1d7d8, 0x1d7e2, 0x1d7ec, 0x1d7f6, 0x1e140, 0x1e2f0, 0x1e4f0,
    0x1e950, 0x1fbf0]

/-- `unicodedata.decimal`. -/
def decimalDigit (c : Char) : Option Nat :=
  (decimalZeros.find? fun first => first ≤ c.toNat && c.toNat < first + 10).map (c.toNat - ·)

def literalDigits : List Char → Option (List Nat)
  | [] => none
  | [c] => (decimalDigit c).map ([·])
  | c :: '_' :: rest => do return (← decimalDigit c) :: (← literalDigits rest)
  | c :: rest => do return (← decimalDigit c) :: (← literalDigits rest)

/-- `sys.get_int_max_str_digits()`. -/
def intMaxStrDigits : Nat := 4300

/-- `int(text)` in base ten. The error quotes the text as it stands, Python its `repr`. -/
def parseInt (text : String) : Except PyErr Int :=
  let literal := (stripBy (fun c => isSpace c && !(28 ≤ c.toNat && c.toNat ≤ 31)) text).toList
  let (negative, digits) : Bool × List Char :=
    match literal with
    | '-' :: digits => (true, digits)
    | '+' :: digits => (false, digits)
    | digits => (false, digits)
  match literalDigits digits with
  | none => .error (valueError ("invalid literal for int() with base 10: '" ++ text ++ "'"))
  | some digits =>
    if intMaxStrDigits < digits.length then
      .error (valueError ("Exceeds the limit (4300 digits) for integer string conversion: " ++
        "value has " ++ toString digits.length ++
        " digits; use sys.set_int_max_str_digits() to increase the limit"))
    else
      let value : Nat := digits.foldl (fun n digit => 10 * n + digit) 0
      .ok (if negative then -value else value)

/-- `int(value)`. -/
def Json.toInt : Json → Except PyErr Int
  | .bool value => .ok (if value then 1 else 0)
  | .int value => .ok value
  | .float (.finite significand exponent) =>
    .ok (if 0 ≤ exponent then significand * 2 ^ exponent.toNat
      else significand.tdiv (2 ^ (-exponent).toNat))
  | .float (.infinite _) =>
    .error ⟨.overflowError, "cannot convert float infinity to integer", 0⟩
  | .float .nan => .error (valueError "cannot convert float NaN to integer")
  | .str text => parseInt text
  | value => .error ⟨.typeError, "int() argument must be a string, a bytes-like object or a " ++
      "real number, not '" ++ value.typeName ++ "'", 0⟩

example : (Json.str " -1_000 ").toInt = .ok (-1000) := by decide +kernel

end PluginRegistry
