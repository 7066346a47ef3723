import PluginRegistry.Python.Json

namespace PluginRegistry

/-- What `json.loads` takes from the rest of Python. -/
structure JsonReader where
  /-- `float(literal)`. -/
  toFloat : String → PyFloat
  /-- What a text holds where an escape names half of a surrogate pair. -/
  surrogate : Nat → Char
  /-- The exception for a text that is not read. -/
  decodeError : String → PyErr

/-- Structural characters, string literals without their quotes, and what stands
unseparated between them. -/
inductive JsonToken
  | mark (c : Char)
  | text (raw : List Char)
  | word (chars : List Char)

def isJsonSpace (c : Char) : Bool :=
  c = ' ' || c = '\t' || c = '\n' || c = '\r'

def isJsonMark (c : Char) : Bool :=
  c = '\x7b' || c = '\x7d' || c = '[' || c = ']' || c = ',' || c = ':'

inductive JsonReading
  | between
  | word (chars : List Char)
  | text (raw : List Char)
  | escape (raw : List Char)

namespace JsonReading

def ended : JsonReading → List JsonToken
  | .word chars => [.word chars]
  | _ => []

def begun : JsonReading → List Char
  | .word chars => chars
  | _ => []

def next : JsonReading → Char → JsonReading × List JsonToken
  | .text raw, c =>
    if c = '"' then (.between, [.text raw])
    else if c = '\\' then (.escape (raw ++ [c]), [])
    else (.text (raw ++ [c]), [])
  | .escape raw, c => (.text (raw ++ [c]), [])
  | reading, c =>
    if isJsonSpace c then (.between, reading.ended)
    else if isJsonMark c then (.between, reading.ended ++ [.mark c])
    else if c = '"' then (.text [], reading.ended)
    else (.word (reading.begun ++ [c]), [])

def tokens : JsonReading → List Char → Option (List JsonToken)
  | .text _, [] | .escape _, [] => none
  | reading, [] => some reading.ended
  | reading, c :: rest => ((reading.next c).1.tokens rest).map ((reading.next c).2 ++ ·)

end JsonReading

def hexDigit? (c : Char) : Option Nat :=
  if '0' ≤ c ∧ c ≤ '9' then some (c.toNat - '0'.toNat)
  else if 'a' ≤ c ∧ c ≤ 'f' then some (c.toNat - 'a'.toNat + 10)
  else if 'A' ≤ c ∧ c ≤ 'F' then some (c.toNat - 'A'.toNat + 10)
  else none

/-- `\uXXXX`. -/
def fourHexDigits (a b c d : Char) : Option Nat := do
  return ((← hexDigit? a) * 16 + (← hexDigit? b)) * 256 + (← hexDigit? c) * 16 + (← hexDigit? d)

/-- `BACKSLASH`. -/
def escapedChar : Char → Option Char
  | '"' => some '"'
  | '\\' => some '\\'
  | '/' => some '/'
  | 'b' => some '\x08'
  | 'f' => some '\x0c'
  | 'n' => some '\n'
  | 'r' => some '\r'
  | 't' => some '\t'
  | _ => none

/-- The code points of a string literal, both halves of a surrogate pair among them. -/
def literalPoints : List Char → Option (List Nat)
  | [] => some []
  | '\\' :: 'u' :: a :: b :: c :: d :: rest => do
    return (← fourHexDigits a b c d) :: (← literalPoints rest)
  | '\\' :: c :: rest => do return (← escapedChar c).toNat :: (← literalPoints rest)
  | c :: rest =>
    if c.toNat < 32 || c = '\\' then none
    else do return c.toNat :: (← literalPoints rest)

def isHighSurrogate (point : Nat) : Bool := 0xd800 ≤ point && point < 0xdc00
def isLowSurrogate (point : Nat) : Bool := 0xdc00 ≤ point && point < 0xe000

/-- `\d+`. -/
def skipDigits : List Char → Option (List Char)
  | c :: rest => if c.isDigit then some (rest.dropWhile Char.isDigit) else none
  | [] => none

/-- `-?(?:0|[1-9]\d*)`. -/
def skipInteger : List Char → Option (List Char)
  | '-' :: '0' :: rest | '0' :: rest => some rest
  | '-' :: rest | rest => skipDigits rest

/-- `(\.\d+)?`. -/
def skipFraction : List Char → Option (List Char)
  | '.' :: rest => skipDigits rest
  | rest => some rest

/-- `([eE][-+]?\d+)?`. -/
def skipExponent : List Char → Option (List Char)
  | 'e' :: '-' :: rest | 'e' :: '+' :: rest | 'e' :: rest => skipDigits rest
  | 'E' :: '-' :: rest | 'E' :: '+' :: rest | 'E' :: rest => skipDigits rest
  | rest => some rest

def numberLiteral (chars : List Char) : Option Bool := do
  let afterInteger ← skipInteger chars
  let rest ← skipExponent (← skipFraction afterInteger)
  if rest = [] then some (afterInteger ≠ []) else none

def jsonConstants : JsonObject :=
  [("null", .null), ("true", .bool true), ("false", .bool false), ("NaN", .float .nan),
    ("Infinity", .float (.infinite false)), ("-Infinity", .float (.infinite true))]

namespace JsonReader

variable (reader : JsonReader)

def pointChar (point : Nat) : Char :=
  if isHighSurrogate point || isLowSurrogate point then reader.surrogate point
  else Char.ofNat point

def joinSurrogates : List Nat → List Char
  | high :: low :: rest =>
    if isHighSurrogate high && isLowSurrogate low then
      Char.ofNat (0x10000 + (high - 0xd800) * 0x400 + (low - 0xdc00)) :: joinSurrogates rest
    else reader.pointChar high :: joinSurrogates (low :: rest)
  | [point] => [reader.pointChar point]
  | [] => []

def textOf (raw : List Char) : Option String :=
  (literalPoints raw).map fun points => String.ofList (reader.joinSurrogates points)

def wordValue (chars : List Char) : Option Json :=
  match JsonObject.get jsonConstants (String.ofList chars) with
  | some value => some value
  | none =>
    match numberLiteral chars with
    | some true => some (.float (reader.toFloat (String.ofList chars)))
    | some false => (parseInt (String.ofList chars)).toOption.map .int
    | none => none

end JsonReader

/-- What a value is part of: the items before it, or the fields before it and its key. -/
inductive JsonFrame
  | item (items : List Json)
  | field (fields : JsonObject) (key : String)

inductive JsonState
  | value (outer : List JsonFrame)
  | firstItem (outer : List JsonFrame)
  | afterItem (items : List Json) (outer : List JsonFrame)
  | firstKey (outer : List JsonFrame)
  | nextKey (fields : JsonObject) (outer : List JsonFrame)
  | colon (fields : JsonObject) (key : String) (outer : List JsonFrame)
  | afterField (fields : JsonObject) (outer : List JsonFrame)
  | done (value : Json)

def JsonState.put (value : Json) : List JsonFrame → JsonState
  | [] => .done value
  | .item items :: outer => .afterItem (items ++ [value]) outer
  | .field fields key :: outer => .afterField (fields.set key value) outer

namespace JsonReader

variable (reader : JsonReader)

def startValue (outer : List JsonFrame) : JsonToken → Option JsonState
  | .mark '\x7b' => some (.firstKey outer)
  | .mark '[' => some (.firstItem outer)
  | .mark _ => none
  | .text raw => (reader.textOf raw).map fun text => .put (.str text) outer
  | .word chars => (reader.wordValue chars).map (JsonState.put · outer)

def step : JsonState → JsonToken → Option JsonState
  | .value outer, token => reader.startValue outer token
  | .firstItem outer, .mark ']' => some (.put (.arr []) outer)
  | .firstItem outer, token => reader.startValue (.item [] :: outer) token
  | .afterItem items outer, .mark ',' => some (.value (.item items :: outer))
  | .afterItem items outer, .mark ']' => some (.put (.arr items) outer)
  | .firstKey outer, .mark '\x7d' => some (.put (.obj []) outer)
  | .firstKey outer, .text raw => (reader.textOf raw).map (JsonState.colon [] · outer)
  | .nextKey fields outer, .text raw => (reader.textOf raw).map (JsonState.colon fields · outer)
  | .colon fields key outer, .mark ':' => some (.value (.field fields key :: outer))
  | .afterField fields outer, .mark ',' => some (.nextKey fields outer)
  | .afterField fields outer, .mark '\x7d' => some (.put (.obj fields) outer)
  | _, _ => none

def valueOf (tokens : List JsonToken) : Option Json :=
  match tokens.foldlM reader.step (.value []) with
  | some (.done value) => some value
  | _ => none

/-- `json.loads(text)`, up to the limit on nesting. -/
def loads (text : String) : Except PyErr Json :=
  match (JsonReading.between.tokens text.toList).bind reader.valueOf with
  | some value => .ok value
  | none => .error (reader.decodeError text)

end JsonReader

def plainReader : JsonReader where
  toFloat := fun _ => .nan
  surrogate := fun _ => '\ufffd'
  decodeError := fun _ => ⟨.jsonDecodeError, "Expecting value: line 1 column 1 (char 0)", 0⟩

example : plainReader.loads " \x7b\"a\": [1, \x7b\x7d, \"\\ud83d\\ude00\"], \"a\" : -2 \x7d" =
    .ok (.obj [("a", .int (-2))]) := by
  decide +kernel

end PluginRegistry
