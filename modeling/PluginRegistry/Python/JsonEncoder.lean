import PluginRegistry.Python.JsonDecoder

namespace PluginRegistry

/-- What `json.dumps` takes from the rest of Python, and the blanks it puts after
its separators. -/
structure JsonWriter where
  /-- `float.__repr__`. -/
  floatRepr : PyFloat → String
  gap : List Char
  blank : ∀ c ∈ gap, isJsonSpace c = true

def hexDigitChar (n : Nat) : Char :=
  Char.ofNat (if n < 10 then '0'.toNat + n else 'a'.toNat + (n - 10))

/-- `\uXXXX`. -/
def unicodeEscape (point : Nat) : List Char :=
  ['\\', 'u', hexDigitChar (point / 4096), hexDigitChar (point / 256 % 16),
    hexDigitChar (point / 16 % 16), hexDigitChar (point % 16)]

/-- One character of `py_encode_basestring_ascii`. -/
def escapeChar : Char → List Char
  | '"' => ['\\', '"']
  | '\\' => ['\\', '\\']
  | '\x08' => ['\\', 'b']
  | '\x0c' => ['\\', 'f']
  | '\n' => ['\\', 'n']
  | '\r' => ['\\', 'r']
  | '\t' => ['\\', 't']
  | c =>
    if 32 ≤ c.toNat ∧ c.toNat ≤ 126 then [c]
    else if c.toNat < 0x10000 then unicodeEscape c.toNat
    else
      unicodeEscape (0xd800 + (c.toNat - 0x10000) / 1024) ++
        unicodeEscape (0xdc00 + (c.toNat - 0x10000) % 1024)

def escapeText (text : String) : List Char :=
  text.toList.flatMap escapeChar

namespace JsonWriter

variable (writer : JsonWriter)

def quote (text : String) : List Char :=
  '"' :: escapeText text ++ ['"']

def floatText : PyFloat → String
  | .nan => "NaN"
  | .infinite false => "Infinity"
  | .infinite true => "-Infinity"
  | value => writer.floatRepr value

mutual

def write : Json → List Char
  | .null => "null".toList
  | .bool value => (if value then "true" else "false").toList
  | .int value => (toString value).toList
  | .float value => (writer.floatText value).toList
  | .str text => quote text
  | .arr [] => ['[', ']']
  | .arr (item :: items) => '[' :: (write item ++ (writeItems items ++ [']']))
  | .obj [] => ['\x7b', '\x7d']
  | .obj ((key, value) :: fields) =>
    '\x7b' :: (quote key ++ ':' :: (writer.gap ++ (write value ++ (writeFields fields ++ ['\x7d']))))

def writeItems : List Json → List Char
  | [] => []
  | item :: items => ',' :: (writer.gap ++ (write item ++ writeItems items))

def writeFields : List (String × Json) → List Char
  | [] => []
  | (key, value) :: fields =>
    ',' :: (writer.gap ++ (quote key ++ ':' :: (writer.gap ++ (write value ++ writeFields fields))))

end

/-- `json.dumps(value)`, within the limit on the digits of an integer. -/
def dumps (value : Json) : String :=
  String.ofList (writer.write value)

end JsonWriter

def compactWriter : JsonWriter where
  floatRepr := fun _ => "0.0"
  gap := []
  blank := by simp

example : compactWriter.dumps (.obj [("a", .arr [.int (-2), .str "\u00e9\"\n"]), ("b", .null)]) =
    "\x7b\"a\":[-2,\"\\u00e9\\\"\\n\"],\"b\":null\x7d" := by
  decide +kernel

end PluginRegistry
