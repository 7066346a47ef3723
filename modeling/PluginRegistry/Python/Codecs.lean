namespace PluginRegistry

def replacementChar : Char := Char.ofNat 0xfffd

def isContinuation (b : UInt8) : Bool :=
  0x80 ≤ b && b < 0xc0

/-- A byte that may follow a first byte of a long sequence: no overlong forms,
no surrogates, nothing beyond the last code point. -/
def isSecond (first b : UInt8) : Bool :=
  isContinuation b && (first != 0xe0 || 0xa0 ≤ b) && (first != 0xed || b < 0xa0) &&
    (first != 0xf0 || 0x90 ≤ b) && (first != 0xf4 || b < 0x90)

/-- The character at the front, and how many bytes after the first it takes.
The longest prefix of a sequence that goes wrong, or that the end cuts off, is
replaced by one character. -/
def frontChar (first : UInt8) (rest : List UInt8) : Char × Nat :=
  let a := first.toNat
  if first < 0x80 then (Char.ofNat a, 0)
  else if first < 0xc2 || 0xf5 ≤ first then (replacementChar, 0)
  else match rest with
    | [] => (replacementChar, 0)
    | b :: rest =>
      if !isSecond first b then (replacementChar, 0)
      else if first < 0xe0 then (Char.ofNat (a % 32 * 64 + b.toNat % 64), 1)
      else match rest with
        | [] => (replacementChar, 1)
        | c :: rest =>
          if !isContinuation c then (replacementChar, 1)
          else if first < 0xf0 then
            (Char.ofNat ((a % 16 * 64 + b.toNat % 64) * 64 + c.toNat % 64), 2)
          else match rest with
            | [] => (replacementChar, 2)
            | d :: _ =>
              if !isContinuation d then (replacementChar, 2)
              else (Char.ofNat (((a % 8 * 64 + b.toNat % 64) * 64 + c.toNat % 64) * 64 +
                d.toNat % 64), 3)

def decodeAfter : Nat → List UInt8 → List Char
  | _, [] => []
  | taken + 1, _ :: rest => decodeAfter taken rest
  | 0, first :: rest =>
    let (c, more) := frontChar first rest
    c :: decodeAfter more rest

/-- `raw.decode("utf-8", errors="replace")`. -/
def decodeReplace (raw : List UInt8) : String :=
  String.ofList (decodeAfter 0 raw)

example : decodeAfter 0 [0x41, 0xc3, 0xa9, 0xff, 0xe2, 0x82, 0x42] =
    ['A', 'é', replacementChar, replacementChar, 'B'] := by decide

end PluginRegistry
