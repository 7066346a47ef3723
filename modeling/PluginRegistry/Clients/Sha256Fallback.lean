import Mathlib.Logic.Function.Basic
import PluginRegistry.Clients.Pow

namespace PluginRegistry.Dashboard

def toInt32 (value : Int) : BitVec 32 := BitVec.ofInt 32 value

/-- `x | y`. -/
def bitOr (x y : Int) : Int := (toInt32 x ||| toInt32 y).toInt

/-- `x & y`. -/
def bitAnd (x y : Int) : Int := (toInt32 x &&& toInt32 y).toInt

/-- `x ^ y`. -/
def bitXor (x y : Int) : Int := (toInt32 x ^^^ toInt32 y).toInt

/-- `~x`. -/
def bitNot (x : Int) : Int := (~~~toInt32 x).toInt

/-- `x << bits`. -/
def shiftLeft (x : Int) (bits : Nat) : Int := (toInt32 x <<< (bits % 32)).toInt

/-- `x >> bits`. -/
def shiftRight (x : Int) (bits : Nat) : Int := ((toInt32 x).sshiftRight (bits % 32)).toInt

/-- `x >>> bits`. -/
def shiftRightZero (x : Int) (bits : Nat) : Int := (toInt32 x >>> (bits % 32)).toNat

structure NumberArray where
  get : Int → Option Int
  length : Nat

namespace NumberArray

def empty : NumberArray := ⟨fun _ => none, 0⟩

/-- `words[i] ?? 0`. -/
def read (words : NumberArray) (i : Int) : Int :=
  (words.get i).getD 0

/-- `words[i] = value`. -/
def set (words : NumberArray) (i value : Int) : NumberArray :=
  ⟨Function.update words.get i (some value),
    if 0 ≤ i then max words.length (i.toNat + 1) else words.length⟩

/-- `words[i] = (words[i] ?? 0) | value`. -/
def orInto (words : NumberArray) (i value : Int) : NumberArray :=
  words.set i (bitOr (words.read i) value)

end NumberArray

def rightRotate (value : Int) (bits : Nat) : Int :=
  bitOr (shiftRightZero value bits) (shiftLeft value (32 - bits))

def add32 (values : List Int) : Int :=
  values.foldl (fun result value => bitOr (result + value) 0) 0

def sha256K : List Int :=
  [0x428a2f98, 0x71374491, 0xb5c0fbcf, 0xe9b5dba5, 0x3956c25b, 0x59f111f1, 0x923f82a4, 0xab1c5ed5,
    0xd807aa98, 0x12835b01, 0x243185be, 0x550c7dc3, 0x72be5d74, 0x80deb1fe, 0x9bdc06a7, 0xc19bf174,
    0xe49b69c1, 0xefbe4786, 0x0fc19dc6, 0x240ca1cc, 0x2de92c6f, 0x4a7484aa, 0x5cb0a9dc, 0x76f988da,
    0x983e5152, 0xa831c66d, 0xb00327c8, 0xbf597fc7, 0xc6e00bf3, 0xd5a79147, 0x06ca6351, 0x14292967,
    0x27b70a85, 0x2e1b2138, 0x4d2c6dfc, 0x53380d13, 0x650a7354, 0x766a0abb, 0x81c2c92e, 0x92722c85,
    0xa2bfe8a1, 0xa81a664b, 0xc24b8b70, 0xc76c51a3, 0xd192e819, 0xd6990624, 0xf40e3585, 0x106aa070,
    0x19a4c116, 0x1e376c08, 0x2748774c, 0x34b0bcb5, 0x391c0cb3, 0x4ed8aa4a, 0x5b9cca4f, 0x682e6ff3,
    0x748f82ee, 0x78a5636f, 0x84c87814, 0x8cc70208, 0x90befffa, 0xa4506ceb, 0xbef9a3f7, 0xc67178f2]

structure Registers where
  a : Int
  b : Int
  c : Int
  d : Int
  e : Int
  f : Int
  g : Int
  h : Int

def initialHash : Registers :=
  ⟨0x6a09e667, 0xbb67ae85, 0x3c6ef372, 0xa54ff53a, 0x510e527f, 0x9b05688c, 0x1f83d9ab, 0x5be0cd19⟩

/-- The loop over the bytes of the message, from byte `i` on. -/
def fillWords : List UInt8 → Nat → NumberArray → NumberArray
  | [], _, words => words
  | byte :: rest, i, words =>
    fillWords rest (i + 1)
      (words.orInto (shiftRight i 2) (shiftLeft byte.toNat (24 - i % 4 * 8)))

def messageWords (message : List UInt8) : NumberArray :=
  let bitLength := message.length * 8
  let words := fillWords message 0 .empty
  let words := words.orInto (shiftRight bitLength 5) (shiftLeft 0x80 (24 - bitLength % 32))
  words.set (shiftLeft (shiftRight (bitLength + 64) 9) 4 + 15) bitLength

/-- What is stored in `w[j]`. -/
def scheduleWord (words : NumberArray) (i : Nat) (w : Nat → Int) (j : Nat) : Int :=
  if j < 16 then words.read (i + j)
  else
    let s0 := bitXor (bitXor (rightRotate (w (j - 15)) 7) (rightRotate (w (j - 15)) 18))
      (shiftRightZero (w (j - 15)) 3)
    let s1 := bitXor (bitXor (rightRotate (w (j - 2)) 17) (rightRotate (w (j - 2)) 19))
      (shiftRightZero (w (j - 2)) 10)
    add32 [w (j - 16), s0, w (j - 7), s1]

def mixRegisters (k w : Int) (s : Registers) : Registers :=
  let s1 := bitXor (bitXor (rightRotate s.e 6) (rightRotate s.e 11)) (rightRotate s.e 25)
  let ch := bitXor (bitAnd s.e s.f) (bitAnd (bitNot s.e) s.g)
  let temp1 := add32 [s.h, s1, ch, k, w]
  let s0 := bitXor (bitXor (rightRotate s.a 2) (rightRotate s.a 13)) (rightRotate s.a 22)
  let maj := bitXor (bitXor (bitAnd s.a s.b) (bitAnd s.a s.c)) (bitAnd s.b s.c)
  let temp2 := add32 [s0, maj]
  ⟨add32 [temp1, temp2], s.a, s.b, s.c, add32 [s.d, temp1], s.e, s.f, s.g⟩

def innerTurn (words : NumberArray) (i : Nat) (state : (Nat → Int) × Registers) (j : Nat) :
    (Nat → Int) × Registers :=
  let w := Function.update state.1 j (scheduleWord words i state.1 j)
  (w, mixRegisters (sha256K.getD j 0) (w j) state.2)

/-- A turn of the outer loop: `w`, and `h0` to `h7`. -/
def outerTurn (words : NumberArray) (state : (Nat → Int) × Registers) (i : Nat) :
    (Nat → Int) × Registers :=
  let mixed := (List.range 64).foldl (innerTurn words i) state
  let h := state.2
  let s := mixed.2
  (mixed.1, ⟨add32 [h.a, s.a], add32 [h.b, s.b], add32 [h.c, s.c], add32 [h.d, s.d],
    add32 [h.e, s.e], add32 [h.f, s.f], add32 [h.g, s.g], add32 [h.h, s.h]⟩)

/-- `output[index] = value`. -/
def toUint8 (value : Int) : UInt8 := UInt8.ofNat (value % 256).toNat

def sha256Fallback (message : List UInt8) : List UInt8 :=
  let words := messageWords message
  let turns := (List.range ((words.length + 15) / 16)).map (16 * ·)
  let s := (turns.foldl (outerTurn words) (fun _ => 0, initialHash)).2
  [s.a, s.b, s.c, s.d, s.e, s.f, s.g, s.h].flatMap fun word =>
    [toUint8 (bitAnd (shiftRightZero word 24) 0xff), toUint8 (bitAnd (shiftRightZero word 16) 0xff),
      toUint8 (bitAnd (shiftRightZero word 8) 0xff), toUint8 (bitAnd word 0xff)]

end PluginRegistry.Dashboard
