import PluginRegistry.Services.RegistrationService

namespace PluginRegistry

/-- The loop over the masks of a byte that is not zero: the count that the function
returns, or else the count that it goes on with. -/
def countMasks {M : Type} (clear : M → Bool) : List M → Nat → Except Nat Nat
  | [], bits => .ok bits
  | mask :: masks, bits => if clear mask then countMasks clear masks (bits + 1) else .error bits

def countBytes {M : Type} (clear : UInt8 → M → Bool) (masks : List M) : List UInt8 → Nat → Nat
  | [], bits => bits
  | byte :: rest, bits =>
    if byte = 0 then countBytes clear masks rest (bits + 8)
    else
      match countMasks (clear byte) masks bits with
      | .error bits => bits
      | .ok bits => countBytes clear masks rest bits

namespace Acprctl

/-- The values of `mask := byte(0x80)` while it is not zero. -/
def byteMasks : List UInt8 := List.iterate (· >>> 1) 0x80 8

def leadingZeroBits (data : List UInt8) : Nat :=
  countBytes (fun b mask => b &&& mask = 0) byteMasks data 0

def registerPOWValid (challengeID salt nonce : String) (difficulty : Int) : Bool :=
  difficulty ≤ leadingZeroBits (sha256 (utf8 (challengeID ++ ":" ++ salt ++ ":" ++ nonce)))

end Acprctl

namespace Dashboard

/-- The values of `mask = 0x80` while it is positive. -/
def numberMasks : List Nat := List.iterate (· >>> 1) 0x80 8

def leadingZeroBits (data : List UInt8) : Nat :=
  countBytes (fun byte mask => byte.toNat &&& mask = 0) numberMasks data 0

/-- The loop of `solveRegistrationPow` for as many turns as the time allows; `digest` is
WebCrypto's hash or the fallback. -/
def solveFrom (digest : List UInt8 → List UInt8) (challengeId salt : String) (difficulty : Int) :
    Nat → Nat → Option String
  | 0, _ => none
  | turns + 1, attempts =>
    let nonce := toString attempts
    if difficulty ≤ leadingZeroBits (digest (utf8 (challengeId ++ ":" ++ salt ++ ":" ++ nonce))) then
      some nonce
    else solveFrom digest challengeId salt difficulty turns (attempts + 1)

def solveRegistrationPow (digest : List UInt8 → List UInt8) (challengeId salt : String)
    (difficulty : Int) (turns : Nat) : Option String :=
  solveFrom digest challengeId salt difficulty turns 0

end Dashboard

end PluginRegistry
