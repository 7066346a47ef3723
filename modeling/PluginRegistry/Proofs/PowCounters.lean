import PluginRegistry.Clients.Pow
import PluginRegistry.Proofs.RepoUrls

namespace PluginRegistry

def byteBits (byte : UInt8) : List Bool :=
  (List.range 8).map fun i => byte.toNat.testBit (7 - i)

def bitString (data : List UInt8) : List Bool :=
  data.flatMap byteBits

def zerosInFront (data : List UInt8) : Nat :=
  ((bitString data).takeWhile fun bit => !bit).length

/-- A property of every byte, checked value by value. -/
theorem forall_byte {q : UInt8 → Bool}
    (h : ((List.range 256).all fun n => q (UInt8.ofNat n)) = true) (byte : UInt8) :
    q byte = true := by
  have hbyte := List.all_eq_true.mp h byte.toNat (List.mem_range.mpr byte.toNat_lt)
  rwa [UInt8.ofNat_toNat] at hbyte

theorem byteBits_zero : byteBits 0 = List.replicate 8 false := by
  decide

/-- The zeros in front of the first set bit of a byte. -/
theorem byteBits_zeros {byte : UInt8} (h : byte ≠ 0) :
    ((byteBits byte).takeWhile fun bit => !bit).length = 8 - (Nat.log2 byte.toNat + 1) ∧
      ((byteBits byte).takeWhile fun bit => !bit).length < 8 := by
  have hall := forall_byte (q := fun byte => byte == 0 ||
    (((byteBits byte).takeWhile fun bit => !bit).length == 8 - (Nat.log2 byte.toNat + 1) &&
      decide (((byteBits byte).takeWhile fun bit => !bit).length < 8))) (by decide +kernel) byte
  simpa [h] using hall

theorem zerosInFront_cons (byte : UInt8) (rest : List UInt8) :
    zerosInFront (byte :: rest) =
      if byte = 0 then 8 + zerosInFront rest
      else ((byteBits byte).takeWhile fun bit => !bit).length := by
  unfold zerosInFront bitString
  rw [List.flatMap_cons, List.takeWhile_append]
  by_cases h : byte = 0
  · subst h
    rw [if_pos rfl, byteBits_zero, if_pos (by decide), List.length_append]
    rfl
  · have hlength : (byteBits byte).length = 8 := rfl
    have hzeros := (byteBits_zeros h).2
    rw [if_neg h, hlength, if_neg (by omega)]

theorem zerosInFront_zeros {data : List UInt8} (h : ∀ byte ∈ data, byte = 0) :
    zerosInFront data = 8 * data.length := by
  induction data with
  | nil => rfl
  | cons byte rest ih =>
    rw [zerosInFront_cons, if_pos (h byte List.mem_cons_self),
      ih fun other hother => h other (List.mem_cons_of_mem _ hother), List.length_cons]
    omega

theorem leadingZeroBits_eq (data : List UInt8) : leadingZeroBits data = zerosInFront data := by
  induction data with
  | nil => rfl
  | cons byte rest ih =>
    rw [leadingZeroBits, zerosInFront_cons, ih]
    split
    · rfl
    · rename_i h
      exact (byteBits_zeros h).1.symm

/-- Masks that meet the bits of a byte from the front. -/
theorem countMasks_eq {M : Type} {clear : M → Bool} {masks : List M} {bits : List Bool}
    (hmasks : masks.map clear = bits.map fun bit => !bit) (n : Nat) :
    countMasks clear masks n =
      if (bits.takeWhile fun bit => !bit).length < bits.length then
        .error (n + (bits.takeWhile fun bit => !bit).length)
      else .ok (n + bits.length) := by
  induction masks generalizing bits n with
  | nil =>
    obtain rfl : bits = [] := by simpa using hmasks
    rfl
  | cons mask masks ih =>
    cases bits with
    | nil => cases hmasks
    | cons bit bits =>
      obtain ⟨hclear, hrest⟩ := List.cons.inj hmasks
      rw [countMasks, hclear, ih hrest]
      cases bit with
      | true => simp
      | false =>
        simp only [Bool.not_false, if_true, List.takeWhile_cons, List.length_cons,
          Nat.add_lt_add_iff_right]
        split
        · congr 1
          omega
        · congr 1
          omega

theorem countBytes_eq {M : Type} {clear : UInt8 → M → Bool} {masks : List M}
    (hmasks : ∀ byte, masks.map (clear byte) = (byteBits byte).map fun bit => !bit)
    (data : List UInt8) (n : Nat) : countBytes clear masks data n = n + zerosInFront data := by
  induction data generalizing n with
  | nil => rfl
  | cons byte rest ih =>
    rw [countBytes, zerosInFront_cons]
    by_cases h : byte = 0
    · rw [if_pos h, if_pos h, ih]
      omega
    · have hlength : (byteBits byte).length = 8 := rfl
      rw [if_neg h, if_neg h, countMasks_eq (hmasks byte), hlength, if_pos (byteBits_zeros h).2]

theorem byteMasks_bits (byte : UInt8) :
    Acprctl.byteMasks.map (fun mask => decide (byte &&& mask = 0)) =
      (byteBits byte).map fun bit => !bit := by
  have hall := forall_byte (q := fun byte =>
    Acprctl.byteMasks.map (fun mask => decide (byte &&& mask = 0)) ==
      (byteBits byte).map fun bit => !bit) (by decide +kernel) byte
  exact beq_iff_eq.mp hall

theorem numberMasks_bits (byte : UInt8) :
    Dashboard.numberMasks.map (fun mask => decide (byte.toNat &&& mask = 0)) =
      (byteBits byte).map fun bit => !bit := by
  have hall := forall_byte (q := fun byte =>
    Dashboard.numberMasks.map (fun mask => decide (byte.toNat &&& mask = 0)) ==
      (byteBits byte).map fun bit => !bit) (by decide +kernel) byte
  exact beq_iff_eq.mp hall

theorem acprctl_leadingZeroBits_eq (data : List UInt8) :
    Acprctl.leadingZeroBits data = zerosInFront data := by
  unfold Acprctl.leadingZeroBits
  rw [countBytes_eq byteMasks_bits, Nat.zero_add]

theorem dashboard_leadingZeroBits_eq (data : List UInt8) :
    Dashboard.leadingZeroBits data = zerosInFront data := by
  unfold Dashboard.leadingZeroBits
  rw [countBytes_eq numberMasks_bits, Nat.zero_add]

theorem registerPOWValid_eq (challengeId salt nonce : String) (difficulty : Int) :
    Acprctl.registerPOWValid challengeId salt nonce difficulty =
      verifyPow challengeId salt nonce difficulty := by
  unfold Acprctl.registerPOWValid verifyPow
  rw [acprctl_leadingZeroBits_eq, leadingZeroBits_eq]

/-- What the dashboard's loop returns has enough zeros. -/
theorem solveFrom_some {digest : List UInt8 → List UInt8} {challengeId salt nonce : String}
    {difficulty : Int} {turns attempts : Nat}
    (h : Dashboard.solveFrom digest challengeId salt difficulty turns attempts = some nonce) :
    difficulty ≤ zerosInFront (digest (utf8 (challengeId ++ ":" ++ salt ++ ":" ++ nonce))) := by
  induction turns generalizing attempts with
  | zero => cases h
  | succ turns ih =>
    rw [Dashboard.solveFrom, dashboard_leadingZeroBits_eq] at h
    split at h
    · cases h
      assumption
    · exact ih h

/-- The three counters count the zero bits in front, all of them in an empty digest, and
the server accepts what a client accepts for the same digest. -/
theorem zero_bit_counters_agree (data : List UInt8) :
    leadingZeroBits data = zerosInFront data ∧
      Acprctl.leadingZeroBits data = zerosInFront data ∧
      Dashboard.leadingZeroBits data = zerosInFront data ∧
      ((∀ byte ∈ data, byte = 0) → zerosInFront data = 8 * data.length) ∧
      (∀ challengeId salt nonce difficulty,
        Acprctl.registerPOWValid challengeId salt nonce difficulty = true →
          verifyPow challengeId salt nonce difficulty = true) ∧
      ∀ digest challengeId salt difficulty turns nonce,
        Dashboard.solveRegistrationPow digest challengeId salt difficulty turns = some nonce →
        digest (utf8 (challengeId ++ ":" ++ salt ++ ":" ++ nonce)) =
          sha256 (utf8 (challengeId ++ ":" ++ salt ++ ":" ++ nonce)) →
        verifyPow challengeId salt nonce difficulty = true := by
  refine ⟨leadingZeroBits_eq data, acprctl_leadingZeroBits_eq data,
    dashboard_leadingZeroBits_eq data, zerosInFront_zeros, ?_, ?_⟩
  · intro challengeId salt nonce difficulty h
    rwa [registerPOWValid_eq] at h
  · intro digest challengeId salt difficulty turns nonce h hdigest
    have hzeros := solveFrom_some h
    rw [hdigest] at hzeros
    unfold verifyPow
    rw [leadingZeroBits_eq]
    exact decide_eq_true hzeros

theorem zero_bit_counters_agree_bytes :
    leadingZeroBits [0, 0x1f] = zerosInFront [0, 0x1f] ∧ zerosInFront [0, 0] = 16 :=
  ⟨(zero_bit_counters_agree [0, 0x1f]).1, (zero_bit_counters_agree [0, 0]).2.2.2.1 (by simp)⟩

end PluginRegistry
