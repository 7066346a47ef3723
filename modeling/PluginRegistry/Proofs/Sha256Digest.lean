import PluginRegistry.Proofs.Sha256Numbers

namespace PluginRegistry
open Dashboard

def byteAt (bytes : List UInt8) (k : Nat) : Nat :=
  (bytes.getD k 0).toNat

def wordAt (f : Nat → Nat) (m : Nat) : Nat :=
  f (4 * m) <<< 24 ||| f (4 * m + 1) <<< 16 ||| f (4 * m + 2) <<< 8 ||| f (4 * m + 3)

theorem wordAt_congr {f g : Nat → Nat} {m : Nat} (h : ∀ k, 4 * m ≤ k → k ≤ 4 * m + 3 → f k = g k) :
    wordAt f m = wordAt g m := by
  unfold wordAt
  rw [h (4 * m) (by omega) (by omega), h (4 * m + 1) (by omega) (by omega),
    h (4 * m + 2) (by omega) (by omega), h (4 * m + 3) (by omega) (by omega)]

theorem or_swap (a b c : Nat) : a ||| b ||| c = a ||| c ||| b := by
  rw [Nat.or_assoc, Nat.or_comm b c, Nat.or_assoc]

/-- Putting in a byte where none is yet. -/
theorem wordAt_update {f : Nat → Nat} {n : Nat} (hf : f n = 0) (byte m : Nat) :
    wordAt (Function.update f n byte) m =
      if m = n / 4 then wordAt f m ||| byte <<< (24 - n % 4 * 8) else wordAt f m := by
  by_cases hm : m = n / 4
  · have hcases : n = 4 * m ∨ n = 4 * m + 1 ∨ n = 4 * m + 2 ∨ n = 4 * m + 3 := by omega
    have hother : ∀ k, k ≠ n → Function.update f n byte k = f k :=
      fun k hk => Function.update_of_ne hk _ _
    rw [if_pos hm]
    unfold wordAt
    rcases hcases with h | h | h | h
    · have hshift : 24 - n % 4 * 8 = 24 := by omega
      rw [hshift, ← h, hf, Function.update_self, hother _ (by omega), hother _ (by omega),
        hother _ (by omega), Nat.zero_shiftLeft, Nat.zero_or, Nat.or_comm (byte <<< 24),
        or_swap _ (byte <<< 24), or_swap _ (byte <<< 24)]
    · have hshift : 24 - n % 4 * 8 = 16 := by omega
      rw [hshift, ← h, hf, Function.update_self, hother _ (by omega), hother _ (by omega),
        hother _ (by omega), Nat.zero_shiftLeft, Nat.or_zero, or_swap _ (byte <<< 16),
        or_swap _ (byte <<< 16)]
    · have hshift : 24 - n % 4 * 8 = 8 := by omega
      rw [hshift, ← h, hf, Function.update_self, hother _ (by omega), hother _ (by omega),
        hother _ (by omega), Nat.zero_shiftLeft, Nat.or_zero, or_swap _ (byte <<< 8)]
    · have hshift : 24 - n % 4 * 8 = 0 := by omega
      rw [hshift, ← h, hf, Function.update_self, hother _ (by omega), hother _ (by omega),
        hother _ (by omega), Nat.or_zero, Nat.shiftLeft_zero]
  · rw [if_neg hm]
    apply wordAt_congr
    intro k hlow hhigh
    exact Function.update_of_ne (by omega) _ _

theorem byteAt_lt (bytes : List UInt8) (k : Nat) : byteAt bytes k < 256 :=
  (bytes.getD k 0).toNat_lt

theorem byteAt_append_left {front back : List UInt8} {k : Nat} (h : k < front.length) :
    byteAt (front ++ back) k = byteAt front k := by
  unfold byteAt
  rw [List.getD_append _ _ _ _ h]

theorem byteAt_append_right {front back : List UInt8} {k : Nat} (h : front.length ≤ k) :
    byteAt (front ++ back) k = byteAt back (k - front.length) := by
  unfold byteAt
  rw [List.getD_append_right _ _ _ _ h]

theorem byteAt_outside {bytes : List UInt8} {k : Nat} (h : bytes.length ≤ k) :
    byteAt bytes k = 0 := by
  unfold byteAt
  rw [List.getD_eq_default _ _ h]
  rfl

theorem byteAt_concat (front : List UInt8) (byte : UInt8) :
    byteAt (front ++ [byte]) = Function.update (byteAt front) front.length byte.toNat := by
  funext k
  rcases Nat.lt_trichotomy k front.length with h | h | h
  · rw [byteAt_append_left h, Function.update_of_ne (by omega)]
  · rw [byteAt_append_right (by omega), h, Function.update_self, Nat.sub_self]
    rfl
  · rw [Function.update_of_ne (by omega), byteAt_outside (by simp; omega),
      byteAt_outside (by omega)]

def Holds (words : NumberArray) (f : Nat → Nat) : Prop :=
  ∀ m : Nat, wordOf (words.read m) = wordAt f m

theorem read_set (words : NumberArray) (i m : Nat) (value : Int) :
    (words.set i value).read m = if m = i then value else words.read m := by
  unfold NumberArray.set NumberArray.read
  dsimp only
  by_cases h : m = i
  · rw [if_pos h, h, Function.update_self, Option.getD_some]
  · rw [if_neg h, Function.update_of_ne (by omega)]

theorem Holds.orInto {words : NumberArray} {front : List UInt8} (h : Holds words (byteAt front))
    (byte : UInt8) :
    Holds (words.orInto (front.length / 4 : Nat)
      (shiftLeft byte.toNat (24 - front.length % 4 * 8))) (byteAt (front ++ [byte])) := by
  intro m
  have hbyte : (byte.toNat % 2 ^ 32) <<< (24 - front.length % 4 * 8) % 2 ^ 32 =
      byte.toNat <<< (24 - front.length % 4 * 8) := by
    have hlt := byte.toNat_lt
    have hpow : 2 ^ (24 - front.length % 4 * 8) ≤ 2 ^ 24 := Nat.pow_le_pow_right (by omega) (by omega)
    have hprod : byte.toNat * 2 ^ (24 - front.length % 4 * 8) < 2 ^ 8 * 2 ^ 24 :=
      Nat.mul_lt_mul_of_lt_of_le hlt hpow (by omega)
    rw [Nat.mod_eq_of_lt (by omega : byte.toNat < 2 ^ 32), Nat.shiftLeft_eq,
      Nat.mod_eq_of_lt (by omega)]
  unfold NumberArray.orInto
  rw [byteAt_concat, wordAt_update (byteAt_outside (le_refl _)), read_set]
  by_cases hm : m = front.length / 4
  · rw [if_pos hm, if_pos hm, wordOf_bitOr, wordOf_shiftLeft _ (by omega), wordOf_natCast, hbyte,
      ← hm, h m]
  · rw [if_neg hm, if_neg hm, h m]

theorem toInt_toInt32 {n : Nat} (h : n < 2 ^ 31) : (toInt32 n).toInt = n := by
  unfold toInt32
  have hnat : (BitVec.ofNat 32 n).toNat = n := by
    rw [BitVec.toNat_ofNat]
    omega
  rw [BitVec.ofInt_natCast, BitVec.toInt_eq_toNat_of_lt (by omega), hnat]

theorem shiftRight_natCast {n bits : Nat} (h : n < 2 ^ 31) (hbits : bits < 32) :
    shiftRight n bits = (n / 2 ^ bits : Nat) := by
  unfold shiftRight
  rw [BitVec.toInt_sshiftRight, toInt_toInt32 h, Nat.mod_eq_of_lt hbits, Int.shiftRight_eq_div_pow]
  norm_cast

theorem shiftLeft_natCast {n bits : Nat} (h : n * 2 ^ bits < 2 ^ 31) (hbits : bits < 32) :
    shiftLeft n bits = (n * 2 ^ bits : Nat) := by
  unfold shiftLeft toInt32
  have hle : n ≤ n * 2 ^ bits := Nat.le_mul_of_pos_right n (Nat.two_pow_pos bits)
  have hnat : (BitVec.ofNat 32 n <<< bits).toNat = n * 2 ^ bits := by
    rw [BitVec.toNat_shiftLeft, BitVec.toNat_ofNat, Nat.mod_eq_of_lt (by omega : n < 2 ^ 32),
      Nat.shiftLeft_eq, Nat.mod_eq_of_lt (by omega)]
  rw [BitVec.ofInt_natCast, Nat.mod_eq_of_lt hbits, BitVec.toInt_eq_toNat_of_lt (by omega), hnat]

theorem Holds.fillWords {words : NumberArray} {front : List UInt8}
    (h : Holds words (byteAt front)) (rest : List UInt8)
    (hlength : front.length + rest.length < 2 ^ 31) :
    Holds (fillWords rest front.length words) (byteAt (front ++ rest)) := by
  induction rest generalizing front words with
  | nil =>
    rw [List.append_nil]
    exact h
  | cons byte rest ih =>
    rw [List.length_cons] at hlength
    have hindex : shiftRight front.length 2 = (front.length / 4 : Nat) :=
      shiftRight_natCast (by omega) (by omega)
    have hnext := ih (h.orInto byte) (by simp; omega)
    rw [List.length_append, List.length_singleton, List.append_assoc, List.singleton_append] at hnext
    rw [Dashboard.fillWords, hindex]
    exact hnext

theorem fillWords_length (rest : List UInt8) {i : Nat} {words : NumberArray} {n : Nat}
    (hlength : i + rest.length < 2 ^ 31) (hn : (i + rest.length) / 4 < n)
    (hwords : words.length ≤ n) : (fillWords rest i words).length ≤ n := by
  induction rest generalizing i words with
  | nil => exact hwords
  | cons byte rest ih =>
    rw [List.length_cons] at hlength hn
    rw [Dashboard.fillWords, shiftRight_natCast (by omega) (by omega)]
    apply ih (by omega) (by omega)
    unfold NumberArray.orInto NumberArray.set
    dsimp only
    rw [if_pos (by omega)]
    omega

theorem natToBytes_length (width n : Nat) : (natToBytes width n).length = width := by
  induction width generalizing n with
  | zero => rfl
  | succ width ih => rw [natToBytes, List.length_append, ih, List.length_singleton]

theorem natToBytes_add (a b n : Nat) :
    natToBytes (a + b) n = natToBytes a (n / 256 ^ b) ++ natToBytes b n := by
  induction b generalizing n with
  | zero => simp [natToBytes]
  | succ b ih =>
    rw [← Nat.add_assoc, natToBytes, ih, natToBytes, List.append_assoc, Nat.div_div_eq_div_mul,
      Nat.pow_succ, Nat.mul_comm 256]

theorem shiftLeft_or_byte (x : Nat) {byte : Nat} (h : byte < 256) :
    x <<< 8 ||| byte = x * 256 + byte := by
  have hlt : byte < 2 ^ 8 := h
  rw [← Nat.shiftLeft_add_eq_or_of_lt hlt, Nat.shiftLeft_eq]

/-- A word as the number that its four bytes make. -/
theorem wordAt_eq {f : Nat → Nat} (hf : ∀ k, f k < 256) (m : Nat) :
    wordAt f m =
      ((f (4 * m) * 256 + f (4 * m + 1)) * 256 + f (4 * m + 2)) * 256 + f (4 * m + 3) := by
  rw [← shiftLeft_or_byte _ (hf (4 * m + 1)), ← shiftLeft_or_byte _ (hf (4 * m + 2)),
    ← shiftLeft_or_byte _ (hf (4 * m + 3)), Nat.shiftLeft_or_distrib, Nat.shiftLeft_or_distrib,
    Nat.shiftLeft_or_distrib, ← Nat.shiftLeft_add, ← Nat.shiftLeft_add, ← Nat.shiftLeft_add]
  rfl

theorem wordAt_shift {f g : Nat → Nat} {m : Nat} (h : ∀ r < 4, f (4 * m + r) = g r) :
    wordAt f m = wordAt g 0 := by
  unfold wordAt
  rw [← Nat.add_zero (4 * m), h 0 (by omega), h 1 (by omega), h 2 (by omega), h 3 (by omega)]

theorem wordAt_natToBytes {n : Nat} (h : n < 2 ^ 32) : wordAt (byteAt (natToBytes 4 n)) 0 = n := by
  have hbytes : natToBytes 4 n = [UInt8.ofNat (n / 256 / 256 / 256), UInt8.ofNat (n / 256 / 256),
      UInt8.ofNat (n / 256), UInt8.ofNat n] := rfl
  rw [wordAt_eq (byteAt_lt _), hbytes]
  simp only [byteAt, List.getD_cons_zero, List.getD_cons_succ, Nat.mul_zero, Nat.zero_add,
    UInt8.toNat_ofNat']
  omega

theorem wordAt_zero {f : Nat → Nat} {m : Nat} (h : ∀ r < 4, f (4 * m + r) = 0) :
    wordAt f m = 0 := by
  rw [wordAt_shift h]
  rfl

def blockCount (message : List UInt8) : Nat :=
  (message.length + 8) / 64 + 1

theorem shaPad_length (message : List UInt8) :
    (shaPad message).length = 64 * blockCount message := by
  unfold shaPad blockCount
  simp only [List.length_append, List.length_singleton, List.length_replicate, natToBytes_length]
  omega

/-- The bytes of the padded message in front of its length. -/
theorem byteAt_shaPad {message : List UInt8} {k : Nat} (h : k < 64 * blockCount message - 8) :
    byteAt (shaPad message) k = byteAt (message ++ [0x80]) k := by
  have hlength := shaPad_length message
  unfold shaPad at hlength ⊢
  rw [List.length_append, natToBytes_length] at hlength
  rw [byteAt_append_left (by omega)]
  by_cases hk : k < (message ++ [0x80]).length
  · exact byteAt_append_left hk
  · have houtside : byteAt (message ++ [0x80]) k = 0 := byteAt_outside (by omega)
    rw [byteAt_append_right (by omega), houtside]
    rw [byteAt, List.getD_eq_getElem?_getD, List.getElem?_replicate]
    split <;> rfl

/-- The bytes of the length. -/
theorem byteAt_shaPad_length (message : List UInt8) (r : Nat) :
    byteAt (shaPad message) (64 * blockCount message - 8 + r) =
      byteAt (natToBytes 8 (8 * message.length)) r := by
  have hlength := shaPad_length message
  unfold shaPad at hlength ⊢
  rw [List.length_append, natToBytes_length] at hlength
  rw [byteAt_append_right (by omega)]
  congr 1
  omega

theorem wordAt_shaPad {message : List UInt8} (hlength : 8 * message.length < 2 ^ 31) {m : Nat}
    (hm : m < 16 * blockCount message) :
    wordAt (byteAt (shaPad message)) m =
      if m = 16 * blockCount message - 1 then 8 * message.length
      else wordAt (byteAt (message ++ [0x80])) m := by
  have hcount : blockCount message = (message.length + 8) / 64 + 1 := rfl
  have hsplit : natToBytes 8 (8 * message.length) =
      natToBytes 4 0 ++ natToBytes 4 (8 * message.length) := by
    rw [natToBytes_add 4 4, Nat.div_eq_of_lt (by omega)]
  by_cases hlast : m = 16 * blockCount message - 1
  · have hbytes : ∀ r < 4, byteAt (shaPad message) (4 * m + r) =
        byteAt (natToBytes 4 (8 * message.length)) r := by
      intro r hr
      have hindex : 4 * m + r = 64 * blockCount message - 8 + (4 + r) := by omega
      rw [hindex, byteAt_shaPad_length, hsplit, byteAt_append_right (by simp [natToBytes_length]),
        natToBytes_length, Nat.add_sub_cancel_left]
    rw [if_pos hlast, wordAt_shift hbytes, wordAt_natToBytes (by omega)]
  rw [if_neg hlast]
  by_cases hhigh : m = 16 * blockCount message - 2
  · have hbytes : ∀ r < 4, byteAt (shaPad message) (4 * m + r) = 0 := by
      intro r hr
      have hindex : 4 * m + r = 64 * blockCount message - 8 + r := by omega
      have hzeros : natToBytes 4 0 = [0, 0, 0, 0] := rfl
      have hcases : r = 0 ∨ r = 1 ∨ r = 2 ∨ r = 3 := by omega
      rw [hindex, byteAt_shaPad_length, hsplit, byteAt_append_left (by simp [natToBytes_length, hr]),
        hzeros]
      rcases hcases with rfl | rfl | rfl | rfl <;> rfl
    have hmarked : ∀ r < 4, byteAt (message ++ [0x80]) (4 * m + r) = 0 :=
      fun r _ => byteAt_outside (by simp; omega)
    rw [wordAt_zero hbytes, wordAt_zero hmarked]
  · exact wordAt_congr fun k hlow hhigh => byteAt_shaPad (by omega)

theorem markerIndex {message : List UInt8} (h : 8 * (shaPad message).length < 2 ^ 31) :
    shiftRight (message.length * 8 : Nat) 5 = (message.length / 4 : Nat) := by
  have hpad := shaPad_length message
  have hcount : blockCount message = (message.length + 8) / 64 + 1 := rfl
  rw [shiftRight_natCast (by omega) (by omega)]
  congr 1
  omega

theorem lengthIndex {message : List UInt8} (h : 8 * (shaPad message).length < 2 ^ 31) :
    shiftLeft (shiftRight ((message.length * 8 : Nat) + 64) 9) 4 + 15 =
      (16 * blockCount message - 1 : Nat) := by
  have hpad := shaPad_length message
  have hcount : blockCount message = (message.length + 8) / 64 + 1 := rfl
  have hsum : ((message.length * 8 : Nat) : Int) + 64 = (message.length * 8 + 64 : Nat) := by
    push_cast
    rfl
  rw [hsum, shiftRight_natCast (by omega) (by omega), shiftLeft_natCast (by omega) (by omega)]
  omega

theorem messageWords_read {message : List UInt8} (h : 8 * (shaPad message).length < 2 ^ 31)
    {m : Nat} (hm : m < 16 * blockCount message) :
    wordOf ((messageWords message).read m) = wordAt (byteAt (shaPad message)) m := by
  have hpad := shaPad_length message
  have hcount : blockCount message = (message.length + 8) / 64 + 1 := rfl
  have hempty : Holds .empty (byteAt []) := by
    intro m
    rw [wordAt_zero fun r _ => byteAt_outside (Nat.zero_le _)]
    rfl
  have hfilled := (hempty.fillWords message (by simp; omega)).orInto 0x80
  have hbits : message.length * 8 % 32 = message.length % 4 * 8 := by omega
  rw [wordAt_shaPad (by omega) hm]
  unfold messageWords
  dsimp only
  rw [lengthIndex h, read_set, hbits, markerIndex h]
  by_cases hend : m = 16 * blockCount message - 1
  · rw [if_pos hend, if_pos hend, wordOf_natCast]
    omega
  · rw [if_neg hend, if_neg hend]
    exact hfilled m

theorem messageWords_length {message : List UInt8} (h : 8 * (shaPad message).length < 2 ^ 31) :
    (messageWords message).length = 16 * blockCount message := by
  have hpad := shaPad_length message
  have hcount : blockCount message = (message.length + 8) / 64 + 1 := rfl
  have hempty : NumberArray.empty.length ≤ 16 * blockCount message := Nat.zero_le _
  have hfilled := fillWords_length message (i := 0) (by omega) (by omega) hempty
  unfold messageWords
  dsimp only
  rw [lengthIndex h, markerIndex h]
  unfold NumberArray.orInto NumberArray.set
  dsimp only
  rw [if_pos (by omega), if_pos (by omega)]
  omega

theorem pieces_eq {α : Type} (size n : Nat) (xs : List α) :
    pieces size n xs = (List.range n).map fun i => (xs.drop (size * i)).take size := by
  induction n generalizing xs with
  | zero => rfl
  | succ n ih =>
    rw [pieces, ih, List.range_succ_eq_map, List.map_cons, List.map_map]
    simp [Function.comp_def, Nat.mul_add, Nat.add_comm]

theorem bytesToNat_take {bytes : List UInt8} {m : Nat} (h : 4 * m + 4 ≤ bytes.length) :
    bytesToNat ((bytes.drop (4 * m)).take 4) = wordAt (byteAt bytes) m := by
  have hbyte : ∀ k (hk : k < bytes.length), bytes[k].toNat = byteAt bytes k := by
    intro k hk
    rw [byteAt, List.getD_eq_getElem _ _ hk]
  rw [List.drop_eq_getElem_cons (by omega), List.drop_eq_getElem_cons (by omega),
    List.drop_eq_getElem_cons (by omega), List.drop_eq_getElem_cons (by omega),
    wordAt_eq (byteAt_lt bytes), List.take_succ_cons, List.take_succ_cons, List.take_succ_cons,
    List.take_succ_cons, List.take_zero]
  simp only [bytesToNat, List.foldl_cons, List.foldl_nil, hbyte, Nat.zero_mul, Nat.zero_add]

/-- The words of a block. -/
theorem block_words {bytes : List UInt8} {b j : Nat} (hj : j < 16)
    (h : 64 * b + 64 ≤ bytes.length) :
    ((pieces 4 16 ((bytes.drop (64 * b)).take 64)).map bytesToNat).getD j 0 =
      wordAt (byteAt bytes) (16 * b + j) := by
  have hblock : (((bytes.drop (64 * b)).take 64).drop (4 * j)).take 4 =
      (bytes.drop (4 * (16 * b + j))).take 4 := by
    rw [List.drop_take, List.take_take, List.drop_drop, Nat.min_eq_left (by omega)]
    congr 2
    omega
  rw [pieces_eq, List.map_map, List.getD_eq_getElem _ _ (by simpa using hj), List.getElem_map,
    List.getElem_range, Function.comp_apply, hblock, bytesToNat_take (by omega)]

/-- The outer loop after some of its turns. -/
theorem outerTurns {message : List UInt8} (h : 8 * (shaPad message).length < 2 ^ 31)
    (state : (Nat → Int) × Registers) {n : Nat} (hn : n ≤ blockCount message) :
    wordsOf ((((List.range n).map (16 * ·)).foldl (outerTurn (messageWords message)) state)).2 =
      (pieces 64 n (shaPad message)).foldl shaBlock (wordsOf state.2) := by
  have hpad := shaPad_length message
  rw [pieces_eq]
  induction n with
  | zero => rfl
  | succ n ih =>
    have hwords : ∀ j : Nat, j < 16 →
        wordOf ((messageWords message).read ((16 * n : Nat) + j)) =
          ((pieces 4 16 (((shaPad message).drop (64 * n)).take 64)).map bytesToNat).getD j 0 := by
      intro j hj
      have hindex : ((16 * n : Nat) : Int) + j = (16 * n + j : Nat) := by push_cast; rfl
      rw [hindex, messageWords_read h (by omega), block_words hj (by omega)]
    rw [List.range_succ, List.map_append, List.foldl_append, List.map_append, List.foldl_append,
      ← ih (by omega)]
    exact wordsOf_outerTurn hwords _

theorem wordBytes (word : Int) :
    [toUint8 (bitAnd (shiftRightZero word 24) 0xff), toUint8 (bitAnd (shiftRightZero word 16) 0xff),
      toUint8 (bitAnd (shiftRightZero word 8) 0xff), toUint8 (bitAnd word 0xff)] =
        natToBytes 4 (wordOf word) := by
  have hbyte : ∀ x : Int, toUint8 (bitAnd x 0xff) = UInt8.ofNat (wordOf x) := by
    intro x
    have hlow : (toInt32 x &&& toInt32 0xff).toNat = wordOf x % 256 := by
      rw [BitVec.toNat_and]
      exact Nat.and_two_pow_sub_one_eq_mod (wordOf x) 8
    apply UInt8.toNat_inj.mp
    unfold toUint8 bitAnd
    rw [BitVec.toInt_eq_toNat_of_lt (by omega), hlow, UInt8.toNat_ofNat', UInt8.toNat_ofNat']
    omega
  rw [hbyte, hbyte, hbyte, hbyte, wordOf_shiftRightZero _ (by omega),
    wordOf_shiftRightZero _ (by omega), wordOf_shiftRightZero _ (by omega)]
  simp [natToBytes, Nat.shiftRight_eq_div_pow, Nat.div_div_eq_div_mul]

theorem sha256Fallback_eq {message : List UInt8} (h : 8 * (shaPad message).length < 2 ^ 31) :
    sha256Fallback message = sha256 message := by
  have hturns : (16 * blockCount message + 15) / 16 = blockCount message := by omega
  have hblocks : (shaPad message).length / 64 = blockCount message := by
    rw [shaPad_length]
    omega
  have hinit : wordsOf initialHash = shaInit := rfl
  unfold sha256Fallback sha256
  dsimp only
  rw [messageWords_length h, hturns, hblocks, ← hinit, ← outerTurns h (fun _ => 0, initialHash) le_rfl]
  generalize (((List.range (blockCount message)).map (16 * ·)).foldl
    (outerTurn (messageWords message)) (fun _ => 0, initialHash)).2 = s
  simp only [wordBytes, wordsOf, List.flatMap_cons, List.flatMap_nil]

/-- The fallback hashes as the standard says, as long as the padded message stays below
`2 ^ 31` bits, and the server accepts a nonce that was found with it. -/
theorem fallback_is_sha256 (message : List UInt8) (h : 8 * (shaPad message).length < 2 ^ 31) :
    sha256Fallback message = sha256 message ∧
      ∀ challengeId salt nonce difficulty turns,
        message = utf8 (challengeId ++ ":" ++ salt ++ ":" ++ nonce) →
        solveRegistrationPow sha256Fallback challengeId salt difficulty turns = some nonce →
          verifyPow challengeId salt nonce difficulty = true := by
  refine ⟨sha256Fallback_eq h, ?_⟩
  rintro challengeId salt nonce difficulty turns rfl hnonce
  have hzeros := solveFrom_some hnonce
  rw [sha256Fallback_eq h] at hzeros
  unfold verifyPow
  rw [leadingZeroBits_eq]
  exact decide_eq_true hzeros

theorem fallback_is_sha256_abc : sha256Fallback (utf8 "abc") = sha256 (utf8 "abc") :=
  (fallback_is_sha256 (utf8 "abc") (by decide)).1

end PluginRegistry
