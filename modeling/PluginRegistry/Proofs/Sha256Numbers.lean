import Mathlib.Data.List.GetD
import PluginRegistry.Clients.Sha256Fallback
import PluginRegistry.Proofs.BuildWaits

namespace PluginRegistry
open Dashboard

def wordOf (x : Int) : Nat :=
  (toInt32 x).toNat

theorem wordOf_lt (x : Int) : wordOf x < 2 ^ 32 :=
  (toInt32 x).isLt

@[simp] theorem wordOf_toInt (bits : BitVec 32) : wordOf bits.toInt = bits.toNat := by
  unfold wordOf toInt32
  rw [BitVec.ofInt_toInt]

@[simp] theorem wordOf_natCast (n : Nat) : wordOf n = n % 2 ^ 32 := by
  unfold wordOf toInt32
  rw [BitVec.ofInt_natCast, BitVec.toNat_ofNat]

theorem wordOf_add (x y : Int) : wordOf (x + y) = (wordOf x + wordOf y) % 2 ^ 32 := by
  unfold wordOf toInt32
  rw [BitVec.ofInt_add, BitVec.toNat_add]

@[simp] theorem wordOf_bitOr (x y : Int) : wordOf (bitOr x y) = wordOf x ||| wordOf y := by
  unfold bitOr
  rw [wordOf_toInt, BitVec.toNat_or]
  rfl

@[simp] theorem wordOf_bitAnd (x y : Int) : wordOf (bitAnd x y) = wordOf x &&& wordOf y := by
  unfold bitAnd
  rw [wordOf_toInt, BitVec.toNat_and]
  rfl

@[simp] theorem wordOf_bitXor (x y : Int) : wordOf (bitXor x y) = wordOf x ^^^ wordOf y := by
  unfold bitXor
  rw [wordOf_toInt, BitVec.toNat_xor]
  rfl

@[simp] theorem wordOf_bitNot (x : Int) : wordOf (bitNot x) = 2 ^ 32 - 1 - wordOf x := by
  unfold bitNot
  rw [wordOf_toInt, BitVec.toNat_not]
  rfl

theorem wordOf_shiftLeft (x : Int) {bits : Nat} (h : bits < 32) :
    wordOf (shiftLeft x bits) = wordOf x <<< bits % 2 ^ 32 := by
  unfold shiftLeft
  rw [wordOf_toInt, BitVec.toNat_shiftLeft, Nat.mod_eq_of_lt h]
  rfl

theorem wordOf_shiftRightZero (x : Int) {bits : Nat} (h : bits < 32) :
    wordOf (shiftRightZero x bits) = wordOf x >>> bits := by
  unfold shiftRightZero
  rw [wordOf_natCast, Nat.mod_eq_of_lt (BitVec.isLt _), BitVec.toNat_ushiftRight,
    Nat.mod_eq_of_lt h]
  rfl

theorem wordOf_rightRotate (x : Int) {bits : Nat} (hpos : 0 < bits) (h : bits < 32) :
    wordOf (rightRotate x bits) = rotr bits (wordOf x) := by
  have hshift : wordOf x >>> bits < 2 ^ 32 :=
    Nat.lt_of_le_of_lt (Nat.shiftRight_le _ _) (wordOf_lt x)
  unfold rightRotate rotr
  rw [wordOf_bitOr, wordOf_shiftRightZero x h, wordOf_shiftLeft x (by omega), Nat.or_mod_two_pow,
    Nat.mod_eq_of_lt hshift]

theorem wordOf_add32 (values : List Int) :
    wordOf (add32 values) = (values.map wordOf).sum % 2 ^ 32 := by
  have hfold : ∀ result, wordOf (values.foldl (fun result value => bitOr (result + value) 0) result) =
      (wordOf result + (values.map wordOf).sum) % 2 ^ 32 := by
    induction values with
    | nil =>
      intro result
      rw [List.foldl_nil, List.map_nil, List.sum_nil, Nat.add_zero,
        Nat.mod_eq_of_lt (wordOf_lt result)]
    | cons value values ih =>
      intro result
      have hzero : wordOf 0 = 0 := rfl
      rw [List.foldl_cons, ih, wordOf_bitOr, hzero, Nat.or_zero, wordOf_add, List.map_cons,
        List.sum_cons, Nat.mod_add_mod, Nat.add_assoc]
  have hzero : wordOf 0 = 0 := rfl
  unfold add32
  rw [hfold, hzero, Nat.zero_add]

def wordsOf (s : Registers) : ShaState :=
  ⟨wordOf s.a, wordOf s.b, wordOf s.c, wordOf s.d, wordOf s.e, wordOf s.f, wordOf s.g, wordOf s.h⟩

theorem wordsOf_mixRegisters (k w : Int) (s : Registers) :
    wordsOf (mixRegisters k w s) = shaRound (wordsOf s) (wordOf k, wordOf w) := by
  unfold wordsOf mixRegisters shaRound
  simp only [wordOf_add32, wordOf_rightRotate, wordOf_bitXor, wordOf_bitAnd, wordOf_bitNot,
    List.map_cons, List.map_nil, List.sum_cons, List.sum_nil, Nat.add_zero, Nat.reduceLT,
    ShaState.mk.injEq, true_and, and_true]
  constructor
  · rw [Nat.add_mod_mod, Nat.mod_add_mod]
    congr 1
    omega
  · rw [Nat.add_mod_mod]
    congr 1
    omega

def nextWord (ws : List Nat) : Nat :=
  let s0 := rotr 7 (ws.getD 14 0) ^^^ rotr 18 (ws.getD 14 0) ^^^ ws.getD 14 0 >>> 3
  let s1 := rotr 17 (ws.getD 1 0) ^^^ rotr 19 (ws.getD 1 0) ^^^ ws.getD 1 0 >>> 10
  (ws.getD 15 0 + s0 + ws.getD 6 0 + s1) % 2 ^ 32

theorem shaExpand_succ (n : Nat) (ws : List Nat) :
    shaExpand (n + 1) ws = nextWord (shaExpand n ws) :: shaExpand n ws := by
  induction n generalizing ws with
  | zero => rfl
  | succ n ih =>
    have hstep : shaExpand (n + 1 + 1) ws = shaExpand (n + 1) (nextWord ws :: ws) := rfl
    rw [hstep, ih]
    rfl

theorem shaExpand_length (n : Nat) (ws : List Nat) :
    (shaExpand n ws).length = ws.length + n := by
  induction n with
  | zero => rfl
  | succ n ih =>
    rw [shaExpand_succ, List.length_cons, ih]
    omega

/-- Words that stand stay where they are. -/
theorem shaExpand_stable {n m k : Nat} {ws : List Nat} (hnm : n ≤ m) (hk : k < ws.length + n) :
    (shaExpand m ws).reverse.getD k 0 = (shaExpand n ws).reverse.getD k 0 := by
  induction m, hnm using Nat.le_induction with
  | base => rfl
  | succ m hnm ih =>
    have hlength : k < (shaExpand m ws).reverse.length := by
      rw [List.length_reverse, shaExpand_length]
      omega
    rw [shaExpand_succ, List.reverse_cons, List.getD_append _ _ _ _ hlength, ih]

theorem getElem?_getD {ws : List Nat} {j : Nat} (h : j < ws.length) :
    ws[j]? = some (ws.getD j 0) := by
  rw [List.getElem?_eq_getElem h, List.getD_eq_getElem _ _ h]

theorem getD_reverse {ws : List Nat} {k : Nat} (h : k < ws.length) :
    ws.getD k 0 = ws.reverse.getD (ws.length - 1 - k) 0 := by
  rw [List.getD_eq_getElem?_getD, List.getD_eq_getElem?_getD, List.getElem?_reverse (by omega)]
  congr 2
  omega

/-- The recurrence of the schedule, in the order of its words. -/
theorem shaExpand_next {first : List Nat} (hfirst : first.length = 16) {m j : Nat} (hj : 16 ≤ j)
    (hm : j < 16 + m) :
    let ws := (shaExpand m first.reverse).reverse
    ws.getD j 0 =
      (ws.getD (j - 16) 0 +
        (rotr 7 (ws.getD (j - 15) 0) ^^^ rotr 18 (ws.getD (j - 15) 0) ^^^
          ws.getD (j - 15) 0 >>> 3) +
        ws.getD (j - 7) 0 +
        (rotr 17 (ws.getD (j - 2) 0) ^^^ rotr 19 (ws.getD (j - 2) 0) ^^^
          ws.getD (j - 2) 0 >>> 10)) % 2 ^ 32 := by
  obtain ⟨n, rfl⟩ := Nat.exists_eq_add_of_le hj
  have hlength : first.reverse.length = 16 := by rw [List.length_reverse, hfirst]
  have hstood : (shaExpand n first.reverse).length = 16 + n := by
    rw [shaExpand_length, hlength]
  have hread : ∀ k < 16, (shaExpand m first.reverse).reverse.getD (15 + n - k) 0 =
      (shaExpand n first.reverse).getD k 0 := by
    intro k hk
    have hback : (shaExpand n first.reverse).getD k 0 = _ := getD_reverse (by rw [hstood]; omega)
    have hindex : 16 + n - 1 - k = 15 + n - k := by omega
    rw [hback, hstood, hindex, shaExpand_stable (n := n) (by omega) (by omega)]
  have hlast : (shaExpand m first.reverse).reverse.getD (16 + n) 0 =
      nextWord (shaExpand n first.reverse) := by
    rw [shaExpand_stable (n := n + 1) (by omega) (by omega), shaExpand_succ, List.reverse_cons,
      List.getD_append_right _ _ _ _ (by rw [List.length_reverse, hstood]), List.length_reverse,
      hstood, Nat.sub_self]
    rfl
  have h15 := hread 15 (by omega)
  have h14 := hread 14 (by omega)
  have h6 := hread 6 (by omega)
  have h1 := hread 1 (by omega)
  intro ws
  have e16 : 16 + n - 16 = 15 + n - 15 := by omega
  have e15 : 16 + n - 15 = 15 + n - 14 := by omega
  have e7 : 16 + n - 7 = 15 + n - 6 := by omega
  have e2 : 16 + n - 2 = 15 + n - 1 := by omega
  rw [hlast, e16, e15, e7, e2, h15, h14, h6, h1]
  rfl

theorem sha256K_word : ∀ j < 64, wordOf (sha256K.getD j 0) = shaK.getD j 0 := by
  decide

structure IsSchedule (words : NumberArray) (i : Nat) (ws : List Nat) : Prop where
  length : ws.length = 64
  first : ∀ j : Nat, j < 16 → wordOf (words.read (i + j)) = ws.getD j 0
  next : ∀ j, 16 ≤ j → j < 64 → ws.getD j 0 =
    (ws.getD (j - 16) 0 +
      (rotr 7 (ws.getD (j - 15) 0) ^^^ rotr 18 (ws.getD (j - 15) 0) ^^^
        ws.getD (j - 15) 0 >>> 3) +
      ws.getD (j - 7) 0 +
      (rotr 17 (ws.getD (j - 2) 0) ^^^ rotr 19 (ws.getD (j - 2) 0) ^^^
        ws.getD (j - 2) 0 >>> 10)) % 2 ^ 32

theorem IsSchedule.word {words : NumberArray} {i j : Nat} {ws : List Nat} {w : Nat → Int}
    (h : IsSchedule words i ws) (hj : j < 64) (hw : ∀ k < j, wordOf (w k) = ws.getD k 0) :
    wordOf (scheduleWord words i w j) = ws.getD j 0 := by
  unfold scheduleWord
  by_cases hsmall : j < 16
  · rw [if_pos hsmall]
    exact h.first j hsmall
  · rw [if_neg hsmall, h.next j (by omega) hj]
    simp only [wordOf_add32, wordOf_rightRotate, wordOf_shiftRightZero, wordOf_bitXor,
      List.map_cons, List.map_nil, List.sum_cons, List.sum_nil, Nat.add_zero, Nat.reduceLT]
    rw [hw (j - 16) (by omega), hw (j - 15) (by omega), hw (j - 7) (by omega),
      hw (j - 2) (by omega)]
    congr 1
    omega

/-- The inner loop after `j` turns. -/
theorem IsSchedule.turns {words : NumberArray} {i : Nat} {ws : List Nat}
    (h : IsSchedule words i ws) (state : (Nat → Int) × Registers) {j : Nat} (hj : j ≤ 64) :
    (∀ k < j, wordOf (((List.range j).foldl (innerTurn words i) state).1 k) = ws.getD k 0) ∧
      wordsOf ((List.range j).foldl (innerTurn words i) state).2 =
        ((shaK.zip ws).take j).foldl shaRound (wordsOf state.2) := by
  induction j with
  | zero => simp
  | succ j ih =>
    obtain ⟨hw, hs⟩ := ih (by omega)
    have hword := h.word (by omega) hw
    have hentry : (shaK.zip ws)[j]? = some (shaK.getD j 0, ws.getD j 0) := by
      have hk : shaK.length = 64 := rfl
      have hws := h.length
      rw [List.getElem?_zip_eq_some]
      exact ⟨getElem?_getD (by omega), getElem?_getD (by omega)⟩
    rw [List.range_succ, List.foldl_append, List.foldl_cons, List.foldl_nil, List.take_add_one,
      hentry, Option.toList_some, List.foldl_append, List.foldl_cons, List.foldl_nil, ← hs]
    generalize (List.range j).foldl (innerTurn words i) state = state at hw hword
    unfold innerTurn
    dsimp only
    constructor
    · intro k hk
      by_cases hlast : k = j
      · rw [hlast, Function.update_self]
        exact hword
      · rw [Function.update_of_ne hlast]
        exact hw k (by omega)
    · rw [wordsOf_mixRegisters, sha256K_word j (by omega), Function.update_self, hword]

/-- What a turn of the outer loop does to the hash. -/
theorem wordsOf_outerTurn {words : NumberArray} {i : Nat} {block : List UInt8}
    (h : ∀ j : Nat, j < 16 → wordOf (words.read (i + j)) = ((pieces 4 16 block).map bytesToNat).getD j 0)
    (state : (Nat → Int) × Registers) :
    wordsOf (outerTurn words state i).2 = shaBlock (wordsOf state.2) block := by
  have hfirst : ((pieces 4 16 block).map bytesToNat).length = 16 := rfl
  generalize hpieces : (pieces 4 16 block).map bytesToNat = first at h hfirst
  have hschedule : IsSchedule words i (shaExpand 48 first.reverse).reverse := by
    refine ⟨?_, ?_, ?_⟩
    · rw [List.length_reverse, shaExpand_length, List.length_reverse, hfirst]
    · intro j hj
      rw [shaExpand_stable (n := 0) (by omega) (by rw [List.length_reverse]; omega), h j hj]
      exact congrArg (List.getD · j 0) first.reverse_reverse.symm
    · intro j hj hlt
      exact shaExpand_next hfirst hj hlt
  have hturns := (hschedule.turns state (le_refl 64)).2
  have hlength : (shaK.zip (shaExpand 48 first.reverse).reverse).length ≤ 64 := by
    rw [List.length_zip, hschedule.length]
    exact Nat.min_le_right _ _
  rw [List.take_of_length_le hlength] at hturns
  unfold outerTurn shaBlock
  dsimp only
  rw [hpieces, ← hturns]
  generalize ((List.range 64).foldl (innerTurn words i) state).2 = s
  simp [wordsOf, wordOf_add32]

end PluginRegistry
