import Mathlib.Data.BitVec

/-!
# Narrow bit vectors in 64-bit words

A program that computes on values of up to 64 bits keeps each in a 64-bit word, with the bits above the
width cleared, and cuts the results off at the width again.  Here is what its word operations compute.

* `BitVec.word`: a value in its word, and `and_lowMask`: what a mask does.
* `setWidth_word_add`, …: each word operation, cut off, is the operation on the narrow values.
-/

namespace BitVec

/-- A narrow value in a word. -/
def word {w : ℕ} (x : BitVec w) : BitVec 64 := x.setWidth 64

end BitVec

open BitVec

/-! ### Masks -/

theorem getLsbD_lowMask {w : ℕ} (hw : w < 64) (i : ℕ) :
    (1#64 <<< w - 1).getLsbD i = decide (i < w) := by
  have hpow : (1#64 <<< w - 1).toNat = 2 ^ w - 1 := by
    have hlt : 2 ^ w < 2 ^ 64 := Nat.pow_lt_pow_right (by decide) hw
    have hpos : 0 < 2 ^ w := Nat.two_pow_pos w
    have hone : (1 : BitVec 64).toNat = 1 := rfl
    rw [BitVec.toNat_sub, BitVec.toNat_shiftLeft, Nat.shiftLeft_eq, hone]
    simp only [BitVec.toNat_ofNat]
    omega
  rw [BitVec.getLsbD, hpow, Nat.testBit_two_pow_sub_one]

section Words

variable {w : ℕ} (hw : w ≤ 64)

include hw

theorem getLsbD_word (x : BitVec w) (i : ℕ) : x.word.getLsbD i = x.getLsbD i := by
  rw [word, BitVec.getLsbD_setWidth]
  by_cases hi : i < 64
  · rw [decide_eq_true hi, Bool.true_and]
  · rw [BitVec.getLsbD_of_ge x i (by omega), Bool.and_false]

theorem toNat_word (x : BitVec w) : x.word.toNat = x.toNat :=
  BitVec.toNat_setWidth_of_le hw

@[simp] theorem setWidth_word (x : BitVec w) : x.word.setWidth w = x := by
  rw [word, BitVec.setWidth_setWidth_of_le _ hw, BitVec.setWidth_eq]

theorem word_injective {x y : BitVec w} (h : x.word = y.word) : x = y := by
  rw [← setWidth_word hw x, h, setWidth_word hw]

omit hw in
/-- A mask leaves the word of the low bits. -/
theorem and_lowMask (hlt : w < 64) (v : BitVec 64) : v &&& (1#64 <<< w - 1) = (v.setWidth w).word := by
  apply BitVec.eq_of_getLsbD_eq
  intro i _
  rw [BitVec.getLsbD_and, getLsbD_lowMask hlt, getLsbD_word hlt.le, BitVec.getLsbD_setWidth,
    Bool.and_comm]

/-! ### Arithmetic -/

variable (x y : BitVec w)

theorem setWidth_word_add : (x.word + y.word).setWidth w = x + y := by
  rw [BitVec.setWidth_add _ _ hw, setWidth_word hw, setWidth_word hw]

theorem setWidth_word_sub : (x.word - y.word).setWidth w = x - y := by
  apply BitVec.eq_of_toNat_eq
  have hx : x.toNat < 2 ^ w := x.isLt
  have hy : y.toNat < 2 ^ w := y.isLt
  have hdvd : 2 ^ w ∣ 2 ^ 64 := Nat.pow_dvd_pow 2 hw
  rw [BitVec.toNat_setWidth, BitVec.toNat_sub, BitVec.toNat_sub, toNat_word hw, toNat_word hw,
    Nat.mod_mod_of_dvd _ hdvd]
  obtain ⟨k, hk⟩ := hdvd
  have hkpos : 0 < k := by
    rcases Nat.eq_zero_or_pos k with rfl | hpos
    · rw [Nat.mul_zero] at hk
      exact absurd hk (by decide)
    · exact hpos
  have hsplit : 2 ^ 64 - y.toNat + x.toNat = 2 ^ w - y.toNat + x.toNat + 2 ^ w * (k - 1) := by
    rw [hk, Nat.mul_sub, Nat.mul_one]
    have hle : 2 ^ w ≤ 2 ^ w * k := Nat.le_mul_of_pos_right _ hkpos
    omega
  rw [hsplit, Nat.add_mul_mod_self_left]

theorem setWidth_word_mul : (x.word * y.word).setWidth w = x * y := by
  rw [BitVec.setWidth_mul _ _ hw, setWidth_word hw, setWidth_word hw]

theorem setWidth_word_xor : (x.word ^^^ y.word).setWidth w = x ^^^ y := by
  rw [BitVec.setWidth_xor, setWidth_word hw, setWidth_word hw]

theorem setWidth_word_and : (x.word &&& y.word).setWidth w = x &&& y := by
  rw [BitVec.setWidth_and, setWidth_word hw, setWidth_word hw]

theorem setWidth_word_or : (x.word ||| y.word).setWidth w = x ||| y := by
  rw [BitVec.setWidth_or, setWidth_word hw, setWidth_word hw]

/-! ### Shifts -/

theorem setWidth_word_shiftLeft (n : ℕ) : (x.word <<< n).setWidth w = x <<< n := by
  apply BitVec.eq_of_getLsbD_eq
  intro i hi
  rw [BitVec.getLsbD_setWidth, BitVec.getLsbD_shiftLeft, BitVec.getLsbD_shiftLeft, getLsbD_word hw,
    decide_eq_true hi, decide_eq_true (show i < 64 by omega), Bool.true_and]

theorem setWidth_word_ushiftRight (n : ℕ) : (x.word >>> n).setWidth w = x >>> n := by
  apply BitVec.eq_of_getLsbD_eq
  intro i hi
  rw [BitVec.getLsbD_setWidth, BitVec.getLsbD_ushiftRight, BitVec.getLsbD_ushiftRight,
    getLsbD_word hw, decide_eq_true hi, Bool.true_and]

/-- An arithmetic shift, with the bits that it fills in. -/
theorem setWidth_word_sshiftRight {n : ℕ} (hn : n ≤ w) :
    ((x.word >>> n) ||| (if x.msb ∧ n ≠ 0 then
      (allOnes w).word &&& ~~~(allOnes (w - n)).word else 0)).setWidth w = x.sshiftRight n := by
  apply BitVec.eq_of_getLsbD_eq
  intro i hi
  rw [BitVec.getLsbD_setWidth, decide_eq_true hi, Bool.true_and, BitVec.getLsbD_or,
    BitVec.getLsbD_ushiftRight, getLsbD_word hw, BitVec.getLsbD_sshiftRight,
    decide_eq_false (show ¬ w ≤ i by omega), Bool.not_false, Bool.true_and]
  by_cases hmsb : x.msb ∧ n ≠ 0
  · rw [if_pos hmsb, BitVec.getLsbD_and, BitVec.getLsbD_not, getLsbD_word hw,
      getLsbD_word (by omega), BitVec.getLsbD_allOnes, BitVec.getLsbD_allOnes, decide_eq_true hi,
      decide_eq_true (show i < 64 by omega), hmsb.1]
    by_cases hin : n + i < w
    · rw [if_pos hin, decide_eq_true (show i < w - n by omega)]
      simp
    · rw [if_neg hin, decide_eq_false (show ¬ i < w - n by omega)]
      simp
  · rw [if_neg hmsb]
    by_cases hin : n + i < w
    · rw [if_pos hin]
      simp
    · rw [if_neg hin, BitVec.getLsbD_of_ge x (n + i) (by omega)]
      have hn0 : n ≠ 0 := by omega
      have hfalse : x.msb = false := by
        rw [Bool.eq_false_iff]
        exact fun h => hmsb ⟨h, hn0⟩
      rw [hfalse]
      simp

/-! ### Parts -/

theorem setWidth_word_extract (out low : ℕ) :
    (x.word >>> low).setWidth out = x.extractLsb' low out := by
  apply BitVec.eq_of_getLsbD_eq
  intro i hi
  rw [BitVec.getLsbD_setWidth, BitVec.getLsbD_ushiftRight, getLsbD_word hw, BitVec.getLsbD_extractLsb']

theorem setWidth_word_append {v : ℕ} (z : BitVec v) (hsum : w + v ≤ 64) :
    ((x.word <<< v) ||| z.word).setWidth (w + v) = x ++ z := by
  apply BitVec.eq_of_getLsbD_eq
  intro i hi
  rw [BitVec.getLsbD_setWidth, decide_eq_true hi, Bool.true_and, BitVec.getLsbD_or,
    BitVec.getLsbD_shiftLeft, getLsbD_word hw, getLsbD_word (show v ≤ 64 by omega),
    BitVec.getLsbD_append, decide_eq_true (show i < 64 by omega)]
  by_cases hv : i < v
  · simp [hv]
  · rw [BitVec.getLsbD_of_ge z i (by omega)]
    simp [hv]

/-- A value is extended by the bits above its width. -/
theorem setWidth_word_signExtend {out : ℕ} {fill : BitVec 64}
    (hfill : ∀ i < out, fill.getLsbD i = decide (w ≤ i)) :
    (if x.msb then x.word ||| fill else x.word).setWidth out = x.signExtend out := by
  apply BitVec.eq_of_getLsbD_eq
  intro i hi
  rw [BitVec.getLsbD_setWidth, BitVec.getLsbD_signExtend, decide_eq_true hi, Bool.true_and,
    Bool.true_and]
  cases hmsb : x.msb
  · rw [if_neg Bool.false_ne_true, getLsbD_word hw]
    by_cases hin : i < w
    · rw [if_pos hin]
    · rw [if_neg hin, BitVec.getLsbD_of_ge x i (by omega)]
  · rw [if_pos rfl, BitVec.getLsbD_or, getLsbD_word hw, hfill i hi]
    by_cases hin : i < w
    · rw [if_pos hin, decide_eq_false (by omega), Bool.or_false]
    · rw [if_neg hin, decide_eq_true (by omega), Bool.or_true]

/-! ### Relations -/

theorem word_beq : (x.word == y.word) = (x == y) := by
  rw [Bool.eq_iff_iff, beq_iff_eq, beq_iff_eq]
  exact ⟨word_injective hw, fun h => by rw [h]⟩

theorem word_ult : x.word.ult y.word = x.ult y := by
  rw [BitVec.ult_eq_decide, BitVec.ult_eq_decide, toNat_word hw, toNat_word hw]

omit hw in
/-- Flipping the sign bit adds the least value. -/
theorem xor_intMin (z : BitVec w) : z ^^^ BitVec.intMin w = z + BitVec.intMin w := by
  apply BitVec.eq_of_getLsbD_eq
  intro i hi
  have hmin : (BitVec.intMin w).toNat = 2 ^ (w - 1) := BitVec.toNat_intMin_of_pos (by omega)
  rw [BitVec.getLsbD_xor, BitVec.getLsbD_intMin, BitVec.getLsbD, BitVec.getLsbD, BitVec.toNat_add, hmin,
    Nat.testBit_mod_two_pow, decide_eq_true hi, Bool.true_and, Nat.add_comm z.toNat]
  by_cases htop : i = w - 1
  · rw [← htop, Nat.testBit_two_pow_add_eq, decide_eq_true (by omega), Bool.xor_true]
  · rw [Nat.testBit_two_pow_add_gt (by omega), decide_eq_false (by omega), Bool.xor_false]

omit hw in
theorem toNat_add_intMin (hpos : 0 < w) (z : BitVec w) :
    ((z + BitVec.intMin w).toNat : ℤ) = z.toInt + 2 ^ (w - 1) := by
  have hlt : z.toNat < 2 ^ w := z.isLt
  have hpow : 2 ^ w = 2 * 2 ^ (w - 1) := by rw [← pow_succ', Nat.sub_add_cancel hpos]
  have hcast : ((2 : ℤ) ^ (w - 1)) = ((2 ^ (w - 1) : ℕ) : ℤ) := by push_cast; rfl
  rw [BitVec.toNat_add, BitVec.toNat_intMin_of_pos hpos, BitVec.toInt_eq_toNat_cond, hcast]
  by_cases hsmall : 2 * z.toNat < 2 ^ w
  · rw [if_pos hsmall, Nat.mod_eq_of_lt (by omega), Nat.cast_add]
  · rw [if_neg hsmall, Nat.mod_eq_sub_mod (by omega), Nat.mod_eq_of_lt (by omega)]
    omega

/-- With the sign bits flipped, the unsigned order is the signed one. -/
theorem xor_sign_ult (hpos : 0 < w) :
    (x.word ^^^ 1#64 <<< (w - 1)).ult (y.word ^^^ 1#64 <<< (w - 1)) = x.slt y := by
  have hflip : ∀ z : BitVec w, z.word ^^^ 1#64 <<< (w - 1) = (z ^^^ BitVec.intMin w).word := by
    intro z
    apply BitVec.eq_of_getLsbD_eq
    intro i hi
    rw [getLsbD_word hw, BitVec.getLsbD_xor, BitVec.getLsbD_xor, getLsbD_word hw,
      BitVec.getLsbD_intMin, BitVec.getLsbD_shiftLeft, BitVec.getLsbD_one]
    congr 1
    grind
  rw [hflip, hflip, word_ult hw, xor_intMin, xor_intMin, BitVec.ult_eq_decide, BitVec.slt_eq_decide]
  have hx := toNat_add_intMin hpos x
  have hy := toNat_add_intMin hpos y
  rw [decide_eq_decide]
  omega

end Words
