import Mathlib.Data.BitVec

/-!
# Flags of a sum or a difference

A processor keeps a result in `w` bits and says in flags what was lost.  Each flag is computed from single
bits; here is what it says about the exact result, an integer.

* `FitsSigned`, `FitsUnsigned`: the integers that `w` bits hold.
* `overflow_add`, `overflow_sub`: the overflow flag, from three signs.
* `carry_add`, `borrow_sub`: the carry flag, from a comparison.
* `sign_xor_overflow`: the sign of the exact result.
* `foldl_parity`: the parity of the bits, one after the other.
-/

open BitVec

/-! ### Ranges -/

/-- An integer that is the value of `w` bits, the last of which is the sign. -/
def FitsSigned (w : ℕ) (n : ℤ) : Prop := -2 ^ (w - 1) ≤ n ∧ n < 2 ^ (w - 1)

/-- An integer that is the value of `w` bits without a sign. -/
def FitsUnsigned (w : ℕ) (n : ℤ) : Prop := 0 ≤ n ∧ n < 2 ^ w

instance (w : ℕ) (n : ℤ) : Decidable (FitsSigned w n) := inferInstanceAs (Decidable (_ ∧ _))

instance (w : ℕ) (n : ℤ) : Decidable (FitsUnsigned w n) := inferInstanceAs (Decidable (_ ∧ _))

section Ranges

variable {w : ℕ}

theorem two_pow_eq_double (hw : 1 ≤ w) : (2 : ℤ) ^ w = 2 * 2 ^ (w - 1) := by
  obtain ⟨v, rfl⟩ := Nat.exists_eq_add_of_le' hw
  rw [Nat.add_sub_cancel, pow_succ, mul_comm]

theorem fitsSigned_toInt (x : BitVec w) : FitsSigned w x.toInt := ⟨BitVec.le_toInt x, BitVec.toInt_lt⟩

theorem natCast_toNat_lt (x : BitVec w) : (x.toNat : ℤ) < 2 ^ w := by
  exact_mod_cast x.isLt

/-- **The sign of a result that went around at most once**: right exactly if nothing was lost. -/
theorem msb_ofInt (hw : 1 ≤ w) {n : ℤ} (hlo : -2 ^ w ≤ n) (hhi : n < 2 ^ w) :
    (BitVec.ofInt w n).msb = (decide (n < 0) ^^ decide (¬ FitsSigned w n)) := by
  have hdouble := two_pow_eq_double hw
  have hcast : ((2 ^ w : ℕ) : ℤ) = 2 ^ w := by push_cast; rfl
  have hpos : (0 : ℤ) < 2 ^ (w - 1) := Int.pow_pos (by decide)
  rw [BitVec.msb_eq_toInt, BitVec.toInt_ofInt]
  by_cases hfits : FitsSigned w n
  · have hsame : n.bmod (2 ^ w) = n := by
      apply Int.bmod_eq_of_le_mul_two
      · rw [hcast]
        have := hfits.1
        omega
      · rw [hcast]
        have := hfits.2
        omega
    rw [hsame, decide_eq_false (not_not.mpr hfits), Bool.xor_false]
  · rw [decide_eq_true hfits, Bool.xor_true, ← decide_not, decide_eq_decide]
    by_cases hneg : n < 0
    · have hlow : n < -2 ^ (w - 1) := by
        by_contra h
        exact hfits ⟨by omega, by omega⟩
      have hsame : n.bmod (2 ^ w) = n + 2 ^ w := by
        rw [← Int.add_bmod_right, hcast]
        apply Int.bmod_eq_of_le_mul_two
        · rw [hcast]
          omega
        · rw [hcast]
          omega
      rw [hsame]
      omega
    · have hhigh : 2 ^ (w - 1) ≤ n := by
        by_contra h
        exact hfits ⟨by omega, by omega⟩
      have hsame : n.bmod (2 ^ w) = n - 2 ^ w := by
        rw [← Int.sub_bmod_right, hcast]
        apply Int.bmod_eq_of_le_mul_two
        · rw [hcast]
          omega
        · rw [hcast]
          omega
      rw [hsame]
      omega

/-- The sign flag and the overflow flag together. -/
theorem sign_xor_overflow (hw : 1 ≤ w) {n : ℤ} (hlo : -2 ^ w ≤ n) (hhi : n < 2 ^ w) :
    ((BitVec.ofInt w n).msb ^^ decide (¬ FitsSigned w n)) = decide (n < 0) := by
  rw [msb_ofInt hw hlo hhi, Bool.xor_assoc, Bool.xor_self, Bool.xor_false]

/-- The zero flag and the sign of the exact result together. -/
theorem zero_or_negative {n : ℤ} (hhi : n < 2 ^ w) :
    (BitVec.ofInt w n == 0#w || decide (n < 0)) = decide (n ≤ 0) := by
  rw [Bool.eq_iff_iff, Bool.or_eq_true, beq_iff_eq, decide_eq_true_eq, decide_eq_true_eq]
  constructor
  · rintro (hzero | hneg)
    · by_contra hpos
      have hmod : n % 2 ^ w = n := Int.emod_eq_of_lt (by omega) hhi
      have hnat := congrArg BitVec.toNat hzero
      rw [BitVec.toNat_ofInt, BitVec.toNat_ofNat, Nat.zero_mod] at hnat
      push_cast at hnat
      rw [hmod] at hnat
      omega
    · omega
  · intro hle
    by_cases hzero : n = 0
    · rw [hzero]
      exact .inl rfl
    · exact .inr (by omega)

end Ranges

/-! ### Sums and differences -/

section Arithmetic

variable {w : ℕ} (x y : BitVec w)

theorem ofInt_toInt_add : BitVec.ofInt w (x.toInt + y.toInt) = x + y := by
  rw [BitVec.ofInt_add, BitVec.ofInt_toInt, BitVec.ofInt_toInt]

theorem ofInt_toInt_sub : BitVec.ofInt w (x.toInt - y.toInt) = x - y := by
  rw [Int.sub_eq_add_neg, BitVec.ofInt_add, BitVec.ofInt_neg, BitVec.ofInt_toInt, BitVec.ofInt_toInt,
    BitVec.sub_eq_add_neg]

variable {x y} (hw : 1 ≤ w)

include hw

theorem add_range : -2 ^ w ≤ x.toInt + y.toInt ∧ x.toInt + y.toInt < 2 ^ w := by
  obtain ⟨hxlo, hxhi⟩ := fitsSigned_toInt x
  obtain ⟨hylo, hyhi⟩ := fitsSigned_toInt y
  have hdouble := two_pow_eq_double hw
  constructor <;> omega

theorem sub_range : -2 ^ w ≤ x.toInt - y.toInt ∧ x.toInt - y.toInt < 2 ^ w := by
  obtain ⟨hxlo, hxhi⟩ := fitsSigned_toInt x
  obtain ⟨hylo, hyhi⟩ := fitsSigned_toInt y
  have hdouble := two_pow_eq_double hw
  constructor <;> omega

/-- A sum overflows if its operands have one sign and it has the other. -/
theorem overflow_add :
    (!(x.msb ^^ y.msb) && (x.msb ^^ (x + y).msb)) = decide (¬ FitsSigned w (x.toInt + y.toInt)) := by
  obtain ⟨hlo, hhi⟩ := add_range (x := x) (y := y) hw
  have hx := fitsSigned_toInt x
  have hy := fitsSigned_toInt y
  rw [← ofInt_toInt_add, msb_ofInt hw hlo hhi, BitVec.msb_eq_toInt, BitVec.msb_eq_toInt]
  by_cases hfits : FitsSigned w (x.toInt + y.toInt)
  · rw [decide_eq_false (not_not.mpr hfits), Bool.xor_false]
    by_cases hxneg : x.toInt < 0 <;> by_cases hyneg : y.toInt < 0 <;>
      simp [hxneg, hyneg] <;> omega
  · rw [decide_eq_true hfits, Bool.xor_true]
    -- of two numbers with different signs the sum fits
    have hsame : x.toInt < 0 ↔ y.toInt < 0 := by
      by_contra hdiffer
      apply hfits
      constructor
      · have h₁ := hx.1
        have h₂ := hy.1
        omega
      · have h₁ := hx.2
        have h₂ := hy.2
        omega
    by_cases hxneg : x.toInt < 0
    · have hyneg := hsame.mp hxneg
      simp [hxneg, hyneg]
      omega
    · have hyneg := fun h => hxneg (hsame.mpr h)
      simp [hxneg]
      omega

/-- A difference overflows if its operands have different signs and it has that of the second. -/
theorem overflow_sub :
    ((x.msb ^^ y.msb) && (x.msb ^^ (x - y).msb)) = decide (¬ FitsSigned w (x.toInt - y.toInt)) := by
  obtain ⟨hlo, hhi⟩ := sub_range (x := x) (y := y) hw
  have hx := fitsSigned_toInt x
  have hy := fitsSigned_toInt y
  rw [← ofInt_toInt_sub, msb_ofInt hw hlo hhi, BitVec.msb_eq_toInt, BitVec.msb_eq_toInt]
  by_cases hfits : FitsSigned w (x.toInt - y.toInt)
  · rw [decide_eq_false (not_not.mpr hfits), Bool.xor_false]
    by_cases hxneg : x.toInt < 0 <;> by_cases hyneg : y.toInt < 0 <;>
      simp [hxneg, hyneg] <;> omega
  · rw [decide_eq_true hfits, Bool.xor_true]
    -- of two numbers with one sign the difference fits
    have hdiffer : x.toInt < 0 ↔ ¬ y.toInt < 0 := by
      by_contra hsame
      apply hfits
      constructor
      · have h₁ := hx.1
        have h₂ := hy.2
        omega
      · have h₁ := hx.2
        have h₂ := hy.1
        omega
    by_cases hxneg : x.toInt < 0
    · have hyneg := hdiffer.mp hxneg
      simp [hxneg, hyneg]
      omega
    · have hyneg : y.toInt < 0 := by
        by_contra h
        exact hxneg (hdiffer.mpr h)
      simp [hxneg, hyneg]
      omega

omit hw

/-- A sum is too large if the result is below an operand. -/
theorem carry_add : (x + y).ult x = decide (¬ FitsUnsigned w (x.toNat + y.toNat)) := by
  have hx := x.isLt
  have hy := y.isLt
  have hfits : FitsUnsigned w (x.toNat + y.toNat) ↔ x.toNat + y.toNat < 2 ^ w := by
    constructor
    · intro h
      exact_mod_cast h.2
    · intro h
      exact ⟨by omega, by exact_mod_cast h⟩
  rw [BitVec.ult_eq_decide, decide_eq_decide, hfits, BitVec.toNat_add]
  by_cases hlt : x.toNat + y.toNat < 2 ^ w
  · rw [Nat.mod_eq_of_lt hlt]
    omega
  · rw [Nat.mod_eq_sub_mod (by omega), Nat.mod_eq_of_lt (by omega)]
    omega

/-- A difference is negative if the first operand is below the second. -/
theorem borrow_sub : x.ult y = decide (¬ FitsUnsigned w (x.toNat - y.toNat)) := by
  have hx := natCast_toNat_lt x
  rw [BitVec.ult_eq_decide, decide_eq_decide, FitsUnsigned]
  omega

theorem ult_or_eq : (x.ult y || x == y) = x.ule y := by
  rw [Bool.eq_iff_iff, Bool.or_eq_true, beq_iff_eq, BitVec.ult_iff_toNat_lt, BitVec.ule_iff_toNat_le,
    ← BitVec.toNat_inj]
  omega

theorem zero_sub_iff : (x - y == 0#w) = (x == y) := by
  rw [Bool.eq_iff_iff, beq_iff_eq, beq_iff_eq]
  constructor
  · intro h
    rw [← BitVec.sub_add_cancel x y, h, BitVec.zero_add]
  · rintro rfl
    exact BitVec.sub_self x

end Arithmetic

/-! ### Parity -/

/-- The number of ones among the low 8 bits is even. -/
def evenParity {w : ℕ} (x : BitVec w) : Bool := (List.range 8).countP (x.getLsbD ·) % 2 == 0

/-- The sum of some bits modulo 2, one after the other. -/
theorem foldl_parity (bits : ℕ → Bool) (l : List ℕ) (start : Bool) :
    l.foldl (fun parity i => parity ^^ bits i) start = (start ^^ l.countP bits % 2 == 1) := by
  induction l generalizing start with
  | nil => simp
  | cons i l ih =>
    rw [List.foldl_cons, ih, List.countP_cons]
    cases hbit : bits i with
    | false => simp
    | true =>
      rw [if_pos rfl, Bool.xor_true, Bool.not_xor, ← Bool.xor_not]
      congr 1
      rcases Nat.mod_two_eq_zero_or_one (l.countP bits) with h | h
      · rw [h, show (l.countP bits + 1) % 2 = 1 by omega]
        rfl
      · rw [h, show (l.countP bits + 1) % 2 = 0 by omega]
        rfl

theorem evenParity_congr {v w : ℕ} {x : BitVec v} {y : BitVec w}
    (h : ∀ i < 8, x.getLsbD i = y.getLsbD i) : evenParity x = evenParity y := by
  have hcount : (List.range 8).countP (x.getLsbD ·) = (List.range 8).countP (y.getLsbD ·) :=
    List.countP_congr fun i hi => by rw [h i (List.mem_range.mp hi)]
  rw [evenParity, hcount]
  rfl

/-- The bits are added up, and the sum is inverted. -/
theorem evenParity_eq_foldl {w : ℕ} (x : BitVec w) :
    evenParity x = !(List.range 8).foldl (fun parity i => parity ^^ x.getLsbD i) false := by
  rw [foldl_parity, Bool.false_xor, evenParity]
  rcases Nat.mod_two_eq_zero_or_one ((List.range 8).countP (x.getLsbD ·)) with h | h
  · rw [h]
    rfl
  · rw [h]
    rfl
