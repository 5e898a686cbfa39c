import Mathlib.Data.BitVec

/-!
# Masks ordered by their bits

A bit vector read as a set of positions: `ByteMask.Sub a b` says that every bit of `a` is a bit of
`b`.  The bitwise operations are monotone, and taking bits out of the larger mask is harmless when
the smaller one has none of them (`ByteMask.Sub.andNot_right`).
-/

namespace ByteMask

variable {w : ℕ} {a b c d : BitVec w}

/-- The mask of the positions below `n` with a property. -/
def ofFn (n : ℕ) (p : ℕ → Bool) : BitVec w :=
  (List.range n).foldl (fun mask i => if p i then mask ||| 1#w <<< i else mask) 0

theorem getLsbD_ofFn (n : ℕ) (p : ℕ → Bool) (i : ℕ) :
    (ofFn n p : BitVec w).getLsbD i = (decide (i < w) && decide (i < n) && p i) := by
  rw [ofFn]
  induction n with
  | zero =>
    rw [List.range_zero, List.foldl_nil, decide_eq_false (Nat.not_lt_zero i), Bool.and_false,
      Bool.false_and]
    exact BitVec.getLsbD_zero
  | succ n ih =>
    rw [List.range_succ, List.foldl_append, List.foldl_cons, List.foldl_nil]
    generalize (List.range n).foldl _ _ = mask at ih ⊢
    have hbit : (1#w <<< n).getLsbD i = (decide (i < w) && decide (i = n)) := by
      rw [BitVec.getLsbD_shiftLeft, BitVec.getLsbD_one]
      grind
    split_ifs with hp
    · rw [BitVec.getLsbD_or, ih, hbit]
      grind
    · rw [ih]
      grind

/-- Every bit of `a` is a bit of `b`. -/
def Sub (a b : BitVec w) : Prop := ∀ i, a.getLsbD i = true → b.getLsbD i = true

@[refl] theorem Sub.refl (a : BitVec w) : Sub a a := fun _ h => h

theorem Sub.rfl : Sub a a := Sub.refl a

theorem Sub.of_eq (h : a = b) : Sub a b := h ▸ Sub.refl a

theorem Sub.trans (hab : Sub a b) (hbc : Sub b c) : Sub a c := fun i h => hbc i (hab i h)

theorem Sub.antisymm (hab : Sub a b) (hba : Sub b a) : a = b := by
  apply BitVec.eq_of_getLsbD_eq
  intro i _
  rw [Bool.eq_iff_iff]
  exact ⟨hab i, hba i⟩

theorem Sub.zero (a : BitVec w) : Sub 0 a := fun i h => by simp at h

theorem Sub.eq_zero (h : Sub a 0) : a = 0 := h.antisymm (Sub.zero a)

theorem Sub.or_left (a b : BitVec w) : Sub a (a ||| b) := fun i h => by
  rw [BitVec.getLsbD_or, h, Bool.true_or]

theorem Sub.or_right (a b : BitVec w) : Sub b (a ||| b) := fun i h => by
  rw [BitVec.getLsbD_or, h, Bool.or_true]

theorem Sub.or (hac : Sub a c) (hbd : Sub b d) : Sub (a ||| b) (c ||| d) := fun i h => by
  rw [BitVec.getLsbD_or, Bool.or_eq_true] at h ⊢
  exact h.imp (hac i) (hbd i)

theorem Sub.or_le (hac : Sub a c) (hbc : Sub b c) : Sub (a ||| b) c := fun i h => by
  rw [BitVec.getLsbD_or, Bool.or_eq_true] at h
  exact h.elim (hac i) (hbc i)

theorem Sub.and (hac : Sub a c) (hbd : Sub b d) : Sub (a &&& b) (c &&& d) := fun i h => by
  rw [BitVec.getLsbD_and, Bool.and_eq_true] at h ⊢
  exact ⟨hac i h.1, hbd i h.2⟩

theorem Sub.and_left (a b : BitVec w) : Sub (a &&& b) a := fun i h => by
  rw [BitVec.getLsbD_and, Bool.and_eq_true] at h
  exact h.1

theorem Sub.and_right (a b : BitVec w) : Sub (a &&& b) b := fun i h => by
  rw [BitVec.getLsbD_and, Bool.and_eq_true] at h
  exact h.2

theorem getLsbD_andNot (a c : BitVec w) (i : ℕ) :
    (a &&& ~~~c).getLsbD i = (a.getLsbD i && !c.getLsbD i) := by
  rw [BitVec.getLsbD_and, BitVec.getLsbD_not]
  rcases Nat.lt_or_ge i w with hi | hi
  · rw [decide_eq_true hi, Bool.true_and]
  · rw [BitVec.getLsbD_of_ge a i hi, Bool.false_and, Bool.false_and]

theorem Sub.andNot (h : Sub a b) (c : BitVec w) : Sub (a &&& ~~~c) (b &&& ~~~c) :=
  h.and Sub.rfl

/-- Taking bits out of the larger mask that the smaller one does not have. -/
theorem Sub.andNot_right (h : Sub a b) (hac : a &&& c = 0) : Sub a (b &&& ~~~c) := fun i hi => by
  have hc : c.getLsbD i = false := by
    have hbit : (a &&& c).getLsbD i = false := by
      rw [hac]
      exact BitVec.getLsbD_zero
    rwa [BitVec.getLsbD_and, hi, Bool.true_and] at hbit
  rw [getLsbD_andNot, h i hi, hc]
  rfl

/-- What meets the smaller mask meets the larger one. -/
theorem Sub.and_ne_zero (h : Sub a b) (hne : c &&& a ≠ 0) : c &&& b ≠ 0 := by
  intro hzero
  exact hne ((Sub.rfl.and h).trans (Sub.of_eq hzero)).eq_zero

theorem exists_of_ne_zero (h : a ≠ 0) : ∃ i, a.getLsbD i = true := by
  by_contra hnone
  rw [not_exists] at hnone
  exact h (Sub.eq_zero fun i hi => absurd hi (hnone i))

theorem ne_zero_of_getLsbD {i : ℕ} (h : a.getLsbD i = true) : a ≠ 0 := by
  rintro rfl
  exact Bool.false_ne_true (BitVec.getLsbD_zero.symm.trans h)

end ByteMask
