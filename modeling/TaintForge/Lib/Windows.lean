import Mathlib.Data.BitVec
import Mathlib.Data.Set.BooleanAlgebra
import Mathlib.Order.CompletePartialOrder

/-!
# Windows of addresses

Addresses are bit vectors, so a range of them may go on from the last one to the first.

* `BitVec.window`: some addresses from one on, and `mem_window`: which those are.
* `window_offset_inj`: the offset of an address in a window that is no longer than the memory.
* `disjoint_window`: two windows of one length meet if and only if one starts in the other.
-/

namespace BitVec

variable {w : ℕ}

/-- The `n` addresses from `start` on. -/
def window (start : BitVec w) (n : ℕ) : Set (BitVec w) := {a | ∃ j < n, start + BitVec.ofNat w j = a}

end BitVec

open BitVec

section Windows

variable {w n : ℕ} {start a b : BitVec w}

/-- The offset of an address in a window. -/
theorem mem_window (hn : n ≤ 2 ^ w) : a ∈ window start n ↔ (a - start).toNat < n := by
  constructor
  · rintro ⟨j, hj, rfl⟩
    rw [add_sub_cancel_left, BitVec.toNat_ofNat, Nat.mod_eq_of_lt (hj.trans_le hn)]
    exact hj
  · intro h
    refine ⟨(a - start).toNat, h, ?_⟩
    rw [BitVec.ofNat_toNat, BitVec.setWidth_eq, BitVec.add_comm, BitVec.sub_add_cancel]

theorem window_offset_inj {i j : ℕ} (hi : i < 2 ^ w) (hj : j < 2 ^ w)
    (h : start + BitVec.ofNat w i = start + BitVec.ofNat w j) : i = j := by
  have hoffset := congrArg BitVec.toNat (add_left_cancel h)
  rwa [BitVec.toNat_ofNat, BitVec.toNat_ofNat, Nat.mod_eq_of_lt hi, Nat.mod_eq_of_lt hj] at hoffset

/-- Of two addresses in a window of each of two starts, one start is in the window of the other. -/
theorem toNat_sub_lt {x : BitVec w} (ha : (x - a).toNat < n) (hb : (x - b).toNat < n) :
    (b - a).toNat < n ∨ (a - b).toNat < n := by
  rcases le_total (x - b).toNat (x - a).toNat with hle | hle
  · left
    have hsub : b - a = (x - a) - (x - b) := (sub_sub_sub_cancel_left a b x).symm
    rw [hsub, BitVec.toNat_sub_of_le (BitVec.le_def.mpr hle)]
    omega
  · right
    have hsub : a - b = (x - b) - (x - a) := (sub_sub_sub_cancel_left b a x).symm
    rw [hsub, BitVec.toNat_sub_of_le (BitVec.le_def.mpr hle)]
    omega

/-- **Two windows of one length** are apart if and only if neither starts in the other. -/
theorem disjoint_window (hn : n ≤ 2 ^ w) :
    Disjoint (window a n) (window b n) ↔ ¬ ((b - a).toNat < n ∨ (a - b).toNat < n) := by
  rw [Set.disjoint_left]
  constructor
  · rintro hapart (h | h)
    · have hstart : b ∈ window b n := (mem_window hn).mpr (by simpa using Nat.zero_lt_of_lt h)
      exact hapart ((mem_window hn).mpr h) hstart
    · have hstart : a ∈ window a n := (mem_window hn).mpr (by simpa using Nat.zero_lt_of_lt h)
      exact hapart hstart ((mem_window hn).mpr h)
  · intro hapart x ha hb
    exact hapart (toNat_sub_lt ((mem_window hn).mp ha) ((mem_window hn).mp hb))

end Windows
