import Mathlib.Data.List.Basic
import Mathlib.Data.List.OfFn
import Mathlib.Logic.Function.Basic

/-!
# Reversing and compacting an array in place

An array is a function of the index, its first `n` cells are in use.

* `InPlace.reverse`: swap the two ends, moving inwards.  The cells in use are then the reversed
  list (`InPlace.map_reverse`).
* `InPlace.compact`: move the cells to keep to the front and blank the rest.  The cells in use are
  then the filtered list (`InPlace.map_compact`).
-/

namespace InPlace

variable {α : Type*}

/-- Exchange two cells. -/
def swap (a : ℕ → α) (i j : ℕ) : ℕ → α := Function.update (Function.update a i (a j)) j (a i)

/-- Swap the cells `i` and `n - 1 - i` for every `i` in the first half. -/
def reverse (n : ℕ) (a : ℕ → α) : ℕ → α :=
  (List.range (n / 2)).foldl (fun a i => swap a i (n - 1 - i)) a

/-- Look at one cell; a cell to keep is copied to the write position. -/
def compactStep (keep : α → Bool) (s : (ℕ → α) × ℕ) (read : ℕ) : (ℕ → α) × ℕ :=
  if keep (s.1 read) then (Function.update s.1 s.2 (s.1 read), s.2 + 1) else s

/-- Write the same value into every cell from `lo` up to `hi`. -/
def fill (blank : α) (lo hi : ℕ) (a : ℕ → α) : ℕ → α :=
  (List.range' lo (hi - lo)).foldl (fun a i => Function.update a i blank) a

/-- Keep some of the first `n` cells, and tell how many. -/
def compact (keep : α → Bool) (blank : α) (n : ℕ) (a : ℕ → α) : (ℕ → α) × ℕ :=
  let s := (List.range n).foldl (compactStep keep) (a, 0)
  (fill blank s.2 n s.1, s.2)

theorem swap_apply (a : ℕ → α) (i j m : ℕ) :
    swap a i j m = if m = j then a i else if m = i then a j else a m := by
  rw [swap, Function.update_apply, Function.update_apply]

/-! ### Reversing -/

/-- After `k` swaps the outer cells are exchanged. -/
private theorem reverse_partial (n : ℕ) (a : ℕ → α) {k : ℕ} (hk : k ≤ n / 2) (m : ℕ) :
    (List.range k).foldl (fun a i => swap a i (n - 1 - i)) a m =
      if m < k ∨ (n - k ≤ m ∧ m < n) then a (n - 1 - m) else a m := by
  induction k generalizing m with
  | zero =>
    rw [List.range_zero, List.foldl_nil, if_neg]
    omega
  | succ k ih =>
    have ih := ih (by omega)
    rw [List.range_succ, List.foldl_append, List.foldl_cons, List.foldl_nil, swap_apply,
      ih k, ih (n - 1 - k), ih m]
    rw [if_neg (show ¬ (k < k ∨ n - k ≤ k ∧ k < n) by omega),
      if_neg (show ¬ (n - 1 - k < k ∨ n - k ≤ n - 1 - k ∧ n - 1 - k < n) by omega)]
    rcases Nat.lt_trichotomy m (n - 1 - k) with hlt | heq | hgt
    · rw [if_neg (show ¬ m = n - 1 - k by omega)]
      split_ifs <;> first | rfl | omega | (congr 1; omega)
    · rw [if_pos heq, if_pos (by omega)]
      congr 1
      omega
    · rw [if_neg (show ¬ m = n - 1 - k by omega)]
      split_ifs <;> first | rfl | omega

theorem reverse_apply (n : ℕ) (a : ℕ → α) (m : ℕ) :
    reverse n a m = if m < n then a (n - 1 - m) else a m := by
  rw [reverse, reverse_partial n a (Nat.le_refl _)]
  split_ifs with hend hlt hlt
  · rfl
  · omega
  · -- the middle cell of an odd number of cells
    congr 1
    omega
  · rfl

/-- **The cells in use are reversed.** -/
theorem map_reverse (n : ℕ) (a : ℕ → α) :
    (List.range n).map (reverse n a) = ((List.range n).map a).reverse := by
  apply List.ext_getElem
  · simp
  intro i hi _
  rw [List.length_map, List.length_range] at hi
  rw [List.getElem_map, List.getElem_range, List.getElem_reverse, List.getElem_map,
    List.getElem_range, reverse_apply, if_pos hi, List.length_map, List.length_range]

/-! ### Compacting -/

/-- After `r` cells the front is the filtered list, and the cells ahead are as they were. -/
private theorem compact_part (keep : α → Bool) (a : ℕ → α) (r : ℕ) :
    let s := (List.range r).foldl (compactStep keep) (a, 0)
    (List.range s.2).map s.1 = ((List.range r).map a).filter keep ∧ s.2 ≤ r ∧
      ∀ i, r ≤ i → s.1 i = a i := by
  induction r with
  | zero => exact ⟨rfl, Nat.le_refl 0, fun _ _ => rfl⟩
  | succ r ih =>
    obtain ⟨hmap, hle, hahead⟩ := ih
    rw [List.range_succ, List.foldl_append, List.foldl_cons, List.foldl_nil, List.map_append,
      List.map_singleton, List.filter_append]
    generalize (List.range r).foldl (compactStep keep) (a, 0) = s at hmap hle hahead ⊢
    dsimp only at hmap hle hahead ⊢
    have hread : s.1 r = a r := hahead r (Nat.le_refl r)
    by_cases hkeep : keep (a r) = true
    · rw [compactStep, hread, if_pos hkeep]
      dsimp only
      refine ⟨?_, Nat.succ_le_succ hle, fun i hi => ?_⟩
      · rw [List.range_succ, List.map_append, List.map_singleton, Function.update_self, ← hmap,
          List.filter_singleton, hkeep]
        congr 1
        refine List.map_congr_left fun i hi => ?_
        rw [Function.update_of_ne (Nat.ne_of_lt (List.mem_range.mp hi))]
      · rw [Function.update_of_ne (by omega)]
        exact hahead i (by omega)
    · rw [compactStep, hread, if_neg hkeep, List.filter_singleton, Bool.eq_false_of_not_eq_true hkeep]
      refine ⟨?_, Nat.le_succ_of_le hle, fun i hi => hahead i (by omega)⟩
      rw [hmap]
      exact (List.append_nil _).symm

theorem fill_apply (blank : α) (lo hi : ℕ) (a : ℕ → α) (i : ℕ) :
    fill blank lo hi a i = if lo ≤ i ∧ i < hi then blank else a i := by
  have hgen : ∀ (n : ℕ) (a : ℕ → α), (List.range' lo n).foldl
      (fun a i => Function.update a i blank) a i = if lo ≤ i ∧ i < lo + n then blank else a i := by
    intro n
    induction n with
    | zero =>
      intro a
      rw [if_neg (by omega)]
      rfl
    | succ n ih =>
      intro a
      rw [List.range'_concat, List.foldl_append, List.foldl_cons, List.foldl_nil,
        Function.update_apply, ih, Nat.one_mul]
      split_ifs <;> first | rfl | omega
  rw [fill, hgen]
  split_ifs <;> first | rfl | omega

/-- **The cells in use are filtered.** -/
theorem map_compact (keep : α → Bool) (blank : α) (n : ℕ) (a : ℕ → α) :
    (List.range (compact keep blank n a).2).map (compact keep blank n a).1 =
      ((List.range n).map a).filter keep := by
  obtain ⟨hmap, -, -⟩ := compact_part keep a n
  rw [← hmap]
  refine List.map_congr_left fun i hi => ?_
  show fill blank _ n _ i = _
  rw [fill_apply, if_neg fun h => absurd (List.mem_range.mp hi) (Nat.not_lt.mpr h.1)]

theorem compact_le (keep : α → Bool) (blank : α) (n : ℕ) (a : ℕ → α) :
    (compact keep blank n a).2 ≤ n := (compact_part keep a n).2.1

end InPlace
