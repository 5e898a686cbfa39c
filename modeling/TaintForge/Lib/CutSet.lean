import Mathlib.Data.Finset.Sort
import Mathlib.Data.Finset.Max

/-!
# The smallest elements of a finite set

`cut k s` keeps the `k` smallest elements of `s`.

* `card_cut`: how many are left.
* `cut_union_left`: cutting one side of a union first does not change what the cut union keeps.
* `toFinset_take`: on an ascending list the cut is a prefix.
-/

namespace CutSet

variable {α : Type*} [LinearOrder α]

/-- The `k` smallest elements: those with fewer than `k` elements below them. -/
def cut (k : ℕ) (s : Finset α) : Finset α := s.filter fun x => (s.filter (· < x)).card < k

theorem mem_cut {k : ℕ} {s : Finset α} {x : α} :
    x ∈ cut k s ↔ x ∈ s ∧ (s.filter (· < x)).card < k := by
  rw [cut, Finset.mem_filter]

theorem cut_subset (k : ℕ) (s : Finset α) : cut k s ⊆ s := Finset.filter_subset _ _

@[simp] theorem cut_empty (k : ℕ) : cut k (∅ : Finset α) = ∅ := rfl

@[simp] theorem cut_zero (s : Finset α) : cut 0 s = ∅ := by
  rw [cut, Finset.filter_eq_empty_iff]
  exact fun x _ => Nat.not_lt_zero _

/-- A new smallest element takes one of the `k + 1` places. -/
theorem cut_insert_of_lt {k : ℕ} {s : Finset α} {a : α} (h : ∀ x ∈ s, a < x) :
    cut (k + 1) (insert a s) = insert a (cut k s) := by
  have ha : a ∉ s := fun hs => lt_irrefl a (h a hs)
  ext x
  rw [mem_cut, Finset.mem_insert, Finset.mem_insert, mem_cut]
  by_cases hxa : x = a
  · subst hxa
    have hnone : (insert x s).filter (· < x) = ∅ := by
      rw [Finset.filter_eq_empty_iff]
      intro y hy
      obtain rfl | hs := Finset.mem_insert.mp hy
      · exact lt_irrefl y
      · exact (h y hs).not_gt
    simp [hnone]
  · simp only [hxa, false_or]
    refine and_congr_right fun hx => ?_
    have hbelow : (insert a s).filter (· < x) = insert a (s.filter (· < x)) := by
      rw [Finset.filter_insert, if_pos (h x hx)]
    rw [hbelow, Finset.card_insert_of_notMem fun hm => ha (Finset.mem_filter.mp hm).1]
    exact Nat.succ_lt_succ_iff

theorem card_cut (k : ℕ) (s : Finset α) : (cut k s).card = min k s.card := by
  induction s using Finset.induction_on_min generalizing k with
  | empty => simp
  | insert a s h ih =>
    have ha : a ∉ s := fun hs => lt_irrefl a (h a hs)
    cases k with
    | zero => simp
    | succ k =>
      rw [cut_insert_of_lt h, Finset.card_insert_of_notMem fun hm => ha (cut_subset k s hm),
        Finset.card_insert_of_notMem ha, ih]
      omega

theorem card_cut_le (k : ℕ) (s : Finset α) : (cut k s).card ≤ k :=
  (card_cut k s).trans_le (min_le_left _ _)

/-- A set that is small enough is kept. -/
theorem cut_eq_self {k : ℕ} {s : Finset α} (h : s.card ≤ k) : cut k s = s :=
  Finset.eq_of_subset_of_card_le (cut_subset k s) (by rw [card_cut, min_eq_right h])

/-- Below a bound, cutting first or last is the same. -/
theorem filter_lt_cut (k : ℕ) (s : Finset α) (x : α) :
    (cut k s).filter (· < x) = cut k (s.filter (· < x)) := by
  ext y
  rw [Finset.mem_filter, mem_cut, mem_cut, Finset.mem_filter, Finset.filter_filter]
  have hsame : y < x → s.filter (fun a => a < x ∧ a < y) = s.filter (· < y) := by
    intro hyx
    refine Finset.filter_congr fun a _ => ⟨And.right, fun hay => ⟨hay.trans hyx, hay⟩⟩
  constructor
  · rintro ⟨⟨hy, hcard⟩, hyx⟩
    exact ⟨⟨hy, hyx⟩, by rwa [hsame hyx]⟩
  · rintro ⟨⟨hy, hyx⟩, hcard⟩
    exact ⟨⟨hy, by rwa [hsame hyx] at hcard⟩, hyx⟩

/-- Whether at least `k` elements lie below `x` is the same after a cut of one side. -/
private theorem card_below_lt_iff (k : ℕ) (s t : Finset α) (x : α) :
    ((cut k s ∪ t).filter (· < x)).card < k ↔ ((s ∪ t).filter (· < x)).card < k := by
  rw [Finset.filter_union, Finset.filter_union, filter_lt_cut]
  by_cases hs : (s.filter (· < x)).card ≤ k
  · rw [cut_eq_self hs]
  · have hcut : (cut k (s.filter (· < x))).card = k := by
      rw [card_cut]
      omega
    have hleft : (cut k (s.filter (· < x))).card ≤
        (cut k (s.filter (· < x)) ∪ t.filter (· < x)).card :=
      Finset.card_le_card Finset.subset_union_left
    have hright : (s.filter (· < x)).card ≤ (s.filter (· < x) ∪ t.filter (· < x)).card :=
      Finset.card_le_card Finset.subset_union_left
    omega

theorem cut_union_left (k : ℕ) (s t : Finset α) : cut k (cut k s ∪ t) = cut k (s ∪ t) := by
  ext x
  rw [mem_cut, mem_cut, card_below_lt_iff]
  refine and_congr_left fun hcard => ?_
  rw [Finset.mem_union, Finset.mem_union, mem_cut]
  have hx : (s.filter (· < x)).card < k :=
    (Finset.card_le_card (Finset.filter_subset_filter _ Finset.subset_union_left)).trans_lt hcard
  simp [hx]

theorem cut_union_right (k : ℕ) (s t : Finset α) : cut k (s ∪ cut k t) = cut k (s ∪ t) := by
  rw [Finset.union_comm, cut_union_left, Finset.union_comm]

/-- Whether the union overflows can be told after a cut of one side, if that cut lost nothing. -/
theorem card_cut_union_or (k : ℕ) (s t u : Finset α) :
    (k < (s ∪ t).card ∨ k < (cut k (s ∪ t) ∪ u).card) ↔ k < (s ∪ t ∪ u).card := by
  by_cases h : (s ∪ t).card ≤ k
  · rw [cut_eq_self h]
    simp [h]
  · have hmono : (s ∪ t).card ≤ (s ∪ t ∪ u).card :=
      Finset.card_le_card Finset.subset_union_left
    have hlt : k < (s ∪ t).card := Nat.lt_of_not_le h
    simp only [hlt, true_or, true_iff]
    omega

/-- The cut of an ascending list is a prefix. -/
theorem toFinset_take (k : ℕ) {l : List α} (h : l.Pairwise (· < ·)) :
    (l.take k).toFinset = cut k l.toFinset := by
  induction l generalizing k with
  | nil => simp
  | cons a l ih =>
    have hmin : ∀ x ∈ l.toFinset, a < x := fun x hx =>
      List.rel_of_pairwise_cons h (List.mem_toFinset.mp hx)
    cases k with
    | zero => simp
    | succ k =>
      rw [List.take_succ_cons, List.toFinset_cons, List.toFinset_cons, cut_insert_of_lt hmin,
        ih k h.of_cons]

end CutSet
