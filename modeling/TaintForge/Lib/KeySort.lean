import Mathlib.Data.List.Sort
import Mathlib.Data.List.Nodup
import Mathlib.Data.List.Lex

/-!
# Sorting by a key

A list whose elements have different keys has one sorted order, so sorting forgets the order of the list and
nothing else.

* `keySort`: `sorted(values, key=key)`.
* `keySort_congr`: lists with the same elements.
* `keySort_eq_iff`: lists that are sorted to the same list.
-/

namespace TaintForge

variable {α κ : Type} [LinearOrder κ] {key : α → κ} {l l' : List α}

/-- `sorted(values, key=key)`. -/
def keySort (key : α → κ) (l : List α) : List α := l.insertionSort fun a b => key a ≤ key b

@[simp] theorem mem_keySort {x : α} : x ∈ keySort key l ↔ x ∈ l := List.mem_insertionSort _

theorem perm_keySort (key : α → κ) (l : List α) : (keySort key l).Perm l := List.perm_insertionSort _ l

theorem keySort_pairwise (key : α → κ) (l : List α) : (keySort key l).Pairwise fun a b => key a ≤ key b := by
  have : IsTrans α fun a b => key a ≤ key b := ⟨fun _ _ _ => le_trans⟩
  have : Std.Total fun a b => key a ≤ key b := ⟨fun a b => le_total (key a) (key b)⟩
  exact List.pairwise_insertionSort _ l

/-- **Sorting forgets the order**, if the keys are different. -/
theorem keySort_congr (hperm : l.Perm l') (hnodup : (l.map key).Nodup) : keySort key l = keySort key l' := by
  refine (((perm_keySort key l).trans hperm).trans (perm_keySort key l').symm).eq_of_pairwise ?_
    (keySort_pairwise key l) (keySort_pairwise key l')
  intro a b ha hb hab hba
  have hb' := hperm.mem_iff.mpr (mem_keySort.mp hb)
  exact List.inj_on_of_nodup_map hnodup (mem_keySort.mp ha) hb' (le_antisymm hab hba)

/-- **Sorted lists are equal when they have the same elements.** -/
theorem keySort_eq_iff (hnodup : (l.map key).Nodup) (hnodup' : (l'.map key).Nodup) :
    keySort key l = keySort key l' ↔ ∀ x, x ∈ l ↔ x ∈ l' := by
  constructor
  · intro h x
    have hx : x ∈ keySort key l ↔ x ∈ keySort key l' := by rw [h]
    rwa [mem_keySort, mem_keySort] at hx
  · intro h
    exact keySort_congr ((List.perm_ext_iff_of_nodup hnodup.of_map hnodup'.of_map).mpr h) hnodup

end TaintForge
