import Mathlib.Order.Bounds.Basic

/-!
# Closing a selection under a monotone condition

Items carry labels in a join-semilattice.  An item may be selected when it fires on the label
accumulated so far, and selecting it joins its label.  A higher label never stops an item from
firing.

* `Reaches`: the selections that can be built, with the accumulated label.
* `Reaches.isLUB`: the accumulated label is the join of the start with the labels selected.
* `Reaches.eq_of_closed`: two selections that leave nothing to select are equal, in whatever order
  they were built.
-/

namespace Closure

variable {α ι : Type*} [SemilatticeSup α] (label : ι → α) (fires : α → ι → Prop)

/-- `Reaches label fires t S a`: from the label `t` the items `S` can be selected one after another,
and `a` is the label then accumulated. -/
inductive Reaches (t : α) : Set ι → α → Prop where
  | start : Reaches t ∅ t
  | select {S : Set ι} {a : α} {e : ι} (h : Reaches t S a) (hfires : fires a e) :
      Reaches t (insert e S) (a ⊔ label e)

variable {label fires} {t : α} {S S' : Set ι} {a a' : α}

theorem Reaches.isLUB (h : Reaches label fires t S a) : IsLUB (insert t (label '' S)) a := by
  induction h with
  | start => simp [isLUB_singleton]
  | @select S a e h hfires ih =>
    have hset : insert t (label '' insert e S) = insert t (label '' S) ∪ {label e} := by
      rw [Set.image_insert_eq, Set.union_singleton, Set.insert_comm]
    rw [hset]
    exact ih.union isLUB_singleton

theorem Reaches.start_le (h : Reaches label fires t S a) : t ≤ a :=
  h.isLUB.1 (Set.mem_insert _ _)

theorem Reaches.label_le (h : Reaches label fires t S a) {e : ι} (he : e ∈ S) : label e ≤ a :=
  h.isLUB.1 (Set.mem_insert_of_mem _ (Set.mem_image_of_mem _ he))

/-- A selection that is closed contains every other one. -/
theorem Reaches.subset_of_closed (hmono : ∀ a b e, a ≤ b → fires a e → fires b e)
    (h : Reaches label fires t S a) (h' : Reaches label fires t S' a')
    (hclosed : ∀ e, fires a' e → e ∈ S') : S ⊆ S' := by
  have hboth : S ⊆ S' ∧ a ≤ a' := by
    induction h with
    | start => exact ⟨Set.empty_subset _, h'.start_le⟩
    | @select S a e h hfires ih =>
      obtain ⟨hS, ha⟩ := ih
      have he : e ∈ S' := hclosed e (hmono _ _ _ ha hfires)
      exact ⟨Set.insert_subset he hS, sup_le ha (h'.label_le he)⟩
  exact hboth.1

theorem Reaches.eq_of_closed (hmono : ∀ a b e, a ≤ b → fires a e → fires b e)
    (h : Reaches label fires t S a) (hclosed : ∀ e, fires a e → e ∈ S)
    (h' : Reaches label fires t S' a') (hclosed' : ∀ e, fires a' e → e ∈ S') : S = S' :=
  (h.subset_of_closed hmono h' hclosed').antisymm (h'.subset_of_closed hmono h hclosed)

end Closure
