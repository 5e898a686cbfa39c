import Mathlib.Data.Set.Insert
import Mathlib.Logic.Relation

/-!
# Marking a graph

A traversal that marks the nodes of a graph before it goes on to what follows them.  While a node is being
explored it is marked, but what follows it need not be.

* `Extends`: what a traversal adds to the marks, with a rule for each way to compose traversals.
* `Extends.reaches`: a traversal from nothing marks all that can be reached.
-/

namespace TaintForge.Marking

variable {α : Type*} {next : α → Set α} {marks marks' marks'' : Set α}

/-- The marks grow, and what follows a new mark is marked. -/
structure Extends (next : α → Set α) (marks marks' : Set α) : Prop where
  subset : marks ⊆ marks'
  closed : ∀ x ∈ marks', x ∉ marks → next x ⊆ marks'

namespace Extends

theorem refl (marks : Set α) : Extends next marks marks := ⟨subset_rfl, fun _ hx hnot => absurd hx hnot⟩

theorem trans (h : Extends next marks marks') (h' : Extends next marks' marks'') :
    Extends next marks marks'' := by
  refine ⟨h.subset.trans h'.subset, fun x hx hnot => ?_⟩
  by_cases hmid : x ∈ marks'
  · exact (h.closed x hmid hnot).trans h'.subset
  · exact h'.closed x hx hmid

/-- A node that is marked first, and explored then. -/
theorem explore {x : α} (h : Extends next (insert x marks) marks') (hnext : next x ⊆ marks') :
    Extends next marks marks' := by
  refine ⟨(Set.subset_insert x marks).trans h.subset, fun y hy hnot => ?_⟩
  by_cases hsame : y = x
  · rw [hsame]
    exact hnext
  · exact h.closed y hy fun hmem => hmem.elim hsame hnot

/-- **Everything that can be reached is marked** in the end. -/
theorem reaches (h : Extends next ∅ marks) {root : α} (hroot : root ∈ marks) {x : α}
    (hx : Relation.ReflTransGen (fun a b => b ∈ next a) root x) : x ∈ marks := by
  induction hx with
  | refl => exact hroot
  | tail _ hnext ih => exact h.closed _ ih (Set.notMem_empty _) hnext

end Extends

end TaintForge.Marking
