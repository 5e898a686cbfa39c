import TaintForge.Lib.CutSet
import TaintForge.Prov.Registry
import Mathlib.Order.Lattice

/-!
# What a label stands for

The meaning of a label: two finite sets of roots, of at most `limit` elements each, with the marks
that tell what was lost.  The join of two meanings makes them a join-semilattice, whatever was cut
on the way.

* `LabelValue`: a meaning, with its invariants.
* `LabelValue.join`: the join, each channel cut to the `limit` smallest roots.
* `LabelValue.Irrelevant`: two labels that cannot share a root; growing one of them never makes
  them irrelevant (`Irrelevant.anti`).
-/

namespace TaintForge

open CutSet

/-- The meaning of a label under a budget of `limit` roots in each channel. -/
@[ext] structure LabelValue (limit : ℕ) where
  dataRoots : Finset ℕ
  addressRoots : Finset ℕ
  completeMask : BitVec 8
  incompleteReasons : BitVec 64
  card_data : dataRoots.card ≤ limit
  card_address : addressRoots.card ≤ limit
  mask : completeMask &&& provCompleteAll = completeMask
  reasons : incompleteReasons = 0#64 ↔ completeMask = provCompleteAll

namespace LabelValue

variable {limit : ℕ}

/-- The marks that stay when `data` and `address` tell which channels were cut. -/
def keepMask (data address : Bool) : BitVec 8 :=
  (if data then ~~~provCompleteData else provCompleteAll) &&&
    (if address then ~~~provCompleteAddress else provCompleteAll)

/-- The reason a cut adds. -/
def cutReason (wasCut : Bool) : BitVec 64 := if wasCut then provIncompleteRootSetBudget else 0#64

theorem keepMask_or (d a d' a' : Bool) :
    keepMask (d || d') (a || a') &&& provCompleteAll =
      keepMask d a &&& keepMask d' a' &&& provCompleteAll := by
  revert d a d' a'
  decide

theorem keepMask_and_all (d a : Bool) : keepMask d a &&& provCompleteAll = provCompleteAll ↔
    d = false ∧ a = false := by
  revert d a
  decide

theorem cutReason_or (c c' : Bool) : cutReason (c || c') = cutReason c ||| cutReason c' := by
  revert c c'
  decide

theorem cutReason_eq_zero_iff (c : Bool) : cutReason c = 0#64 ↔ c = false := by
  revert c
  decide

/-- A mask that survives an intersection whole was whole. -/
theorem eq_all_of_and {x y : BitVec 8} (hx : x &&& provCompleteAll = x)
    (h : x &&& y = provCompleteAll) : x = provCompleteAll := by
  have hself : x &&& (x &&& y) = x &&& y := by rw [← BitVec.and_assoc, BitVec.and_self]
  rw [h, hx] at hself
  exact hself

/-- Whether a union does not fit in the budget. -/
def overflows (limit : ℕ) (s t : Finset ℕ) : Bool := decide (limit < (s ∪ t).card)

theorem overflows_comm (s t : Finset ℕ) : overflows limit s t = overflows limit t s := by
  rw [overflows, overflows, Finset.union_comm]

theorem overflows_eq_false_iff {s t : Finset ℕ} :
    overflows limit s t = false ↔ (s ∪ t).card ≤ limit := by
  rw [overflows, decide_eq_false_iff_not, not_lt]

/-- A cut on the way is seen at the end, in either grouping. -/
theorem overflows_or (s t u : Finset ℕ) :
    (overflows limit s t || overflows limit (cut limit (s ∪ t)) u) =
      decide (limit < (s ∪ t ∪ u).card) := by
  rw [overflows, overflows, ← Bool.decide_or]
  exact decide_eq_decide.mpr (card_cut_union_or limit s t u)

/-- The join of two meanings. -/
def join (a b : LabelValue limit) : LabelValue limit where
  dataRoots := cut limit (a.dataRoots ∪ b.dataRoots)
  addressRoots := cut limit (a.addressRoots ∪ b.addressRoots)
  completeMask := a.completeMask &&& b.completeMask &&&
    keepMask (overflows limit a.dataRoots b.dataRoots)
      (overflows limit a.addressRoots b.addressRoots)
  incompleteReasons := a.incompleteReasons ||| b.incompleteReasons |||
    cutReason (overflows limit a.dataRoots b.dataRoots ||
      overflows limit a.addressRoots b.addressRoots)
  card_data := card_cut_le _ _
  card_address := card_cut_le _ _
  mask := by
    conv_rhs => rw [← a.mask]
    ac_rfl
  reasons := by
    rw [BitVec.or_eq_zero_iff, BitVec.or_eq_zero_iff, cutReason_eq_zero_iff, Bool.or_eq_false_iff,
      a.reasons, b.reasons]
    constructor
    · rintro ⟨⟨ha, hb⟩, hd, haddr⟩
      rw [ha, hb, hd, haddr]
      decide
    · intro h
      have ha : a.completeMask = provCompleteAll := by
        rw [BitVec.and_assoc] at h
        exact eq_all_of_and a.mask h
      rw [ha, BitVec.and_comm provCompleteAll, b.mask] at h
      have hb := eq_all_of_and b.mask h
      rw [hb, BitVec.and_comm, keepMask_and_all] at h
      exact ⟨⟨ha, hb⟩, h⟩

theorem join_comm (a b : LabelValue limit) : a.join b = b.join a := by
  ext1
  · exact congrArg (cut limit) (Finset.union_comm _ _)
  · exact congrArg (cut limit) (Finset.union_comm _ _)
  · simp only [join, BitVec.and_comm a.completeMask, overflows_comm a.dataRoots,
      overflows_comm a.addressRoots]
  · simp only [join, BitVec.or_comm a.incompleteReasons, overflows_comm a.dataRoots,
      overflows_comm a.addressRoots]

/-- The join of three meanings, grouped to the left. -/
theorem join_join (a b c : LabelValue limit) :
    ((a.join b).join c).dataRoots = cut limit (a.dataRoots ∪ b.dataRoots ∪ c.dataRoots) ∧
    ((a.join b).join c).addressRoots =
      cut limit (a.addressRoots ∪ b.addressRoots ∪ c.addressRoots) ∧
    ((a.join b).join c).completeMask = a.completeMask &&& b.completeMask &&& c.completeMask &&&
      keepMask (decide (limit < (a.dataRoots ∪ b.dataRoots ∪ c.dataRoots).card))
        (decide (limit < (a.addressRoots ∪ b.addressRoots ∪ c.addressRoots).card)) ∧
    ((a.join b).join c).incompleteReasons =
      a.incompleteReasons ||| b.incompleteReasons ||| c.incompleteReasons |||
        cutReason (decide (limit < (a.dataRoots ∪ b.dataRoots ∪ c.dataRoots).card) ||
          decide (limit < (a.addressRoots ∪ b.addressRoots ∪ c.addressRoots).card)) := by
  refine ⟨cut_union_left _ _ _, cut_union_left _ _ _, ?_, ?_⟩
  · rw [← overflows_or, ← overflows_or]
    simp only [join]
    generalize overflows limit a.dataRoots b.dataRoots = d
    generalize overflows limit a.addressRoots b.addressRoots = e
    generalize overflows limit (cut limit (a.dataRoots ∪ b.dataRoots)) c.dataRoots = d'
    generalize overflows limit (cut limit (a.addressRoots ∪ b.addressRoots)) c.addressRoots = e'
    -- both sides keep at most the bits of `provCompleteAll`
    have hor := keepMask_or d e d' e'
    have hleft : a.completeMask &&& b.completeMask &&& keepMask d e &&& c.completeMask &&&
        keepMask d' e' =
          a.completeMask &&& b.completeMask &&& c.completeMask &&&
            (keepMask d e &&& keepMask d' e' &&& provCompleteAll) := by
      conv_lhs => rw [← a.mask]
      ac_rfl
    rw [hleft, ← hor]
    conv_rhs => rw [← a.mask]
    ac_rfl
  · rw [← overflows_or, ← overflows_or]
    simp only [join, cutReason_or]
    ac_rfl

theorem join_assoc (a b c : LabelValue limit) : (a.join b).join c = a.join (b.join c) := by
  obtain ⟨hd, ha, hm, hr⟩ := join_join a b c
  obtain ⟨hd', ha', hm', hr'⟩ := join_join b c a
  have hdata : b.dataRoots ∪ c.dataRoots ∪ a.dataRoots =
      a.dataRoots ∪ b.dataRoots ∪ c.dataRoots := by ac_rfl
  have haddress : b.addressRoots ∪ c.addressRoots ∪ a.addressRoots =
      a.addressRoots ∪ b.addressRoots ∪ c.addressRoots := by ac_rfl
  rw [hdata] at hd' hm' hr'
  rw [haddress] at ha' hm' hr'
  rw [join_comm a (b.join c)]
  ext1
  · rw [hd, hd']
  · rw [ha, ha']
  · rw [hm, hm']
    ac_rfl
  · rw [hr, hr']
    ac_rfl

theorem join_self (a : LabelValue limit) : a.join a = a := by
  have hd : overflows limit a.dataRoots a.dataRoots = false := by
    rw [overflows_eq_false_iff, Finset.union_self]
    exact a.card_data
  have ha : overflows limit a.addressRoots a.addressRoots = false := by
    rw [overflows_eq_false_iff, Finset.union_self]
    exact a.card_address
  ext1
  · show cut limit (a.dataRoots ∪ a.dataRoots) = _
    rw [Finset.union_self, cut_eq_self a.card_data]
  · show cut limit (a.addressRoots ∪ a.addressRoots) = _
    rw [Finset.union_self, cut_eq_self a.card_address]
  · simp only [join, hd, ha, BitVec.and_self]
    exact a.mask
  · simp only [join, hd, ha, BitVec.or_self]
    exact BitVec.or_zero

instance : Max (LabelValue limit) := ⟨join⟩

instance : SemilatticeSup (LabelValue limit) := SemilatticeSup.mk' join_comm join_assoc join_self

theorem sup_eq_join (a b : LabelValue limit) : a ⊔ b = a.join b := rfl

/-- The meaning of the clean label. -/
def clean : LabelValue limit where
  dataRoots := ∅
  addressRoots := ∅
  completeMask := provCompleteAll
  incompleteReasons := 0#64
  card_data := Nat.zero_le _
  card_address := Nat.zero_le _
  mask := by decide
  reasons := by simp

theorem join_clean (a : LabelValue limit) : a.join clean = a := by
  have hd : overflows limit a.dataRoots ∅ = false := by
    rw [overflows_eq_false_iff, Finset.union_empty]
    exact a.card_data
  have ha : overflows limit a.addressRoots ∅ = false := by
    rw [overflows_eq_false_iff, Finset.union_empty]
    exact a.card_address
  ext1
  · show cut limit (a.dataRoots ∪ ∅) = _
    rw [Finset.union_empty, cut_eq_self a.card_data]
  · show cut limit (a.addressRoots ∪ ∅) = _
    rw [Finset.union_empty, cut_eq_self a.card_address]
  · simp only [join, clean, hd, ha, a.mask]
    exact a.mask
  · simp only [join, clean, hd, ha]
    rw [BitVec.or_zero]
    exact BitVec.or_zero

/-! ### Relevance -/

/-- Nothing was lost. -/
def Complete (a : LabelValue limit) : Prop := a.completeMask = provCompleteAll

/-- The roots of both channels. -/
def roots (a : LabelValue limit) : Finset ℕ := a.dataRoots ∪ a.addressRoots

/-- A complete label without roots. -/
def Untainted (a : LabelValue limit) : Prop := a.Complete ∧ a.roots = ∅

/-- The two labels are known not to share a root. -/
def Irrelevant (c a : LabelValue limit) : Prop :=
  c.Untainted ∨ a.Untainted ∨ (c.Complete ∧ a.Complete ∧ Disjoint c.roots a.roots)

/-- What lies below a complete label is complete, and its roots are all there. -/
theorem Complete.of_le {a b : LabelValue limit} (hb : b.Complete) (h : a ≤ b) :
    a.Complete ∧ a.roots ⊆ b.roots := by
  have hjoin : a.join b = b := sup_eq_right.mpr h
  have hmask : a.completeMask &&& (b.completeMask &&&
      keepMask (overflows limit a.dataRoots b.dataRoots)
        (overflows limit a.addressRoots b.addressRoots)) = provCompleteAll := by
    rw [← BitVec.and_assoc]
    exact (congrArg completeMask hjoin).trans hb
  have ha : a.Complete := eq_all_of_and a.mask hmask
  rw [show a.completeMask = provCompleteAll from ha, show b.completeMask = provCompleteAll from hb,
    ← BitVec.and_assoc, BitVec.and_self, BitVec.and_comm, keepMask_and_all,
    overflows_eq_false_iff, overflows_eq_false_iff] at hmask
  have hdata : a.dataRoots ∪ b.dataRoots = b.dataRoots :=
    (cut_eq_self hmask.1).symm.trans (congrArg dataRoots hjoin)
  have haddress : a.addressRoots ∪ b.addressRoots = b.addressRoots :=
    (cut_eq_self hmask.2).symm.trans (congrArg addressRoots hjoin)
  exact ⟨ha, Finset.union_subset_union (Finset.union_eq_right.mp hdata)
    (Finset.union_eq_right.mp haddress)⟩

/-- A smaller label stays irrelevant. -/
theorem Irrelevant.anti {c a b : LabelValue limit} (h : c.Irrelevant b) (hab : a ≤ b) :
    c.Irrelevant a := by
  rcases h with hc | hb | ⟨hc, hb, hdisjoint⟩
  · exact Or.inl hc
  · obtain ⟨ha, hroots⟩ := hb.1.of_le hab
    exact Or.inr (Or.inl ⟨ha, Finset.subset_empty.mp (hb.2 ▸ hroots)⟩)
  · obtain ⟨ha, hroots⟩ := hb.of_le hab
    exact Or.inr (Or.inr ⟨hc, ha, hdisjoint.mono_right hroots⟩)

end LabelValue

end TaintForge
