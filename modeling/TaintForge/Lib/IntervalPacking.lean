import Mathlib.Data.List.MinMax
import Mathlib.Order.Bounds.Basic

/-!
# Packing intervals

Intervals are things with a first and a last point.  Going from left to right and always taking an interval
that ends as early as any that is left gives as many intervals without a common point as there can be.

* `Packs`: there are as many intervals of which no two meet.
* `Sweep`: the spans that are found from left to right.
* `Sweep.isGreatest`, `Sweep.isGreatest_iff`: they are as many as possible, also among more intervals than the
  sweep looks at where these pack no better.
-/

namespace TaintForge.Packing

variable {ι : Type*} (first last : ι → ℕ)

/-- Two intervals do not meet. -/
def Apart (a b : ι) : Prop := last a < first b ∨ last b < first a

/-- There are `k` intervals of the given kind of which no two meet. -/
def Packs (P : ι → Prop) (k : ℕ) : Prop :=
  ∃ intervals : List ι, intervals.length = k ∧ (∀ a ∈ intervals, P a) ∧
    intervals.Pairwise (Apart first last)

/-- The spans found from a point on: one that ends as early as any interval that is left, then the next one
behind it, until no interval is left. -/
inductive Sweep (P : ι → Prop) : ℕ → List (ℕ × ℕ) → Prop
  | stop {point : ℕ} (h : ∀ a, P a → first a < point) : Sweep P point []
  | take {point : ℕ} {spans : List (ℕ × ℕ)} (a : ι) (ha : P a) (hpoint : point ≤ first a)
      (h : ∀ b, P b → point ≤ first b → last a ≤ last b) (rest : Sweep P (last a + 1) spans) :
      Sweep P point ((first a, last a) :: spans)

variable {first last} {P : ι → Prop} {point : ℕ} {spans : List (ℕ × ℕ)}

theorem Packs.mono {Q : ι → Prop} (h : ∀ a, P a → Q a) {k : ℕ} (hpacks : Packs first last P k) :
    Packs first last Q k := by
  obtain ⟨intervals, hlength, hall, hapart⟩ := hpacks
  exact ⟨intervals, hlength, fun a ha => h a (hall a ha), hapart⟩

/-- Some of the intervals are a packing too. -/
theorem Packs.of_le {j k : ℕ} (hpacks : Packs first last P k) (hle : j ≤ k) : Packs first last P j := by
  obtain ⟨intervals, hlength, hall, hapart⟩ := hpacks
  refine ⟨intervals.take j, ?_, ?_, ?_⟩
  · rw [List.length_take, hlength]
    exact Nat.min_eq_left hle
  · intro a ha
    exact hall a (List.mem_of_mem_take ha)
  · exact hapart.sublist (List.take_sublist j intervals)

/-- Intervals that each contain one of another kind pack no better than those. -/
theorem Packs.of_within {Q : ι → Prop} {k : ℕ} (hpacks : Packs first last Q k)
    (h : ∀ a, Q a → ∃ b, P b ∧ first a ≤ first b ∧ last b ≤ last a) : Packs first last P k := by
  obtain ⟨intervals, hlength, hall, hapart⟩ := hpacks
  choose! inner hinner using h
  refine ⟨intervals.map inner, by rw [List.length_map, hlength], ?_, ?_⟩
  · intro b hb
    obtain ⟨a, ha, rfl⟩ := List.mem_map.mp hb
    exact (hinner a (hall a ha)).1
  · rw [List.pairwise_map]
    refine hapart.imp_of_mem ?_
    intro a b ha hb hmeet
    obtain ⟨-, hfirst, hlast⟩ := hinner a (hall a ha)
    obtain ⟨-, hfirst', hlast'⟩ := hinner b (hall b hb)
    rcases hmeet with hlt | hlt
    · exact Or.inl (by omega)
    · exact Or.inr (by omega)

/-- A list of intervals that is not empty has one that ends first. -/
theorem exists_first_end (last : ι → ℕ) {intervals : List ι} (hne : intervals ≠ []) :
    ∃ a ∈ intervals, ∀ b ∈ intervals, last a ≤ last b := by
  cases hmin : intervals.argmin last with
  | none => exact absurd (List.argmin_eq_none.mp hmin) hne
  | some a => exact ⟨a, List.argmin_mem hmin, fun b hb => List.le_of_mem_argmin hb hmin⟩

namespace Sweep

/-- A sweep may start earlier where no interval starts in between. -/
theorem skip {behind : ℕ} (h : Sweep first last P behind spans) (hle : point ≤ behind)
    (hnone : ∀ a, P a → point ≤ first a → behind ≤ first a) : Sweep first last P point spans := by
  cases h with
  | stop h =>
    refine stop fun a ha => ?_
    by_contra hfirst
    exact absurd (h a ha) (Nat.not_lt.mpr (hnone a ha (Nat.not_lt.mp hfirst)))
  | take a ha hpoint h rest =>
    exact take a ha (hle.trans hpoint) (fun b hb hfirst => h b hb (hnone b hb hfirst)) rest

/-- The spans are those of intervals that follow each other. -/
theorem exists_intervals (hproper : ∀ a, P a → first a ≤ last a) (h : Sweep first last P point spans) :
    ∃ intervals : List ι, intervals.map (fun a => (first a, last a)) = spans ∧
      (∀ a ∈ intervals, P a ∧ point ≤ first a) ∧ intervals.Pairwise fun a b => last a < first b := by
  induction h with
  | stop h => exact ⟨[], rfl, fun a ha => absurd ha List.not_mem_nil, .nil⟩
  | take a ha hpoint h rest ih =>
    obtain ⟨intervals, hspans, hall, hpairwise⟩ := ih
    refine ⟨a :: intervals, by rw [List.map_cons, hspans], fun b hb => ?_, ?_⟩
    · rcases List.mem_cons.mp hb with rfl | hb
      · exact ⟨ha, hpoint⟩
      · have hbehind := (hall b hb).2
        have hspan := hproper a ha
        exact ⟨(hall b hb).1, by omega⟩
    · exact List.pairwise_cons.mpr ⟨fun b hb => (hall b hb).2, hpairwise⟩

/-- The spans are a packing. -/
theorem packs (hproper : ∀ a, P a → first a ≤ last a) (h : Sweep first last P point spans) :
    Packs first last P spans.length := by
  obtain ⟨intervals, rfl, hall, hpairwise⟩ := h.exists_intervals hproper
  exact ⟨intervals, (List.length_map _).symm, fun a ha => (hall a ha).1,
    hpairwise.imp fun hlt => Or.inl hlt⟩

/-- No packing of intervals from the point on is larger. -/
theorem length_le (hproper : ∀ a, P a → first a ≤ last a) (h : Sweep first last P point spans) :
    ∀ intervals : List ι, (∀ a ∈ intervals, P a ∧ point ≤ first a) →
      intervals.Pairwise (Apart first last) → intervals.length ≤ spans.length := by
  induction h with
  | stop hnone =>
    intro intervals hall _
    cases intervals with
    | nil => exact le_rfl
    | cons a intervals =>
      obtain ⟨ha, hpoint⟩ := hall a List.mem_cons_self
      exact absurd (hnone a ha) (Nat.not_lt.mpr hpoint)
  | take a ha hpoint hearliest rest ih =>
    intro intervals hall hapart
    by_cases hne : intervals = []
    · rw [hne]
      exact Nat.zero_le _
    obtain ⟨c, hc, hfirst⟩ := exists_first_end last hne
    obtain ⟨front, back, rfl⟩ := List.append_of_mem hc
    have hend := hearliest c (hall c hc).1 (hall c hc).2
    -- The others lie behind the one that ends first, so behind the one that was taken.
    have hbehind : ∀ b ∈ front ++ back, last c < first b := by
      intro b hb
      have hmem : b ∈ front ++ c :: back := by
        rcases List.mem_append.mp hb with hb | hb
        · exact List.mem_append_left _ hb
        · exact List.mem_append_right _ (List.mem_cons_of_mem c hb)
      have hspan := hproper c (hall c hc).1
      have hlater := hfirst b hmem
      have happart : Apart first last c b := by
        obtain ⟨-, hpairs, hcross⟩ := List.pairwise_append.mp hapart
        rcases List.mem_append.mp hb with hb | hb
        · exact (hcross b hb c List.mem_cons_self).symm
        · exact List.rel_of_pairwise_cons hpairs hb
      rcases happart with hlt | hlt <;> omega
    have hrest : (front ++ back).length ≤ _ := ih (front ++ back) ?_ ?_
    · rw [List.length_append] at hrest
      rw [List.length_append, List.length_cons, List.length_cons]
      omega
    · intro b hb
      have hmem : b ∈ front ++ c :: back := by
        rcases List.mem_append.mp hb with hb | hb
        · exact List.mem_append_left _ hb
        · exact List.mem_append_right _ (List.mem_cons_of_mem c hb)
      have hlt := hbehind b hb
      exact ⟨(hall b hmem).1, by omega⟩
    · exact hapart.sublist ((List.Sublist.refl front).append (List.sublist_cons_self c back))

/-- **A sweep from the left finds as many intervals as possible.** -/
theorem isGreatest (hproper : ∀ a, P a → first a ≤ last a) (h : Sweep first last P 0 spans) :
    IsGreatest {k | Packs first last P k} spans.length := by
  refine ⟨h.packs hproper, ?_⟩
  rintro k ⟨intervals, rfl, hall, hapart⟩
  exact h.length_le hproper intervals (fun a ha => ⟨hall a ha, Nat.zero_le _⟩) hapart

/-- Of a wider kind there are no more exactly where it packs no better. -/
theorem isGreatest_iff {Q : ι → Prop} (hsub : ∀ a, P a → Q a) (hproper : ∀ a, P a → first a ≤ last a)
    (h : Sweep first last P 0 spans) :
    IsGreatest {k | Packs first last Q k} spans.length ↔ ∀ k, Packs first last Q k → Packs first last P k := by
  constructor
  · intro hgreatest k hk
    exact (h.packs hproper).of_le (hgreatest.2 hk)
  · intro hpacks
    refine ⟨(h.packs hproper).mono hsub, fun k hk => ?_⟩
    exact (h.isGreatest hproper).2 (hpacks k hk)

end Sweep

end TaintForge.Packing
