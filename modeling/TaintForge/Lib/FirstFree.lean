import Mathlib.Data.List.Range
import Mathlib.Data.List.Nodup

/-!
# The first free slot

A search goes through the slots from `lo` to `hi`, from a preferred one to the end and then from the start,
and takes the first free one.  Searches that do not see each other and prefer one slot after the next find
different slots as long as all but the last one get what they prefer.

* `candidates`, `firstFree`: the search.
* `firstFree_succ`: where two searches find the same slot.
* `nodup_firstFree_iff`: when searches from consecutive slots find different ones.
-/

namespace TaintForge

/-! ### The search -/

/-- The slots in the order of the search. -/
def candidates (lo hi preferred : ℕ) : List ℕ :=
  List.range' (min (max preferred lo) hi) (hi + 1 - min (max preferred lo) hi) ++
    List.range' lo (min (max preferred lo) hi - lo)

/-- The first free slot. -/
def firstFree (free : ℕ → Bool) (lo hi preferred : ℕ) : Option ℕ :=
  (candidates lo hi preferred).find? free

variable {free : ℕ → Bool} {lo hi s p : ℕ}

theorem candidates_of_le (hlo : lo ≤ s) (hhi : s ≤ hi) :
    candidates lo hi s = List.range' s (hi + 1 - s) ++ List.range' lo (s - lo) := by
  rw [candidates, max_eq_left hlo, min_eq_left hhi]

theorem mem_candidates (h : lo ≤ hi) : p ∈ candidates lo hi s ↔ lo ≤ p ∧ p ≤ hi := by
  rw [candidates, List.mem_append, List.mem_range'_1, List.mem_range'_1]
  omega

theorem firstFree_mem (h : lo ≤ hi) (hp : firstFree free lo hi s = some p) :
    lo ≤ p ∧ p ≤ hi ∧ free p = true := by
  obtain ⟨hle, hhi⟩ := (mem_candidates h).mp (List.mem_of_find?_eq_some hp)
  exact ⟨hle, hhi, List.find?_some hp⟩

/-- A search that gets what it prefers. -/
theorem firstFree_of_free (hlo : lo ≤ s) (hhi : s ≤ hi) (hfree : free s = true) :
    firstFree free lo hi s = some s := by
  have hsplit : hi + 1 - s = hi - s + 1 := by omega
  rw [firstFree, candidates_of_le hlo hhi, hsplit, List.range'_succ, List.cons_append,
    List.find?_cons_of_pos hfree]

/-- **Two searches find the same slot** where the first one does not get what it prefers, and at the end. -/
theorem firstFree_succ (hlo : lo ≤ s) (hbusy : s < hi → free s = false) :
    firstFree free lo hi (s + 1) = firstFree free lo hi s := by
  rcases Nat.lt_or_ge s hi with hlt | hge
  · have hup : List.range' s (hi + 1 - s) = s :: List.range' (s + 1) (hi + 1 - (s + 1)) := by
      rw [← List.range'_succ]
      congr 1
      omega
    have hdown : List.range' lo (s + 1 - lo) = List.range' lo (s - lo) ++ [s] := by
      rw [Nat.sub_add_comm hlo, List.range'_1_concat]
      congr 2
      omega
    have hs : ¬ free s = true := by
      rw [hbusy hlt]
      exact Bool.false_ne_true
    rw [firstFree, firstFree, candidates_of_le hlo hlt.le, candidates_of_le (by omega) (by omega), hup, hdown,
      List.cons_append, List.find?_cons_of_neg hs, List.find?_append, List.find?_append, List.find?_append,
      List.find?_cons_of_neg hs, List.find?_nil, Option.or_none]
  · -- Both searches start at the last slot.
    rw [firstFree, firstFree, candidates, candidates, max_eq_left hlo, max_eq_left (by omega),
      min_eq_right hge, min_eq_right (by omega)]

/-- A search that goes back below the slot it prefers has found nothing else. -/
theorem firstFree_back (hlo : lo ≤ s) (hhi : s ≤ hi) (hp : firstFree free lo hi s = some p) (hlt : p < s)
    {q : ℕ} (hq : lo ≤ q) (hqhi : q ≤ hi) (hqfree : free q = true) : p ≤ q ∧ q < s := by
  rw [firstFree, candidates_of_le hlo hhi, List.find?_append] at hp
  cases hup : (List.range' s (hi + 1 - s)).find? free with
  | some r =>
    rw [hup, Option.some_or, Option.some.injEq] at hp
    have hmem := List.mem_range'_1.mp (List.mem_of_find?_eq_some hup)
    omega
  | none =>
    rw [hup, Option.none_or, List.find?_range'_eq_some] at hp
    obtain ⟨-, -, hbelow⟩ := hp
    have hqs : q < s := by
      by_contra hle
      refine List.find?_eq_none.mp hup q ?_ hqfree
      exact List.mem_range'_1.mpr ⟨by omega, by omega⟩
    refine ⟨?_, hqs⟩
    by_contra hle
    have hbusy := hbelow q hq (by omega)
    rw [hqfree] at hbusy
    exact absurd hbusy (by decide)

/-! ### Several searches -/

/-- All but the last of `n` consecutive slots are free, and some other slot is free. -/
def Spread (free : ℕ → Bool) (lo hi seed n : ℕ) : Prop :=
  (∀ k, k + 1 < n → seed + k < hi ∧ free (seed + k) = true) ∧
    ∃ q, lo ≤ q ∧ q ≤ hi ∧ free q = true ∧ ¬ (seed ≤ q ∧ q + 1 < seed + n)

/-- **When searches from consecutive slots find different ones.** -/
theorem nodup_firstFree_iff {seed n : ℕ} (hle : lo ≤ hi) (hseed : lo ≤ seed)
    (hfound : ∀ k < n, (firstFree free lo hi (seed + k)).isSome) :
    ((List.range n).map fun k => firstFree free lo hi (seed + k)).Nodup ↔
      n ≤ 1 ∨ Spread free lo hi seed n := by
  rw [List.nodup_map_iff_inj_on List.nodup_range]
  simp only [List.mem_range]
  rcases Nat.lt_or_ge 1 n with hn | hn
  · rw [or_iff_right (by omega)]
    obtain ⟨p, hp⟩ := Option.isSome_iff_exists.mp (hfound (n - 1) (by omega))
    obtain ⟨hplo, hphi, hpfree⟩ := firstFree_mem hle hp
    constructor
    · intro hinj
      have hprefers : ∀ k, k + 1 < n → seed + k < hi ∧ free (seed + k) = true := by
        intro k hk
        by_contra hnot
        have hsame : firstFree free lo hi (seed + (k + 1)) = firstFree free lo hi (seed + k) :=
          firstFree_succ (show lo ≤ seed + k by omega) fun hlt =>
            eq_false_of_ne_true fun hfree => hnot ⟨hlt, hfree⟩
        have hindex := hinj (k + 1) hk k (by omega) hsame
        omega
      refine ⟨hprefers, p, hplo, hphi, hpfree, ?_⟩
      rintro ⟨hge, hlt⟩
      -- The last search would find the slot of an earlier one.
      have hk : p - seed + 1 < n := by omega
      obtain ⟨hkhi, hkfree⟩ := hprefers (p - seed) hk
      have hearlier := firstFree_of_free (show lo ≤ seed + (p - seed) by omega) hkhi.le hkfree
      have hslot : seed + (p - seed) = p := by omega
      have hindex := hinj (n - 1) (by omega) (p - seed) (by omega) (hp.trans (by rw [hearlier, hslot]))
      omega
    · rintro ⟨hprefers, q, hqlo, hqhi, hqfree, hother⟩
      have hfirst : ∀ k, k + 1 < n → firstFree free lo hi (seed + k) = some (seed + k) := fun k hk =>
        firstFree_of_free (by omega) (hprefers k hk).1.le (hprefers k hk).2
      have hlasthi : seed + (n - 1) ≤ hi := by
        have hprefer := (hprefers (n - 2) (by omega)).1
        omega
      have hlast : ∀ k, k + 1 < n → p ≠ seed + k := by
        rintro k hk rfl
        have hback := firstFree_back (by omega) hlasthi hp (by omega) hqlo hqhi hqfree
        omega
      intro i hi' j hj heq
      rcases Nat.lt_or_ge (i + 1) n with hi1 | hi1 <;> rcases Nat.lt_or_ge (j + 1) n with hj1 | hj1
      · rw [hfirst i hi1, hfirst j hj1, Option.some.injEq] at heq
        omega
      · obtain rfl : j = n - 1 := by omega
        rw [hfirst i hi1, hp, Option.some.injEq] at heq
        exact absurd heq.symm (hlast i hi1)
      · obtain rfl : i = n - 1 := by omega
        rw [hfirst j hj1, hp, Option.some.injEq] at heq
        exact absurd heq (hlast j hj1)
      · omega
  · refine iff_of_true (fun i hi' j hj _ => by omega) (Or.inl hn)

end TaintForge
