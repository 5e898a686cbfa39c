import Mathlib.Data.List.Basic
import Mathlib.Logic.Function.Basic

/-!
# Writes in order

A function after writes at a list of places, where a place may be written more than once.

* `Overwrites`: nothing else has changed, and what the last write at a place left there is as it
  should be.
* `Overwrites.append`: one list of writes after another.
* `Overwrites.range`: writes at consecutive numbers.
-/

namespace TaintForge

variable {α β : Type*}

/-- `mem'` is `mem` after writes at `places`.  If `ok` holds, the last write at a place left there
what `P` demands of it. -/
structure Overwrites (ok : Prop) (mem mem' : α → β) (places : List α) (P : ℕ → β → Prop) : Prop where
  frame : ∀ a ∉ places, mem' a = mem a
  last : ok → ∀ (k : ℕ) (hk : k < places.length), places[k] ∉ places.drop (k + 1) → P k (mem' places[k])

namespace Overwrites

variable {ok ok' : Prop} {mem mem₁ mem' : α → β} {places l l' : List α} {P Q : ℕ → β → Prop}

theorem nil (mem : α → β) : Overwrites ok mem mem [] P :=
  ⟨fun _ _ => rfl, fun _ k hk => absurd hk (Nat.not_lt_zero k)⟩

/-- Writes that failed. -/
theorem of_frame (hok : ¬ok) (hframe : ∀ a ∉ places, mem' a = mem a) : Overwrites ok mem mem' places P :=
  ⟨hframe, fun h => absurd h hok⟩

theorem mono (h : Overwrites ok mem mem' places P) (hok : ok' → ok) (hP : ∀ k b, P k b → Q k b) :
    Overwrites ok' mem mem' places Q :=
  ⟨h.frame, fun hok' k hk hlast => hP k _ (h.last (hok hok') k hk hlast)⟩

/-- **One list of writes after another.** -/
theorem append (h : Overwrites ok mem mem₁ l P)
    (h' : Overwrites ok' mem₁ mem' l' fun k => P (l.length + k)) :
    Overwrites (ok ∧ ok') mem mem' (l ++ l') P := by
  refine ⟨fun a ha => ?_, fun hok k hk hlast => ?_⟩
  · rw [List.mem_append, not_or] at ha
    rw [h'.frame a ha.2, h.frame a ha.1]
  · rcases Nat.lt_or_ge k l.length with hlt | hge
    · -- the second list does not write here again
      rw [List.getElem_append_left hlt] at hlast ⊢
      rw [List.drop_append_of_le_length (show k + 1 ≤ l.length from hlt), List.mem_append,
        not_or] at hlast
      rw [h'.frame _ hlast.2]
      exact h.last hok.1 k hlt hlast.1
    · obtain ⟨i, rfl⟩ := Nat.exists_eq_add_of_le hge
      rw [List.length_append] at hk
      have hi : i < l'.length := by omega
      have hdrop : (l ++ l').drop (l.length + i + 1) = l'.drop (i + 1) := by
        rw [Nat.add_assoc, List.drop_length_add_append]
      have hget : (l ++ l')[l.length + i] = l'[i] := by
        rw [List.getElem_append_right hge]
        congr 1
        omega
      rw [hdrop, hget] at hlast
      rw [hget]
      exact h'.last hok.2 i hi hlast

/-- Writes at consecutive numbers, each written once. -/
theorem range {mem mem' : ℕ → β} {a n : ℕ} (hframe : ∀ b, b < a ∨ a + n ≤ b → mem' b = mem b)
    (hlast : ok → ∀ i < n, P i (mem' (a + i))) : Overwrites ok mem mem' (List.range' a n) P := by
  refine ⟨fun b hb => hframe b ?_, fun hok k hk _ => ?_⟩
  · rw [List.mem_range'_1] at hb
    omega
  · rw [List.length_range'] at hk
    rw [List.getElem_range', Nat.one_mul]
    exact hlast hok k hk

end Overwrites

end TaintForge
