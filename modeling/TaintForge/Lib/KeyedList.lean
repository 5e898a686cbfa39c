import Mathlib.Data.List.Nodup

/-!
# Lists with a key

Entries that are found by a key, the first of them where several have the same: the files of a directory, the
documents of a store.

* `entryOf`: the entry under a key.
* `updateKey`, `entryOf_updateKey`: a change of the entries under one key.
* `entryOf_eq_some_iff`: where no two entries share a key.
-/

namespace TaintForge

variable {α β κ : Type*} [BEq κ]

/-- The first entry under a key. -/
def entryOf (key : α → κ) (k : κ) (l : List α) : Option α := l.find? fun a => key a == k

variable {key : α → κ} {k : κ} {l m : List α} {a : α}

@[simp] theorem entryOf_nil : entryOf key k [] = none := rfl

theorem entryOf_append : entryOf key k (l ++ m) = (entryOf key k l).or (entryOf key k m) :=
  List.find?_append

/-- Entries that are kept in another form. -/
theorem entryOf_map {f : α → β} {key' : β → κ} (hkey : ∀ a, key' (f a) = key a) :
    entryOf key' k (l.map f) = (entryOf key k l).map f := by
  unfold entryOf
  rw [List.find?_map]
  congr 2
  funext a
  simp [hkey]

variable [LawfulBEq κ]

theorem mem_of_entryOf (h : entryOf key k l = some a) : a ∈ l ∧ key a = k :=
  ⟨List.mem_of_find?_eq_some h, by simpa using List.find?_some h⟩

theorem entryOf_eq_none_iff : entryOf key k l = none ↔ k ∉ l.map key := by
  unfold entryOf
  rw [List.find?_eq_none, List.mem_map]
  simp

variable [DecidableEq κ]

theorem entryOf_cons : entryOf key k (a :: l) = if key a = k then some a else entryOf key k l := by
  unfold entryOf
  by_cases h : key a = k
  · simp [h]
  · simp [h]

theorem entryOf_concat :
    entryOf key k (l ++ [a]) = (entryOf key k l).or (if key a = k then some a else none) := by
  rw [entryOf_append, entryOf_cons, entryOf_nil]

/-- The entries under one key are changed. -/
def updateKey (key : α → κ) (k : κ) (change : α → α) (l : List α) : List α :=
  l.map fun a => if key a = k then change a else a

omit [BEq κ] [LawfulBEq κ] in
theorem key_update {change : α → α} (hkey : ∀ a, key (change a) = key a) (k : κ) (a : α) :
    key (if key a = k then change a else a) = key a := by
  split
  · exact hkey a
  · rfl

/-- **A change is seen under its key**, when the entries keep theirs. -/
theorem entryOf_updateKey {change : α → α} (hkey : ∀ a, key (change a) = key a) (k k' : κ) :
    entryOf key k' (updateKey key k change l) =
      if k' = k then (entryOf key k l).map change else entryOf key k' l := by
  unfold updateKey
  induction l with
  | nil => simp
  | cons a l ih =>
    rw [List.map_cons, entryOf_cons, entryOf_cons, entryOf_cons, ih, key_update hkey]
    by_cases hk : k' = k
    · subst hk
      by_cases ha : key a = k'
      · simp [ha]
      · simp [ha]
    · by_cases ha : key a = k'
      · have hne : key a ≠ k := fun h => hk (ha.symm.trans h)
        simp [hk, ha]
      · simp [hk, ha]

omit [BEq κ] [LawfulBEq κ] in
theorem map_key_updateKey {change : α → α} (hkey : ∀ a, key (change a) = key a) (k : κ) :
    (updateKey key k change l).map key = l.map key := by
  rw [updateKey, List.map_map]
  apply List.map_congr_left
  intro a _
  exact key_update hkey k a

/-- **Where no two entries share a key, an entry is found under its own.** -/
theorem entryOf_eq_some_iff (hnodup : (l.map key).Nodup) : entryOf key k l = some a ↔ a ∈ l ∧ key a = k := by
  refine ⟨mem_of_entryOf, ?_⟩
  rintro ⟨hmem, rfl⟩
  induction l with
  | nil => exact absurd hmem List.not_mem_nil
  | cons b l ih =>
    rw [List.map_cons, List.nodup_cons] at hnodup
    rw [entryOf_cons]
    rcases List.mem_cons.mp hmem with rfl | hmem
    · exact if_pos rfl
    · rw [if_neg, ih hnodup.2 hmem]
      intro h
      exact hnodup.1 (List.mem_map.mpr ⟨a, hmem, h.symm⟩)

end TaintForge
