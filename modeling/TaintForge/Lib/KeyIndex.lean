import Mathlib.Algebra.GroupWithZero.Nat
import Mathlib.Data.List.AList
import Mathlib.Data.List.Nodup

/-!
# Arrays with an index by key

Items are appended to an array and numbered from one in the order they arrive; a map from keys to
numbers finds them again.

* `KeyIndex`: the map finds exactly the items of the array, under their numbers.
* `KeyIndex.append`, `KeyIndex.set`: a new item under a new key, and a change that keeps the key.
* `KeyIndex.nodup`: no two items share a key.
-/

namespace TaintForge

variable {ρ κ : Type*} [DecidableEq κ]

/-- `index` finds the items of the array by their keys, and every item has its own number. -/
structure KeyIndex (key : ρ → κ) (number : ρ → ℕ) (items : List ρ)
    (index : AList fun _ : κ => ℕ) : Prop where
  numbered : ∀ i item, items[i]? = some item → number item = i + 1
  found : ∀ k n, index.lookup k = some n ↔ ∃ i item, items[i]? = some item ∧ key item = k ∧ n = i + 1

namespace KeyIndex

theorem getElem?_concat_eq_some_iff {items : List ρ} {item x : ρ} {i : ℕ} :
    (items ++ [item])[i]? = some x ↔ items[i]? = some x ∨ (i = items.length ∧ x = item) := by
  rw [List.getElem?_append]
  split
  · rename_i hlt
    constructor
    · exact Or.inl
    · rintro (h | ⟨rfl, -⟩)
      · exact h
      · exact absurd hlt (Nat.lt_irrefl _)
  · rename_i hge
    rw [List.getElem?_eq_none (Nat.not_lt.mp hge), List.getElem?_singleton]
    have hsub : i - items.length = 0 ↔ i = items.length := by omega
    simp only [reduceCtorEq, false_or, hsub, Option.ite_none_right_eq_some, Option.some.injEq,
      eq_comm]

variable {key : ρ → κ} {number : ρ → ℕ} {items : List ρ} {index : AList fun _ : κ => ℕ}

theorem nil (key : ρ → κ) (number : ρ → ℕ) : KeyIndex key number [] ∅ where
  numbered i item h := by simp at h
  found k n := by
    rw [AList.lookup_empty]
    constructor
    · exact fun h => by cases h
    · rintro ⟨i, item, h, -⟩
      simp at h

/-- The number found for a key belongs to an item with that key. -/
theorem get_of_lookup (h : KeyIndex key number items index) {k : κ} {n : ℕ}
    (hlookup : index.lookup k = some n) :
    n ≠ 0 ∧ ∃ item, items[n - 1]? = some item ∧ key item = k ∧ number item = n := by
  obtain ⟨i, item, hget, hkey, rfl⟩ := (h.found k n).mp hlookup
  exact ⟨Nat.succ_ne_zero i, item, hget, hkey, h.numbered i item hget⟩

/-- An item is found under its number. -/
theorem lookup_of_mem (h : KeyIndex key number items index) {item : ρ} (hmem : item ∈ items) :
    index.lookup (key item) = some (number item) := by
  obtain ⟨i, hget⟩ := List.mem_iff_getElem?.mp hmem
  rw [h.numbered i item hget]
  exact (h.found _ _).mpr ⟨i, item, hget, rfl, rfl⟩

/-- What is not found is not there. -/
theorem not_mem_of_lookup (h : KeyIndex key number items index) {k : κ}
    (hlookup : index.lookup k = none) : k ∉ items.map key := by
  intro hmem
  obtain ⟨item, hitem, rfl⟩ := List.mem_map.mp hmem
  rw [h.lookup_of_mem hitem] at hlookup
  cases hlookup

/-- Items with one key are the same item. -/
theorem index_eq (h : KeyIndex key number items index) {i j : ℕ} {x y : ρ}
    (hx : items[i]? = some x) (hy : items[j]? = some y) (hkey : key x = key y) : i = j := by
  have hlookup := (h.found _ _).mpr ⟨i, x, hx, rfl, rfl⟩
  have hlookup' := (h.found _ _).mpr ⟨j, y, hy, rfl, rfl⟩
  rw [hkey, hlookup'] at hlookup
  exact (Nat.succ.inj (Option.some.inj hlookup)).symm

/-- **No two items share a key.** -/
theorem nodup (h : KeyIndex key number items index) : (items.map key).Nodup := by
  rw [List.nodup_iff_getElem?_ne_getElem?]
  intro i j hij hj hsame
  rw [List.length_map] at hj
  have hi : i < items.length := lt_trans hij hj
  rw [List.getElem?_map, List.getElem?_map, List.getElem?_eq_getElem hi,
    List.getElem?_eq_getElem hj] at hsame
  have hindex := h.index_eq (List.getElem?_eq_getElem hi) (List.getElem?_eq_getElem hj)
    (Option.some.inj hsame)
  exact absurd hindex (Nat.ne_of_lt hij)

/-- Append an item with the next number, under a key that is not there yet. -/
theorem append (h : KeyIndex key number items index) (item : ρ)
    (hfresh : index.lookup (key item) = none) (hnumber : number item = items.length + 1) :
    KeyIndex key number (items ++ [item]) (index.insert (key item) (items.length + 1)) where
  numbered i x hget := by
    obtain hget | ⟨rfl, rfl⟩ := getElem?_concat_eq_some_iff.mp hget
    · exact h.numbered i x hget
    · exact hnumber
  found k n := by
    have hmem := h.not_mem_of_lookup hfresh
    by_cases hk : k = key item
    · subst hk
      rw [AList.lookup_insert]
      constructor
      · intro hn
        obtain rfl := Option.some.inj hn
        exact ⟨items.length, item, List.getElem?_concat_length, rfl, rfl⟩
      · rintro ⟨i, x, hget, hkey, rfl⟩
        obtain hget | ⟨rfl, -⟩ := getElem?_concat_eq_some_iff.mp hget
        · exact (hmem (List.mem_map.mpr ⟨x, List.mem_of_getElem? hget, hkey⟩)).elim
        · rfl
    · rw [AList.lookup_insert_ne hk, h.found]
      constructor
      · rintro ⟨i, x, hget, hkey, rfl⟩
        exact ⟨i, x, getElem?_concat_eq_some_iff.mpr (Or.inl hget), hkey, rfl⟩
      · rintro ⟨i, x, hget, hkey, rfl⟩
        obtain hget | ⟨-, rfl⟩ := getElem?_concat_eq_some_iff.mp hget
        · exact ⟨i, x, hget, hkey, rfl⟩
        · exact (hk hkey.symm).elim

/-- Replace an item by one with the same key and number. -/
theorem set (h : KeyIndex key number items index) {i : ℕ} {old new : ρ}
    (hget : items[i]? = some old) (hkey : key new = key old) (hnumber : number new = number old) :
    KeyIndex key number (items.set i new) index where
  numbered j x hx := by
    rw [List.getElem?_set] at hx
    split at hx
    · rename_i hij
      subst hij
      split at hx
      · obtain rfl := Option.some.inj hx
        rw [hnumber]
        exact h.numbered i old hget
      · cases hx
    · exact h.numbered j x hx
  found k n := by
    rw [h.found]
    have hlt := (List.getElem?_eq_some_iff.mp hget).1
    constructor
    · rintro ⟨j, x, hx, hxk, rfl⟩
      by_cases hij : i = j
      · subst hij
        obtain rfl := Option.some.inj (hget.symm.trans hx)
        exact ⟨i, new, List.getElem?_set_self hlt, hkey.trans hxk, rfl⟩
      · exact ⟨j, x, (List.getElem?_set_ne hij).trans hx, hxk, rfl⟩
    · rintro ⟨j, x, hx, hxk, rfl⟩
      by_cases hij : i = j
      · subst hij
        rw [List.getElem?_set_self hlt] at hx
        obtain rfl := Option.some.inj hx
        exact ⟨i, old, hget, hkey.symm.trans hxk, rfl⟩
      · rw [List.getElem?_set_ne hij] at hx
        exact ⟨j, x, hx, hxk, rfl⟩

end KeyIndex

/-- A total after one item was replaced. -/
theorem sum_map_set (f : ρ → ℕ) {old : ρ} (new : ρ) : ∀ {items : List ρ} {i : ℕ},
    items[i]? = some old → ((items.set i new).map f).sum + f old = (items.map f).sum + f new
  | [], _, h => by simp at h
  | item :: items, 0, h => by
    obtain rfl : item = old := by simpa using h
    simp only [List.set_cons_zero, List.map_cons, List.sum_cons]
    omega
  | item :: items, i + 1, h => by
    have hrest := sum_map_set f new (List.getElem?_cons_succ ▸ h : items[i]? = some old)
    simp only [List.set_cons_succ, List.map_cons, List.sum_cons]
    omega

end TaintForge
