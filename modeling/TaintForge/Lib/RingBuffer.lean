import Mathlib.Data.List.Basic
import Mathlib.Data.List.OfFn
import Mathlib.Data.Nat.Bits
import Mathlib.Data.Nat.ModEq

/-!
# Ring buffers

A ring of `2 ^ k` slots with a 32-bit head counter that is never reduced: a push goes to the slot
`head` selects, and reading back `i` entries uses `head - 1 - i`, both modulo the capacity.

* `RingBuffer.push`, `RingBuffer.getLast`, `RingBuffer.modifyLast`, `RingBuffer.reset`.
* `RingBuffer.toList`: the entries, newest first.
* `RingBuffer.WF.toList_push`: a push puts the entry in front and drops what no longer fits.
-/

/-- Slots, the number of pushes modulo `2 ^ 32`, and the number of entries. -/
structure RingBuffer (α : Type*) where
  slots : List (Option α)
  head : ℕ
  count : ℕ

namespace RingBuffer

variable {α : Type*} {r : RingBuffer α} {k : ℕ}

/-- An empty ring. -/
def create (capacity : ℕ) : RingBuffer α := ⟨List.replicate capacity none, 0, 0⟩

/-- The slot of the entry `i` pushes back. -/
def slotOf (r : RingBuffer α) (i : ℕ) : ℕ :=
  (r.head + 2 ^ 32 - 1 - i) % 2 ^ 32 &&& (r.slots.length - 1)

def push (r : RingBuffer α) (a : α) : RingBuffer α where
  slots := r.slots.set (r.head &&& (r.slots.length - 1)) (some a)
  head := (r.head + 1) % 2 ^ 32
  count := if r.count < r.slots.length then r.count + 1 else r.count

/-- The entry `i` pushes back. -/
def getLast (r : RingBuffer α) (i : ℕ) : Option α :=
  if i ≥ r.count then none else r.slots.getD (r.slotOf i) none

/-- Change the entry `i` pushes back. -/
def modifyLast (r : RingBuffer α) (i : ℕ) (f : α → α) : RingBuffer α :=
  { r with slots := r.slots.modify (r.slotOf i) (Option.map f) }

def reset (r : RingBuffer α) : RingBuffer α := { r with head := 0, count := 0 }

/-- The entries, newest first. -/
def toList (r : RingBuffer α) : List α := (List.range r.count).filterMap r.getLast

/-- A ring of `2 ^ k` slots whose entries are all there. -/
structure WF (r : RingBuffer α) (k : ℕ) : Prop where
  size : r.slots.length = 2 ^ k
  small : k ≤ 32
  head_lt : r.head < 2 ^ 32
  count_le : r.count ≤ 2 ^ k
  stored : ∀ i < r.count, (r.getLast i).isSome

theorem getLast_eq_none {i : ℕ} (h : r.count ≤ i) : r.getLast i = none := by
  rw [getLast, if_pos h]

/-- Masking by one less than a power of two is a remainder. -/
private theorem and_mask (n k : ℕ) : n &&& (2 ^ k - 1) = n % 2 ^ k :=
  Nat.and_two_pow_sub_one_eq_mod n k

/-- The head counter may wrap around: the capacity divides `2 ^ 32`. -/
private theorem add_two_pow_mod (hk : k ≤ 32) (n : ℕ) : (n + 2 ^ 32) % 2 ^ k = n % 2 ^ k := by
  rw [Nat.add_mod, Nat.mod_eq_zero_of_dvd (Nat.pow_dvd_pow 2 hk), Nat.add_zero, Nat.mod_mod]

theorem WF.slotOf_eq (h : r.WF k) (i : ℕ) : r.slotOf i = (r.head + 2 ^ 32 - 1 - i) % 2 ^ k := by
  rw [slotOf, h.size, and_mask, Nat.mod_mod_of_dvd _ (Nat.pow_dvd_pow 2 h.small)]

/-- Entries that are both there are in different slots. -/
theorem WF.slotOf_inj (h : r.WF k) {i j : ℕ} (hi : i < 2 ^ k) (hj : j < 2 ^ k)
    (hslot : r.slotOf i = r.slotOf j) : i = j := by
  have hle : 2 ^ k ≤ 2 ^ 32 := Nat.pow_le_pow_right (by decide) h.small
  rw [h.slotOf_eq, h.slotOf_eq] at hslot
  -- the distance of the two would be a multiple of the capacity
  have hstep : ∀ {a b : ℕ}, a < b → b < 2 ^ k →
      (r.head + 2 ^ 32 - 1 - a) % 2 ^ k ≠ (r.head + 2 ^ 32 - 1 - b) % 2 ^ k := by
    intro a b hab hb heq
    have hmod : (r.head + 2 ^ 32 - 1 - b + (b - a)) % 2 ^ k =
        (r.head + 2 ^ 32 - 1 - b + 0) % 2 ^ k := by
      rw [Nat.add_zero, ← heq]
      congr 1
      omega
    have hzero := Nat.ModEq.add_left_cancel' (r.head + 2 ^ 32 - 1 - b) hmod
    rw [Nat.ModEq, Nat.zero_mod, Nat.mod_eq_of_lt (by omega)] at hzero
    omega
  rcases Nat.lt_trichotomy i j with hij | hij | hij
  · exact absurd hslot (hstep hij hj)
  · exact hij
  · exact absurd hslot.symm (hstep hij hi)

theorem WF.create (hk : k ≤ 32) : (create (2 ^ k) : RingBuffer α).WF k where
  size := List.length_replicate
  small := hk
  head_lt := Nat.two_pow_pos 32
  count_le := Nat.zero_le _
  stored i hi := absurd hi (Nat.not_lt_zero i)

theorem WF.reset (h : r.WF k) : r.reset.WF k where
  size := h.size
  small := h.small
  head_lt := Nat.two_pow_pos 32
  count_le := Nat.zero_le _
  stored i hi := absurd hi (Nat.not_lt_zero i)

/-- The newest entry after a push is the one pushed. -/
theorem WF.getLast_push_zero (h : r.WF k) (a : α) : (r.push a).getLast 0 = some a := by
  have hcap : 0 < 2 ^ k := Nat.two_pow_pos k
  have hdvd : 2 ^ k ∣ 2 ^ 32 := Nat.pow_dvd_pow 2 h.small
  have hslot : (r.push a).slotOf 0 = r.head % 2 ^ k := by
    rw [slotOf]
    show ((r.head + 1) % 2 ^ 32 + 2 ^ 32 - 1 - 0) % 2 ^ 32 &&&
      ((r.slots.set _ _).length - 1) = _
    rw [List.length_set, h.size, and_mask, Nat.mod_mod_of_dvd _ hdvd]
    have hhead := h.head_lt
    rcases Nat.lt_or_ge (r.head + 1) (2 ^ 32) with hlt | hge
    · rw [Nat.mod_eq_of_lt hlt, show r.head + 1 + 2 ^ 32 - 1 - 0 = r.head + 2 ^ 32 by omega,
        add_two_pow_mod h.small]
    · rw [show r.head + 1 = 2 ^ 32 by omega, Nat.mod_self]
      congr 1
      omega
  have hcount : ¬ 0 ≥ (r.push a).count := by
    show ¬ 0 ≥ if r.count < r.slots.length then r.count + 1 else r.count
    rw [h.size]
    split_ifs <;> omega
  rw [getLast, if_neg hcount, hslot]
  show (r.slots.set (r.head &&& (r.slots.length - 1)) (some a)).getD (r.head % 2 ^ k) none = some a
  rw [h.size, and_mask, List.getD_eq_getElem?_getD, List.getElem?_set_self, Option.getD_some]
  rw [h.size]
  exact Nat.mod_lt _ hcap

/-- The others move back by one. -/
theorem WF.getLast_push_succ (h : r.WF k) (a : α) {i : ℕ} (hi : i + 1 < 2 ^ k) :
    (r.push a).getLast (i + 1) = r.getLast i := by
  have hdvd : 2 ^ k ∣ 2 ^ 32 := Nat.pow_dvd_pow 2 h.small
  have hle : 2 ^ k ≤ 2 ^ 32 := Nat.le_of_dvd (Nat.two_pow_pos 32) hdvd
  have hhead := h.head_lt
  have hcount : i + 1 ≥ (r.push a).count ↔ i ≥ r.count := by
    show i + 1 ≥ (if r.count < r.slots.length then r.count + 1 else r.count) ↔ _
    have := h.count_le
    rw [h.size]
    split_ifs <;> omega
  have hslot : (r.push a).slotOf (i + 1) = r.slotOf i := by
    rw [h.slotOf_eq, slotOf]
    show ((r.head + 1) % 2 ^ 32 + 2 ^ 32 - 1 - (i + 1)) % 2 ^ 32 &&&
      ((r.slots.set _ _).length - 1) = _
    rw [List.length_set, h.size, and_mask, Nat.mod_mod_of_dvd _ hdvd]
    rcases Nat.lt_or_ge (r.head + 1) (2 ^ 32) with hlt | hge
    · rw [Nat.mod_eq_of_lt hlt]
      congr 1
      omega
    · rw [show r.head + 1 = 2 ^ 32 by omega, Nat.mod_self,
        show r.head + 2 ^ 32 - 1 - i = (0 + 2 ^ 32 - 1 - (i + 1)) + 2 ^ 32 by omega,
        add_two_pow_mod h.small]
  -- the slot of an older entry is not the one written
  have hother : r.head % 2 ^ k ≠ r.slotOf i := by
    rw [h.slotOf_eq]
    intro heq
    have hmod : (r.head + (2 ^ 32 - 1 - i)) % 2 ^ k = (r.head + 0) % 2 ^ k := by
      rw [Nat.add_zero, heq]
      congr 1
      omega
    have hzero : (2 ^ 32 - 1 - i) % 2 ^ k = 0 := by
      have := Nat.ModEq.add_left_cancel' r.head hmod
      rwa [Nat.ModEq, Nat.zero_mod] at this
    obtain ⟨q, hq⟩ := hdvd
    obtain ⟨q', hq'⟩ := Nat.dvd_of_mod_eq_zero hzero
    have hsum : 2 ^ k * q = 2 ^ k * q' + (i + 1) := by omega
    have hdvd' : 2 ^ k ∣ i + 1 :=
      (Nat.dvd_add_right ⟨q', rfl⟩).mp ⟨q, hsum.symm⟩
    exact absurd (Nat.le_of_dvd (Nat.succ_pos i) hdvd') (Nat.not_le.mpr hi)
  unfold getLast
  simp only [hcount, hslot]
  split_ifs with hlt
  · rfl
  · show (r.slots.set (r.head &&& (r.slots.length - 1)) (some a)).getD _ none = _
    rw [h.size, and_mask, List.getD_eq_getElem?_getD, List.getElem?_set_ne hother,
      ← List.getD_eq_getElem?_getD]

theorem WF.push (h : r.WF k) (a : α) : (r.push a).WF k where
  size := by
    show (r.slots.set _ _).length = _
    rw [List.length_set, h.size]
  small := h.small
  head_lt := Nat.mod_lt _ (Nat.two_pow_pos 32)
  count_le := by
    show (if r.count < r.slots.length then r.count + 1 else r.count) ≤ 2 ^ k
    have := h.count_le
    rw [h.size]
    split_ifs <;> omega
  stored i hi := by
    cases i with
    | zero => rw [h.getLast_push_zero]; rfl
    | succ i =>
      have hbound : i + 1 < 2 ^ k ∧ i < r.count := by
        have hi' : i + 1 < if r.count < r.slots.length then r.count + 1 else r.count := hi
        have := h.count_le
        rw [h.size] at hi'
        split_ifs at hi' <;> omega
      rw [h.getLast_push_succ a hbound.1]
      exact h.stored i hbound.2

-- a plain `rfl` would try to identify the two rings first
@[simp] theorem modifyLast_head (i : ℕ) (f : α → α) : (r.modifyLast i f).head = r.head := by
  rw [modifyLast]

@[simp] theorem modifyLast_count (i : ℕ) (f : α → α) : (r.modifyLast i f).count = r.count := by
  rw [modifyLast]

theorem modifyLast_slots (i : ℕ) (f : α → α) :
    (r.modifyLast i f).slots = r.slots.modify (r.slotOf i) (Option.map f) := by
  rw [modifyLast]

theorem slotOf_modifyLast (i j : ℕ) (f : α → α) : (r.modifyLast i f).slotOf j = r.slotOf j := by
  rw [slotOf, slotOf, modifyLast_head, modifyLast_slots, List.length_modify]

/-- What a change leaves alone can be read back unchanged. -/
theorem map_getLast_modifyLast {β : Type*} (r : RingBuffer α) (i j : ℕ) {f : α → α} {g : α → β}
    (hf : ∀ a, g (f a) = g a) : ((r.modifyLast i f).getLast j).map g = (r.getLast j).map g := by
  have hmap : ∀ o : Option α, (o.map f).map g = o.map g := fun o => by
    cases o with
    | none => rfl
    | some a => exact congrArg some (hf a)
  rw [getLast, getLast, slotOf_modifyLast, modifyLast_count, modifyLast_slots]
  split_ifs with hcount
  · rfl
  generalize r.slotOf j = m
  rw [List.getD_eq_getElem?_getD, List.getD_eq_getElem?_getD, List.getElem?_modify]
  cases r.slots[m]? with
  | none => rfl
  | some o =>
    split_ifs
    · exact hmap o
    · rfl

theorem WF.modifyLast (h : r.WF k) (i : ℕ) (f : α → α) : (r.modifyLast i f).WF k where
  size := by rw [modifyLast_slots, List.length_modify, h.size]
  small := h.small
  head_lt := by
    rw [modifyLast_head]
    exact h.head_lt
  count_le := by
    rw [modifyLast_count]
    exact h.count_le
  stored j hj := by
    rw [modifyLast_count] at hj
    have hsame : ((r.modifyLast i f).getLast j).map (fun _ => ()) =
        (r.getLast j).map (fun _ => ()) := map_getLast_modifyLast r i j fun _ => rfl
    have hstored := h.stored j hj
    rw [← Option.isSome_map (f := fun _ => ())] at hstored ⊢
    rw [hsame]
    exact hstored

/-- Reading the list is reading back. -/
theorem WF.getElem?_toList (h : r.WF k) (i : ℕ) : r.toList[i]? = r.getLast i := by
  have hgen : ∀ (n : ℕ) (f : ℕ → Option α), (∀ i < n, (f i).isSome) → ∀ i,
      ((List.range n).filterMap f)[i]? = if i < n then f i else none := by
    intro n f
    induction n with
    | zero => simp
    | succ n ih =>
      intro hsome i
      have hlen : ((List.range n).filterMap f).length = n := by
        rw [List.filterMap_length_eq_length.mpr fun j hj => hsome j
          (Nat.lt_succ_of_lt (List.mem_range.mp hj)), List.length_range]
      obtain ⟨b, hb⟩ := Option.isSome_iff_exists.mp (hsome n (Nat.lt_succ_self n))
      rw [List.range_succ, List.filterMap_append, List.filterMap_cons_some hb,
        List.filterMap_nil, List.getElem?_append, hlen]
      split_ifs with hlt hle
      · rw [ih (fun j hj => hsome j (Nat.lt_succ_of_lt hj)) i, if_pos hlt]
      · omega
      · obtain rfl : i = n := by omega
        rw [Nat.sub_self, hb]
        rfl
      · rw [List.getElem?_eq_none]
        rw [List.length_singleton]
        omega
  rw [toList, hgen _ _ h.stored]
  split_ifs with hlt
  · rfl
  · exact (getLast_eq_none (Nat.not_lt.mp hlt)).symm

theorem WF.length_toList (h : r.WF k) : r.toList.length = r.count := by
  rw [toList, List.filterMap_length_eq_length.mpr fun i hi => h.stored i (List.mem_range.mp hi),
    List.length_range]

/-- Changing an entry changes no other. -/
theorem WF.getLast_modifyLast (h : r.WF k) {i j : ℕ} (hi : i < r.count) (f : α → α) :
    (r.modifyLast i f).getLast j = if i = j then (r.getLast j).map f else r.getLast j := by
  rw [getLast, getLast, modifyLast_count, slotOf_modifyLast, modifyLast_slots]
  by_cases hj : j ≥ r.count
  · rw [if_pos hj]
    split_ifs <;> rfl
  rw [if_neg hj]
  have hslot : r.slotOf i = r.slotOf j ↔ i = j :=
    ⟨h.slotOf_inj (hi.trans_le h.count_le) ((Nat.not_le.mp hj).trans_le h.count_le),
      fun heq => heq ▸ rfl⟩
  generalize r.slotOf j = m at *
  rw [List.getD_eq_getElem?_getD, List.getD_eq_getElem?_getD, List.getElem?_modify]
  simp only [hslot]
  cases r.slots[m]? with
  | none => split_ifs <;> rfl
  | some o => split_ifs <;> rfl

theorem WF.toList_modifyLast (h : r.WF k) {i : ℕ} (hi : i < r.count) (f : α → α) :
    (r.modifyLast i f).toList = r.toList.modify i f := by
  refine List.ext_getElem? fun j => ?_
  rw [(h.modifyLast i f).getElem?_toList, h.getLast_modifyLast hi, List.getElem?_modify,
    h.getElem?_toList]
  split_ifs <;> cases r.getLast j <;> rfl

theorem toList_reset : r.reset.toList = [] := rfl

/-- **A push puts the entry in front**, and drops the oldest entry of a full ring. -/
theorem WF.toList_push (h : r.WF k) (a : α) : (r.push a).toList = (a :: r.toList).take (2 ^ k) := by
  refine List.ext_getElem? fun i => ?_
  rw [(h.push a).getElem?_toList, List.getElem?_take]
  split_ifs with hlt
  · cases i with
    | zero => rw [h.getLast_push_zero, List.getElem?_cons_zero]
    | succ i => rw [h.getLast_push_succ a hlt, List.getElem?_cons_succ, h.getElem?_toList]
  · exact getLast_eq_none ((h.push a).count_le.trans (Nat.not_lt.mp hlt))

end RingBuffer
