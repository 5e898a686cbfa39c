import TaintForge.Lib.OpenAddr
import Mathlib.Algebra.BigOperators.Group.Finset.Basic
import Mathlib.Data.List.Induction

/-!
# Maps in open-addressed tables

A table of `OpenAddr` whose occupied slots carry a value.

* `OpenMap.lookup`: the value the probe loop finds.
* `Good.lookup_eq_some`: in a table in good order it finds exactly the pairs that are in the slots.
* `Good.store`, `Good.change`, `Good.erase`: what writing one slot does to the map.
* `Good.rehash`: moving the pairs to a larger table keeps the map.
* `Good.sum_slots`: a sum over the slots is a sum over the keys.
-/

namespace OpenMap

open OpenAddr

inductive Slot (κ α : Type*) where
  | empty
  | tombstone
  | occupied (key : κ) (value : α)

variable {κ α : Type*}

/-- What a probe sees in a slot. -/
def Slot.cell : Slot κ α → Cell κ
  | .empty => .empty
  | .tombstone => .tombstone
  | .occupied key _ => .occupied key

/-- A quantity of the pair in a slot. -/
def Slot.weight (f : κ → α → ℕ) : Slot κ α → ℕ
  | .occupied key value => f key value
  | _ => 0

theorem Slot.cell_eq_occupied {slot : Slot κ α} {key : κ} :
    slot.cell = .occupied key ↔ ∃ value, slot = .occupied key value := by
  cases slot with
  | empty => exact ⟨nofun, fun ⟨_, h⟩ => nomatch h⟩
  | tombstone => exact ⟨nofun, fun ⟨_, h⟩ => nomatch h⟩
  | occupied key' value =>
    refine ⟨fun h => ?_, fun ⟨_, h⟩ => ?_⟩
    · obtain rfl := Cell.occupied.inj h
      exact ⟨value, rfl⟩
    · rw [h, Slot.cell]

/-- What the probe loop sees. -/
def view (slots : List (Slot κ α)) (i : ℕ) : Cell κ := (slots.getD i .empty).cell

theorem view_of_getElem? {slots : List (Slot κ α)} {i : ℕ} {slot : Slot κ α}
    (h : slots[i]? = some slot) : view slots i = slot.cell := by
  rw [view, List.getD_eq_getElem?_getD, h, Option.getD_some]

theorem view_eq_occupied {slots : List (Slot κ α)} {i : ℕ} {key : κ} :
    view slots i = .occupied key ↔ ∃ value, slots[i]? = some (.occupied key value) := by
  rw [view, Slot.cell_eq_occupied, List.getD_eq_getElem?_getD]
  cases hget : slots[i]? with
  | none => exact ⟨fun ⟨_, h⟩ => (nomatch h), fun ⟨_, h⟩ => (nomatch h)⟩
  | some slot =>
    rw [Option.getD_some]
    exact exists_congr fun value => (Option.some_inj).symm

theorem view_set {slots : List (Slot κ α)} {s : ℕ} (hs : s < slots.length) (slot : Slot κ α) :
    view (slots.set s slot) = Function.update (view slots) s slot.cell := by
  funext i
  rw [view, List.getD_eq_getElem?_getD, List.getElem?_set]
  by_cases hi : s = i
  · subst hi
    rw [if_pos rfl, if_pos hs, Option.getD_some, Function.update_self]
  · rw [if_neg hi, Function.update_of_ne (Ne.symm hi), view, List.getD_eq_getElem?_getD]

section Lookup

variable [DecidableEq κ] (hash : κ → ℕ)

/-- The probe loop. -/
def findSlot (slots : List (Slot κ α)) (key : κ) : Probe :=
  find (view slots) slots.length (hash key) key

/-- The value the probe loop finds. -/
def lookup (slots : List (Slot κ α)) (key : κ) : Option α :=
  match findSlot hash slots key with
  | .hit s =>
    match slots[s]? with
    | some (.occupied _ value) => some value
    | _ => none
  | _ => none

/-- A table whose pairs are found. -/
structure Good (slots : List (Slot κ α)) : Prop where
  size : ∃ k, slots.length = 2 ^ k
  valid : Valid (view slots) slots.length hash

end Lookup

variable [DecidableEq κ] {hash : κ → ℕ} {slots : List (Slot κ α)} {s : ℕ} {key : κ} {value : α}

theorem Good.find_spec (h : Good hash slots) (key : κ) :
    match findSlot hash slots key with
    | .hit s => s < slots.length ∧ view slots s = .occupied key
    | .free s => ¬ Stored (view slots) slots.length key ∧ s < slots.length ∧
        (view slots s = .empty ∨ view slots s = .tombstone)
    | .full => ¬ Stored (view slots) slots.length key ∧
        ∀ i < slots.length, ∃ key', view slots i = .occupied key' := by
  obtain ⟨k, hk⟩ := h.size
  have hvalid := h.valid
  rw [findSlot]
  rw [hk] at hvalid ⊢
  have hspec := OpenAddr.find_spec hvalid key
  cases hfind : find (view slots) (2 ^ k) (hash key) key with
  | hit s =>
    rw [hfind] at hspec
    exact hspec
  | free s =>
    rw [hfind] at hspec
    exact ⟨hspec.1, hspec.2.1, hspec.2.2.1⟩
  | full =>
    rw [hfind] at hspec
    exact hspec

theorem Good.findSlot_eq_hit (h : Good hash slots) :
    findSlot hash slots key = .hit s ↔ s < slots.length ∧ view slots s = .occupied key := by
  obtain ⟨k, hk⟩ := h.size
  have hvalid := h.valid
  rw [findSlot]
  rw [hk] at hvalid ⊢
  exact find_eq_hit_iff hvalid key s

theorem Good.findSlot_of_getElem? (h : Good hash slots)
    (hget : slots[s]? = some (.occupied key value)) : findSlot hash slots key = .hit s :=
  h.findSlot_eq_hit.mpr
    ⟨(List.getElem?_eq_some_iff.mp hget).1, view_eq_occupied.mpr ⟨value, hget⟩⟩

/-- What the probe loop finds is what is in the slots. -/
theorem Good.lookup_eq_some (h : Good hash slots) :
    lookup hash slots key = some value ↔ ∃ i : ℕ, slots[i]? = some (.occupied key value) := by
  constructor
  · intro hlookup
    unfold lookup at hlookup
    split at hlookup
    · rename_i s hfind
      obtain ⟨stored, hstored⟩ := view_eq_occupied.mp (h.findSlot_eq_hit.mp hfind).2
      rw [hstored] at hlookup
      obtain rfl := Option.some.inj hlookup
      exact ⟨s, hstored⟩
    · cases hlookup
  · rintro ⟨i, hi⟩
    rw [lookup, h.findSlot_of_getElem? hi]
    dsimp only
    rw [hi]

theorem Good.lookup_eq_none (h : Good hash slots) :
    lookup hash slots key = none ↔ ∀ s, findSlot hash slots key ≠ .hit s := by
  constructor
  · intro hnone s hfind
    obtain ⟨stored, hstored⟩ := view_eq_occupied.mp (h.findSlot_eq_hit.mp hfind).2
    rw [h.lookup_eq_some.mpr ⟨s, hstored⟩] at hnone
    cases hnone
  · intro hno
    unfold lookup
    split
    · rename_i s hfind
      exact absurd hfind (hno s)
    · rfl

/-- Two tables are the same map when they hold the same pairs. -/
theorem Good.lookup_ext (h : Good hash slots) {g : κ → Option α}
    (hg : ∀ key value, g key = some value ↔ ∃ i : ℕ, slots[i]? = some (.occupied key value)) :
    lookup hash slots = g := by
  funext key
  refine Option.ext fun value => ?_
  rw [h.lookup_eq_some]
  exact (hg key value).symm

/-! ### Writing one slot -/

omit [DecidableEq κ] in
/-- The pairs after one slot was written. -/
theorem exists_getElem?_set {slot : Slot κ α} (hs : s < slots.length) (key : κ) (value : α) :
    (∃ i : ℕ, (slots.set s slot)[i]? = some (.occupied key value)) ↔
      slot = .occupied key value ∨ ∃ i : ℕ, i ≠ s ∧ slots[i]? = some (.occupied key value) := by
  constructor
  · rintro ⟨i, hi⟩
    rw [List.getElem?_set] at hi
    split_ifs at hi with heq
    · exact Or.inl (Option.some.inj hi)
    · exact Or.inr ⟨i, Ne.symm heq, hi⟩
  · rintro (rfl | ⟨i, hne, hi⟩)
    · exact ⟨s, List.getElem?_set_self hs⟩
    · exact ⟨i, (List.getElem?_set_ne (Ne.symm hne)).trans hi⟩

/-- Storing a pair where the probe for its key may store. -/
theorem Good.store (h : Good hash slots) (hfind : findSlot hash slots key = .free s) (value : α) :
    Good hash (slots.set s (.occupied key value)) ∧
      lookup hash (slots.set s (.occupied key value)) =
        Function.update (lookup hash slots) key (some value) := by
  have hspec := h.find_spec key
  rw [hfind] at hspec
  obtain ⟨habsent, hs, hfree⟩ := hspec
  have hgood : Good hash (slots.set s (.occupied key value)) := by
    obtain ⟨k, hk⟩ := h.size
    refine ⟨⟨k, List.length_set.trans hk⟩, ?_⟩
    have hvalid := h.valid
    rw [findSlot] at hfind
    rw [List.length_set, view_set hs]
    rw [hk] at hvalid hfind ⊢
    exact hvalid.store hfind
  refine ⟨hgood, hgood.lookup_ext fun key' value' => ?_⟩
  rw [exists_getElem?_set hs]
  by_cases hkey : key' = key
  · subst hkey
    rw [Function.update_self, Option.some_inj]
    refine ⟨fun heq => Or.inl (by rw [heq]), ?_⟩
    rintro (heq | ⟨i, -, hi⟩)
    · exact (Slot.occupied.inj heq).2
    · exact absurd ⟨i, (List.getElem?_eq_some_iff.mp hi).1, view_eq_occupied.mpr ⟨value', hi⟩⟩
        habsent
  · rw [Function.update_of_ne hkey, h.lookup_eq_some]
    constructor
    · rintro ⟨i, hi⟩
      refine Or.inr ⟨i, ?_, hi⟩
      rintro rfl
      have hview := view_eq_occupied.mpr ⟨value', hi⟩
      rcases hfree with hfree | hfree <;> rw [hfree] at hview <;> cases hview
    · rintro (heq | ⟨i, -, hi⟩)
      · exact absurd (Slot.occupied.inj heq).1.symm hkey
      · exact ⟨i, hi⟩

/-- Another value for a key. -/
theorem Good.change (h : Good hash slots) {old : α} (hget : slots[s]? = some (.occupied key old))
    (value : α) :
    Good hash (slots.set s (.occupied key value)) ∧
      lookup hash (slots.set s (.occupied key value)) =
        Function.update (lookup hash slots) key (some value) := by
  have hs := (List.getElem?_eq_some_iff.mp hget).1
  have hview := view_eq_occupied.mpr ⟨old, hget⟩
  have hgood : Good hash (slots.set s (.occupied key value)) := by
    obtain ⟨k, hk⟩ := h.size
    refine ⟨⟨k, List.length_set.trans hk⟩, ?_⟩
    rw [List.length_set, view_set hs, Slot.cell, ← hview, Function.update_eq_self]
    exact h.valid
  refine ⟨hgood, hgood.lookup_ext fun key' value' => ?_⟩
  rw [exists_getElem?_set hs]
  by_cases hkey : key' = key
  · subst hkey
    rw [Function.update_self, Option.some_inj]
    refine ⟨fun heq => Or.inl (by rw [heq]), ?_⟩
    rintro (heq | ⟨i, hne, hi⟩)
    · exact (Slot.occupied.inj heq).2
    · -- the key is in one slot only
      have hlt := (List.getElem?_eq_some_iff.mp hi).1
      exact absurd (h.valid.unique i s key' hlt hs (view_eq_occupied.mpr ⟨value', hi⟩) hview) hne
  · rw [Function.update_of_ne hkey, h.lookup_eq_some]
    constructor
    · rintro ⟨i, hi⟩
      refine Or.inr ⟨i, ?_, hi⟩
      rintro rfl
      exact hkey (Slot.occupied.inj (Option.some.inj (hget.symm.trans hi))).1.symm
    · rintro (heq | ⟨i, -, hi⟩)
      · exact absurd (Slot.occupied.inj heq).1.symm hkey
      · exact ⟨i, hi⟩

/-- A tombstone in place of a pair. -/
theorem Good.erase (h : Good hash slots) (hget : slots[s]? = some (.occupied key value)) :
    Good hash (slots.set s .tombstone) ∧
      lookup hash (slots.set s .tombstone) = Function.update (lookup hash slots) key none := by
  have hs := (List.getElem?_eq_some_iff.mp hget).1
  have hview := view_eq_occupied.mpr ⟨value, hget⟩
  have hgood : Good hash (slots.set s .tombstone) := by
    obtain ⟨k, hk⟩ := h.size
    refine ⟨⟨k, List.length_set.trans hk⟩, ?_⟩
    rw [List.length_set, view_set hs]
    exact h.valid.erase s
  refine ⟨hgood, hgood.lookup_ext fun key' value' => ?_⟩
  rw [exists_getElem?_set hs]
  by_cases hkey : key' = key
  · subst hkey
    rw [Function.update_self]
    refine ⟨nofun, ?_⟩
    rintro (heq | ⟨i, hne, hi⟩)
    · cases heq
    · have hlt := (List.getElem?_eq_some_iff.mp hi).1
      exact absurd (h.valid.unique i s key' hlt hs (view_eq_occupied.mpr ⟨value', hi⟩) hview) hne
  · rw [Function.update_of_ne hkey, h.lookup_eq_some]
    constructor
    · rintro ⟨i, hi⟩
      refine Or.inr ⟨i, ?_, hi⟩
      rintro rfl
      exact hkey (Slot.occupied.inj (Option.some.inj (hget.symm.trans hi))).1.symm
    · rintro (heq | ⟨i, -, hi⟩)
      · cases heq
      · exact ⟨i, hi⟩

/-! ### Rehashing -/

omit [DecidableEq κ] in
theorem Good.replicate (hash : κ → ℕ) (k : ℕ) :
    Good hash (List.replicate (2 ^ k) (.empty : Slot κ α)) where
  size := ⟨k, List.length_replicate⟩
  valid := by
    apply valid_of_forall_empty
    intro i hi
    rw [List.length_replicate] at hi
    exact view_of_getElem? (List.getElem?_replicate_of_lt hi)

/-- How many slots are occupied. -/
def occupied (slots : List (Slot κ α)) : ℕ := count Cell.isOccupied (view slots) slots.length

/-- How many slots are tombstones. -/
def tombstones (slots : List (Slot κ α)) : ℕ := count Cell.isTombstone (view slots) slots.length

omit [DecidableEq κ] in
theorem occupied_replicate (n : ℕ) : occupied (List.replicate n (.empty : Slot κ α)) = 0 := by
  apply count_eq_zero_of_forall_empty rfl
  intro i hi
  rw [List.length_replicate] at hi
  exact view_of_getElem? (List.getElem?_replicate_of_lt hi)

omit [DecidableEq κ] in
theorem tombstones_replicate (n : ℕ) : tombstones (List.replicate n (.empty : Slot κ α)) = 0 := by
  apply count_eq_zero_of_forall_empty rfl
  intro i hi
  rw [List.length_replicate] at hi
  exact view_of_getElem? (List.getElem?_replicate_of_lt hi)

omit [DecidableEq κ] in
theorem occupied_set (hs : s < slots.length) (slot : Slot κ α) :
    occupied (slots.set s slot) + (view slots s).isOccupied.toNat =
      occupied slots + slot.cell.isOccupied.toNat := by
  rw [occupied, List.length_set, view_set hs]
  exact count_update Cell.isOccupied (view slots) hs slot.cell

omit [DecidableEq κ] in
theorem tombstones_set (hs : s < slots.length) (slot : Slot κ α) :
    tombstones (slots.set s slot) + (view slots s).isTombstone.toNat =
      tombstones slots + slot.cell.isTombstone.toNat := by
  rw [tombstones, List.length_set, view_set hs]
  exact count_update Cell.isTombstone (view slots) hs slot.cell

theorem Good.findSlot_ne_full (h : Good hash slots) (hroom : occupied slots < slots.length)
    (key : κ) : findSlot hash slots key ≠ .full := by
  obtain ⟨k, hk⟩ := h.size
  have hvalid := h.valid
  rw [findSlot]
  rw [occupied] at hroom
  rw [hk] at hvalid hroom ⊢
  exact find_ne_full hvalid key hroom

/-- A probe for a key that is not there ends at a slot for it. -/
theorem Good.findSlot_free (h : Good hash slots) (hroom : occupied slots < slots.length)
    (hnone : lookup hash slots key = none) : ∃ s, findSlot hash slots key = .free s := by
  cases hfind : findSlot hash slots key with
  | hit s => exact absurd hfind (h.lookup_eq_none.mp hnone s)
  | free s => exact ⟨s, rfl⟩
  | full => exact absurd hfind (h.findSlot_ne_full hroom key)

/-- The counters after storing in a free slot. -/
theorem Good.counts_store (h : Good hash slots) (hfind : findSlot hash slots key = .free s)
    (value : α) :
    occupied (slots.set s (.occupied key value)) = occupied slots + 1 ∧
      tombstones (slots.set s (.occupied key value)) + (view slots s).isTombstone.toNat =
        tombstones slots := by
  have hspec := h.find_spec key
  rw [hfind] at hspec
  obtain ⟨-, hs, hfree⟩ := hspec
  have hocc := occupied_set hs (.occupied key value)
  have htomb := tombstones_set hs (.occupied key value)
  have hzero : (view slots s).isOccupied = false := by
    rcases hfree with hfree | hfree <;> rw [hfree] <;> rfl
  rw [hzero] at hocc
  exact ⟨hocc, htomb⟩

/-- Store the pair of one slot in another table. -/
def moveSlot (hash : κ → ℕ) (slots : List (Slot κ α)) : Slot κ α → List (Slot κ α)
  | .occupied key value =>
    match findSlot hash slots key with
    | .hit s | .free s => slots.set s (.occupied key value)
    | .full => slots
  | _ => slots

/-- The two slots do not have the same key. -/
def Apart (a b : Slot κ α) : Prop :=
  ∀ key value value', a = .occupied key value → b ≠ .occupied key value'

omit [DecidableEq κ] in
theorem Good.apart (h : Good hash slots) : slots.Pairwise Apart := by
  rw [List.pairwise_iff_getElem]
  intro i j hi hj hij key value value' ha hb
  have hai := view_eq_occupied.mpr ⟨value, (List.getElem?_eq_getElem hi).trans (congrArg some ha)⟩
  have hbj := view_eq_occupied.mpr ⟨value', (List.getElem?_eq_getElem hj).trans (congrArg some hb)⟩
  exact Nat.ne_of_lt hij (h.valid.unique i j key hi hj hai hbj)

/-- What moving some slots into a table does. -/
structure Moved (hash : κ → ℕ) (rest slots new : List (Slot κ α)) : Prop where
  good : Good hash new
  length : new.length = slots.length
  tombstones : tombstones new = tombstones slots
  occupied : occupied new = occupied slots + rest.countP fun slot => slot.cell.isOccupied
  lookup : ∀ key value, lookup hash new key = some value ↔
    lookup hash slots key = some value ∨ .occupied key value ∈ rest

theorem moveSlots (rest : List (Slot κ α)) {slots : List (Slot κ α)} (h : Good hash slots)
    (hempty : tombstones slots = 0) (hroom : occupied slots + rest.length < slots.length)
    (hapart : rest.Pairwise Apart)
    (hnew : ∀ key value, .occupied key value ∈ rest → lookup hash slots key = none) :
    Moved hash rest slots (rest.foldl (moveSlot hash) slots) := by
  induction rest generalizing slots with
  | nil =>
    refine ⟨h, rfl, rfl, rfl, fun key value => ?_⟩
    rw [List.foldl_nil]
    exact ⟨Or.inl, fun hor => hor.resolve_right List.not_mem_nil⟩
  | cons slot rest ih =>
    obtain ⟨hhead, htail⟩ := List.pairwise_cons.mp hapart
    rw [List.length_cons] at hroom
    -- a slot without a pair is skipped
    have hskip : (∀ key value, slot ≠ .occupied key value) → moveSlot hash slots slot = slots →
        slot.cell.isOccupied = false →
        Moved hash (slot :: rest) slots ((slot :: rest).foldl (moveSlot hash) slots) := by
      intro hslot hmove hcount
      have hrec := ih h hempty (by omega) htail fun key value hmem =>
        hnew key value (List.mem_cons_of_mem slot hmem)
      rw [List.foldl_cons, hmove]
      refine ⟨hrec.good, hrec.length, hrec.tombstones, ?_, fun key value => ?_⟩
      · rw [hrec.occupied, List.countP_cons_of_neg (by rw [hcount]; decide)]
      · rw [hrec.lookup, List.mem_cons]
        refine or_congr_right ⟨Or.inr, fun hor => hor.resolve_left ?_⟩
        exact fun heq => hslot key value heq.symm
    cases slot with
    | empty => exact hskip (fun _ _ heq => nomatch heq) rfl rfl
    | tombstone => exact hskip (fun _ _ heq => nomatch heq) rfl rfl
    | occupied key value =>
      have hnone := hnew key value List.mem_cons_self
      obtain ⟨s, hfind⟩ := h.findSlot_free (by omega) hnone
      obtain ⟨hgood, hlookup⟩ := h.store hfind value
      obtain ⟨hocc, htomb⟩ := h.counts_store hfind value
      have hmove : moveSlot hash slots (.occupied key value) =
          slots.set s (.occupied key value) := by
        rw [moveSlot, hfind]
      have hrec := ih hgood (by omega) (by rw [hocc, List.length_set]; omega) htail ?_
      · rw [List.foldl_cons, hmove]
        refine ⟨hrec.good, hrec.length.trans List.length_set, ?_, ?_, fun key' value' => ?_⟩
        · rw [hrec.tombstones]
          omega
        · rw [hrec.occupied, hocc, List.countP_cons_of_pos rfl]
          omega
        · rw [hrec.lookup, hlookup, List.mem_cons, ← or_assoc]
          refine or_congr_left ?_
          by_cases hkey : key' = key
          · subst hkey
            rw [Function.update_self, hnone, Option.some_inj]
            constructor
            · rintro rfl
              exact Or.inr rfl
            · rintro (heq | heq)
              · cases heq
              · exact (Slot.occupied.inj heq).2.symm
          · rw [Function.update_of_ne hkey]
            exact ⟨Or.inl, fun hor => hor.resolve_right fun heq => hkey (Slot.occupied.inj heq).1⟩
      · intro key' value' hmem
        have hne : key' ≠ key := by
          rintro rfl
          exact hhead _ hmem key' value value' rfl rfl
        rw [hlookup, Function.update_of_ne hne]
        exact hnew key' value' (List.mem_cons_of_mem _ hmem)

omit [DecidableEq κ] in
/-- The number of occupied slots, read off the list. -/
theorem occupied_eq_countP (slots : List (Slot κ α)) :
    occupied slots = slots.countP fun slot => slot.cell.isOccupied := by
  induction slots using List.reverseRecOn with
  | nil => rfl
  | append_singleton slots slot ih =>
    have hlast : view (slots ++ [slot]) slots.length = slot.cell :=
      view_of_getElem? List.getElem?_concat_length
    have hbefore : ∀ i < slots.length, view (slots ++ [slot]) i = view slots i := by
      intro i hi
      rw [view, view, List.getD_eq_getElem?_getD, List.getD_eq_getElem?_getD,
        List.getElem?_append_left hi]
    have hsame : ((Finset.range slots.length).filter fun i =>
        (view (slots ++ [slot]) i).isOccupied = true) =
          (Finset.range slots.length).filter fun i => (view slots i).isOccupied = true := by
      refine Finset.filter_congr fun i hi => ?_
      rw [hbefore i (Finset.mem_range.mp hi)]
    rw [List.countP_append, List.countP_singleton, ← ih, occupied, occupied, count, count,
      List.length_append, List.length_singleton, Finset.range_add_one, Finset.filter_insert, hlast,
      hsame]
    split_ifs with hocc
    · rw [Finset.card_insert_of_notMem]
      intro hmem
      exact Finset.notMem_range_self (Finset.mem_filter.mp hmem).1
    · rfl

/-- **Rehashing keeps the map**, and drops the tombstones. -/
theorem Good.rehash (h : Good hash slots) {k : ℕ} (hk : slots.length < 2 ^ k) :
    Good hash (slots.foldl (moveSlot hash) (List.replicate (2 ^ k) .empty)) ∧
      (slots.foldl (moveSlot hash) (List.replicate (2 ^ k) .empty)).length = 2 ^ k ∧
      tombstones (slots.foldl (moveSlot hash) (List.replicate (2 ^ k) .empty)) = 0 ∧
      occupied (slots.foldl (moveSlot hash) (List.replicate (2 ^ k) .empty)) = occupied slots ∧
      lookup hash (slots.foldl (moveSlot hash) (List.replicate (2 ^ k) .empty)) =
        lookup hash slots := by
  have hstart := Good.replicate (α := α) hash k
  have hnothing : ∀ key, lookup hash (List.replicate (2 ^ k) (.empty : Slot κ α)) key = none := by
    intro key
    by_contra hsome
    obtain ⟨value, hvalue⟩ := Option.ne_none_iff_exists'.mp hsome
    obtain ⟨i, hi⟩ := hstart.lookup_eq_some.mp hvalue
    have hmem := List.mem_replicate.mp (List.mem_of_getElem? hi)
    cases hmem.2
  have hmoved := moveSlots slots hstart (tombstones_replicate _)
    (by rw [occupied_replicate, List.length_replicate]; omega) h.apart
    fun key _ _ => hnothing key
  refine ⟨hmoved.good, hmoved.length.trans List.length_replicate,
    hmoved.tombstones.trans (tombstones_replicate _), ?_, ?_⟩
  · rw [hmoved.occupied, occupied_replicate, occupied_eq_countP, Nat.zero_add]
  · apply hmoved.good.lookup_ext
    intro key value
    rw [h.lookup_eq_some, ← hmoved.good.lookup_eq_some, hmoved.lookup, hnothing]
    constructor
    · rintro ⟨i, hi⟩
      exact Or.inr (List.mem_of_getElem? hi)
    · rintro (heq | hmem)
      · cases heq
      · exact List.mem_iff_getElem?.mp hmem

/-! ### Sums -/

/-- A sum over the pairs of a list is a sum over the keys. -/
theorem sum_weight (f : κ → α → ℕ) {keys : Finset κ} (slots : List (Slot κ α))
    (hapart : slots.Pairwise Apart) {g : κ → Option α}
    (hg : ∀ key value, g key = some value ↔ .occupied key value ∈ slots)
    (hkeys : ∀ key value, .occupied key value ∈ slots → key ∈ keys) :
    (slots.map (Slot.weight f)).sum = ∑ key ∈ keys, (g key).elim 0 (f key) := by
  induction slots generalizing g with
  | nil =>
    refine (Finset.sum_eq_zero fun key _ => ?_).symm
    cases hkey : g key with
    | none => rfl
    | some value => exact absurd ((hg key value).mp hkey) List.not_mem_nil
  | cons slot slots ih =>
    obtain ⟨hhead, htail⟩ := List.pairwise_cons.mp hapart
    have hkeys' : ∀ key value, .occupied key value ∈ slots → key ∈ keys :=
      fun key value hmem => hkeys key value (List.mem_cons_of_mem slot hmem)
    rw [List.map_cons, List.sum_cons]
    -- a slot without a pair adds nothing
    have hskip : (∀ key value, slot ≠ .occupied key value) → Slot.weight f slot = 0 →
        Slot.weight f slot + (slots.map (Slot.weight f)).sum =
          ∑ key ∈ keys, (g key).elim 0 (f key) := by
      intro hslot hzero
      rw [hzero, Nat.zero_add]
      refine ih htail (fun key value => ?_) hkeys'
      rw [hg, List.mem_cons]
      exact ⟨fun hor => hor.resolve_left fun heq => hslot key value heq.symm, Or.inr⟩
    cases slot with
    | empty => exact hskip (fun _ _ heq => nomatch heq) rfl
    | tombstone => exact hskip (fun _ _ heq => nomatch heq) rfl
    | occupied key value =>
      have hkey : g key = some value := (hg key value).mpr List.mem_cons_self
      have hrest := ih (g := Function.update g key none) htail (fun key' value' => ?_) hkeys'
      · have hmem : key ∈ keys := hkeys key value List.mem_cons_self
        rw [hrest, ← Finset.add_sum_erase keys _ hmem, ← Finset.add_sum_erase keys _ hmem,
          Function.update_self, hkey, Option.elim_none, Option.elim_some, Nat.zero_add, Slot.weight]
        congr 1
        refine Finset.sum_congr rfl fun key' hkey' => ?_
        rw [Function.update_of_ne (Finset.ne_of_mem_erase hkey')]
      · by_cases heq : key' = key
        · subst heq
          rw [Function.update_self]
          refine ⟨nofun, fun hmem => ?_⟩
          exact absurd rfl (hhead _ hmem key' value value' rfl)
        · rw [Function.update_of_ne heq, hg, List.mem_cons]
          exact ⟨fun hor => hor.resolve_left fun h => heq (Slot.occupied.inj h).1, Or.inr⟩

/-- A sum over the slots is a sum over the keys. -/
theorem Good.sum_slots (h : Good hash slots) (f : κ → α → ℕ) {keys : Finset κ}
    (hkeys : ∀ key value, lookup hash slots key = some value → key ∈ keys) :
    (slots.map (Slot.weight f)).sum = ∑ key ∈ keys, (lookup hash slots key).elim 0 (f key) := by
  refine sum_weight f slots h.apart (fun key value => ?_) fun key value hmem => ?_
  · rw [h.lookup_eq_some, List.mem_iff_getElem?]
  · exact hkeys key value (h.lookup_eq_some.mpr (List.mem_iff_getElem?.mp hmem))

end OpenMap
