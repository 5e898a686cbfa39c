import Mathlib.Data.Finset.Card
import Mathlib.Data.Finset.Range
import Mathlib.Data.Nat.Bitwise
import Mathlib.Data.Nat.ModEq
import Mathlib.Tactic.Ring

/-!
# Open addressing with linear probing and tombstones

A table is read through its *view* `ℕ → Cell κ`: what the probe loop sees in each of the `cap`
slots.  Capacities are powers of two, so that the probe sequence can wrap with a mask.

* `find`: the probe loop.  It stops at the first empty cell or at the cell that holds the key, and
  remembers the first tombstone it passed.  It looks at no more than `cap` cells (`find` is
  structurally recursive on the number of cells left).
* `Valid`: every key sits behind a run of non-empty cells that starts at its home slot, and no key
  sits in two cells.
* `find_spec`: on a valid view the loop finds exactly the keys that are stored.
* `Valid.store`, `Valid.erase`: storing a key where `find` says, and turning a cell into a
  tombstone, keep a view valid.

The view is a function, so a concrete table only has to say how it is read.
-/

namespace OpenAddr

/-- What a probe sees in a slot. -/
inductive Cell (κ : Type*) where
  | empty
  | tombstone
  | occupied (key : κ)
  deriving DecidableEq, Repr

/-- The outcome of a probe: the slot that holds the key, the slot where it may be stored, or
neither (every slot is occupied by some other key). -/
inductive Probe where
  | hit (slot : ℕ)
  | free (slot : ℕ)
  | full
  deriving DecidableEq, Repr

variable {κ : Type*}

/-- The probe loop with `fuel` slots left to look at, the next one being `slot`. -/
def probe [DecidableEq κ] (view : ℕ → Cell κ) (key : κ) (mask : ℕ) : ℕ → ℕ → Option ℕ → Probe
  | 0, _, grave => (grave.map Probe.free).getD .full
  | fuel + 1, slot, grave =>
    match view slot with
    | .empty => .free (grave.getD slot)
    | .tombstone => probe view key mask fuel ((slot + 1) &&& mask) (grave.or (some slot))
    | .occupied k =>
      if k = key then .hit slot else probe view key mask fuel ((slot + 1) &&& mask) grave

/-- The probe loop over a table of `cap` slots, from the slot `hash` selects. -/
def find [DecidableEq κ] (view : ℕ → Cell κ) (cap hash : ℕ) (key : κ) : Probe :=
  if cap = 0 then .full else probe view key (cap - 1) cap (hash &&& (cap - 1)) none

/-! ### The probe sequence -/

/-- The `i`-th slot the loop visits. -/
def pos (cap hash i : ℕ) : ℕ := (hash + i) % cap

theorem pos_lt {cap : ℕ} (hcap : 0 < cap) (hash i : ℕ) : pos cap hash i < cap :=
  Nat.mod_lt _ hcap

theorem start_eq_pos (hash k : ℕ) : hash &&& (2 ^ k - 1) = pos (2 ^ k) hash 0 := by
  rw [Nat.and_two_pow_sub_one_eq_mod, pos, Nat.add_zero]

theorem next_eq_pos (hash i k : ℕ) :
    (pos (2 ^ k) hash i + 1) &&& (2 ^ k - 1) = pos (2 ^ k) hash (i + 1) := by
  rw [Nat.and_two_pow_sub_one_eq_mod, pos, pos, Nat.mod_add_mod, Nat.add_assoc]

/-- Within one round the loop visits every slot once. -/
theorem pos_injOn {cap hash i j : ℕ} (hi : i < cap) (hj : j < cap)
    (h : pos cap hash i = pos cap hash j) : i = j := by
  have hmod : i ≡ j [MOD cap] := Nat.ModEq.add_left_cancel' hash h
  rwa [Nat.ModEq, Nat.mod_eq_of_lt hi, Nat.mod_eq_of_lt hj] at hmod

/-- Every slot is visited within one round. -/
theorem exists_pos_eq {cap slot : ℕ} (hash : ℕ) (h : slot < cap) :
    ∃ i < cap, pos cap hash i = slot := by
  have hlt : hash % cap < cap := Nat.mod_lt _ (by omega)
  refine ⟨(slot + cap - hash % cap) % cap, Nat.mod_lt _ (by omega), ?_⟩
  have hsum : hash % cap + (slot + cap - hash % cap) = slot + cap := by omega
  rw [pos, Nat.add_mod_mod, ← Nat.mod_add_mod, hsum, Nat.add_mod_right, Nat.mod_eq_of_lt h]

/-! ### Valid views -/

/-- A view in which the probe loop works: no key in two slots, and each key reachable from its home
slot through non-empty slots. -/
structure Valid (view : ℕ → Cell κ) (cap : ℕ) (hash : κ → ℕ) : Prop where
  /-- No key sits in two slots. -/
  unique : ∀ i j key, i < cap → j < cap →
    view i = .occupied key → view j = .occupied key → i = j
  /-- No empty slot between the home slot of a key and the slot that holds it. -/
  reach : ∀ key i, i < cap → view (pos cap (hash key) i) = .occupied key →
    ∀ j < i, view (pos cap (hash key) j) ≠ .empty

/-- The key is stored in some slot. -/
def Stored (view : ℕ → Cell κ) (cap : ℕ) (key : κ) : Prop :=
  ∃ i < cap, view i = .occupied key

/-- What the loop knows when it stops, `i` being the step it started from. -/
def ProbeSpec (view : ℕ → Cell κ) (cap hash : ℕ) (key : κ) (i : ℕ) (grave : Option ℕ) :
    Probe → Prop
  | .hit s => ∃ j, i ≤ j ∧ j < cap ∧ s = pos cap hash j ∧ view s = .occupied key
  | .free s =>
    (∃ j, i ≤ j ∧ j ≤ cap ∧ (j < cap → view (pos cap hash j) = .empty) ∧
      ∀ l, i ≤ l → l < j → view (pos cap hash l) ≠ .occupied key) ∧
    (grave = some s ∨ grave = none ∧ ∃ j, i ≤ j ∧ j < cap ∧ s = pos cap hash j ∧
      (view s = .empty ∨ view s = .tombstone) ∧
      ∀ l, i ≤ l → l < j → view (pos cap hash l) ≠ .empty)
  | .full => grave = none ∧ ∀ l, i ≤ l → l < cap →
      ∃ k, k ≠ key ∧ view (pos cap hash l) = .occupied k

theorem probe_spec [DecidableEq κ] (view : ℕ → Cell κ) (hash : ℕ) (key : κ) (k : ℕ) :
    ∀ (fuel i : ℕ) (grave : Option ℕ), i + fuel = 2 ^ k →
      ProbeSpec view (2 ^ k) hash key i grave
        (probe view key (2 ^ k - 1) fuel (pos (2 ^ k) hash i) grave) := by
  intro fuel
  induction fuel with
  | zero =>
    intro i grave hi
    cases grave with
    | none => exact ⟨rfl, fun l _ _ => by omega⟩
    | some s => exact ⟨⟨i, le_rfl, by omega, fun _ => by omega, fun l _ _ => by omega⟩, .inl rfl⟩
  | succ fuel ih =>
    intro i grave hi
    rw [probe, next_eq_pos]
    split
    · rename_i hempty
      refine ⟨⟨i, le_rfl, by omega, fun _ => hempty, fun l _ _ => by omega⟩, ?_⟩
      cases grave with
      | none => exact .inr ⟨rfl, i, le_rfl, by omega, rfl, .inl hempty, fun l _ _ => by omega⟩
      | some s => exact .inl rfl
    · rename_i htomb
      have hrec := ih (i + 1) (grave.or (some (pos (2 ^ k) hash i))) (by omega)
      revert hrec
      cases probe view key (2 ^ k - 1) fuel (pos (2 ^ k) hash (i + 1))
        (grave.or (some (pos (2 ^ k) hash i))) with
      | hit s => exact fun ⟨j, hij, hj⟩ => ⟨j, by omega, hj⟩
      | free s =>
        rintro ⟨⟨j, hij, hj, hstop, hskip⟩, hs⟩
        refine ⟨⟨j, by omega, hj, hstop, fun l hl hlj => ?_⟩, ?_⟩
        · rcases Nat.eq_or_lt_of_le hl with rfl | hl
          · simp [htomb]
          · exact hskip l hl hlj
        · cases grave with
          | none =>
            rcases hs with hs | ⟨hs, _⟩
            · obtain rfl : pos (2 ^ k) hash i = s := by simpa using hs
              exact .inr ⟨rfl, i, le_rfl, by omega, rfl, .inr htomb, fun l _ _ => by omega⟩
            · simp at hs
          | some g => exact .inl (by simpa using hs)
      | full => exact fun h => by simp [ProbeSpec] at h
    · rename_i k' hocc
      split
      · rename_i heq
        exact ⟨i, le_rfl, by omega, rfl, heq ▸ hocc⟩
      · rename_i hne
        have hrec := ih (i + 1) grave (by omega)
        revert hrec
        cases probe view key (2 ^ k - 1) fuel (pos (2 ^ k) hash (i + 1)) grave with
        | hit s => exact fun ⟨j, hij, hj⟩ => ⟨j, by omega, hj⟩
        | free s =>
          rintro ⟨⟨j, hij, hj, hstop, hskip⟩, hs⟩
          refine ⟨⟨j, by omega, hj, hstop, fun l hl hlj => ?_⟩, ?_⟩
          · rcases Nat.eq_or_lt_of_le hl with rfl | hl
            · simpa [hocc] using hne
            · exact hskip l hl hlj
          · refine hs.imp_right fun ⟨hg, j, hij, hj, hsj, hview, hpath⟩ => ?_
            refine ⟨hg, j, by omega, hj, hsj, hview, fun l hl hlj => ?_⟩
            rcases Nat.eq_or_lt_of_le hl with rfl | hl
            · simp [hocc]
            · exact hpath l hl hlj
        | full =>
          rintro ⟨hg, hall⟩
          refine ⟨hg, fun l hl hlc => ?_⟩
          rcases Nat.eq_or_lt_of_le hl with rfl | hl
          · exact ⟨k', hne, hocc⟩
          · exact hall l hl hlc

/-- A hit is a hit on any view, valid or not. -/
theorem probe_eq_hit [DecidableEq κ] {view : ℕ → Cell κ} {key : κ} {mask s : ℕ} :
    ∀ {fuel i : ℕ} {grave : Option ℕ}, probe view key mask fuel i grave = .hit s →
      view s = .occupied key
  | 0, _, grave, h => by cases grave <;> cases h
  | fuel + 1, i, grave, h => by
    rw [probe] at h
    split at h
    · cases h
    · exact probe_eq_hit h
    · rename_i key' hocc
      split at h
      · rename_i heq
        obtain rfl := Probe.hit.inj h
        exact heq ▸ hocc
      · exact probe_eq_hit h

theorem find_eq_hit [DecidableEq κ] {view : ℕ → Cell κ} {cap hash s : ℕ} {key : κ}
    (h : find view cap hash key = .hit s) : view s = .occupied key := by
  unfold find at h
  split_ifs at h
  exact probe_eq_hit h

/-- The probe of a stored key cannot stop before it: no `free` and no `full`. -/
private theorem not_stored_of_stop {view : ℕ → Cell κ} {cap : ℕ} {hash : κ → ℕ}
    (hv : Valid view cap hash) {key : κ} {j : ℕ} (hj : j ≤ cap)
    (hstop : j < cap → view (pos cap (hash key) j) = .empty)
    (hskip : ∀ l < j, view (pos cap (hash key) l) ≠ .occupied key) : ¬ Stored view cap key := by
  rintro ⟨s, hs, hocc⟩
  obtain ⟨d, hd, rfl⟩ := exists_pos_eq (hash key) hs
  rcases Nat.lt_or_ge d j with hdj | hjd
  · exact hskip d hdj hocc
  · rcases Nat.eq_or_lt_of_le hjd with rfl | hjd
    · rw [hstop hd] at hocc; cases hocc
    · exact hv.reach key d hd hocc j hjd (hstop (by omega))

/-- What `find` answers on a valid view. -/
theorem find_spec [DecidableEq κ] {view : ℕ → Cell κ} {k : ℕ} {hash : κ → ℕ}
    (hv : Valid view (2 ^ k) hash) (key : κ) :
    match find view (2 ^ k) (hash key) key with
    | .hit s => s < 2 ^ k ∧ view s = .occupied key
    | .free s => ¬ Stored view (2 ^ k) key ∧ s < 2 ^ k ∧
        (view s = .empty ∨ view s = .tombstone) ∧
        ∃ j < 2 ^ k, s = pos (2 ^ k) (hash key) j ∧
          ∀ l < j, view (pos (2 ^ k) (hash key) l) ≠ .empty
    | .full => ¬ Stored view (2 ^ k) key ∧ ∀ i < 2 ^ k, ∃ key', view i = .occupied key' := by
  have hcap : 0 < 2 ^ k := Nat.two_pow_pos k
  have hspec := probe_spec view (hash key) key k (2 ^ k) 0 none (by omega)
  rw [find, if_neg hcap.ne', start_eq_pos]
  revert hspec
  cases probe view key (2 ^ k - 1) (2 ^ k) (pos (2 ^ k) (hash key) 0) none with
  | hit s =>
    rintro ⟨j, -, hj, rfl, hocc⟩
    exact ⟨pos_lt hcap _ _, hocc⟩
  | free s =>
    rintro ⟨⟨j, -, hj, hstop, hskip⟩, hs⟩
    refine ⟨not_stored_of_stop hv hj hstop fun l hl => hskip l (by omega) hl, ?_⟩
    rcases hs with hs | ⟨-, d, -, hd, rfl, hview, hpath⟩
    · simp at hs
    · exact ⟨pos_lt hcap _ _, hview, d, hd, rfl, fun l hl => hpath l (by omega) hl⟩
  | full =>
    rintro ⟨-, hall⟩
    refine ⟨not_stored_of_stop hv le_rfl (fun h => absurd h (lt_irrefl _)) fun l hl => ?_, ?_⟩
    · obtain ⟨key', hne, hocc⟩ := hall l (by omega) hl
      simpa [hocc] using hne
    · intro i hi
      obtain ⟨d, hd, rfl⟩ := exists_pos_eq (hash key) hi
      obtain ⟨key', -, hocc⟩ := hall d (by omega) hd
      exact ⟨key', hocc⟩

/-- `find` hits exactly the slot that holds the key. -/
theorem find_eq_hit_iff [DecidableEq κ] {view : ℕ → Cell κ} {k : ℕ} {hash : κ → ℕ}
    (hv : Valid view (2 ^ k) hash) (key : κ) (s : ℕ) :
    find view (2 ^ k) (hash key) key = .hit s ↔ s < 2 ^ k ∧ view s = .occupied key := by
  have hspec := find_spec hv key
  constructor
  · intro h
    rw [h] at hspec
    exact hspec
  · rintro ⟨hs, hocc⟩
    cases hfind : find view (2 ^ k) (hash key) key with
    | hit s' =>
      rw [hfind] at hspec
      rw [hv.unique s' s key hspec.1 hs hspec.2 hocc]
    | free s' => rw [hfind] at hspec; exact absurd ⟨s, hs, hocc⟩ hspec.1
    | full => rw [hfind] at hspec; exact absurd ⟨s, hs, hocc⟩ hspec.1

/-! ### Storing and erasing -/

/-- A table that holds nothing is valid. -/
theorem valid_of_forall_empty {view : ℕ → Cell κ} {cap : ℕ} {hash : κ → ℕ}
    (h : ∀ i < cap, view i = .empty) : Valid view cap hash where
  unique i j key hi _ hocc _ := by rw [h i hi] at hocc; cases hocc
  reach key i hi hocc _ _ := by
    rw [h _ (pos_lt (by omega) _ _)] at hocc; cases hocc

/-- Storing an absent key at the end of a run of non-empty slots that starts at its home slot keeps
the view valid. -/
theorem Valid.storeAt {view : ℕ → Cell κ} {cap : ℕ} {hash : κ → ℕ} (hv : Valid view cap hash)
    {key : κ} {d : ℕ} (hd : d < cap) (habsent : ¬ Stored view cap key)
    (hpath : ∀ l < d, view (pos cap (hash key) l) ≠ .empty) :
    Valid (Function.update view (pos cap (hash key) d) (.occupied key)) cap hash := by
  generalize hs : pos cap (hash key) d = s
  constructor
  · intro i j key' hi hj hoi hoj
    by_cases hki : key' = key
    · -- the new key sits nowhere else
      subst hki
      have honly : ∀ i < cap, Function.update view s (.occupied key') i = .occupied key' →
          i = s := by
        intro i hi ho
        by_contra hne
        rw [Function.update_of_ne hne] at ho
        exact habsent ⟨i, hi, ho⟩
      rw [honly i hi hoi, honly j hj hoj]
    · have hold : ∀ i, Function.update view s (.occupied key) i = .occupied key' →
          view i = .occupied key' := by
        intro i ho
        by_cases hne : i = s
        · subst hne
          rw [Function.update_self] at ho
          exact absurd (Cell.occupied.inj ho).symm hki
        · rwa [Function.update_of_ne hne] at ho
      exact hv.unique i j key' hi hj (hold i hoi) (hold j hoj)
  · intro key' i hi ho j hji
    by_cases hjs : pos cap (hash key') j = s
    · rw [hjs, Function.update_self]; exact fun h => by cases h
    rw [Function.update_of_ne hjs]
    by_cases his : pos cap (hash key') i = s
    · rw [his, Function.update_self] at ho
      obtain rfl := Cell.occupied.inj ho
      have hid : i = d := pos_injOn hi hd (his.trans hs.symm)
      exact hpath j (hid ▸ hji)
    · rw [Function.update_of_ne his] at ho
      exact hv.reach key' i hi ho j hji

/-- Storing an absent key at the slot `find` returned keeps the view valid. -/
theorem Valid.store [DecidableEq κ] {view : ℕ → Cell κ} {k : ℕ} {hash : κ → ℕ}
    (hv : Valid view (2 ^ k) hash) {key : κ} {s : ℕ}
    (hfind : find view (2 ^ k) (hash key) key = .free s) :
    Valid (Function.update view s (.occupied key)) (2 ^ k) hash := by
  have hspec := find_spec hv key
  rw [hfind] at hspec
  obtain ⟨habsent, -, -, d, hd, rfl, hpath⟩ := hspec
  exact hv.storeAt hd habsent hpath

/-- Turning a slot into a tombstone keeps the view valid. -/
theorem Valid.erase {view : ℕ → Cell κ} {cap : ℕ} {hash : κ → ℕ} (hv : Valid view cap hash)
    (s : ℕ) : Valid (Function.update view s .tombstone) cap hash := by
  have hold : ∀ i key, Function.update view s .tombstone i = .occupied key →
      view i = .occupied key := by
    intro i key ho
    by_cases his : i = s
    · subst his; rw [Function.update_self] at ho; cases ho
    · rwa [Function.update_of_ne his] at ho
  constructor
  · exact fun i j key hi hj hoi hoj => hv.unique i j key hi hj (hold _ _ hoi) (hold _ _ hoj)
  · intro key i hi ho j hji hempty
    refine hv.reach key i hi (hold _ _ ho) j hji ?_
    by_cases hjs : pos cap (hash key) j = s
    · rw [hjs, Function.update_self] at hempty; cases hempty
    · rwa [Function.update_of_ne hjs] at hempty

/-! ### Counting cells -/

/-- The cell holds a key. -/
def Cell.isOccupied : Cell κ → Bool
  | .occupied _ => true
  | _ => false

/-- The cell is a tombstone. -/
def Cell.isTombstone : Cell κ → Bool
  | .tombstone => true
  | _ => false

@[simp] theorem isOccupied_empty : (Cell.empty : Cell κ).isOccupied = false := rfl
@[simp] theorem isOccupied_tombstone : (Cell.tombstone : Cell κ).isOccupied = false := rfl
@[simp] theorem isOccupied_occupied (key : κ) : (Cell.occupied key).isOccupied = true := rfl
@[simp] theorem isTombstone_empty : (Cell.empty : Cell κ).isTombstone = false := rfl
@[simp] theorem isTombstone_tombstone : (Cell.tombstone : Cell κ).isTombstone = true := rfl
@[simp] theorem isTombstone_occupied (key : κ) : (Cell.occupied key).isTombstone = false := rfl

theorem Cell.isOccupied_iff {c : Cell κ} : c.isOccupied = true ↔ ∃ key, c = .occupied key := by
  cases c <;> simp

/-- How many of the `cap` slots show a cell with property `p`. -/
def count (p : Cell κ → Bool) (view : ℕ → Cell κ) (cap : ℕ) : ℕ :=
  ((Finset.range cap).filter fun i => p (view i) = true).card

theorem count_le (p : Cell κ → Bool) (view : ℕ → Cell κ) (cap : ℕ) : count p view cap ≤ cap :=
  (Finset.card_filter_le _ _).trans_eq (Finset.card_range cap)

/-- Writing one slot moves a count by that slot's share only. -/
theorem count_update (p : Cell κ → Bool) (view : ℕ → Cell κ) {cap s : ℕ} (hs : s < cap)
    (c : Cell κ) :
    count p (Function.update view s c) cap + (p (view s)).toNat =
      count p view cap + (p c).toNat := by
  have hsplit : ∀ v : ℕ → Cell κ, count p v cap =
      (((Finset.range cap).erase s).filter fun i => p (v i) = true).card + (p (v s)).toNat := by
    intro v
    rw [count, ← Finset.insert_erase (Finset.mem_range.mpr hs), Finset.filter_insert,
      Finset.erase_insert (Finset.notMem_erase s _)]
    cases h : p (v s) with
    | true => simp [Finset.card_insert_of_notMem]
    | false => simp
  have hsame : ((Finset.range cap).erase s).filter (fun i => p (Function.update view s c i) = true)
      = ((Finset.range cap).erase s).filter fun i => p (view i) = true := by
    refine Finset.filter_congr fun i hi => ?_
    rw [Function.update_of_ne (Finset.ne_of_mem_erase hi)]
  rw [hsplit (Function.update view s c), hsplit view, hsame, Function.update_self]
  ring

theorem count_eq_zero_of_forall_empty {p : Cell κ → Bool} (hp : p .empty = false)
    {view : ℕ → Cell κ} {cap : ℕ} (h : ∀ i < cap, view i = .empty) : count p view cap = 0 := by
  rw [count, Finset.card_eq_zero, Finset.filter_eq_empty_iff]
  intro i hi
  rw [h i (Finset.mem_range.mp hi), hp]
  simp

/-- A table with a slot to spare never reports `full`. -/
theorem find_ne_full [DecidableEq κ] {view : ℕ → Cell κ} {k : ℕ} {hash : κ → ℕ}
    (hv : Valid view (2 ^ k) hash) (key : κ) (h : count Cell.isOccupied view (2 ^ k) < 2 ^ k) :
    find view (2 ^ k) (hash key) key ≠ .full := by
  intro hfull
  have hspec := find_spec hv key
  rw [hfull] at hspec
  refine h.ne ?_
  rw [count, Finset.filter_true_of_mem, Finset.card_range]
  exact fun i hi => Cell.isOccupied_iff.mpr (hspec.2 i (Finset.mem_range.mp hi))

/-! ### The first empty slot

Tables that never erase insert without comparing keys: they walk to the first empty slot. -/

/-- The walk to the first empty slot, with `fuel` slots left to look at. -/
def firstEmpty (isEmpty : ℕ → Bool) (mask : ℕ) : ℕ → ℕ → Option ℕ
  | 0, _ => none
  | fuel + 1, slot =>
    if isEmpty slot then some slot else firstEmpty isEmpty mask fuel ((slot + 1) &&& mask)

theorem firstEmpty_spec (isEmpty : ℕ → Bool) (hash k : ℕ) :
    ∀ fuel i, i + fuel = 2 ^ k →
      match firstEmpty isEmpty (2 ^ k - 1) fuel (pos (2 ^ k) hash i) with
      | some s => ∃ d, i ≤ d ∧ d < 2 ^ k ∧ s = pos (2 ^ k) hash d ∧ isEmpty s = true ∧
          ∀ l, i ≤ l → l < d → isEmpty (pos (2 ^ k) hash l) = false
      | none => ∀ l, i ≤ l → l < 2 ^ k → isEmpty (pos (2 ^ k) hash l) = false := by
  intro fuel
  induction fuel with
  | zero => intro i hi l hil hl; omega
  | succ fuel ih =>
    intro i hi
    rw [firstEmpty, next_eq_pos]
    cases hempty : isEmpty (pos (2 ^ k) hash i) with
    | true => exact ⟨i, le_rfl, by omega, rfl, hempty, fun l _ _ => by omega⟩
    | false =>
      have hrec := ih (i + 1) (by omega)
      have hextend : ∀ l, i ≤ l → (i + 1 ≤ l → isEmpty (pos (2 ^ k) hash l) = false) →
          isEmpty (pos (2 ^ k) hash l) = false := by
        intro l hil hl
        rcases Nat.eq_or_lt_of_le hil with rfl | hlt
        · exact hempty
        · exact hl hlt
      revert hrec
      simp only [Bool.false_eq_true, if_false]
      cases firstEmpty isEmpty (2 ^ k - 1) fuel (pos (2 ^ k) hash (i + 1)) with
      | none => exact fun h l hil hl => hextend l hil fun h1 => h l h1 hl
      | some s =>
        rintro ⟨d, hid, hd, hs, hse, hpath⟩
        exact ⟨d, by omega, hd, hs, hse, fun l hil hl => hextend l hil fun h1 => hpath l h1 hl⟩

/-- The walk ends as soon as some slot is empty. -/
theorem exists_firstEmpty (isEmpty : ℕ → Bool) {k s : ℕ} (hash : ℕ) (hs : s < 2 ^ k)
    (hempty : isEmpty s = true) :
    ∃ d < 2 ^ k, firstEmpty isEmpty (2 ^ k - 1) (2 ^ k) (hash &&& (2 ^ k - 1)) =
        some (pos (2 ^ k) hash d) ∧ isEmpty (pos (2 ^ k) hash d) = true ∧
      ∀ l < d, isEmpty (pos (2 ^ k) hash l) = false := by
  rw [start_eq_pos]
  have hspec := firstEmpty_spec isEmpty hash k (2 ^ k) 0 (by omega)
  revert hspec
  cases firstEmpty isEmpty (2 ^ k - 1) (2 ^ k) (pos (2 ^ k) hash 0) with
  | none =>
    intro hall
    obtain ⟨i, hi, rfl⟩ := exists_pos_eq hash hs
    rw [hall i (by omega) hi] at hempty
    cases hempty
  | some s' =>
    rintro ⟨d, -, hd, rfl, hse, hpath⟩
    exact ⟨d, hd, rfl, hse, fun l hl => hpath l (by omega) hl⟩

end OpenAddr
