import TaintForge.Prov.FdTable
import Mathlib.Data.Set.Card

/-!
# The file descriptor table implements POSIX descriptors

`PosixFds` is what a descriptor table is for: a finite map from descriptors to open file
descriptions, which `dup` makes two descriptors share.

* `FdIndex`: the slots of a table implement a map of descriptors.  Kept by
  `FdIndex.ensureCapacity`, `FdIndex.closeSlot` and `FdIndex.insertBinding`.
* `FdRefs`: the reference counts of the descriptions count the descriptors of that map.
* `fdStep_refines`: one operation of the table is one operation of the map, or changes nothing.
* `fdTable_refines_posix`: the same along every run from a created table.
-/

namespace TaintForge

open OpenAddr

/-! ### Descriptors as POSIX has them -/

/-- An open file description. -/
structure OpenFile where
  resourceId : ℕ
  offset : ℕ
  flags : BitVec 32
  deriving DecidableEq, Repr

/-- The descriptors of a process and the descriptions they were ever bound to, oldest first. -/
structure PosixFds where
  fds : Int32 → Option ℕ
  files : List OpenFile

/-- A process without descriptors. -/
def PosixFds.empty : PosixFds := ⟨fun _ => none, []⟩

/-- The operations on a descriptor table.  `bind` carries the registry that knows the resource. -/
inductive FdOp where
  | bind (registry : ProvRegistry) (fd : Int32) (resourceId offset : ℕ) (flags : BitVec 32)
  | dup (oldFd newFd : Int32)
  | close (fd : Int32)
  | setOffset (fd : Int32) (offset : ℕ)
  | advance (fd : Int32) (byteCount : ℕ)

/-- Move the offset of the description behind `fd`. -/
def PosixFds.seek (p : PosixFds) (fd : Int32) (move : ℕ → Option ℕ) : Option PosixFds := do
  let id ← p.fds fd
  let file ← p.files[id]?
  let offset ← move file.offset
  return { p with files := p.files.set id { file with offset := offset } }

/-- What an operation means; `none` where it is refused. -/
def PosixFds.step (p : PosixFds) : FdOp → Option PosixFds
  | .bind registry fd resourceId offset flags =>
    if fd < 0 ∨ (provResourceGet registry resourceId).isNone then none
    else some ⟨Function.update p.fds fd (some p.files.length), p.files ++ [⟨resourceId, offset, flags⟩]⟩
  | .dup oldFd newFd =>
    if newFd < 0 then none
    else (p.fds oldFd).map fun id => { p with fds := Function.update p.fds newFd (some id) }
  | .close fd => (p.fds fd).map fun _ => { p with fds := Function.update p.fds fd none }
  | .setOffset fd offset => p.seek fd fun _ => some offset
  | .advance fd byteCount =>
    p.seek fd fun offset =>
      if byteCount > uint64Max - offset then none else some (offset + byteCount)

/-! ### Slots -/

instance finiteInt32 : Finite Int32 :=
  Finite.of_injective (fun fd : Int32 => fd.toBitVec.toFin) fun _ _ h =>
    Int32.toBitVec_inj.mp (BitVec.eq_of_toFin_eq h)

namespace ProvFdTable

/-- Write one slot and the two counters. -/
def putSlot (t : ProvFdTable) (s : ℕ) (slot : ProvFdSlot) (bindings tombstones : ℕ) : ProvFdTable :=
  { t with
    slots := t.slots.set s slot, bindingCount := bindings, tombstoneCount := tombstones }

variable {t : ProvFdTable} {s : ℕ} {slot : ProvFdSlot} {bindings tombstones : ℕ}

theorem slotAt_of_lt {i : ℕ} (hi : i < t.slots.length) : t.slotAt i = t.slots[i] := by
  rw [slotAt, List.getD_eq_getElem?_getD, List.getElem?_eq_getElem hi, Option.getD_some]

@[simp] theorem putSlot_length :
    (t.putSlot s slot bindings tombstones).slots.length = t.slots.length := List.length_set

@[simp] theorem putSlot_bindingCount :
    (t.putSlot s slot bindings tombstones).bindingCount = bindings := rfl

@[simp] theorem putSlot_tombstoneCount :
    (t.putSlot s slot bindings tombstones).tombstoneCount = tombstones := rfl

@[simp] theorem putSlot_ofds : (t.putSlot s slot bindings tombstones).ofds = t.ofds := rfl

theorem putSlot_slotAt (hs : s < t.slots.length) (i : ℕ) :
    (t.putSlot s slot bindings tombstones).slotAt i = if i = s then slot else t.slotAt i := by
  unfold slotAt putSlot
  rw [List.getD_eq_getElem?_getD, List.getElem?_set, List.getD_eq_getElem?_getD]
  by_cases hi : i = s
  · subst hi; simp [hs]
  · rw [if_neg (Ne.symm hi), if_neg hi]

theorem putSlot_view (hs : s < t.slots.length) :
    (t.putSlot s slot bindings tombstones).view = Function.update t.view s slot.cell := by
  funext i
  rw [view, putSlot_slotAt hs]
  by_cases hi : i = s
  · subst hi; rw [if_pos rfl, Function.update_self]
  · rw [if_neg hi, Function.update_of_ne hi, view]

end ProvFdTable

@[simp] theorem ProvFdSlot.cell_occupied (fd : Int32) (id : ℕ) :
    (⟨fd, id, .occupied⟩ : ProvFdSlot).cell = .occupied fd := rfl

theorem ProvFdSlot.cell_eq_occupied_iff {slot : ProvFdSlot} {fd : Int32} :
    slot.cell = .occupied fd ↔ slot.state = .occupied ∧ slot.fd = fd := by
  unfold ProvFdSlot.cell
  cases slot.state <;> simp

/-! ### The slots implement a map -/

/-- The slots of `t` hold the bindings `fds`, each where the probe finds it, and the counters count
them. -/
structure FdIndex (t : ProvFdTable) (fds : Int32 → Option ℕ) : Prop where
  size : ∃ k, t.slots.length = 2 ^ k
  alloc : t.slots.length * 12 ≤ sizeMax
  valid : Valid t.view t.slots.length fdHash
  occupied : count Cell.isOccupied t.view t.slots.length = t.bindingCount
  tombstones : count Cell.isTombstone t.view t.slots.length = t.tombstoneCount
  room : t.bindingCount + t.tombstoneCount < t.slots.length
  slot_bound : ∀ i < t.slots.length, (t.slotAt i).state = .occupied →
    ∃ id, (t.slotAt i).ofdId = id + 1 ∧ fds (t.slotAt i).fd = some id
  bound_slot : ∀ fd id, fds fd = some id → ∃ i < t.slots.length, t.view i = .occupied fd
  bindings : t.bindingCount = Set.ncard {fd | (fds fd).isSome}

namespace FdIndex

variable {t : ProvFdTable} {fds : Int32 → Option ℕ}

theorem slotAt_of_view (h : FdIndex t fds) {fd : Int32} {i : ℕ} (hi : i < t.slots.length)
    (hview : t.view i = .occupied fd) :
    ∃ id, t.slotAt i = ⟨fd, id + 1, .occupied⟩ ∧ fds fd = some id := by
  obtain ⟨hstate, hfd⟩ := ProvFdSlot.cell_eq_occupied_iff.mp hview
  obtain ⟨id, hid, hbound⟩ := h.slot_bound i hi hstate
  refine ⟨id, ?_, hfd ▸ hbound⟩
  rw [← hfd, ← hid, ← hstate]

/-- Only the slots and the two counters matter. -/
theorem congr (h : FdIndex t fds) {t' : ProvFdTable} (hslots : t'.slots = t.slots)
    (hb : t'.bindingCount = t.bindingCount) (ht : t'.tombstoneCount = t.tombstoneCount) :
    FdIndex t' fds := by
  obtain ⟨ofds, capacity, slots, b, n, heap⟩ := t
  obtain ⟨ofds', capacity', slots', b', n', heap'⟩ := t'
  obtain rfl : slots' = slots := hslots
  obtain rfl : b' = b := hb
  obtain rfl : n' = n := ht
  exact ⟨h.size, h.alloc, h.valid, h.occupied, h.tombstones, h.room, h.slot_bound, h.bound_slot,
    h.bindings⟩

/-- A bound descriptor is found, in a slot that names its description. -/
theorem find_bound (h : FdIndex t fds) {fd : Int32} {id : ℕ} (hfd : fds fd = some id) :
    ∃ s < t.slots.length, provFdFindSlotLocked t fd = .hit s ∧
      t.slotAt s = ⟨fd, id + 1, .occupied⟩ := by
  obtain ⟨k, hk⟩ := h.size
  obtain ⟨s, hs, hview⟩ := h.bound_slot fd id hfd
  obtain ⟨id', hslot, hid'⟩ := h.slotAt_of_view hs hview
  obtain rfl : id = id' := Option.some.inj (hfd.symm.trans hid')
  refine ⟨s, hs, ?_, hslot⟩
  have hvalid := h.valid
  rw [provFdFindSlotLocked, hk] at *
  exact (find_eq_hit_iff hvalid fd s).mpr ⟨hs, hview⟩

/-- An unbound descriptor is offered a slot. -/
theorem find_unbound (h : FdIndex t fds) {fd : Int32} (hfd : fds fd = none) :
    ∃ s, provFdFindSlotLocked t fd = .free s := by
  obtain ⟨k, hk⟩ := h.size
  have hvalid := h.valid
  have hfull := find_ne_full (hk ▸ hvalid) fd (by have := h.occupied; have := h.room; rw [← hk]; omega)
  have hspec := find_spec (hk ▸ hvalid) fd
  rw [provFdFindSlotLocked, hk]
  cases hfind : find t.view (2 ^ k) (fdHash fd) fd with
  | hit s =>
    rw [hfind] at hspec
    obtain ⟨id, -, hid⟩ := h.slotAt_of_view (hk ▸ hspec.1) hspec.2
    rw [hfd] at hid
    cases hid
  | free s => exact ⟨s, rfl⟩
  | full => exact absurd hfind hfull

/-- The loop never goes round a table without meeting an empty slot. -/
theorem exists_empty (h : FdIndex t fds) : ∃ i < t.slots.length, (t.slotAt i).state = .empty := by
  by_contra hnone
  push Not at hnone
  have hcover : count Cell.isOccupied t.view t.slots.length +
      count Cell.isTombstone t.view t.slots.length = t.slots.length := by
    rw [count, count, ← Finset.card_union_of_disjoint, ← Finset.filter_or,
      Finset.filter_true_of_mem, Finset.card_range]
    · intro i hi
      have hne := hnone i (Finset.mem_range.mp hi)
      unfold ProvFdTable.view ProvFdSlot.cell
      cases hstate : (t.slotAt i).state <;> simp_all
    · rw [Finset.disjoint_filter]
      intro i _ ho
      obtain ⟨key, hkey⟩ := Cell.isOccupied_iff.mp ho
      rw [hkey]
      simp
  have := h.room
  rw [h.occupied, h.tombstones] at hcover
  omega

end FdIndex

/-! ### Binding and unbinding a slot -/

section Update

variable (fds : Int32 → Option ℕ) {fd : Int32} {id : ℕ}

theorem ncard_bound_update_some (hfd : fds fd = none) :
    Set.ncard {x | (Function.update fds fd (some id) x).isSome} =
      Set.ncard {x | (fds x).isSome} + 1 := by
  have hset : {x | (Function.update fds fd (some id) x).isSome} =
      insert fd {x | (fds x).isSome} := by
    ext x
    by_cases hx : x = fd
    · subst hx; simp
    · simp [hx]
  rw [hset, Set.ncard_insert_of_notMem (by simp [hfd]) (Set.toFinite _)]

theorem ncard_bound_update_none (hfd : fds fd = some id) :
    Set.ncard {x | (Function.update fds fd none x).isSome} =
      Set.ncard {x | (fds x).isSome} - 1 := by
  have hset : {x | (Function.update fds fd none x).isSome} = {x | (fds x).isSome} \ {fd} := by
    ext x
    by_cases hx : x = fd
    · subst hx; simp
    · simp [hx]
  rw [hset, Set.ncard_sdiff_singleton_of_mem (by simp [hfd])]

/-- Descriptors bound to `id` after `fd` was bound to `id'`. -/
theorem ncard_users_update_some (hfd : fds fd = none) (id' : ℕ) :
    Set.ncard {x | Function.update fds fd (some id') x = some id} =
      Set.ncard {x | fds x = some id} + if id' = id then 1 else 0 := by
  by_cases hid : id' = id
  · subst hid
    have hset : {x | Function.update fds fd (some id') x = some id'} =
        insert fd {x | fds x = some id'} := by
      ext x
      by_cases hx : x = fd
      · subst hx; simp
      · simp [hx]
    rw [hset, Set.ncard_insert_of_notMem (by simp [hfd]) (Set.toFinite _), if_pos rfl]
  · have hset : {x | Function.update fds fd (some id') x = some id} = {x | fds x = some id} := by
      ext x
      by_cases hx : x = fd
      · subst hx; simp [hfd, hid]
      · simp [Function.update_of_ne hx]
    rw [hset, if_neg hid, Nat.add_zero]

/-- Descriptors bound to `id` after `fd` was unbound from `id'`. -/
theorem ncard_users_update_none {id' : ℕ} (hfd : fds fd = some id') :
    Set.ncard {x | Function.update fds fd none x = some id} =
      Set.ncard {x | fds x = some id} - if id' = id then 1 else 0 := by
  by_cases hid : id' = id
  · subst hid
    have hset : {x | Function.update fds fd none x = some id'} =
        {x | fds x = some id'} \ {fd} := by
      ext x
      by_cases hx : x = fd
      · subst hx; simp
      · simp [hx]
    rw [hset, Set.ncard_sdiff_singleton_of_mem (by simpa using hfd), if_pos rfl]
  · have hset : {x | Function.update fds fd none x = some id} = {x | fds x = some id} := by
      ext x
      by_cases hx : x = fd
      · subst hx; simp [hfd, hid]
      · simp [Function.update_of_ne hx]
    rw [hset, if_neg hid, Nat.sub_zero]

end Update

namespace FdIndex

variable {t : ProvFdTable} {fds : Int32 → Option ℕ}

/-- Binding an unbound descriptor, when two slots are free. -/
theorem insertBinding (h : FdIndex t fds) {fd : Int32} (hfd : fds fd = none) (id : ℕ)
    (hroom : t.bindingCount + t.tombstoneCount + 1 < t.slots.length) :
    ∃ t', provFdInsertBindingLocked t fd (id + 1) = (true, t') ∧
      FdIndex t' (Function.update fds fd (some id)) ∧
      t'.slots.length = t.slots.length ∧ t'.ofds = t.ofds ∧ t'.heap = t.heap ∧
      t'.bindingCount = t.bindingCount + 1 ∧ t'.tombstoneCount ≤ t.tombstoneCount := by
  obtain ⟨k, hk⟩ := h.size
  obtain ⟨s, hfind⟩ := h.find_unbound hfd
  have hvalid := hk ▸ h.valid
  have hspec := find_spec hvalid fd
  have hfind' : find t.view (2 ^ k) (fdHash fd) fd = .free s := by
    rw [← hk]; exact hfind
  rw [hfind'] at hspec
  obtain ⟨-, hs, hview, -⟩ := hspec
  rw [← hk] at hs
  -- the number of tombstones left, by the kind of slot that is taken
  have htomb : (if (t.slotAt s).state = .tombstone then t.tombstoneCount - 1
      else t.tombstoneCount) + (t.view s).isTombstone.toNat = t.tombstoneCount := by
    have hle := count_update Cell.isTombstone t.view hs .empty
    rw [h.tombstones] at hle
    unfold ProvFdTable.view ProvFdSlot.cell at hle ⊢
    cases hstate : (t.slotAt s).state <;> simp [hstate] at hle ⊢
    omega
  generalize hn : (if (t.slotAt s).state = .tombstone then t.tombstoneCount - 1
    else t.tombstoneCount) = n at htomb
  have hzero : (t.view s).isOccupied = false := by
    rcases hview with hview | hview <;> rw [hview] <;> rfl
  refine ⟨t.putSlot s ⟨fd, id + 1, .occupied⟩ (t.bindingCount + 1) n, ?_, ?_,
    ProvFdTable.putSlot_length, rfl, rfl, rfl, by
      rw [ProvFdTable.putSlot_tombstoneCount]; omega⟩
  · rw [provFdInsertBindingLocked, hfind]
    simp only [hn, ProvFdTable.putSlot]
  constructor
  · exact ⟨k, ProvFdTable.putSlot_length.trans hk⟩
  · rw [ProvFdTable.putSlot_length]
    exact h.alloc
  · rw [ProvFdTable.putSlot_length, ProvFdTable.putSlot_view hs, hk]
    exact hvalid.store hfind'
  · have hcount := count_update Cell.isOccupied t.view hs (.occupied fd)
    rw [h.occupied, hzero] at hcount
    rw [ProvFdTable.putSlot_length, ProvFdTable.putSlot_view hs, ProvFdTable.putSlot_bindingCount]
    simpa only [ProvFdSlot.cell_occupied, isOccupied_occupied, Bool.toNat_true, Bool.toNat_false,
      Nat.add_zero] using hcount
  · have hcount := count_update Cell.isTombstone t.view hs (.occupied fd)
    rw [h.tombstones] at hcount
    rw [ProvFdTable.putSlot_length, ProvFdTable.putSlot_view hs]
    simp only [isTombstone_occupied, Bool.toNat_false] at hcount
    change count _ (Function.update t.view s (.occupied fd)) _ = n
    omega
  · simp only [ProvFdTable.putSlot_length, ProvFdTable.putSlot_bindingCount,
      ProvFdTable.putSlot_tombstoneCount]
    omega
  · intro i hi
    rw [ProvFdTable.putSlot_length] at hi
    rw [ProvFdTable.putSlot_slotAt hs]
    by_cases his : i = s
    · rw [if_pos his]
      exact fun _ => ⟨id, rfl, Function.update_self _ _ _⟩
    · rw [if_neg his]
      intro hstate
      obtain ⟨id', hid', hbound⟩ := h.slot_bound i hi hstate
      refine ⟨id', hid', ?_⟩
      rw [Function.update_of_ne, hbound]
      intro hsame
      rw [hsame, hfd] at hbound
      cases hbound
  · intro fd' id' hbound
    rw [ProvFdTable.putSlot_length, ProvFdTable.putSlot_view hs]
    by_cases hfd' : fd' = fd
    · exact ⟨s, hs, by rw [Function.update_self, hfd']; rfl⟩
    · rw [Function.update_of_ne hfd'] at hbound
      obtain ⟨i, hi, hvi⟩ := h.bound_slot fd' id' hbound
      refine ⟨i, hi, ?_⟩
      rw [Function.update_of_ne, hvi]
      rintro rfl
      rcases hview with hview | hview <;> rw [hview] at hvi <;> cases hvi
  · rw [ProvFdTable.putSlot_bindingCount, ncard_bound_update_some fds hfd, h.bindings]

/-- Unbinding the descriptor of a slot leaves a tombstone. -/
theorem putTombstone (h : FdIndex t fds) {fd : Int32} {id s : ℕ} (hs : s < t.slots.length)
    (hslot : t.slotAt s = ⟨fd, id + 1, .occupied⟩) :
    FdIndex (t.putSlot s ⟨fd, provOfdIdInvalid, .tombstone⟩ (t.bindingCount - 1)
      (t.tombstoneCount + 1)) (Function.update fds fd none) := by
  have hview : t.view s = .occupied fd := by rw [ProvFdTable.view, hslot]; rfl
  have hfd : fds fd = some id := by
    obtain ⟨id', hid', hbound⟩ := h.slotAt_of_view hs hview
    rw [hslot] at hid'
    obtain rfl : id = id' := by simpa using congrArg ProvFdSlot.ofdId hid'
    exact hbound
  have hocc := count_update Cell.isOccupied t.view hs .tombstone
  have htomb := count_update Cell.isTombstone t.view hs .tombstone
  rw [h.occupied, hview] at hocc
  rw [h.tombstones, hview] at htomb
  simp only [isOccupied_occupied, Bool.toNat_true, isOccupied_tombstone, Bool.toNat_false,
    isTombstone_occupied, isTombstone_tombstone] at hocc htomb
  have hroom := h.room
  constructor
  · obtain ⟨k, hk⟩ := h.size
    exact ⟨k, ProvFdTable.putSlot_length.trans hk⟩
  · rw [ProvFdTable.putSlot_length]
    exact h.alloc
  · rw [ProvFdTable.putSlot_length, ProvFdTable.putSlot_view hs]
    exact h.valid.erase s
  · rw [ProvFdTable.putSlot_length, ProvFdTable.putSlot_view hs]
    change count _ (Function.update t.view s .tombstone) _ = t.bindingCount - 1
    omega
  · rw [ProvFdTable.putSlot_length, ProvFdTable.putSlot_view hs]
    change count _ (Function.update t.view s .tombstone) _ = t.tombstoneCount + 1
    omega
  · simp only [ProvFdTable.putSlot_length, ProvFdTable.putSlot_bindingCount,
      ProvFdTable.putSlot_tombstoneCount]
    omega
  · intro i hi
    rw [ProvFdTable.putSlot_length] at hi
    rw [ProvFdTable.putSlot_slotAt hs]
    by_cases his : i = s
    · rw [if_pos his]
      exact fun hstate => by cases hstate
    · rw [if_neg his]
      intro hstate
      obtain ⟨id', hid', hbound⟩ := h.slot_bound i hi hstate
      refine ⟨id', hid', ?_⟩
      rw [Function.update_of_ne, hbound]
      intro hsame
      refine his (h.valid.unique i s fd hi hs ?_ hview)
      exact ProvFdSlot.cell_eq_occupied_iff.mpr ⟨hstate, hsame⟩
  · intro fd' id' hbound
    rw [ProvFdTable.putSlot_length, ProvFdTable.putSlot_view hs]
    have hfd' : fd' ≠ fd := by
      rintro rfl
      rw [Function.update_self] at hbound
      cases hbound
    rw [Function.update_of_ne hfd'] at hbound
    obtain ⟨i, hi, hvi⟩ := h.bound_slot fd' id' hbound
    refine ⟨i, hi, ?_⟩
    rw [Function.update_of_ne, hvi]
    rintro rfl
    rw [hview] at hvi
    exact hfd' (Cell.occupied.inj hvi).symm
  · rw [ProvFdTable.putSlot_bindingCount, ncard_bound_update_none fds hfd, h.bindings]

end FdIndex

/-! ### Growth -/

/-- The bindings after the occupied slots of a list are bound in turn. -/
def bindAll (g : Int32 → Option ℕ) : List ProvFdSlot → Int32 → Option ℕ
  | [] => g
  | slot :: rest =>
    if slot.state = .occupied then bindAll (Function.update g slot.fd (some (slot.ofdId - 1))) rest
    else bindAll g rest

/-- No descriptor is in two occupied slots. -/
def DistinctFds (slots : List ProvFdSlot) : Prop :=
  slots.Pairwise fun a b => a.state = .occupied → b.state = .occupied → a.fd ≠ b.fd

theorem bindAll_of_notMem {fd : Int32} : ∀ {slots : List ProvFdSlot} (g : Int32 → Option ℕ),
    (∀ slot ∈ slots, slot.state = .occupied → slot.fd ≠ fd) → bindAll g slots fd = g fd
  | [], _, _ => rfl
  | slot :: rest, g, h => by
    rw [bindAll]
    have hrest := fun g => bindAll_of_notMem g fun slot hs => h slot (List.mem_cons_of_mem _ hs)
    split_ifs with hstate
    · rw [hrest, Function.update_of_ne (h slot List.mem_cons_self hstate).symm]
    · exact hrest g

theorem bindAll_of_mem {slot : ProvFdSlot} (hstate : slot.state = .occupied) :
    ∀ {slots : List ProvFdSlot} (g : Int32 → Option ℕ), DistinctFds slots → slot ∈ slots →
      bindAll g slots slot.fd = some (slot.ofdId - 1)
  | [], _, _, hmem => absurd hmem List.not_mem_nil
  | first :: rest, g, hdistinct, hmem => by
    obtain ⟨hfirst, hrest⟩ := List.pairwise_cons.mp hdistinct
    rw [bindAll]
    rcases List.mem_cons.mp hmem with rfl | hmem
    · rw [if_pos hstate, bindAll_of_notMem, Function.update_self]
      exact fun other ho hother => (hfirst other ho hstate hother).symm
    · split_ifs
      · exact bindAll_of_mem hstate _ hrest hmem
      · exact bindAll_of_mem hstate _ hrest hmem

namespace FdIndex

variable {t : ProvFdTable} {fds : Int32 → Option ℕ}

/-- A table of fresh slots has no bindings. -/
theorem fresh (t : ProvFdTable) {k : ℕ} (halloc : 2 ^ k * 12 ≤ sizeMax) :
    FdIndex { t with
      slots := List.replicate (2 ^ k) .zero, bindingCount := 0, tombstoneCount := 0 }
      fun _ => none := by
  have hslot : ∀ i, (ProvFdTable.slotAt { t with
      slots := List.replicate (2 ^ k) .zero, bindingCount := 0, tombstoneCount := 0 } i) =
      ProvFdSlot.zero := by
    intro i
    rw [ProvFdTable.slotAt, List.getD_eq_getElem?_getD, List.getElem?_replicate]
    split_ifs <;> rfl
  have hview : ∀ i, (ProvFdTable.view { t with
      slots := List.replicate (2 ^ k) .zero, bindingCount := 0, tombstoneCount := 0 } i) =
      .empty := fun i => by rw [ProvFdTable.view, hslot]; rfl
  have hlen : (List.replicate (2 ^ k) ProvFdSlot.zero).length = 2 ^ k := List.length_replicate
  have hpos : 0 < 2 ^ k := Nat.two_pow_pos k
  constructor
  · exact ⟨k, hlen⟩
  · rw [hlen]; exact halloc
  · exact valid_of_forall_empty fun i _ => hview i
  · exact count_eq_zero_of_forall_empty rfl fun i _ => hview i
  · exact count_eq_zero_of_forall_empty rfl fun i _ => hview i
  · rw [hlen]; exact hpos
  · intro i _ hstate
    rw [hslot] at hstate
    cases hstate
  · exact fun fd id hbound => by cases hbound
  · simp

theorem distinctFds (h : FdIndex t fds) : DistinctFds t.slots := by
  rw [DistinctFds, List.pairwise_iff_getElem]
  intro i j hi hj hij hsi hsj hfd
  have hview : ∀ (l : ℕ) (hl : l < t.slots.length), t.slots[l].state = .occupied →
      t.view l = .occupied t.slots[l].fd := by
    intro l hl hstate
    rw [ProvFdTable.view, ProvFdTable.slotAt_of_lt hl]
    exact ProvFdSlot.cell_eq_occupied_iff.mpr ⟨hstate, rfl⟩
  exact hij.ne (h.valid.unique i j _ hi hj (hview i hi hsi) (hfd ▸ hview j hj hsj))

/-- A table binds what its slots say. -/
theorem bindAll_slots (h : FdIndex t fds) : bindAll (fun _ => none) t.slots = fds := by
  funext fd
  cases hfd : fds fd with
  | none =>
    refine bindAll_of_notMem _ fun slot hmem hstate hsame => ?_
    obtain ⟨i, hi, rfl⟩ := List.mem_iff_getElem.mp hmem
    have hati := ProvFdTable.slotAt_of_lt hi
    obtain ⟨id, -, hbound⟩ := h.slot_bound i hi (by rw [hati]; exact hstate)
    rw [hati, hsame, hfd] at hbound
    cases hbound
  | some id =>
    obtain ⟨i, hi, hview⟩ := h.bound_slot fd id hfd
    obtain ⟨id', hslot, hbound⟩ := h.slotAt_of_view hi hview
    obtain rfl : id = id' := Option.some.inj (hfd.symm.trans hbound)
    have hstate : (t.slotAt i).state = .occupied := by rw [hslot]
    have hmem := bindAll_of_mem hstate (fun _ => none) h.distinctFds
      (ProvFdTable.slotAt_of_lt hi ▸ List.getElem_mem hi)
    simpa [hslot] using hmem

/-- Moving the slots of an old table into a larger one binds them all. -/
theorem rehashSlots : ∀ (rest : List ProvFdSlot) {t : ProvFdTable} {g : Int32 → Option ℕ},
    FdIndex t g → t.tombstoneCount = 0 → t.bindingCount + rest.length < t.slots.length →
    DistinctFds rest → (∀ slot ∈ rest, slot.state = .occupied → slot.ofdId ≠ 0 ∧ g slot.fd = none) →
      FdIndex (rest.foldl provFdRehashSlot t) (bindAll g rest) ∧
      (rest.foldl provFdRehashSlot t).ofds = t.ofds ∧
      (rest.foldl provFdRehashSlot t).heap = t.heap ∧
      (rest.foldl provFdRehashSlot t).slots.length = t.slots.length ∧
      (rest.foldl provFdRehashSlot t).bindingCount ≤ t.bindingCount + rest.length ∧
      (rest.foldl provFdRehashSlot t).tombstoneCount = 0
  | [], t, g, h, ht, _, _, _ => ⟨h, rfl, rfl, rfl, le_rfl, ht⟩
  | slot :: rest, t, g, h, ht, hroom, hdistinct, hslots => by
    obtain ⟨hfirst, hrest⟩ := List.pairwise_cons.mp hdistinct
    have hslots' := fun s hs => hslots s (List.mem_cons_of_mem slot hs)
    rw [List.length_cons] at hroom ⊢
    rw [List.foldl_cons, bindAll]
    by_cases hstate : slot.state = .occupied
    · rw [if_pos hstate]
      obtain ⟨hid, hunbound⟩ := hslots slot List.mem_cons_self hstate
      obtain ⟨id, hid⟩ := Nat.exists_eq_succ_of_ne_zero hid
      obtain ⟨t', hins, h', hlen, hofds, hheap, hb, htomb⟩ :=
        h.insertBinding hunbound id (by omega)
      -- with no tombstones about, the move is an insertion
      have hmove : provFdRehashSlot t slot = t' := by
        obtain ⟨s, hfind⟩ := h.find_unbound hunbound
        rw [provFdInsertBindingLocked, hfind] at hins
        obtain rfl := (Prod.mk.inj hins).2
        rw [provFdRehashSlot, if_neg (not_not.mpr hstate), hfind]
        have heta : slot = ⟨slot.fd, id + 1, .occupied⟩ := by
          rw [← hstate, ← Nat.succ_eq_add_one, ← hid]
        simp only [ht, Nat.zero_sub, ite_self, ← heta]
      rw [hmove]
      have hid' : slot.ofdId - 1 = id := by omega
      rw [hid']
      obtain ⟨hi, ho, hh, hl, hbc, htc⟩ := rehashSlots rest h' (by omega) (by omega) hrest
        fun s hs hss => ⟨(hslots' s hs hss).1, by
          rw [Function.update_of_ne (hfirst s hs hstate hss).symm]
          exact (hslots' s hs hss).2⟩
      exact ⟨hi, ho.trans hofds, hh.trans hheap, hl.trans hlen, by omega, htc⟩
    · rw [if_neg hstate]
      have hskip : provFdRehashSlot t slot = t := by rw [provFdRehashSlot, if_pos hstate]
      rw [hskip]
      obtain ⟨hi, ho, hh, hl, hbc, htc⟩ := rehashSlots rest h ht (by omega) hrest hslots'
      exact ⟨hi, ho, hh, hl, by omega, htc⟩

/-- A rehash into more slots keeps the bindings and clears the tombstones. -/
theorem rehash (h : FdIndex t fds) {k : ℕ} (hk : t.slots.length < 2 ^ k) :
    ∃ ok t', provFdRehashLocked t (2 ^ k) = (ok, t') ∧ FdIndex t' fds ∧ t'.ofds = t.ofds ∧
      (ok = true → t'.bindingCount + t'.tombstoneCount + 1 < t'.slots.length) ∧
      (t.heap.Ample → 2 ^ k * 12 ≤ sizeMax → ok = true ∧ t'.heap.Ample) := by
  unfold provFdRehashLocked
  cases hcalloc : t.heap.calloc (2 ^ k) 12 with | mk granted heap => ?_
  cases granted with
  | false =>
    refine ⟨false, _, rfl, h.congr rfl rfl rfl, rfl, Bool.noConfusion, ?_⟩
    intro hample hsize
    rw [hample.calloc hsize] at hcalloc
    cases hcalloc
  | true =>
    have halloc : 2 ^ k * 12 ≤ sizeMax := Heap.calloc_le (show (t.heap.calloc _ _).1 = true by rw [hcalloc])
    have hb : t.bindingCount < t.slots.length := by have := h.room; omega
    have hocc : ∀ slot ∈ t.slots, slot.state = .occupied → slot.ofdId ≠ 0 := by
      intro slot hmem hstate
      obtain ⟨i, hi, rfl⟩ := List.mem_iff_getElem.mp hmem
      have hati := ProvFdTable.slotAt_of_lt hi
      obtain ⟨id, hid, -⟩ := h.slot_bound i hi (by rw [hati]; exact hstate)
      rw [← hati, hid]
      exact Nat.succ_ne_zero id
    obtain ⟨hidx, hofds, hheap, hlen, hbc, htc⟩ := rehashSlots t.slots
      (fresh { t with heap := heap } halloc) rfl
      (by simpa using hk) h.distinctFds fun slot hmem hstate => ⟨hocc slot hmem hstate, rfl⟩
    rw [h.bindAll_slots] at hidx
    refine ⟨true, _, rfl, hidx, hofds, fun _ => ?_, fun hample hsize => ⟨rfl, ?_⟩⟩
    · rw [htc, hlen]
      have hcount : ∀ t₁ t₂ : ProvFdTable, FdIndex t₁ fds → FdIndex t₂ fds →
          t₁.bindingCount = t₂.bindingCount := fun t₁ t₂ h₁ h₂ =>
        h₁.bindings.trans h₂.bindings.symm
      rw [hcount _ t hidx h, List.length_replicate]
      omega
    · rw [hheap]
      rw [hample.calloc hsize] at hcalloc
      obtain rfl := (Prod.mk.inj hcalloc).2
      exact hample.next

/-- Making room keeps the bindings; after it two slots are free. -/
theorem ensureCapacity (h : FdIndex t fds) :
    ∃ ok t', provFdEnsureCapacityLocked t = (ok, t') ∧ FdIndex t' fds ∧ t'.ofds = t.ofds ∧
      (ok = true → t'.bindingCount + t'.tombstoneCount + 1 < t'.slots.length) ∧
      (t.heap.Ample → t.slots.length * 24 ≤ sizeMax → ok = true ∧ t'.heap.Ample) := by
  obtain ⟨k, hk⟩ := h.size
  have halloc := h.alloc
  rw [hk] at halloc
  have hsize : 2 ^ k ≤ sizeMax / 7 := by simp only [sizeMax] at halloc ⊢; omega
  unfold provFdEnsureCapacityLocked
  dsimp only
  cases hgrow : provShouldGrow (t.bindingCount + t.tombstoneCount + 1) t.slots.length with
  | false =>
    rw [if_pos rfl]
    exact ⟨true, t, rfl, h, rfl, fun _ => lt_of_not_provShouldGrow (hk ▸ hsize) hgrow,
      fun hample _ => ⟨rfl, hample⟩⟩
  | true =>
    have hcap := provNextCapacity_pow (k := k) (by omega)
    have hlt : 2 ^ k < 2 ^ (k + 1) := Nat.pow_lt_pow_right (by omega) (by omega)
    rw [if_neg Bool.noConfusion, hk, hcap, if_neg (by omega)]
    obtain ⟨ok, t', hre, hidx, hofds, hroom, hroomy⟩ := h.rehash (hk ▸ hlt)
    exact ⟨ok, t', hre, hidx, hofds, hroom, fun hample hbytes => hroomy hample (by omega)⟩

end FdIndex

/-! ### Reference counts -/

/-- The part of a record that POSIX knows. -/
def ProvOpenFileDescriptionRecord.file (o : ProvOpenFileDescriptionRecord) : OpenFile :=
  ⟨o.resourceId, o.currentOffset, o.flags⟩

/-- The descriptions of a table are those of `p`, and each counts the descriptors bound to it. -/
structure FdRefs (ofds : List ProvOpenFileDescriptionRecord) (p : PosixFds) : Prop where
  files : p.files = ofds.map ProvOpenFileDescriptionRecord.file
  lt : ∀ fd id, p.fds fd = some id → id < ofds.length
  count : ∀ (id : ℕ) (o : ProvOpenFileDescriptionRecord), ofds[id]? = some o →
    o.referenceCount = Set.ncard {fd | p.fds fd = some id}
  active : ∀ (id : ℕ) (o : ProvOpenFileDescriptionRecord), ofds[id]? = some o →
    (o.active = true ↔ 0 < o.referenceCount)

namespace FdRefs

variable {ofds : List ProvOpenFileDescriptionRecord} {p : PosixFds}

theorem getElem?_modify_eq_some
    {change : ProvOpenFileDescriptionRecord → ProvOpenFileDescriptionRecord} {id i : ℕ}
    {o : ProvOpenFileDescriptionRecord} (ho : (ofds.modify id change)[i]? = some o) :
    ∃ o', ofds[i]? = some o' ∧ o = if id = i then change o' else o' := by
  rw [List.getElem?_modify] at ho
  obtain ⟨o', ho', rfl⟩ := Option.map_eq_some_iff.mp ho
  exact ⟨o', ho', by split_ifs <;> rfl⟩

theorem map_file_modify (change : ProvOpenFileDescriptionRecord → ProvOpenFileDescriptionRecord)
    (hchange : ∀ o, (change o).file = o.file) (id : ℕ) :
    (ofds.modify id change).map ProvOpenFileDescriptionRecord.file =
      ofds.map ProvOpenFileDescriptionRecord.file := by
  refine List.ext_getElem? fun i => ?_
  rw [List.getElem?_map, List.getElem?_map, List.getElem?_modify]
  cases ofds[i]? with
  | none => rfl
  | some o => split_ifs <;> simp [hchange]

/-- A bound description has at least one user. -/
theorem pos (h : FdRefs ofds p) {fd : Int32} {id : ℕ} (hfd : p.fds fd = some id)
    {o : ProvOpenFileDescriptionRecord} (ho : ofds[id]? = some o) : 0 < o.referenceCount := by
  rw [h.count id o ho, Set.ncard_pos (Set.toFinite _)]
  exact ⟨fd, hfd⟩

theorem release (h : FdRefs ofds p) {fd : Int32} {id : ℕ} (hfd : p.fds fd = some id) :
    FdRefs (ofds.modify id releaseOfd) { p with fds := Function.update p.fds fd none } := by
  constructor
  · exact h.files.trans (map_file_modify releaseOfd (fun _ => rfl) id).symm
  · intro fd' id' hbound
    rw [List.length_modify]
    refine h.lt fd' id' ?_
    by_cases hfd' : fd' = fd
    · subst hfd'; simp at hbound
    · simpa [Function.update_of_ne hfd'] using hbound
  · intro i o ho
    obtain ⟨o', ho', rfl⟩ := getElem?_modify_eq_some ho
    change _ = Set.ncard {x | Function.update p.fds fd none x = some i}
    rw [ncard_users_update_none p.fds hfd, ← h.count i o' ho']
    split_ifs <;> rfl
  · intro i o ho
    obtain ⟨o', ho', rfl⟩ := getElem?_modify_eq_some ho
    have hactive := h.active i o' ho'
    split_ifs with hi
    · subst hi
      have hpos := h.pos hfd ho'
      simp only [releaseOfd]
      split_ifs with hzero
      · simp [hzero]
      · rw [hactive]; omega
    · exact hactive

theorem retain (h : FdRefs ofds p) {fd : Int32} {id : ℕ} (hfd : p.fds fd = none)
    {o : ProvOpenFileDescriptionRecord} (ho : ofds[id]? = some o) (hactive : o.active = true) :
    FdRefs (ofds.modify id retainOfd) { p with fds := Function.update p.fds fd (some id) } := by
  constructor
  · exact h.files.trans (map_file_modify retainOfd (fun _ => rfl) id).symm
  · intro fd' id' hbound
    rw [List.length_modify]
    by_cases hfd' : fd' = fd
    · subst hfd'
      obtain rfl : id = id' := by simpa using hbound
      exact (List.getElem?_eq_some_iff.mp ho).1
    · exact h.lt fd' id' (by simpa [Function.update_of_ne hfd'] using hbound)
  · intro i o ho
    obtain ⟨o', ho', rfl⟩ := getElem?_modify_eq_some ho
    change _ = Set.ncard {x | Function.update p.fds fd (some id) x = some i}
    rw [ncard_users_update_some p.fds hfd, ← h.count i o' ho']
    split_ifs <;> rfl
  · intro i o₁ ho₁
    obtain ⟨o', ho', rfl⟩ := getElem?_modify_eq_some ho₁
    split_ifs with hi
    · subst hi
      obtain rfl : o = o' := Option.some.inj (ho.symm.trans ho')
      simp [retainOfd, hactive]
    · exact h.active i o' ho'

theorem append (h : FdRefs ofds p) {fd : Int32} (hfd : p.fds fd = none) (file : OpenFile) :
    FdRefs (ofds ++ [⟨file.resourceId, file.offset, file.flags, 1, true⟩])
      ⟨Function.update p.fds fd (some ofds.length), p.files ++ [file]⟩ := by
  have hunused : Set.ncard {x | p.fds x = some ofds.length} = 0 := by
    rw [Set.ncard_eq_zero (Set.toFinite _), Set.eq_empty_iff_forall_notMem]
    exact fun x hx => lt_irrefl _ (h.lt x _ hx)
  constructor
  · rw [List.map_append, h.files]; rfl
  · intro fd' id' hbound
    rw [List.length_append, List.length_singleton]
    by_cases hfd' : fd' = fd
    · subst hfd'
      obtain rfl : ofds.length = id' := by simpa using hbound
      exact Nat.lt_succ_self _
    · have hlt := h.lt fd' id' (by simpa [Function.update_of_ne hfd'] using hbound)
      omega
  · intro i o ho
    change _ = Set.ncard {x | Function.update p.fds fd (some ofds.length) x = some i}
    rw [ncard_users_update_some p.fds hfd]
    rcases Nat.lt_or_ge i ofds.length with hi | hi
    · rw [List.getElem?_append_left hi] at ho
      rw [if_neg (by omega), Nat.add_zero]
      exact h.count i o ho
    · rw [List.getElem?_append_right hi] at ho
      obtain rfl : i = ofds.length := by
        have := (List.getElem?_eq_some_iff.mp ho).1
        simp only [List.length_singleton] at this
        omega
      simp only [Nat.sub_self, List.getElem?_cons_zero, Option.some.injEq] at ho
      rw [hunused, if_pos rfl, ← ho]
  · intro i o ho
    rcases Nat.lt_or_ge i ofds.length with hi | hi
    · rw [List.getElem?_append_left hi] at ho
      exact h.active i o ho
    · rw [List.getElem?_append_right hi] at ho
      obtain ⟨hlt, rfl⟩ := List.getElem?_eq_some_iff.mp ho
      have hzero : i - ofds.length = 0 := by simpa using hlt
      simp [hzero]

theorem seek (h : FdRefs ofds p) {id : ℕ} {o : ProvOpenFileDescriptionRecord}
    (ho : ofds[id]? = some o) (offset : ℕ) :
    FdRefs (ofds.modify id fun o => { o with currentOffset := offset })
      { p with files := p.files.set id { o.file with offset := offset } } := by
  constructor
  · refine List.ext_getElem? fun i => ?_
    rw [List.getElem?_set, List.getElem?_map, List.getElem?_modify, h.files, List.length_map,
      List.getElem?_map]
    by_cases hi : id = i
    · subst hi
      rw [if_pos rfl, if_pos (List.getElem?_eq_some_iff.mp ho).1, ho]
      simp [ProvOpenFileDescriptionRecord.file]
    · rw [if_neg hi]
      cases ofds[i]? <;> simp [hi]
  · intro fd' id' hbound
    rw [List.length_modify]
    exact h.lt fd' id' hbound
  · intro i o ho
    obtain ⟨o', ho', rfl⟩ := getElem?_modify_eq_some ho
    have hcount := h.count i o' ho'
    split_ifs <;> exact hcount
  · intro i o ho
    obtain ⟨o', ho', rfl⟩ := getElem?_modify_eq_some ho
    have hactive := h.active i o' ho'
    split_ifs <;> exact hactive

end FdRefs

/-! ### The refinement -/

/-- There is memory, and an identifier, for one more description and one more binding. -/
structure ProvFdTable.Roomy (t : ProvFdTable) : Prop where
  ample : t.heap.Ample
  slots : t.slots.length * 24 ≤ sizeMax
  ofds : t.ofds.length < uint32Max

/-- `t` implements `p`. -/
structure FdRefines (t : ProvFdTable) (p : PosixFds) : Prop where
  index : FdIndex t p.fds
  refs : FdRefs t.ofds p
  nonneg : ∀ fd id, p.fds fd = some id → 0 ≤ fd

/-- There are at most `2 ^ 31` descriptors, so that no reference count overflows. -/
theorem ncard_nonneg_le (s : Set Int32) (h : ∀ fd ∈ s, 0 ≤ fd) : s.ncard ≤ 2 ^ 31 := by
  have hrange : ∀ fd ∈ s, fd.toBitVec.toNat ∈ (Finset.range (2 ^ 31) : Set ℕ) := by
    intro fd hfd
    have hle := Int32.le_iff_toInt_le.mp (h fd hfd)
    have htoInt : fd.toInt = fd.toBitVec.toInt := rfl
    have hzero : (0 : Int32).toInt = 0 := by decide
    rw [htoInt, hzero, BitVec.toInt_eq_toNat_cond] at hle
    have hlt := fd.toBitVec.isLt
    rw [Finset.mem_coe, Finset.mem_range]
    split_ifs at hle <;> omega
  have hinj : Set.InjOn (fun fd : Int32 => fd.toBitVec.toNat) s := fun a _ b _ hab =>
    Int32.toBitVec_inj.mp (BitVec.eq_of_toNat_eq hab)
  have hle := Set.ncard_le_ncard_of_injOn _ hrange hinj (Set.toFinite _)
  rwa [Set.ncard_coe_finset, Finset.card_range] at hle

namespace FdRefines

variable {t : ProvFdTable} {p : PosixFds}

/-- Closing the slot of a bound descriptor. -/
theorem closeSlot (h : FdRefines t p) {fd : Int32} {id s : ℕ} (hs : s < t.slots.length)
    (hslot : t.slotAt s = ⟨fd, id + 1, .occupied⟩) (hfd : p.fds fd = some id) :
    ∃ t', provFdCloseSlotLocked t s = (true, t') ∧
      FdRefines t' { p with fds := Function.update p.fds fd none } ∧
      t'.bindingCount + t'.tombstoneCount = t.bindingCount + t.tombstoneCount ∧
      t'.slots.length = t.slots.length := by
  have hlt := h.refs.lt fd id hfd
  have hidx := h.index.putTombstone hs hslot
  have hbindings : 0 < t.bindingCount := by
    rw [h.index.bindings, Set.ncard_pos (Set.toFinite _)]
    exact ⟨fd, by simp [hfd]⟩
  have hnonneg : ∀ fd' id', Function.update p.fds fd none fd' = some id' → 0 ≤ fd' := by
    intro fd' id' hbound
    by_cases hfd' : fd' = fd
    · rw [hfd', Function.update_self] at hbound; cases hbound
    · rw [Function.update_of_ne hfd'] at hbound
      exact h.nonneg fd' id' hbound
  refine ⟨{ t.putSlot s ⟨fd, provOfdIdInvalid, .tombstone⟩ (t.bindingCount - 1)
      (t.tombstoneCount + 1) with ofds := t.ofds.modify id releaseOfd }, ?_,
    ⟨hidx.congr rfl rfl rfl, h.refs.release hfd, hnonneg⟩, ?_, List.length_set⟩
  · rw [provFdCloseSlotLocked, hslot]
    exact if_neg (by simp only [provOfdIdInvalid, ne_eq, not_true, false_or]; omega)
  · change t.bindingCount - 1 + (t.tombstoneCount + 1) = _
    omega

/-- Closing a descriptor that may be bound, as `bind` and `dup` do with their target. -/
theorem closeExisting (h : FdRefines t p) (fd : Int32) :
    ∃ t', TaintForge.closeExisting t fd = t' ∧
      FdRefines t' { p with fds := Function.update p.fds fd none } ∧
      t'.bindingCount + t'.tombstoneCount = t.bindingCount + t.tombstoneCount ∧
      t'.slots.length = t.slots.length := by
  cases hfd : p.fds fd with
  | none =>
    obtain ⟨s, hfind⟩ := h.index.find_unbound hfd
    refine ⟨t, by rw [TaintForge.closeExisting, hfind], ?_, rfl, rfl⟩
    rwa [← hfd, Function.update_eq_self]
  | some id =>
    obtain ⟨s, hs, hfind, hslot⟩ := h.index.find_bound hfd
    obtain ⟨t', hclose, hrest⟩ := h.closeSlot hs hslot hfd
    exact ⟨t', by rw [TaintForge.closeExisting, hfind]; simp only [hclose], hrest⟩

/-- Nothing but the slots, the counters and the descriptions matters. -/
theorem congr (h : FdRefines t p) {t' : ProvFdTable} (hofds : t'.ofds = t.ofds)
    (hslots : t'.slots = t.slots) (hb : t'.bindingCount = t.bindingCount)
    (ht : t'.tombstoneCount = t.tombstoneCount) : FdRefines t' p :=
  ⟨h.index.congr hslots hb ht, hofds ▸ h.refs, h.nonneg⟩

theorem nonneg_update (h : FdRefines t p) {fd : Int32} (hfd : 0 ≤ fd) (id : Option ℕ) :
    ∀ fd' id', Function.update (Function.update p.fds fd none) fd id fd' = some id' → 0 ≤ fd' := by
  intro fd' id' hbound
  rw [Function.update_idem] at hbound
  by_cases hfd' : fd' = fd
  · exact hfd' ▸ hfd
  · rw [Function.update_of_ne hfd'] at hbound
    exact h.nonneg fd' id' hbound

/-! ### One operation -/

theorem bindNew (h : FdRefines t p) (registry : ProvRegistry) (fd : Int32)
    (resourceId offset : ℕ) (flags : BitVec 32) :
    match provFdTableBindNew registry t fd resourceId offset flags with
    | (some id, t') => id = p.files.length + 1 ∧ ∃ p',
        p.step (.bind registry fd resourceId offset flags) = some p' ∧ FdRefines t' p'
    | (none, t') => FdRefines t' p ∧
        (t.Roomy → p.step (.bind registry fd resourceId offset flags) = none) := by
  unfold provFdTableBindNew
  by_cases harg : fd < 0 ∨ resourceId = provResourceIdInvalid
  · rw [if_pos harg]
    refine ⟨h, fun _ => ?_⟩
    rw [PosixFds.step, if_pos]
    rcases harg with hneg | hzero
    · exact .inl hneg
    · exact .inr (by rw [provResourceGet, if_pos hzero]; rfl)
  rw [if_neg harg]
  by_cases hres : (provResourceGet registry resourceId).isNone = true
  · rw [if_pos hres]
    exact ⟨h, fun _ => by rw [PosixFds.step, if_pos (.inr hres)]⟩
  rw [if_neg hres]
  by_cases hfull : t.ofds.length ≥ uint32Max
  · rw [if_pos hfull]
    exact ⟨h, fun hroomy => absurd hroomy.ofds (Nat.not_lt.mpr hfull)⟩
  rw [if_neg hfull]
  obtain ⟨ok, t₁, hensure, hidx, hofds, hroom, hample⟩ := h.index.ensureCapacity
  have h₁ : FdRefines t₁ p := ⟨hidx, hofds ▸ h.refs, h.nonneg⟩
  rw [hensure]
  cases ok with
  | false => exact ⟨h₁, fun hroomy => by cases (hample hroomy.ample hroomy.slots).1⟩
  | true =>
    simp only
    cases hgrow : provGrowArray t₁.heap 32 t₁.ofdCapacity (t₁.ofds.length + 1) with | mk room rest
    obtain ⟨capacity, heap⟩ := rest
    have h₂ : FdRefines { t₁ with ofdCapacity := capacity, heap := heap } p :=
      h₁.congr rfl rfl rfl rfl
    cases room with
    | false =>
      refine ⟨h₂, fun hroomy => ?_⟩
      have hlen : t₁.ofds.length + 1 ≤ 2 ^ 32 := by
        have hlt := hroomy.ofds
        simp only [uint32Max] at hlt
        rw [hofds]
        omega
      obtain ⟨_, _, hgranted, -⟩ := (hample hroomy.ample hroomy.slots).2.growArray
        32 t₁.ofdCapacity hlen (by omega) (by omega)
      rw [hgrow] at hgranted
      cases hgranted
    | true =>
      dsimp only
      rw [if_neg Bool.noConfusion]
      obtain ⟨t₃, hclose, h₃, hcount, hlen⟩ := h₂.closeExisting fd
      rw [hclose]
      have hfd : 0 ≤ fd := by
        have := not_or.mp harg
        exact Int32.not_lt.mp this.1
      have hfiles : t₃.ofds.length = p.files.length := by
        have := congrArg List.length h₃.refs.files
        simpa using this.symm
      -- the new description, and its first reference
      set file : OpenFile := ⟨resourceId, offset, flags⟩ with hfile
      have hunbound : Function.update p.fds fd none fd = none := Function.update_self _ _ _
      have hrefs := h₃.refs.append hunbound file
      have hidx₃ : FdIndex { t₃ with ofds := t₃.ofds ++ [⟨resourceId, offset, flags, 1, true⟩] }
          (Function.update p.fds fd none) := h₃.index.congr rfl rfl rfl
      have hspare : t₃.bindingCount + t₃.tombstoneCount + 1 < t₃.slots.length := by
        rw [hcount, hlen]; exact hroom rfl
      obtain ⟨t', hins, hidx', -, hofds', -⟩ :=
        hidx₃.insertBinding hunbound t₃.ofds.length hspare
      rw [hins]
      refine ⟨by rw [hfiles], ⟨Function.update p.fds fd (some p.files.length), p.files ++ [file]⟩,
        ?_, ?_, ?_, ?_⟩
      · rw [PosixFds.step, if_neg]
        rintro (hneg | hnone)
        · exact harg (.inl hneg)
        · exact hres hnone
      · rw [Function.update_idem, hfiles] at hidx'
        exact hidx'
      · rw [hofds']
        simp only [Function.update_idem, hfiles] at hrefs
        exact hrefs
      · have hnn := h.nonneg_update hfd (some p.files.length)
        rwa [Function.update_idem] at hnn

theorem dup (h : FdRefines t p) (oldFd newFd : Int32) :
    match provFdTableDup t oldFd newFd with
    | (some id, t') => 0 < id ∧ p.fds oldFd = some (id - 1) ∧ ∃ p',
        p.step (.dup oldFd newFd) = some p' ∧ FdRefines t' p'
    | (none, t') => FdRefines t' p ∧ (t.Roomy → p.step (.dup oldFd newFd) = none) := by
  unfold provFdTableDup
  by_cases harg : oldFd < 0 ∨ newFd < 0
  · rw [if_pos harg]
    refine ⟨h, fun _ => ?_⟩
    rw [PosixFds.step]
    split_ifs with hneg
    · rfl
    · cases hold : p.fds oldFd with
      | none => rfl
      | some id =>
        exact absurd (h.nonneg oldFd id hold) (Int32.not_le.mpr (harg.resolve_right hneg))
  rw [if_neg harg]
  have hnew : 0 ≤ newFd := Int32.not_lt.mp (not_or.mp harg).2
  cases hold : p.fds oldFd with
  | none =>
    obtain ⟨s, hfind⟩ := h.index.find_unbound hold
    rw [hfind]
    refine ⟨h, fun _ => ?_⟩
    rw [PosixFds.step, if_neg (not_or.mp harg).2, hold]
    rfl
  | some id =>
    obtain ⟨s, hs, hfind, hslot⟩ := h.index.find_bound hold
    rw [hfind]
    simp only [hslot]
    have hstep : p.step (.dup oldFd newFd) =
        some { p with fds := Function.update p.fds newFd (some id) } := by
      rw [PosixFds.step, if_neg (not_or.mp harg).2, hold]
      rfl
    by_cases hsame : oldFd = newFd
    · rw [if_pos hsame]
      refine ⟨Nat.succ_pos id, rfl, _, hstep, ?_⟩
      rw [← hsame, ← hold, Function.update_eq_self]
      exact h
    rw [if_neg hsame]
    obtain ⟨ok, t₁, hensure, hidx, hofds, hroom, hample⟩ := h.index.ensureCapacity
    have h₁ : FdRefines t₁ p := ⟨hidx, hofds ▸ h.refs, h.nonneg⟩
    rw [hensure]
    cases ok with
    | false => exact ⟨h₁, fun hroomy => by cases (hample hroomy.ample hroomy.slots).1⟩
    | true =>
      simp only
      obtain ⟨t₂, hclose, h₂, hcount, hlen⟩ := h₁.closeExisting newFd
      rw [hclose]
      have hold₂ : Function.update p.fds newFd none oldFd = some id := by
        rw [Function.update_of_ne hsame, hold]
      have hlt : id < t₂.ofds.length := h₂.refs.lt oldFd id hold₂
      obtain ⟨o, ho⟩ : ∃ o, t₂.ofds[id]? = some o := ⟨_, List.getElem?_eq_getElem hlt⟩
      have hpos := h₂.refs.pos hold₂ ho
      have hactive : o.active = true := (h₂.refs.active id o ho).mpr hpos
      -- fewer than `UINT32_MAX` descriptors are bound to one description
      have hmax : o.referenceCount ≠ uint32Max := by
        have hle := ncard_nonneg_le {fd | Function.update p.fds newFd none fd = some id}
          fun fd hfd => h₂.nonneg fd id hfd
        rw [← h₂.refs.count id o ho] at hle
        simp only [uint32Max]
        omega
      rw [if_neg (by simp only [provOfdIdInvalid]; omega), Nat.add_sub_cancel, ho]
      simp only [hactive, Bool.true_eq_false, hmax, or_self, if_false]
      have hunbound : Function.update p.fds newFd none newFd = none := Function.update_self _ _ _
      have hrefs := h₂.refs.retain hunbound ho hactive
      have hidx₂ : FdIndex { t₂ with ofds := t₂.ofds.modify id retainOfd }
          (Function.update p.fds newFd none) := h₂.index.congr rfl rfl rfl
      have hspare : t₂.bindingCount + t₂.tombstoneCount + 1 < t₂.slots.length := by
        rw [hcount, hlen]; exact hroom rfl
      obtain ⟨t', hins, hidx', -, hofds', -⟩ := hidx₂.insertBinding hunbound id hspare
      rw [hins]
      refine ⟨Nat.succ_pos id, rfl, _, hstep, ?_, ?_, ?_⟩
      · rwa [Function.update_idem] at hidx'
      · rw [hofds']
        simpa only [Function.update_idem] using hrefs
      · have hnn := h.nonneg_update hnew (some id)
        rwa [Function.update_idem] at hnn

theorem close (h : FdRefines t p) (fd : Int32) :
    match provFdTableClose t fd with
    | (true, t') => ∃ p', p.step (.close fd) = some p' ∧ FdRefines t' p'
    | (false, t') => p.step (.close fd) = none ∧ FdRefines t' p := by
  unfold provFdTableClose
  cases hfd : p.fds fd with
  | none =>
    have hstep : p.step (.close fd) = none := by rw [PosixFds.step, hfd]; rfl
    obtain ⟨s, hfind⟩ := h.index.find_unbound hfd
    rw [hfind]
    split_ifs <;> exact ⟨hstep, h⟩
  | some id =>
    have hstep : p.step (.close fd) = some { p with fds := Function.update p.fds fd none } := by
      rw [PosixFds.step, hfd]; rfl
    obtain ⟨s, hs, hfind, hslot⟩ := h.index.find_bound hfd
    obtain ⟨t', hclose, h', -, -⟩ := h.closeSlot hs hslot hfd
    rw [if_neg (Int32.not_lt.mpr (h.nonneg fd id hfd)), hfind]
    simp only [hclose]
    exact ⟨_, hstep, h'⟩

/-- Moving an offset moves it for every descriptor of the description, since there is one record. -/
theorem moveOffset (h : FdRefines t p) (fd : Int32) (move : ℕ → Option ℕ) :
    match TaintForge.moveOffset t fd move with
    | (true, t') => ∃ p', p.seek fd move = some p' ∧ FdRefines t' p'
    | (false, t') => p.seek fd move = none ∧ FdRefines t' p := by
  unfold TaintForge.moveOffset PosixFds.seek
  cases hfd : p.fds fd with
  | none =>
    obtain ⟨s, hfind⟩ := h.index.find_unbound hfd
    rw [hfind]
    split_ifs <;> exact ⟨rfl, h⟩
  | some id =>
    obtain ⟨s, hs, hfind, hslot⟩ := h.index.find_bound hfd
    have hlt := h.refs.lt fd id hfd
    obtain ⟨o, ho⟩ : ∃ o, t.ofds[id]? = some o := ⟨_, List.getElem?_eq_getElem hlt⟩
    have hactive : o.active = true := (h.refs.active id o ho).mpr (h.refs.pos hfd ho)
    have hfile : p.files[id]? = some o.file := by
      rw [h.refs.files, List.getElem?_map, ho]; rfl
    rw [if_neg (Int32.not_lt.mpr (h.nonneg fd id hfd)), hfind]
    simp only [hslot, Nat.add_sub_cancel, ho, hactive, if_true, Option.bind_eq_bind,
      Option.bind_some, hfile]
    have hoffset : o.file.offset = o.currentOffset := rfl
    rw [hoffset]
    cases move o.currentOffset with
    | none => exact ⟨rfl, h⟩
    | some offset =>
      exact ⟨_, rfl, h.index.congr rfl rfl rfl, h.refs.seek ho offset, h.nonneg⟩

end FdRefines

/-! ### Runs -/

/-- One operation on the table: whether it succeeded, and the table after it. -/
def fdStep (t : ProvFdTable) : FdOp → Bool × ProvFdTable
  | .bind registry fd resourceId offset flags =>
    let (id, t') := provFdTableBindNew registry t fd resourceId offset flags
    (id.isSome, t')
  | .dup oldFd newFd =>
    let (id, t') := provFdTableDup t oldFd newFd
    (id.isSome, t')
  | .close fd => provFdTableClose t fd
  | .setOffset fd offset => provFdTableSetOffset t fd offset
  | .advance fd byteCount => provFdTableAdvance t fd byteCount

/-- A successful operation is the POSIX operation.  A failed one changes nothing, and with memory to
spare it is one that POSIX refuses. -/
theorem fdStep_refines {t : ProvFdTable} {p : PosixFds} (h : FdRefines t p) (op : FdOp) :
    match fdStep t op with
    | (true, t') => ∃ p', p.step op = some p' ∧ FdRefines t' p'
    | (false, t') => (t.Roomy → p.step op = none) ∧ FdRefines t' p := by
  cases op with
  | bind registry fd resourceId offset flags =>
    have hbind := h.bindNew registry fd resourceId offset flags
    rw [fdStep]
    revert hbind
    rcases provFdTableBindNew registry t fd resourceId offset flags with ⟨_ | id, t'⟩
    · exact fun h' => ⟨h'.2, h'.1⟩
    · exact fun h' => h'.2
  | dup oldFd newFd =>
    have hdup := h.dup oldFd newFd
    rw [fdStep]
    revert hdup
    rcases provFdTableDup t oldFd newFd with ⟨_ | id, t'⟩
    · exact fun h' => ⟨h'.2, h'.1⟩
    · exact fun h' => h'.2.2
  | close fd =>
    have hclose := h.close fd
    rw [fdStep]
    revert hclose
    rcases provFdTableClose t fd with ⟨_ | _, t'⟩
    · exact fun h' => ⟨fun _ => h'.1, h'.2⟩
    · exact id
  | setOffset fd offset =>
    have hmove := h.moveOffset fd fun _ => some offset
    rw [fdStep, provFdTableSetOffset]
    revert hmove
    rcases moveOffset t fd fun _ => some offset with ⟨_ | _, t'⟩
    · exact fun h' => ⟨fun _ => h'.1, h'.2⟩
    · exact id
  | advance fd byteCount =>
    have hmove := h.moveOffset fd fun offset =>
      if byteCount > uint64Max - offset then none else some (offset + byteCount)
    rw [fdStep, provFdTableAdvance]
    revert hmove
    rcases moveOffset t fd fun offset =>
      if byteCount > uint64Max - offset then none else some (offset + byteCount) with ⟨_ | _, t'⟩
    · exact fun h' => ⟨fun _ => h'.1, h'.2⟩
    · exact id

/-- The table after a run. -/
def fdRun (t : ProvFdTable) : List FdOp → ProvFdTable
  | [] => t
  | op :: ops => fdRun (fdStep t op).2 ops

/-- The descriptors after a run: those operations count that the table reported as done. -/
def posixRun (t : ProvFdTable) (p : PosixFds) : List FdOp → PosixFds
  | [] => p
  | op :: ops =>
    posixRun (fdStep t op).2 (if (fdStep t op).1 then (p.step op).getD p else p) ops

theorem fdRun_refines : ∀ (ops : List FdOp) {t : ProvFdTable} {p : PosixFds}, FdRefines t p →
    FdRefines (fdRun t ops) (posixRun t p ops)
  | [], _, _, h => h
  | op :: ops, t, p, h => by
    rw [fdRun, posixRun]
    have hstep := fdStep_refines h op
    revert hstep
    rcases fdStep t op with ⟨_ | _, t'⟩
    · exact fun hstep => fdRun_refines ops hstep.2
    · rintro ⟨p', hp', h'⟩
      simp only [hp', Option.getD_some, if_true]
      exact fdRun_refines ops h'

/-- A created table is empty. -/
theorem provFdTableCreate_refines {heap : Heap} {t : ProvFdTable}
    (h : provFdTableCreate heap = some t) : FdRefines t PosixFds.empty := by
  unfold provFdTableCreate at h
  split_ifs at h
  cases hre : provFdRehashLocked ⟨[], 0, [], 0, 0, heap.next⟩ provInitialBucketCount with | mk ok t'
  rw [hre] at h
  cases ok with
  | false => cases h
  | true =>
    obtain rfl : t' = t := Option.some.inj h
    unfold provFdRehashLocked at hre
    cases hcalloc : heap.next.calloc provInitialBucketCount 12 with | mk granted heap'
    simp only [hcalloc] at hre
    cases granted with
    | false => cases hre
    | true =>
      obtain rfl := (Prod.mk.inj hre).2
      refine ⟨?_, ⟨rfl, fun fd id h => ?_, fun id o h => ?_, fun id o h => ?_⟩, fun fd id h => ?_⟩
      · exact FdIndex.fresh ⟨[], 0, [], 0, 0, heap'⟩ (k := 4) (by decide)
      · cases h
      · simp at h
      · simp at h
      · cases h

/-- What a lookup answers. -/
theorem lookup_eq {t : ProvFdTable} {p : PosixFds} (h : FdRefines t p) (fd : Int32) :
    match p.fds fd with
    | none => provFdTableLookup t fd = none
    | some id => ∃ o, t.ofds[id]? = some o ∧ provFdTableLookup t fd = some ⟨id + 1, o⟩ ∧
        p.files[id]? = some o.file ∧ o.active = true := by
  unfold provFdTableLookup
  cases hfd : p.fds fd with
  | none =>
    obtain ⟨s, hfind⟩ := h.index.find_unbound hfd
    rw [hfind]
    exact ite_self _
  | some id =>
    obtain ⟨s, hs, hfind, hslot⟩ := h.index.find_bound hfd
    have hlt := h.refs.lt fd id hfd
    have ho : t.ofds[id]? = some t.ofds[id] := List.getElem?_eq_getElem hlt
    refine ⟨t.ofds[id], ho, ?_, ?_, (h.refs.active id _ ho).mpr (h.refs.pos hfd ho)⟩
    · rw [if_neg (Int32.not_lt.mpr (h.nonneg fd id hfd)), hfind]
      simp only [hslot, provOfdIdInvalid]
      rw [if_neg (by omega), Nat.add_sub_cancel, ho]
      rfl
    · rw [h.refs.files, List.getElem?_map, ho]
      rfl

/-- Two tables that implement the same descriptors answer every lookup alike. -/
theorem lookup_congr {t t' : ProvFdTable} {p : PosixFds} (h : FdRefines t p)
    (h' : FdRefines t' p) (fd : Int32) : provFdTableLookup t' fd = provFdTableLookup t fd := by
  have hl := lookup_eq h fd
  have hl' := lookup_eq h' fd
  cases hfd : p.fds fd with
  | none =>
    rw [hfd] at hl hl'
    exact hl'.trans hl.symm
  | some id =>
    rw [hfd] at hl hl'
    obtain ⟨o, ho, hlook, hfile, hactive⟩ := hl
    obtain ⟨o', ho', hlook', hfile', hactive'⟩ := hl'
    have hcount : o'.referenceCount = o.referenceCount :=
      (h'.refs.count id o' ho').trans (h.refs.count id o ho).symm
    have hsame : o'.file = o.file := Option.some.inj (hfile'.symm.trans hfile)
    obtain ⟨r, f, fl, c, a⟩ := o
    obtain ⟨r', f', fl', c', a'⟩ := o'
    simp only [ProvOpenFileDescriptionRecord.file, OpenFile.mk.injEq] at hsame
    simp only at hcount hactive hactive'
    rw [hlook, hlook', hcount, hactive, hactive', hsame.1, hsame.2.1, hsame.2.2]

/-- What a table owes to the descriptors `p` it implements. -/
structure FdImplements (t : ProvFdTable) (p : PosixFds) : Prop where
  /-- A lookup answers with the description the map has. -/
  lookup : ∀ fd, (provFdTableLookup t fd).map (fun v => (v.ofdId, v.record.file)) =
    (p.fds fd).bind fun id => (p.files[id]?).map fun file => (id + 1, file)
  /-- The reference count of a description is the number of descriptors bound to it. -/
  count : ∀ id o, t.ofds[id]? = some o → o.referenceCount = Set.ncard {fd | p.fds fd = some id}
  /-- A description is active exactly while it is referenced. -/
  active : ∀ (id : ℕ) (o : ProvOpenFileDescriptionRecord), t.ofds[id]? = some o →
    (o.active = true ↔ 0 < o.referenceCount)
  /-- The binding count is the number of bound descriptors. -/
  bindings : t.bindingCount = Set.ncard {fd | (p.fds fd).isSome}
  /-- After a `dup` both descriptors answer with the same description, so with one offset. -/
  shared : ∀ oldFd newFd id t', provFdTableDup t oldFd newFd = (some id, t') →
    provFdTableLookup t' newFd = provFdTableLookup t' oldFd ∧
      (provFdTableLookup t' newFd).map ProvOpenFileDescriptionView.ofdId = some id
  /-- A successful operation is the POSIX operation. -/
  done : ∀ op t', fdStep t op = (true, t') → (p.step op).isSome
  /-- A failed operation leaves every binding as it was; with memory to spare it is one that POSIX
  refuses. -/
  failed : ∀ op t', fdStep t op = (false, t') →
    (t.Roomy → p.step op = none) ∧
      ∀ fd, provFdTableLookup t' fd = provFdTableLookup t fd
  /-- Every probe ends: some slot is empty, and no loop runs out of slots. -/
  probes : (∃ i < t.slots.length, (t.slotAt i).state = .empty) ∧
    ∀ fd, provFdFindSlotLocked t fd ≠ .full

theorem FdRefines.implements {t : ProvFdTable} {p : PosixFds} (h : FdRefines t p) :
    FdImplements t p where
  lookup fd := by
    have hl := lookup_eq h fd
    cases hfd : p.fds fd with
    | none => rw [hfd] at hl; rw [hl]; rfl
    | some id =>
      rw [hfd] at hl
      obtain ⟨o, -, hlook, hfile, -⟩ := hl
      rw [hlook, Option.bind_some, hfile]
      rfl
  count := h.refs.count
  active := h.refs.active
  bindings := h.index.bindings
  shared oldFd newFd id t' hdup := by
    have hspec := h.dup oldFd newFd
    rw [hdup] at hspec
    obtain ⟨hpos, hold, p', hstep, h'⟩ := hspec
    rw [PosixFds.step] at hstep
    split_ifs at hstep
    rw [hold, Option.map_some, Option.some.injEq] at hstep
    have hnew' : p'.fds newFd = some (id - 1) := by rw [← hstep]; exact Function.update_self _ _ _
    have hold' : p'.fds oldFd = some (id - 1) := by
      rw [← hstep]
      by_cases hsame : oldFd = newFd
      · rw [hsame]; exact Function.update_self _ _ _
      · exact (Function.update_of_ne hsame _ _).trans hold
    have hl := lookup_eq h' newFd
    have hl' := lookup_eq h' oldFd
    rw [hnew'] at hl
    rw [hold'] at hl'
    obtain ⟨o, ho, hlook, -⟩ := hl
    obtain ⟨o', ho', hlook', -⟩ := hl'
    obtain rfl : o = o' := Option.some.inj (ho.symm.trans ho')
    refine ⟨hlook.trans hlook'.symm, ?_⟩
    rw [hlook, Option.map_some, Nat.sub_add_cancel hpos]
  done op t' hstep := by
    have hspec := fdStep_refines h op
    rw [hstep] at hspec
    obtain ⟨p', hp', -⟩ := hspec
    rw [hp']
    rfl
  failed op t' hstep := by
    have hspec := fdStep_refines h op
    rw [hstep] at hspec
    exact ⟨hspec.1, lookup_congr h hspec.2⟩
  probes := by
    refine ⟨h.index.exists_empty, fun fd => ?_⟩
    cases hfd : p.fds fd with
    | none =>
      obtain ⟨s, hfind⟩ := h.index.find_unbound hfd
      rw [hfind]
      exact Probe.noConfusion
    | some id =>
      obtain ⟨s, -, hfind, -⟩ := h.index.find_bound hfd
      rw [hfind]
      exact Probe.noConfusion

/-- **The descriptor table refines POSIX descriptors**: along every run from a created table, with
any growth, any tombstones and any pattern of allocation failures. -/
theorem fdTable_refines_posix (heap : Heap) (t : ProvFdTable)
    (h : provFdTableCreate heap = some t) (ops : List FdOp) :
    FdImplements (fdRun t ops) (posixRun t PosixFds.empty ops) :=
  (fdRun_refines ops (provFdTableCreate_refines h)).implements

/-- A registry that knows one file. -/
def oneFileRegistry : ProvRegistry :=
  { maxRootsPerSet := provDefaultMaxRootsPerSet
    resources := ⟨⟨[⟨⟨.file, 0, 0, 0⟩, 0, none⟩], [1]⟩, 8⟩
    roots := .initial, rootSets := .initial, labels := .initial
    unionCache := [], unionCacheCount := 0, unknownLabel := provLabelUnknown
    heap := ⟨fun _ => true⟩ }

/-- Bind 3 to a file, duplicate it to 5, close 3: 5 holds the description. -/
theorem fdTable_refines_posix_dup : ∃ t, provFdTableCreate ⟨fun _ => true⟩ = some t ∧
    FdImplements (fdRun t [.bind oneFileRegistry 3 1 0 0, .dup 3 5, .close 3])
      (posixRun t PosixFds.empty [.bind oneFileRegistry 3 1 0 0, .dup 3 5, .close 3]) ∧
    (provFdTableLookup (fdRun t [.bind oneFileRegistry 3 1 0 0, .dup 3 5, .close 3]) 5).map
      ProvOpenFileDescriptionView.ofdId = some 1 :=
  ⟨_, rfl, fdTable_refines_posix ⟨fun _ => true⟩ _ rfl _, by decide⟩

end TaintForge
