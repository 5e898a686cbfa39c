import TaintForge.Prov.Registry
import Mathlib.Data.Int.Init

/-!
# The file descriptor table

The `prov_fd_table_*` functions of `provenance.c`: an open-addressing table from descriptors to open
file descriptions, with tombstones, growth by rehashing, and a reference count per description.

A function that returns `bool` and an id through `out_ofd_id` returns `Option` the id; `none` is
`false`.  The table that comes with it is the state the function leaves behind, on failure as well.
-/

namespace TaintForge

open OpenAddr

structure ProvOpenFileDescriptionRecord where
  resourceId : ℕ
  currentOffset : ℕ
  flags : BitVec 32
  referenceCount : ℕ
  active : Bool
  deriving DecidableEq, Repr

/-- `PROV_FD_SLOT_EMPTY`, `PROV_FD_SLOT_OCCUPIED`, `PROV_FD_SLOT_TOMBSTONE` -/
inductive ProvFdSlotState where
  | empty | occupied | tombstone
  deriving DecidableEq, Repr

structure ProvFdSlot where
  fd : Int32
  ofdId : ℕ
  state : ProvFdSlotState
  deriving DecidableEq, Repr

/-- `PROV_OFD_ID_INVALID` -/
def provOfdIdInvalid : ℕ := 0

/-- A slot `calloc` made. -/
def ProvFdSlot.zero : ProvFdSlot := ⟨0, 0, .empty⟩

structure ProvFdTable where
  ofds : List ProvOpenFileDescriptionRecord
  ofdCapacity : ℕ
  slots : List ProvFdSlot
  bindingCount : ℕ
  tombstoneCount : ℕ
  heap : Heap

/-- What a probe sees in a slot. -/
def ProvFdSlot.cell (slot : ProvFdSlot) : Cell Int32 :=
  match slot.state with
  | .empty => .empty
  | .occupied => .occupied slot.fd
  | .tombstone => .tombstone

/-- The slot at an index. -/
def ProvFdTable.slotAt (table : ProvFdTable) (index : ℕ) : ProvFdSlot :=
  table.slots.getD index .zero

/-- What the probe loop sees. -/
def ProvFdTable.view (table : ProvFdTable) (index : ℕ) : Cell Int32 := (table.slotAt index).cell

def provFdHash (fd : Int32) : BitVec 64 := provMix64 (fd.toBitVec.setWidth 64)

/-- The hash as the probe reads it. -/
def fdHash (fd : Int32) : ℕ := (provFdHash fd).toNat

/-- `provFdFindSlotLocked`: the slot of `fd`, or where it may be stored, or `SIZE_MAX`. -/
def provFdFindSlotLocked (table : ProvFdTable) (fd : Int32) : Probe :=
  find table.view table.slots.length (fdHash fd) fd

/-- The move of one old slot during a rehash.  A new table with more slots than the old one has
bindings always has a slot to offer, so that the last case does not arise. -/
def provFdRehashSlot (table : ProvFdTable) (old : ProvFdSlot) : ProvFdTable :=
  if old.state ≠ .occupied then table
  else
    match provFdFindSlotLocked table old.fd with
    | .hit slot | .free slot =>
      { table with slots := table.slots.set slot old, bindingCount := table.bindingCount + 1 }
    | .full => table

def provFdRehashLocked (table : ProvFdTable) (capacity : ℕ) : Bool × ProvFdTable :=
  let (granted, heap) := table.heap.calloc capacity 12
  let table := { table with heap := heap }
  if granted = false then (false, table)
  else
    (true, table.slots.foldl provFdRehashSlot
      { table with
        slots := List.replicate capacity .zero, bindingCount := 0, tombstoneCount := 0 })

def provFdEnsureCapacityLocked (table : ProvFdTable) : Bool × ProvFdTable :=
  let entries := table.bindingCount + table.tombstoneCount + 1
  if provShouldGrow entries table.slots.length = false then (true, table)
  else
    let capacity := provNextCapacity table.slots.length
    if capacity < table.slots.length then (false, table) else provFdRehashLocked table capacity

/-- A description with one reference less. -/
def releaseOfd (ofd : ProvOpenFileDescriptionRecord) : ProvOpenFileDescriptionRecord :=
  { ofd with
    referenceCount := ofd.referenceCount - 1
    active := if ofd.referenceCount - 1 = 0 then false else ofd.active }

/-- A description with one reference more. -/
def retainOfd (ofd : ProvOpenFileDescriptionRecord) : ProvOpenFileDescriptionRecord :=
  { ofd with referenceCount := ofd.referenceCount + 1 }

/-- `provFdCloseSlotLocked`: drop the reference of a slot and leave a tombstone. -/
def provFdCloseSlotLocked (table : ProvFdTable) (slot : ℕ) : Bool × ProvFdTable :=
  let binding := table.slotAt slot
  if binding.state ≠ .occupied ∨ binding.ofdId = provOfdIdInvalid ∨
      binding.ofdId > table.ofds.length then (false, table)
  else
    (true,
      { table with
        ofds := table.ofds.modify (binding.ofdId - 1) releaseOfd
        slots := table.slots.set slot { binding with state := .tombstone, ofdId := provOfdIdInvalid }
        bindingCount := table.bindingCount - 1
        tombstoneCount := table.tombstoneCount + 1 })

/-- Drop the binding of `fd`, if there is one. -/
def closeExisting (table : ProvFdTable) (fd : Int32) : ProvFdTable :=
  match provFdFindSlotLocked table fd with
  | .hit slot => (provFdCloseSlotLocked table slot).2
  | _ => table

def provFdInsertBindingLocked (table : ProvFdTable) (fd : Int32) (ofdId : ℕ) : Bool × ProvFdTable :=
  match provFdFindSlotLocked table fd with
  | .free slot =>
    (true,
      { table with
        tombstoneCount :=
          if (table.slotAt slot).state = .tombstone then table.tombstoneCount - 1
          else table.tombstoneCount
        slots := table.slots.set slot ⟨fd, ofdId, .occupied⟩
        bindingCount := table.bindingCount + 1 })
  | _ => (false, table)

/-- `provFdTableCreate`: one request for the table, one for its slots. -/
def provFdTableCreate (heap : Heap) : Option ProvFdTable :=
  if heap.grants 0 = false then none
  else
    match provFdRehashLocked ⟨[], 0, [], 0, 0, heap.next⟩ provInitialBucketCount with
    | (true, table) => some table
    | (false, _) => none

/-- `provFdTableBindNew`: a new description bound to `fd`, whatever `fd` was bound to before. -/
def provFdTableBindNew (registry : ProvRegistry) (table : ProvFdTable) (fd : Int32)
    (resourceId initialOffset : ℕ) (flags : BitVec 32) : Option ℕ × ProvFdTable :=
  if fd < 0 ∨ resourceId = provResourceIdInvalid then (none, table)
  else if (provResourceGet registry resourceId).isNone then (none, table)
  else if table.ofds.length ≥ uint32Max then (none, table)
  else
    match provFdEnsureCapacityLocked table with
    | (false, table) => (none, table)
    | (true, table) =>
      let (room, capacity, heap) :=
        provGrowArray table.heap 32 table.ofdCapacity (table.ofds.length + 1)
      let table := { table with ofdCapacity := capacity, heap := heap }
      if room = false then (none, table)
      else
        let table := closeExisting table fd
        let ofdId := table.ofds.length + 1
        let table :=
          { table with ofds := table.ofds ++ [⟨resourceId, initialOffset, flags, 1, true⟩] }
        match provFdInsertBindingLocked table fd ofdId with
        | (true, table) => (some ofdId, table)
        | (false, table) =>
          let cancel := fun ofd : ProvOpenFileDescriptionRecord =>
            { ofd with referenceCount := 0, active := false }
          (none, { table with ofds := table.ofds.modify (ofdId - 1) cancel })

/-- `provFdTableDup`: bind `newFd` to the description of `oldFd`. -/
def provFdTableDup (table : ProvFdTable) (oldFd newFd : Int32) : Option ℕ × ProvFdTable :=
  if oldFd < 0 ∨ newFd < 0 then (none, table)
  else
    match provFdFindSlotLocked table oldFd with
    | .hit oldSlot =>
      let ofdId := (table.slotAt oldSlot).ofdId
      if oldFd = newFd then (some ofdId, table)
      else
        match provFdEnsureCapacityLocked table with
        | (false, table) => (none, table)
        | (true, table) =>
          let table := closeExisting table newFd
          if ofdId = provOfdIdInvalid ∨ ofdId > table.ofds.length then (none, table)
          else
            match table.ofds[ofdId - 1]? with
            | none => (none, table)
            | some ofd =>
              if ofd.active = false ∨ ofd.referenceCount = uint32Max then (none, table)
              else
                let retained := { table with ofds := table.ofds.modify (ofdId - 1) retainOfd }
                match provFdInsertBindingLocked retained newFd ofdId with
                | (true, table) => (some ofdId, table)
                | (false, _) => (none, table)
    | _ => (none, table)

/-- `provFdTableClose` -/
def provFdTableClose (table : ProvFdTable) (fd : Int32) : Bool × ProvFdTable :=
  if fd < 0 then (false, table)
  else
    match provFdFindSlotLocked table fd with
    | .hit slot => provFdCloseSlotLocked table slot
    | _ => (false, table)

structure ProvOpenFileDescriptionView where
  ofdId : ℕ
  record : ProvOpenFileDescriptionRecord
  deriving DecidableEq, Repr

/-- `provFdTableLookup` -/
def provFdTableLookup (table : ProvFdTable) (fd : Int32) : Option ProvOpenFileDescriptionView :=
  if fd < 0 then none
  else
    match provFdFindSlotLocked table fd with
    | .hit slot =>
      let ofdId := (table.slotAt slot).ofdId
      if ofdId = provOfdIdInvalid ∨ ofdId > table.ofds.length then none
      else (table.ofds[ofdId - 1]?).map fun ofd => ⟨ofdId, ofd⟩
    | _ => none

/-- The frame `provFdTableAdvance` and `provFdTableSetOffset` share: move the offset of the
description `fd` is bound to, when `move` yields a new one. -/
def moveOffset (table : ProvFdTable) (fd : Int32) (move : ℕ → Option ℕ) : Bool × ProvFdTable :=
  if fd < 0 then (false, table)
  else
    match provFdFindSlotLocked table fd with
    | .hit slot =>
      let ofdId := (table.slotAt slot).ofdId
      match table.ofds[ofdId - 1]? with
      | none => (false, table)
      | some ofd =>
        match if ofd.active then move ofd.currentOffset else none with
        | none => (false, table)
        | some offset =>
          (true, { table with
            ofds := table.ofds.modify (ofdId - 1) fun ofd => { ofd with currentOffset := offset } })
    | _ => (false, table)

/-- `provFdTableAdvance`: refused when the offset would pass `UINT64_MAX`. -/
def provFdTableAdvance (table : ProvFdTable) (fd : Int32) (byteCount : ℕ) : Bool × ProvFdTable :=
  moveOffset table fd fun offset =>
    if byteCount > uint64Max - offset then none else some (offset + byteCount)

/-- `provFdTableSetOffset` -/
def provFdTableSetOffset (table : ProvFdTable) (fd : Int32) (offset : ℕ) : Bool × ProvFdTable :=
  moveOffset table fd fun _ => some offset

end TaintForge
