import TaintForge.Lib.OpenMap
import TaintForge.Prov.Registry

/-!
# The shadow memory

The first part of `dta.c`: a label for every byte of the guest, in pages of 4096 labels that exist
only while they hold a label other than `CLEAN`.

* `shadowFindSlotLocked`, `shadowRehashLocked`, `shadowPageLocked`, `shadowRemovePageLocked`: the
  table of the pages.
* `shadowPageStore`: one label of a page, with the count of labels that are not clean.
* `shadowLoadLabel`, `shadowLoadLabels`, `shadowPageHasTaint`: reading.
* `shadowStoreLabels`, `shadowFillLabel`: writing a range of bytes.

A pointer to a page is the slot that holds it.  The registry is the one behind the memory, as it is
when the call is made.
-/

namespace TaintForge

open OpenAddr OpenMap

/-- `DTA_SHADOW_PAGE_SIZE` -/
def dtaShadowPageSize : ℕ := 4096

/-- `SHADOW_INITIAL_SLOT_CAPACITY` -/
def shadowInitialSlotCapacity : ℕ := 64

structure ShadowPage where
  labels : ℕ → ℕ
  noncleanCount : ℕ

/-- A page `calloc` made. -/
def ShadowPage.zero : ShadowPage := ⟨fun _ => provLabelClean, 0⟩

/-- A slot: empty, a tombstone, or a page index with its page. -/
abbrev ShadowPageSlot := Slot ℕ ShadowPage

structure ShadowMemory where
  guestBits : ℕ
  slots : List ShadowPageSlot
  pageCount : ℕ
  tombstoneCount : ℕ
  heap : Heap

def shadowMix64 (value : BitVec 64) : BitVec 64 :=
  let value := value ^^^ (value >>> 30)
  let value := value * 0xbf58476d1ce4e5b9#64
  let value := value ^^^ (value >>> 27)
  let value := value * 0x94d049bb133111eb#64
  value ^^^ (value >>> 31)

/-- The hash of a page index as the probe reads it. -/
def shadowHash (pageIndex : ℕ) : ℕ := (shadowMix64 (BitVec.ofNat 64 pageIndex)).toNat

def shadowNormalizeAddr (sm : ShadowMemory) (addr : ℕ) : ℕ :=
  if sm.guestBits = 32 then addr &&& 0xffffffff else addr

/-- `shadowClampRange`: the address and how much of the range lies below the end of memory. -/
def shadowClampRange (sm : ShadowMemory) (addr size : ℕ) : ℕ × ℕ :=
  let addr := shadowNormalizeAddr sm addr
  if sm.guestBits = 32 then
    let available := 2 ^ 32 - addr
    (addr, if size > available then available else size)
  else if addr ≠ 0 then
    let available := uint64Max - addr + 1
    (addr, if size > available then available else size)
  else (addr, size)

/-! ### The page table -/

/-- `shadowFindSlotLocked`: the slot of a page, or where it may be stored, or `SIZE_MAX`. -/
def shadowFindSlotLocked (sm : ShadowMemory) (pageIndex : ℕ) : Probe :=
  findSlot shadowHash sm.slots pageIndex

/-- `shadowRehashLocked`: move the pages to a new table.  The slots take 24 bytes each. -/
def shadowRehashLocked (sm : ShadowMemory) (capacity : ℕ) : Bool × ShadowMemory :=
  let (granted, heap) := sm.heap.calloc capacity 24
  if granted = false then (false, { sm with heap := heap })
  else
    (true,
      { sm with
        slots := sm.slots.foldl (moveSlot shadowHash) (List.replicate capacity .empty)
        pageCount := sm.slots.countP fun slot => slot.cell.isOccupied
        tombstoneCount := 0
        heap := heap })

def shadowEnsureCapacityLocked (sm : ShadowMemory) : Bool × ShadowMemory :=
  let used := sm.pageCount + sm.tombstoneCount + 1
  if used ≤ sm.slots.length * 7 / 10 then (true, sm)
  else if sm.slots.length > sizeMax / 2 then (false, sm)
  else shadowRehashLocked sm (sm.slots.length * 2)

/-- `shadowPageLocked`: the slot of a page, which is created on demand.  A page takes 16388 bytes. -/
def shadowPageLocked (sm : ShadowMemory) (pageIndex : ℕ) (create : Bool) :
    Option ℕ × ShadowMemory :=
  match shadowFindSlotLocked sm pageIndex with
  | .hit slot => (some slot, sm)
  | _ =>
    if create = false then (none, sm)
    else
      match shadowEnsureCapacityLocked sm with
      | (false, sm) => (none, sm)
      | (true, sm) =>
        match shadowFindSlotLocked sm pageIndex with
        | .hit slot => (some slot, sm)
        | .free slot =>
          let (granted, heap) := sm.heap.calloc 1 16388
          let sm := { sm with heap := heap }
          if granted = false then (none, sm)
          else
            (some slot,
              { sm with
                tombstoneCount :=
                  if OpenMap.view sm.slots slot = .tombstone then sm.tombstoneCount - 1
                  else sm.tombstoneCount
                slots := sm.slots.set slot (.occupied pageIndex .zero)
                pageCount := sm.pageCount + 1 })
        -- a table with a slot to spare always offers one
        | .full => (none, sm)

def shadowRemovePageLocked (sm : ShadowMemory) (pageIndex : ℕ) : ShadowMemory :=
  match shadowFindSlotLocked sm pageIndex with
  | .hit slot =>
    { sm with
      slots := sm.slots.set slot .tombstone
      pageCount := sm.pageCount - 1
      tombstoneCount := sm.tombstoneCount + 1 }
  | _ => sm

/-! ### Pages -/

/-- `shadowPageStore`: refused when the count says that there is nothing to clean. -/
def shadowPageStore (page : ShadowPage) (offset labelId : ℕ) : Bool × ShadowPage :=
  let old := page.labels offset
  if old = labelId then (true, page)
  else if old = provLabelClean ∧ labelId ≠ provLabelClean then
    (true, ⟨Function.update page.labels offset labelId, page.noncleanCount + 1⟩)
  else if old ≠ provLabelClean ∧ labelId = provLabelClean then
    if page.noncleanCount = 0 then (false, page)
    else (true, ⟨Function.update page.labels offset labelId, page.noncleanCount - 1⟩)
  else (true, { page with labels := Function.update page.labels offset labelId })

/-- The byte loop of `shadowStoreLabels` and `shadowFillLabel`. -/
def shadowPageStoreAll (page : ShadowPage) (offset : ℕ) : List ℕ → Bool × ShadowPage
  | [] => (true, page)
  | labelId :: labels =>
    match shadowPageStore page offset labelId with
    | (false, page) => (false, page)
    | (true, page) => shadowPageStoreAll page (offset + 1) labels

/-- Write labels into the page of a slot.  The page goes away when they leave nothing in it. -/
def shadowWritePage (sm : ShadowMemory) (slot pageIndex offset : ℕ) (labels : List ℕ) :
    Bool × ShadowMemory :=
  match sm.slots[slot]? with
  | some (.occupied key page) =>
    let (ok, page) := shadowPageStoreAll page offset labels
    let sm := { sm with slots := sm.slots.set slot (.occupied key page) }
    if ok = false then (false, sm)
    else if page.noncleanCount = 0 then (true, shadowRemovePageLocked sm pageIndex)
    else (true, sm)
  | _ => (false, sm)

/-- One round of `shadowStoreLabels` and `shadowFillLabel`: the labels for one page. -/
def shadowStoreChunk (sm : ShadowMemory) (addr : ℕ) (needsPage : Bool) (labels : List ℕ) :
    Bool × ShadowMemory :=
  let pageIndex := addr / dtaShadowPageSize
  let offset := addr % dtaShadowPageSize
  match shadowPageLocked sm pageIndex needsPage with
  | (none, sm) => (!needsPage, sm)
  | (some slot, sm) => shadowWritePage sm slot pageIndex offset labels

/-! ### Ranges -/

/-- How many of `count` bytes from an address are in its page. -/
def shadowChunk (addr count : ℕ) : ℕ :=
  let chunk := dtaShadowPageSize - addr % dtaShadowPageSize
  if chunk > count then count else chunk

theorem shadowChunk_pos (addr : ℕ) {count : ℕ} (h : 0 < count) : 0 < shadowChunk addr count := by
  have hlt : addr % dtaShadowPageSize < dtaShadowPageSize := Nat.mod_lt _ (by decide)
  unfold shadowChunk
  dsimp only
  split_ifs <;> omega

/-- The page of an address, if there is one. -/
def shadowPageOf (sm : ShadowMemory) (addr : ℕ) : Option ShadowPage :=
  match shadowPageLocked sm (addr / dtaShadowPageSize) false with
  | (none, _) => none
  | (some slot, sm) =>
    match sm.slots[slot]? with
    | some (.occupied _ page) => some page
    | _ => none

/-- The label of an address. -/
def shadowLabelAt (sm : ShadowMemory) (addr : ℕ) : ℕ :=
  match shadowPageOf sm addr with
  | some page => page.labels (addr % dtaShadowPageSize)
  | none => provLabelClean

def shadowLoadLabel (sm : ShadowMemory) (addr : ℕ) : ℕ :=
  shadowLabelAt sm (shadowNormalizeAddr sm addr)

/-- `shadowLoadLabels`: refused when the range passes the end of memory. -/
def shadowLoadLabels (sm : ShadowMemory) (addr count : ℕ) : Option (List ℕ) :=
  let (addr, size) := shadowClampRange sm addr count
  if size ≠ count then none
  else some ((List.range count).map fun index => shadowLabelAt sm (addr + index))

def shadowPageHasTaint (sm : ShadowMemory) (addr : ℕ) : Bool :=
  match shadowPageOf sm (shadowNormalizeAddr sm addr) with
  | some page => page.noncleanCount != 0
  | none => false

/-- The loop of `shadowStoreLabels`. -/
def shadowStoreChunks (sm : ShadowMemory) (addr : ℕ) (labels : List ℕ) : Bool × ShadowMemory :=
  if labels = [] then (true, sm)
  else
    let chunk := shadowChunk addr labels.length
    let needsPage := (labels.take chunk).any fun labelId => labelId != provLabelClean
    match shadowStoreChunk sm addr needsPage (labels.take chunk) with
    | (false, sm) => (false, sm)
    | (true, sm) => shadowStoreChunks sm (addr + chunk) (labels.drop chunk)
termination_by labels.length
decreasing_by
  rename_i h
  have hpos := List.length_pos_of_ne_nil h
  have hchunk := shadowChunk_pos addr hpos
  rw [List.length_drop]
  omega

/-- `shadowStoreLabels`: refused when a label is not valid or the range passes the end of memory. -/
def shadowStoreLabels (registry : ProvRegistry) (sm : ShadowMemory) (addr : ℕ) (labels : List ℕ) :
    Bool × ShadowMemory :=
  if labels.all (provLabelIdValidLocked registry) = false then (false, sm)
  else
    let (addr, size) := shadowClampRange sm addr labels.length
    if size ≠ labels.length then (false, sm) else shadowStoreChunks sm addr labels

/-- The loop of `shadowFillLabel`. -/
def shadowFillChunks (sm : ShadowMemory) (labelId addr size : ℕ) : Bool × ShadowMemory :=
  if size = 0 then (true, sm)
  else
    let chunk := shadowChunk addr size
    match shadowStoreChunk sm addr (labelId != provLabelClean) (List.replicate chunk labelId) with
    | (false, sm) => (false, sm)
    | (true, sm) => shadowFillChunks sm labelId (addr + chunk) (size - chunk)
termination_by size
decreasing_by
  rename_i h
  have hchunk := shadowChunk_pos addr (Nat.pos_of_ne_zero h)
  omega

/-- `shadowFillLabel`: what passes the end of memory is cut off. -/
def shadowFillLabel (registry : ProvRegistry) (sm : ShadowMemory) (addr size labelId : ℕ) :
    Bool × ShadowMemory :=
  if provLabelIdValidLocked registry labelId = false then (false, sm)
  else if size = 0 then (true, sm)
  else
    let (addr, size) := shadowClampRange sm addr size
    shadowFillChunks sm labelId addr size

/-- `shadowCreateWithRegistry`: one request for the memory, one for its slots. -/
def shadowCreateWithRegistry (guestBits : ℕ) (heap : Heap) : Option ShadowMemory :=
  if guestBits ≠ 32 ∧ guestBits ≠ 64 then none
  else if heap.grants 0 = false then none
  else
    let (granted, heap) := heap.next.calloc shadowInitialSlotCapacity 24
    if granted = false then none
    else some ⟨guestBits, List.replicate shadowInitialSlotCapacity .empty, 0, 0, heap⟩

end TaintForge
