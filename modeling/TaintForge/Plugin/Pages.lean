import TaintForge.Prov.Basic
import Mathlib.Data.Finset.Basic
import Mathlib.Data.List.AList

/-!
# The page table of the plugin

The part of `qemu_unpacker.c` that follows the pages of the guest: what its mappings allow, and which of their
bytes it has written.  `vpcuSyscallRet` applies a pending `mmap`, `mprotect` or `munmap` once the call has
succeeded; `onMemWrite` marks what an instruction writes.  The shadow memory, the windows of the libraries and
the messages on `stderr`, which `applyPendingMmap` and `applyPendingMunmap` also see to, are left out: the
table does not depend on them.

The guest is an i386 one, so addresses and lengths have 32 bits, and the sums that the code checks for overflow
have 64.
-/

namespace TaintForge

/-! ### Pages -/

/-- `page_size`: a power of two, which is 4096 until the auxiliary vector tells another. -/
def pageSize (pageBits : Fin 32) : ℕ := 2 ^ pageBits.val

/-- `page_t`.  The bytes of `wbitmap` are one little-endian number, with a bit for each byte of the page. -/
structure Page (pageBits : Fin 32) where
  prot : BitVec 32
  written : Bool
  execAfterWrite : Bool
  dynExec : Bool
  writeCount : BitVec 64
  lastWrite : BitVec 64
  wbitmap : Option (BitVec (pageSize pageBits))
  genWritten : BitVec 32
  execSeen : Bool

variable {pageBits : Fin 32}

/-- `g_new0(page_t, 1)` with a protection. -/
def Page.new (prot : BitVec 32) : Page pageBits where
  prot := prot
  written := false
  execAfterWrite := false
  dynExec := false
  writeCount := 0
  lastWrite := 0
  wbitmap := none
  genWritten := 0
  execSeen := false

/-- The variables of the tracking: `pages` by their addresses, `unmapped_pages`, `g_unpack_gen`, `g_icount`
and the two flags of the layer. -/
structure PageTracker (pageBits : Fin 32) where
  pages : AList fun _ : ℕ => Page pageBits
  unmappedPages : Finset ℕ
  unpackGen : BitVec 32
  icount : BitVec 64
  layerHasCand : Bool
  layerDirty : Bool

/-- The tracking before the guest runs. -/
def PageTracker.initial : PageTracker pageBits where
  pages := ∅
  unmappedPages := ∅
  unpackGen := 0
  icount := 0
  layerHasCand := false
  layerDirty := false

/-- `addr & ~(page_size - 1)` -/
def pageAddress (pageBits : Fin 32) (addr : ℕ) : ℕ := addr / pageSize pageBits * pageSize pageBits

/-- The page addresses from the first to the last, which the loops go through. -/
def pageAddresses (pageBits : Fin 32) (start last : ℕ) : List ℕ :=
  (List.range ((last - start) / pageSize pageBits + 1)).map fun i => start + i * pageSize pageBits

/-- `next_code_generation`, which stays at the last generation. -/
def nextCodeGeneration (s : PageTracker pageBits) : BitVec 32 × PageTracker pageBits :=
  if s.unpackGen = BitVec.allOnes 32 then (BitVec.allOnes 32, s)
  else (s.unpackGen + 1, { s with unpackGen := s.unpackGen + 1 })

/-- `prot & 0x2` -/
def protWrites (prot : BitVec 32) : Bool := (prot &&& 2#32) != 0

/-- `prot & 0x4` -/
def protExecutes (prot : BitVec 32) : Bool := (prot &&& 4#32) != 0

/-! ### System calls -/

/-- `pending_mmap_t`, as far as the table depends on it. -/
structure PendingMmap where
  requestedAddr : BitVec 32
  size : BitVec 32
  prot : BitVec 32
  deriving DecidableEq

/-- The page of a key with a protection: the one in the table, or a new one. -/
def protectedPage (s : PageTracker pageBits) (prot : BitVec 32) (key : ℕ) : Page pageBits :=
  match s.pages.lookup key with
  | some page => { page with prot := prot }
  | none => Page.new prot

/-- `remap_generation`, chosen where the call has none yet. -/
def chooseGeneration (remapGeneration : BitVec 32) (s : PageTracker pageBits) :
    BitVec 32 × PageTracker pageBits :=
  if remapGeneration = 0 then nextCodeGeneration s else (remapGeneration, s)

/-- What the loops of `applyPendingMmap` and `applyPendingMprotect` do with a page once its protection is set: an
executable page that was unmapped before gets a generation, the same one for all pages of the call. -/
def remapPage (prot : BitVec 32) (key : ℕ) (page : Page pageBits) (remapGeneration : BitVec 32)
    (s : PageTracker pageBits) : PageTracker pageBits × BitVec 32 :=
  if protExecutes prot = true ∧ key ∈ s.unmappedPages then
    let (generation, s) := chooseGeneration remapGeneration s
    ({ s with
        pages := s.pages.insert key { page with dynExec := true, genWritten := generation }
        layerDirty := s.layerDirty || s.layerHasCand }, generation)
  else ({ s with pages := s.pages.insert key page }, remapGeneration)

/-- One round of the loop of `applyPendingMmap`, with its `remap_generation`. -/
def mmapPage (prot : BitVec 32) (s : PageTracker pageBits × BitVec 32) (key : ℕ) :
    PageTracker pageBits × BitVec 32 :=
  remapPage prot key (protectedPage s.1 prot key) s.2 s.1

/-- `apply_pending_mmap` -/
def applyPendingMmap (s : PageTracker pageBits) (pending : PendingMmap) (mappedAddr : BitVec 32) :
    PageTracker pageBits :=
  let size := pending.size.toNat
  let mapped := mappedAddr.toNat
  if size = 0 then s
  else if size - 1 > uint64Max - mapped then s
  else if protWrites pending.prot = false ∧ protExecutes pending.prot = false then s
  else
    ((pageAddresses pageBits (pageAddress pageBits mapped) (pageAddress pageBits (mapped + size - 1))).foldl
      (mmapPage pending.prot) (s, 0)).1

/-- One round of the loop of `applyPendingMprotect`, with its `remap_generation`. -/
def mprotectPage (prot : BitVec 32) (s : PageTracker pageBits × BitVec 32) (key : ℕ) :
    PageTracker pageBits × BitVec 32 :=
  let page := protectedPage s.1 prot key
  if page.written = true ∧ protExecutes prot = true then
    remapPage prot key { page with execAfterWrite := true } s.2 s.1
  else remapPage prot key page s.2 s.1

/-- `apply_pending_mprotect` -/
def applyPendingMprotect (s : PageTracker pageBits) (pending : PendingMmap) : PageTracker pageBits :=
  let addr := pending.requestedAddr.toNat
  let size := pending.size.toNat
  if size = 0 then s
  else if size > uint64Max - addr ∨ addr + size > uint64Max - (pageSize pageBits - 1) then s
  else
    let pageStart := pageAddress pageBits addr
    let pageEnd := pageAddress pageBits (addr + size + pageSize pageBits - 1)
    ((pageAddresses pageBits pageStart (pageEnd - pageSize pageBits)).foldl (mprotectPage pending.prot) (s, 0)).1

/-- One round of the loop of `applyPendingMunmap`. -/
def munmapPage (s : PageTracker pageBits) (key : ℕ) : PageTracker pageBits :=
  { s with
    unmappedPages := insert key s.unmappedPages
    pages := s.pages.erase key }

/-- `apply_pending_munmap` -/
def applyPendingMunmap (s : PageTracker pageBits) (pending : PendingMmap) : PageTracker pageBits :=
  let addr := pending.requestedAddr.toNat
  let size := pending.size.toNat
  if size = 0 then s
  else if size - 1 > uint64Max - addr then s
  else
    (pageAddresses pageBits (pageAddress pageBits addr) (pageAddress pageBits (addr + size - 1))).foldl
      munmapPage s

/-! ### Writes -/

/-- The loop that sets a run of bits of `wbitmap`. -/
def setBits {w : ℕ} (bitmap : BitVec w) (offset chunk : ℕ) : BitVec w :=
  (List.range chunk).foldl (fun bitmap i => bitmap ||| BitVec.twoPow w (offset + i)) bitmap

/-- What `markWritten` does with a page. -/
def writtenPage (s : PageTracker pageBits) (generation : BitVec 32) (key offset chunk : ℕ) : Page pageBits :=
  let page := (s.pages.lookup key).getD (Page.new 3)
  { page with
    wbitmap := some (setBits (page.wbitmap.getD 0) offset chunk)
    written := true
    writeCount := page.writeCount + 1
    lastWrite := s.icount
    genWritten := generation
    execSeen := false }

/-- One round of the loop of `markWritten`. -/
def markChunk (generation : BitVec 32) (s : PageTracker pageBits) (vaddr chunk : ℕ) : PageTracker pageBits :=
  let key := pageAddress pageBits vaddr
  let offset := vaddr % pageSize pageBits
  { s with
    pages := s.pages.insert key (writtenPage s generation key offset chunk)
    layerDirty := s.layerDirty || s.layerHasCand }

/-- The loop of `markWritten`. -/
def markChunks (generation : BitVec 32) (s : PageTracker pageBits) (vaddr size : ℕ) : PageTracker pageBits :=
  if size = 0 then s
  else
    let offset := vaddr % pageSize pageBits
    let chunk := min size (pageSize pageBits - offset)
    markChunks generation (markChunk generation s vaddr chunk) (vaddr + chunk) (size - chunk)
termination_by size
decreasing_by
  have hoffset : vaddr % pageSize pageBits < pageSize pageBits := Nat.mod_lt _ (Nat.two_pow_pos _)
  omega

/-- `mark_written` -/
def markWritten (s : PageTracker pageBits) (vaddr size : BitVec 32) : PageTracker pageBits :=
  if size = 0 then s
  else
    let (generation, s) := nextCodeGeneration s
    markChunks generation s vaddr.toNat size.toNat

/-! ### Execution -/

/-- `insn_is_unpacked` for one byte of the instruction. -/
def byteIsUnpacked (s : PageTracker pageBits) (addr : ℕ) : Bool :=
  match s.pages.lookup (pageAddress pageBits addr) with
  | some page =>
    protExecutes page.prot &&
      (page.dynExec || page.wbitmap.any fun bitmap => bitmap.getLsbD (addr % pageSize pageBits))
  | none => false

/-- `insn_is_unpacked` -/
def insnIsUnpacked (s : PageTracker pageBits) (vaddr size : ℕ) : Bool :=
  (List.range size).any fun i => byteIsUnpacked s (vaddr + i)

/-! ### Runs -/

/-- What the guest does that the table follows: a system call that succeeds, or a write. -/
inductive GuestEvent
  | mmap (pending : PendingMmap) (mappedAddr : BitVec 32)
  | mprotect (pending : PendingMmap)
  | munmap (pending : PendingMmap)
  | write (vaddr size : BitVec 32)
  deriving DecidableEq

/-- The part of `vpcuSyscallRet` that applies a pending operation, and `onMemWrite`. -/
def PageTracker.step (s : PageTracker pageBits) : GuestEvent → PageTracker pageBits
  | .mmap pending mappedAddr => applyPendingMmap s pending mappedAddr
  | .mprotect pending => applyPendingMprotect s pending
  | .munmap pending => applyPendingMunmap s pending
  | .write vaddr size => markWritten s vaddr size

/-- The tracking after a run of the guest. -/
def PageTracker.run (events : List GuestEvent) : PageTracker pageBits :=
  events.foldl PageTracker.step .initial

end TaintForge
