import TaintForge.Plugin.FdTracking
import TaintForge.Plugin.Pages
import Mathlib.Data.List.Sort

/-!
# The dump of the unpacked image

`doDump` of `qemu_unpacker.c` goes through the page table twice: it writes the bytes of the program's pages to
`unpacked.bin`, and it collects the regions that the report lists, with the offsets of their bytes in that file.
It runs once, and the file is taken to open.  The window of the main image, which it establishes first, is given
here, and the regions are records where the code prints them.
-/

namespace TaintForge

variable {pageBits : Fin 32}

/-! ### Libraries -/

/-- `lib_mapping_t`; `stop` is its field `end`. -/
structure LibMapping where
  path : Path
  base : ℕ
  stop : ℕ
  size : ℕ
  deriving DecidableEq

/-- Where a mapping ends. -/
def LibMapping.limit (lm : LibMapping) : ℕ :=
  if lm.stop > lm.base then lm.stop else (lm.base + lm.size) % 2 ^ 64

/-- What the loops over `lib_deps` check. -/
def LibMapping.holds (lm : LibMapping) (addr : ℕ) : Bool :=
  lm.base != 0 && !decide (lm.limit ≤ lm.base) && decide (lm.base ≤ addr) && decide (addr < lm.limit)

/-- `addr_in_lib` -/
def addrInLib (libDeps : List LibMapping) (addr : ℕ) : Bool :=
  if addr = 0 then false else libDeps.any fun lm => lm.holds addr

/-- `addr_lib_path`.  The code compares the paths by their addresses, so the mapping stands for its path. -/
def addrLibPath (libDeps : List LibMapping) (addr : ℕ) : Option ℕ :=
  if addr = 0 then none else libDeps.findIdx? fun lm => lm.holds addr

/-- `base_name` -/
def baseName (path : Path) : Path := (path.reverse.takeWhile (· != 47)).reverse

/-! ### The input -/

/-- The memory of the guest as the plugin sees it: a read of a page fails, or gives all its bytes. -/
structure GuestMemory (pageBits : Fin 32) where
  byte : ℕ → UInt8
  readPage : ℕ → Option (List UInt8)
  readPage_eq : ∀ addr data, readPage addr = some data →
    data = (List.range (pageSize pageBits)).map fun i => byte (addr + i)

/-- What `doDump` reads: the page table, the libraries, the window of the main image where it is known, and the
memory of the guest. -/
structure DumpInput (pageBits : Fin 32) where
  pages : AList fun _ : ℕ => Page pageBits
  libDeps : List LibMapping
  mainWindow : Option (ℕ × ℕ)
  memory : GuestMemory pageBits

namespace DumpInput

variable (input : DumpInput pageBits)

/-- The keys of the table, sorted by `compare_keys`. -/
def keys : List ℕ := input.pages.keys.insertionSort (· ≤ ·)

/-- `page_is_program` -/
def pageIsProgram (addr : ℕ) (page : Page pageBits) : Bool :=
  if addrInLib input.libDeps addr = true then false
  else
    match input.mainWindow with
    | none => true
    | some (lo, hi) =>
      decide (lo ≤ addr) && decide (addr < hi) || page.execSeen || page.execAfterWrite || page.dynExec

/-! ### The file -/

/-- What the first loop writes for a key. -/
def dumpPage (addr : ℕ) : List UInt8 :=
  match input.pages.lookup addr with
  | none => []
  | some page =>
    if input.pageIsProgram addr page = true then (input.memory.readPage addr).getD [] else []

/-- The bytes of `unpacked.bin`. -/
def unpackedBin : List UInt8 := input.keys.flatMap input.dumpPage

end DumpInput

/-! ### The regions -/

/-- What a region says of its module. -/
inductive RegionModule
  | named (name : Path)
  | static
  | main
  | null
  deriving DecidableEq

/-- An entry of `regions` in the report. -/
structure Region where
  addr : ℕ
  size : ℕ
  prot : BitVec 32
  offset : ℕ
  lib : Bool
  moduleName : RegionModule
  deriving DecidableEq

/-- The variables of a region that is not closed yet: `region_start` and its like. -/
structure OpenRegion where
  start : ℕ
  size : ℕ
  prot : BitVec 32
  mod : Option ℕ
  isLib : Bool
  off : ℕ

/-- The variables of the second loop: the regions that were printed, the one that is open, `main_off` and
`saved_base`. -/
structure RegionLoop where
  regions : List Region
  current : Option OpenRegion
  mainOff : ℕ
  savedBase : Option ℕ

namespace DumpInput

variable (input : DumpInput pageBits)

/-- The module that is printed for a region. -/
def regionModule (region : OpenRegion) : RegionModule :=
  match region.mod.bind fun i => input.libDeps[i]? with
  | some lm => .named (baseName lm.path)
  | none =>
    if input.libDeps = [] then .static
    else
      match input.mainWindow with
      | some (lo, hi) => if lo ≤ region.start ∧ region.start < hi then .main else .null
      | none => .null

/-- A region as it is printed. -/
def closeRegion (region : OpenRegion) : Region where
  addr := region.start
  size := region.size
  prot := region.prot
  offset := region.off
  lib := region.isLib
  moduleName := input.regionModule region

/-- The rest of a round, for a page that was read. -/
def addToRegions (s : RegionLoop) (addr written : ℕ) (prot : BitVec 32) (mod : Option ℕ) : RegionLoop :=
  let isLib := mod.isSome
  let mainOff := if isLib then s.mainOff else s.mainOff + written
  let opened : OpenRegion := ⟨addr, written, prot, mod, isLib, s.mainOff⟩
  let savedBase := if !isLib && s.savedBase.isNone then some addr else s.savedBase
  match s.current with
  | none => { s with current := some opened, mainOff := mainOff, savedBase := savedBase }
  | some region =>
    if addr = region.start + region.size ∧ prot = region.prot ∧ mod = region.mod then
      { s with current := some { region with size := region.size + written }, mainOff := mainOff }
    else
      { regions := s.regions ++ [input.closeRegion region]
        current := some opened
        mainOff := mainOff
        savedBase := savedBase }

/-- One round of the second loop. -/
def regionStep (s : RegionLoop) (addr : ℕ) : RegionLoop :=
  match input.pages.lookup addr with
  | none => s
  | some page =>
    if addrInLib input.libDeps addr = false ∧ input.pageIsProgram addr page = false then s
    else
      let written := ((input.memory.readPage addr).getD []).length
      if written = 0 then s
      else input.addToRegions s addr written page.prot (addrLibPath input.libDeps addr)

/-- The second loop. -/
def regionLoop : RegionLoop := input.keys.foldl input.regionStep ⟨[], none, 0, none⟩

/-- The regions of the report. -/
def regions : List Region :=
  input.regionLoop.regions ++ (input.regionLoop.current.map input.closeRegion).toList

end DumpInput

end TaintForge
