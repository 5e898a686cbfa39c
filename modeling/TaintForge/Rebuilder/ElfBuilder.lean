import TaintForge.Lib.PyText
import TaintForge.Lib.StructPack
import Mathlib.Data.List.Sort

/-!
# The ELF builder

`ELFBuilder` of `pucked_elf.py` writes the pages of a rebuilt program as an ELF32 file: the ELF header, the program
headers, zeros up to the end of a page, the interpreter and the segments, which are the runs of the pages.

The pages have 4096 bytes and lie at different page addresses, as `classify_pages` leaves them.  What the file is
written to, and the line that is printed in the end, are left out.
-/

namespace TaintForge

/-! ### Pages -/

/-- A classified page, without its `source`. -/
structure ElfPage where
  addr : ℕ
  data : List UInt8
  prot : ℤ
  addr_lt : addr < 2 ^ 32
  addr_aligned : addr % 0x1000 = 0
  data_length : data.length = 0x1000

/-- `ELFBuilder`, as it is constructed. -/
structure ElfBuilder where
  classifiedPages : List ElfPage
  oep : ℤ
  arch : PyStr
  eType : ℕ
  interp : Option PyStr
  osabi : ℕ
  addr_nodup : (classifiedPages.map ElfPage.addr).Nodup

/-- Why `build` raises. -/
inductive BuildError
  | struct
  | unicodeEncode
  | notImplemented (message : PyStr)
  | value (message : PyStr)
  deriving DecidableEq

/-- An element of `segments`. -/
structure ElfSegment where
  addr : ℕ
  data : List UInt8
  prot : ℤ

/-- The bytes that fill a page up: `b'\\x00' * ((0x1000 - n % 0x1000) % 0x1000)`. -/
def pagePadding (n : ℕ) : List UInt8 := List.replicate ((0x1000 - n % 0x1000) % 0x1000) 0

/-- `str.encode("utf-8")` -/
def utf8 (s : PyStr) : Except BuildError (List UInt8) :=
  if PyStr.encodable s then .ok (s.flatMap utf8Char) else .error .unicodeEncode

/-- `struct.pack` -/
def structPack (fields : List (ℕ × ℕ)) : Except BuildError (List UInt8) :=
  match StructPack.pack fields with
  | some bytes => .ok bytes
  | none => .error .struct

/-! ### Program headers -/

/-- The fields of an `Elf32_Phdr`. -/
structure ProgramHeader where
  type : ℕ
  offset : ℕ
  vaddr : ℕ
  paddr : ℕ
  filesz : ℕ
  memsz : ℕ
  flags : ℕ
  align : ℕ
  deriving DecidableEq

namespace ProgramHeader

/-- The format `<IIIIIIII`. -/
def widths : List ℕ := [4, 4, 4, 4, 4, 4, 4, 4]

/-- The values that are packed. -/
def values (h : ProgramHeader) : List ℕ :=
  [h.type, h.offset, h.vaddr, h.paddr, h.filesz, h.memsz, h.flags, h.align]

/-- `struct.pack` of the header. -/
def pack (h : ProgramHeader) : Except BuildError (List UInt8) := structPack (widths.zip h.values)

end ProgramHeader

/-- Whether a bit of a protection is set: `prot & 2 ** i`. -/
def protBit (prot : ℤ) (i : ℕ) : Bool := prot / 2 ^ i % 2 == 1

/-- The flags of a segment. -/
def segmentFlags (prot : ℤ) : ℕ :=
  (if protBit prot 0 then 4 else 0) + (if protBit prot 1 then 2 else 0) + (if protBit prot 2 then 1 else 0)

/-- The header of a segment at an offset. -/
def loadHeader (offset : ℕ) (seg : ElfSegment) : ProgramHeader :=
  let filesz := seg.data.length + (0x1000 - seg.data.length % 0x1000) % 0x1000
  ⟨1, offset, seg.addr, seg.addr, filesz, filesz, segmentFlags seg.prot, 0x1000⟩

/-- The headers of the segments, from an offset. -/
def loadHeaders : ℕ → List ElfSegment → List ProgramHeader
  | _, [] => []
  | offset, seg :: segments =>
    loadHeader offset seg :: loadHeaders (offset + (loadHeader offset seg).filesz) segments

/-- The header of the stack. -/
def stackHeader : ProgramHeader := ⟨0x6474e551, 0, 0, 0, 0, 0, 6, 0x1000⟩

/-- The header of the interpreter. -/
def interpHeader (offset length : ℕ) : ProgramHeader := ⟨3, offset, 0, 0, length, length, 4, 1⟩

/-- Packing one header after another. -/
def packHeaders : List ProgramHeader → Except BuildError (List UInt8)
  | [] => .ok []
  | h :: headers => do
    let bytes ← h.pack
    let rest ← packHeaders headers
    return bytes ++ rest

/-! ### The builder -/

namespace ElfBuilder

variable (b : ElfBuilder)

/-- `self.pages`: the pages sorted by their addresses. -/
def pages : List ElfPage := b.classifiedPages.insertionSort fun p q => p.addr ≤ q.addr

/-- The loop of `collect_pages`, with the segment that is collected. -/
def collectFrom (cur : ElfSegment) : List ElfPage → List ElfSegment
  | [] => [cur]
  | page :: pages =>
    if page.addr = cur.addr + cur.data.length ∧ page.prot = cur.prot then
      collectFrom { cur with data := cur.data ++ page.data } pages
    else cur :: collectFrom ⟨page.addr, page.data, page.prot⟩ pages

/-- `collect_pages` -/
def collectPages : List ElfSegment :=
  match b.pages with
  | [] => []
  | page :: pages => collectFrom ⟨page.addr, page.data, page.prot⟩ pages

/-- `self.interp`, where it is not empty. -/
def interpreter : Option PyStr := b.interp.filter fun s => s ≠ []

/-- `interp_data`, where there is an interpreter. -/
def interpData : Except BuildError (Option (List UInt8)) :=
  match b.interpreter with
  | none => .ok none
  | some s => do
    let bytes ← utf8 s
    return some (bytes ++ [0])

/-- `interp_padded`, or nothing to write. -/
def interpPadded (interpData : Option (List UInt8)) : List UInt8 :=
  match interpData with
  | none => []
  | some data => data ++ pagePadding data.length

/-- The headers that `build_phdrs` packs. -/
def programHeaders (segments : List ElfSegment) (interpData : Option (List UInt8)) (startOffset : ℕ) :
    List ProgramHeader :=
  match interpData with
  | none => stackHeader :: loadHeaders startOffset segments
  | some data =>
    stackHeader :: interpHeader startOffset data.length ::
      loadHeaders (startOffset + (interpPadded (some data)).length) segments

/-- The fields of the ELF header behind the magic bytes, in the format `BBBBB7xHHIIIIIHHHHHH`. -/
def ehdrFields (numPhdrs : ℕ) : List (ℕ × ℕ) :=
  [(1, 1), (1, 1), (1, 1), (1, b.osabi), (1, 0), (7, 0), (2, b.eType), (2, 3), (4, 1),
    (4, (b.oep % 2 ^ 32).toNat), (4, 52), (4, 0), (4, 0), (2, 52), (2, 32), (2, numPhdrs), (2, 40), (2, 0), (2, 0)]

/-- `build_ehdr` -/
def buildEhdr (numPhdrs : ℕ) : Except BuildError (List UInt8) :=
  if b.arch = py "i386" then do
    let fields ← structPack (b.ehdrFields numPhdrs)
    return [0x7f, 0x45, 0x4c, 0x46] ++ fields
  else if b.arch = py "x86-64" then .error (.notImplemented (py "x86-64 ELF64 not yet implemented"))
  else .error (.value (py "Unknown arch: " ++ b.arch))

/-- Where the data begins: the first page behind the headers. -/
def dataOffset (numPhdrs : ℕ) : ℕ := (52 + 32 * numPhdrs + 0xFFF) / 0x1000 * 0x1000

/-- What `build` writes. -/
def build : Except BuildError (List UInt8) := do
  let segments := b.collectPages
  let interpData ← b.interpData
  let headerCount := 1 + (if b.interpreter.isSome then 1 else 0) + segments.length
  let dataOffset := dataOffset headerCount
  let headers := programHeaders segments interpData dataOffset
  let phdrs ← packHeaders headers
  let ehdr ← b.buildEhdr headers.length
  let padding := List.replicate (dataOffset - (52 + 32 * headers.length)) 0
  return ehdr ++ phdrs ++ padding ++ interpPadded interpData ++
    segments.flatMap fun seg => seg.data ++ pagePadding seg.data.length

end ElfBuilder

end TaintForge
