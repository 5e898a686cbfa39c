import TaintForge.Lib.AddressRuns
import TaintForge.Lib.Except
import TaintForge.Rebuilder.ElfBuilder
import Mathlib.Data.List.Range

/-!
# Loading a built file

A loader reads the ELF header and the program headers of a file and maps what the headers of type `PT_LOAD` point
to.  What it maps of a file that was built are the pages it was built from, with their rights.

* `parseElf32`: reading the headers.
* `collectPages_toPiece`: the segments are the runs of the pages.
* `parseElf32_build`: what is read from a built file are the headers that were packed.
* `build_loads`: the file maps the pages and nothing else, and it is built whenever its offsets fit.
-/

namespace TaintForge

open Runs

/-! ### A loader -/

/-- What a loader reads from the headers of a file. -/
structure Elf32 where
  osabi : ℕ
  type : ℕ
  machine : ℕ
  entry : ℕ
  headers : List ProgramHeader

/-- The widths of the fields of an `Elf32_Ehdr` behind the magic bytes. -/
def ehdrWidths : List ℕ := [1, 1, 1, 1, 1, 7, 2, 2, 4, 4, 4, 4, 4, 2, 2, 2, 2, 2, 2]

/-- Reading a program header. -/
def parseHeader (bytes : List UInt8) : Option ProgramHeader :=
  match StructPack.unpack ProgramHeader.widths bytes with
  | some [type, offset, vaddr, paddr, filesz, memsz, flags, align] =>
    some ⟨type, offset, vaddr, paddr, filesz, memsz, flags, align⟩
  | _ => none

/-- Reading a number of program headers of a size. -/
def parseHeaders (size : ℕ) : ℕ → List UInt8 → Option (List ProgramHeader)
  | 0, _ => some []
  | n + 1, bytes =>
    (parseHeader bytes).bind fun h => (parseHeaders size n (bytes.drop size)).map (h :: ·)

/-- Reading a little-endian ELF32 file. -/
def parseElf32 (file : List UInt8) : Option Elf32 :=
  if file.take 4 = [0x7f, 0x45, 0x4c, 0x46] then
    match StructPack.unpack ehdrWidths (file.drop 4) with
    | some [elfClass, elfData, identVersion, osabi, _, _, type, machine, version, entry, phoff, _, _, ehsize,
        phentsize, phnum, _, _, _] =>
      if elfClass = 1 ∧ elfData = 1 ∧ identVersion = 1 ∧ version = 1 ∧ ehsize = 52 ∧ phentsize = 32 then
        (parseHeaders phentsize phnum (file.drop phoff)).map fun headers =>
          ⟨osabi, type, machine, entry, headers⟩
      else none
    | _ => none
  else none

/-- What a mapping allows. -/
structure Rights where
  read : Bool
  write : Bool
  exec : Bool
  deriving DecidableEq

/-- `PF_R`, `PF_W` and `PF_X` of a program header. -/
def ProgramHeader.rights (h : ProgramHeader) : Rights :=
  ⟨h.flags / 4 % 2 == 1, h.flags / 2 % 2 == 1, h.flags % 2 == 1⟩

/-- The rights of a protection. -/
def protRights (prot : ℤ) : Rights := ⟨protBit prot 0, protBit prot 1, protBit prot 2⟩

/-- A loader maps a byte to an address, with rights. -/
def Elf32.Maps (elf : Elf32) (file : List UInt8) (a : ℕ) (x : UInt8) (rights : Rights) : Prop :=
  ∃ h ∈ elf.headers, h.type = 1 ∧ h.rights = rights ∧ h.vaddr ≤ a ∧ a < h.vaddr + h.filesz ∧
    file[h.offset + (a - h.vaddr)]? = some x

/-! ### Segments -/

/-- A page as a piece of memory. -/
def ElfPage.toPiece (page : ElfPage) : Piece ℤ UInt8 := ⟨page.addr, page.data, page.prot⟩

/-- A segment as a piece of memory. -/
def ElfSegment.toPiece (seg : ElfSegment) : Piece ℤ UInt8 := ⟨seg.addr, seg.data, seg.prot⟩

namespace ElfBuilder

variable {b : ElfBuilder}

theorem collectFrom_toPiece (cur : ElfSegment) (pages : List ElfPage) :
    (collectFrom cur pages).map ElfSegment.toPiece = runsFrom cur.toPiece (pages.map ElfPage.toPiece) := by
  induction pages generalizing cur with
  | nil => rfl
  | cons page pages ih =>
    unfold collectFrom
    rw [List.map_cons, runsFrom]
    show _ = if page.addr = cur.addr + cur.data.length ∧ page.prot = cur.prot then _ else _
    split
    · exact ih _
    · rw [List.map_cons, ih]
      rfl

/-- **The segments are the runs of the pages.** -/
theorem collectPages_toPiece (b : ElfBuilder) :
    b.collectPages.map ElfSegment.toPiece = runs (b.pages.map ElfPage.toPiece) := by
  unfold collectPages
  cases b.pages with
  | nil => rfl
  | cons page pages => exact collectFrom_toPiece _ pages

theorem pages_perm (b : ElfBuilder) : b.pages.Perm b.classifiedPages := List.perm_insertionSort _ _

theorem pages_pairwise (b : ElfBuilder) : (b.pages.map ElfPage.toPiece).Pairwise Before := by
  have hsorted : b.pages.Pairwise fun p q => p.addr ≤ q.addr := List.pairwise_insertionSort _ _
  have hnodup : (b.pages.map ElfPage.addr).Nodup := (b.pages_perm.map ElfPage.addr).nodup_iff.mpr b.addr_nodup
  rw [List.Nodup, List.pairwise_map] at hnodup
  rw [List.pairwise_map]
  refine (hsorted.and hnodup).imp fun {p q} hpq => ?_
  show p.addr + p.data.length ≤ q.addr
  rw [p.data_length]
  have haligned := p.addr_aligned
  have haligned' := q.addr_aligned
  omega

/-- What is known of a segment. -/
theorem segment_spec {seg : ElfSegment} (h : seg ∈ b.collectPages) :
    seg.addr < 2 ^ 32 ∧ seg.addr % 0x1000 = 0 ∧ 0x1000 ∣ seg.data.length := by
  have hmem : seg.toPiece ∈ runs (b.pages.map ElfPage.toPiece) := by
    rw [← collectPages_toPiece]
    exact List.mem_map_of_mem h
  have haddr := forall_mem_runs (P := fun addr _ => addr < 2 ^ 32 ∧ addr % 0x1000 = 0)
    (List.forall_mem_map.mpr fun page _ => ⟨page.addr_lt, page.addr_aligned⟩) _ hmem
  have hlength := dvd_of_mem_runs (n := 0x1000)
    (List.forall_mem_map.mpr fun page _ => (page.data_length ▸ dvd_rfl : 0x1000 ∣ page.data.length)) _ hmem
  exact ⟨haddr.1, haddr.2, hlength⟩

end ElfBuilder

/-! ### Packed headers -/

theorem structPack_eq_ok {fields : List (ℕ × ℕ)} {bytes : List UInt8} :
    structPack fields = .ok bytes ↔ StructPack.pack fields = some bytes := by
  unfold structPack
  cases StructPack.pack fields with
  | none => exact iff_of_false nofun nofun
  | some packed => rw [Except.ok.injEq, Option.some.injEq]

theorem length_of_pack {h : ProgramHeader} {bytes : List UInt8} (hpack : h.pack = .ok bytes) :
    bytes.length = 32 := by
  rw [StructPack.length_pack (structPack_eq_ok.mp hpack)]
  rfl

theorem parseHeader_pack {h : ProgramHeader} {bytes : List UInt8} (hpack : h.pack = .ok bytes)
    (rest : List UInt8) : parseHeader (bytes ++ rest) = some h := by
  have hread := StructPack.unpack_pack (structPack_eq_ok.mp hpack) rest
  unfold parseHeader
  rw [show ProgramHeader.widths = (ProgramHeader.widths.zip h.values).map Prod.fst from rfl, hread]
  rfl

theorem packHeaders_cons_eq_ok {h : ProgramHeader} {headers : List ProgramHeader} {bytes : List UInt8} :
    packHeaders (h :: headers) = .ok bytes ↔
      ∃ first rest, h.pack = .ok first ∧ packHeaders headers = .ok rest ∧ first ++ rest = bytes := by
  rw [packHeaders]
  simp only [bind_eq_ok, pure_eq_ok]
  constructor
  · rintro ⟨first, hfirst, rest, hrest, rfl⟩
    exact ⟨first, rest, hfirst, hrest, rfl⟩
  · rintro ⟨first, rest, hfirst, hrest, rfl⟩
    exact ⟨first, hfirst, rest, hrest, rfl⟩

theorem length_packHeaders {headers : List ProgramHeader} {bytes : List UInt8}
    (h : packHeaders headers = .ok bytes) : bytes.length = 32 * headers.length := by
  induction headers generalizing bytes with
  | nil =>
    obtain rfl := Except.ok.inj h
    rfl
  | cons header headers ih =>
    obtain ⟨first, rest, hfirst, hrest, rfl⟩ := packHeaders_cons_eq_ok.mp h
    rw [List.length_append, length_of_pack hfirst, ih hrest, List.length_cons]
    ring

/-- The headers that were packed are read again. -/
theorem parseHeaders_pack {headers : List ProgramHeader} {bytes : List UInt8}
    (h : packHeaders headers = .ok bytes) (rest : List UInt8) :
    parseHeaders 32 headers.length (bytes ++ rest) = some headers := by
  induction headers generalizing bytes with
  | nil => rfl
  | cons header headers ih =>
    obtain ⟨first, tail, hfirst, htail, rfl⟩ := packHeaders_cons_eq_ok.mp h
    rw [List.length_cons, parseHeaders, List.append_assoc, parseHeader_pack hfirst, Option.bind_some,
      List.drop_left' (length_of_pack hfirst), ih htail, Option.map_some]

/-- The headers are packed where all their fields have 32 bits. -/
theorem packHeaders_isOk {headers : List ProgramHeader} :
    (∃ bytes, packHeaders headers = .ok bytes) ↔ ∀ h ∈ headers, ∀ value ∈ h.values, value < 2 ^ 32 := by
  induction headers with
  | nil => exact iff_of_true ⟨[], rfl⟩ fun h hmem => absurd hmem List.not_mem_nil
  | cons header headers ih =>
    have hheader : (∃ bytes, header.pack = .ok bytes) ↔ ∀ value ∈ header.values, value < 2 ^ 32 := by
      unfold ProgramHeader.pack
      simp only [structPack_eq_ok, ← Option.isSome_iff_exists, StructPack.pack_isSome]
      simp [ProgramHeader.widths, ProgramHeader.values]
    rw [List.forall_mem_cons, ← ih, ← hheader]
    constructor
    · rintro ⟨bytes, h⟩
      obtain ⟨first, rest, hfirst, hrest, -⟩ := packHeaders_cons_eq_ok.mp h
      exact ⟨⟨first, hfirst⟩, rest, hrest⟩
    · rintro ⟨⟨first, hfirst⟩, rest, hrest⟩
      exact ⟨_, packHeaders_cons_eq_ok.mpr ⟨first, rest, hfirst, hrest, rfl⟩⟩

namespace ElfBuilder

variable {b : ElfBuilder}

theorem ehdrFields_widths (b : ElfBuilder) (numPhdrs : ℕ) :
    (b.ehdrFields numPhdrs).map Prod.fst = ehdrWidths := rfl

/-- The ELF header of a builder for i386, as it is read. -/
theorem parse_buildEhdr (harch : b.arch = py "i386") {numPhdrs : ℕ} {ehdr : List UInt8}
    (h : b.buildEhdr numPhdrs = .ok ehdr) (rest : List UInt8) :
    ehdr.length = 52 ∧ (ehdr ++ rest).take 4 = [0x7f, 0x45, 0x4c, 0x46] ∧
      StructPack.unpack ehdrWidths ((ehdr ++ rest).drop 4) = some ((b.ehdrFields numPhdrs).map Prod.snd) := by
  unfold buildEhdr at h
  rw [if_pos harch] at h
  obtain ⟨fields, hfields, hehdr⟩ := bind_eq_ok.mp h
  obtain rfl := pure_eq_ok.mp hehdr
  have hpack := structPack_eq_ok.mp hfields
  refine ⟨?_, rfl, ?_⟩
  · rw [List.length_append, StructPack.length_pack hpack, ehdrFields_widths]
    rfl
  · rw [← b.ehdrFields_widths numPhdrs]
    show StructPack.unpack _ (fields ++ rest) = _
    exact StructPack.unpack_pack hpack rest

/-- The ELF header is built where its fields fit. -/
theorem buildEhdr_isOk (harch : b.arch = py "i386") (numPhdrs : ℕ) :
    (∃ ehdr, b.buildEhdr numPhdrs = .ok ehdr) ↔ b.osabi < 256 ∧ b.eType < 65536 ∧ numPhdrs < 65536 := by
  have hentry : b.oep % 4294967296 < 4294967296 := Int.emod_lt_of_pos b.oep (by decide)
  have hfits : (∃ fields, structPack (b.ehdrFields numPhdrs) = .ok fields) ↔
      b.osabi < 256 ∧ b.eType < 65536 ∧ numPhdrs < 65536 := by
    simp only [structPack_eq_ok, ← Option.isSome_iff_exists, StructPack.pack_isSome]
    simp [ehdrFields, hentry]
  rw [← hfits]
  unfold buildEhdr
  rw [if_pos harch]
  simp only [bind_eq_ok, pure_eq_ok]
  constructor
  · rintro ⟨ehdr, fields, hfields, -⟩
    exact ⟨fields, hfields⟩
  · rintro ⟨fields, hfields⟩
    exact ⟨_, fields, hfields, rfl⟩

/-! ### The parts of a file -/

/-- The interpreter as it is written, with the byte that ends it. -/
def interpBytes (b : ElfBuilder) : Option (List UInt8) :=
  b.interpreter.map fun s => s.flatMap utf8Char ++ [0]

/-- Where the data of a file begins. -/
def dataStart (b : ElfBuilder) : ℕ :=
  dataOffset (1 + (if b.interpreter.isSome then 1 else 0) + b.collectPages.length)

/-- The program headers of a file. -/
def headers (b : ElfBuilder) : List ProgramHeader :=
  programHeaders b.collectPages b.interpBytes b.dataStart

theorem interpData_eq_ok {data : Option (List UInt8)} :
    b.interpData = .ok data ↔
      (∀ s, b.interpreter = some s → PyStr.encodable s = true) ∧ data = b.interpBytes := by
  unfold interpData interpBytes
  cases b.interpreter with
  | none =>
    rw [Except.ok.injEq]
    constructor
    · rintro rfl
      exact ⟨nofun, rfl⟩
    · rintro ⟨-, rfl⟩
      rfl
  | some s =>
    simp only [bind_eq_ok, pure_eq_ok, Option.some.injEq, forall_eq', utf8]
    constructor
    · rintro ⟨bytes, hbytes, rfl⟩
      split at hbytes
      · rename_i hencodable
        obtain rfl := Except.ok.inj hbytes
        exact ⟨hencodable, rfl⟩
      · cases hbytes
    · rintro ⟨hencodable, rfl⟩
      exact ⟨_, if_pos hencodable, rfl⟩

theorem length_loadHeaders (offset : ℕ) (segments : List ElfSegment) :
    (loadHeaders offset segments).length = segments.length := by
  induction segments generalizing offset with
  | nil => rfl
  | cons seg segments ih => rw [loadHeaders, List.length_cons, ih, List.length_cons]

theorem length_headers (b : ElfBuilder) :
    b.headers.length = 1 + (if b.interpreter.isSome then 1 else 0) + b.collectPages.length := by
  unfold headers programHeaders interpBytes
  cases b.interpreter with
  | none =>
    rw [Option.map_none]
    show (loadHeaders _ _).length + 1 = _
    rw [length_loadHeaders]
    exact Nat.add_comm _ _
  | some s =>
    rw [Option.map_some]
    show (loadHeaders _ _).length + 1 + 1 = _
    rw [length_loadHeaders]
    show _ = 1 + 1 + _
    omega

theorem pagePadding_eq_nil {n : ℕ} (h : 0x1000 ∣ n) : pagePadding n = [] := by
  have hzero : (0x1000 - n % 0x1000) % 0x1000 = 0 := by omega
  unfold pagePadding
  rw [hzero]
  rfl

theorem flatMap_segments (b : ElfBuilder) :
    (b.collectPages.flatMap fun seg => seg.data ++ pagePadding seg.data.length) =
      b.collectPages.flatMap ElfSegment.data := by
  refine List.flatMap_congr fun seg hseg => ?_
  rw [pagePadding_eq_nil (segment_spec hseg).2.2, List.append_nil]

/-- What is in front of the data: the headers and the zeros behind them. -/
def headerBytes (b : ElfBuilder) (ehdr phdrs : List UInt8) : List UInt8 :=
  ehdr ++ phdrs ++ List.replicate (b.dataStart - (52 + 32 * b.headers.length)) 0

/-- **What is written** is the headers, the interpreter and the segments. -/
theorem build_eq_ok {file : List UInt8} :
    b.build = .ok file ↔ (∀ s, b.interpreter = some s → PyStr.encodable s = true) ∧
      ∃ phdrs ehdr, packHeaders b.headers = .ok phdrs ∧ b.buildEhdr b.headers.length = .ok ehdr ∧
        file = b.headerBytes ehdr phdrs ++ interpPadded b.interpBytes ++
          b.collectPages.flatMap ElfSegment.data := by
  unfold build
  simp only [bind_eq_ok, pure_eq_ok, flatMap_segments]
  constructor
  · rintro ⟨data, hdata, phdrs, hphdrs, ehdr, hehdr, rfl⟩
    obtain ⟨hencodable, rfl⟩ := interpData_eq_ok.mp hdata
    exact ⟨hencodable, phdrs, ehdr, hphdrs, hehdr, rfl⟩
  · rintro ⟨hencodable, phdrs, ehdr, hphdrs, hehdr, rfl⟩
    exact ⟨b.interpBytes, interpData_eq_ok.mpr ⟨hencodable, rfl⟩, phdrs, hphdrs, ehdr, hehdr, rfl⟩

/-- The loader reads the headers that were packed. -/
theorem parseElf32_build (harch : b.arch = py "i386") {file : List UInt8} (h : b.build = .ok file) :
    parseElf32 file = some ⟨b.osabi, b.eType, 3, (b.oep % 2 ^ 32).toNat, b.headers⟩ := by
  obtain ⟨-, phdrs, ehdr, hphdrs, hehdr, rfl⟩ := build_eq_ok.mp h
  unfold headerBytes
  simp only [List.append_assoc]
  obtain ⟨hlength, hmagic, hfields⟩ := parse_buildEhdr harch hehdr
    (phdrs ++ (List.replicate (b.dataStart - (52 + 32 * b.headers.length)) 0 ++
      (interpPadded b.interpBytes ++ b.collectPages.flatMap ElfSegment.data)))
  unfold parseElf32
  rw [if_pos hmagic, hfields]
  show (if 1 = 1 ∧ 1 = 1 ∧ 1 = 1 ∧ 1 = 1 ∧ 52 = 52 ∧ 32 = 32 then
    (parseHeaders 32 b.headers.length (List.drop 52 (ehdr ++ _))).map _ else none) = _
  rw [if_pos (by decide), List.drop_left' hlength, parseHeaders_pack hphdrs, Option.map_some]

/-! ### The layout -/

theorem dataStart_spec (b : ElfBuilder) :
    52 + 32 * b.headers.length ≤ b.dataStart ∧ 0x1000 ∣ b.dataStart := by
  unfold dataStart dataOffset
  rw [← length_headers]
  omega

theorem length_headerBytes {ehdr phdrs : List UInt8} (hehdr : ehdr.length = 52)
    (hphdrs : phdrs.length = 32 * b.headers.length) : (b.headerBytes ehdr phdrs).length = b.dataStart := by
  have hle := b.dataStart_spec.1
  unfold headerBytes
  rw [List.length_append, List.length_append, List.length_replicate, hehdr, hphdrs]
  omega

theorem length_interpPadded (data : List UInt8) :
    (interpPadded (some data)).length = data.length + (0x1000 - data.length % 0x1000) % 0x1000 := by
  show (data ++ pagePadding data.length).length = _
  rw [List.length_append, pagePadding, List.length_replicate]

/-- Where the segments begin. -/
def loadStart (b : ElfBuilder) : ℕ := b.dataStart + (interpPadded b.interpBytes).length

theorem dvd_loadStart (b : ElfBuilder) : 0x1000 ∣ b.loadStart := by
  have hstart := b.dataStart_spec.2
  unfold loadStart
  cases b.interpBytes with
  | none =>
    have hnil : (interpPadded none).length = 0 := rfl
    rw [hnil, Nat.add_zero]
    exact hstart
  | some data =>
    rw [length_interpPadded]
    omega

/-- The segments with their offsets in the file. -/
def loads (b : ElfBuilder) : List (ℕ × Piece ℤ UInt8) :=
  place (fun _ => true) b.loadStart (b.collectPages.map ElfSegment.toPiece)

/-- The header of a segment at its offset. -/
def headerAt (placed : ℕ × Piece ℤ UInt8) : ProgramHeader :=
  ⟨1, placed.1, placed.2.addr, placed.2.addr, placed.2.data.length, placed.2.data.length,
    segmentFlags placed.2.tag, 0x1000⟩

theorem loadHeaders_eq {segments : List ElfSegment} (h : ∀ seg ∈ segments, 0x1000 ∣ seg.data.length)
    (offset : ℕ) :
    loadHeaders offset segments =
      (place (fun _ => true) offset (segments.map ElfSegment.toPiece)).map headerAt := by
  induction segments generalizing offset with
  | nil => rfl
  | cons seg segments ih =>
    obtain ⟨hseg, hsegments⟩ := List.forall_mem_cons.mp h
    have hpadding : (0x1000 - seg.data.length % 0x1000) % 0x1000 = 0 := by omega
    have hheader : loadHeader offset seg = headerAt (offset, seg.toPiece) := by
      unfold loadHeader
      dsimp only
      rw [hpadding]
      rfl
    rw [loadHeaders, hheader, ih hsegments]
    rfl

theorem headers_eq (b : ElfBuilder) :
    b.headers = stackHeader ::
      ((b.interpBytes.map fun data => interpHeader b.dataStart data.length).toList ++ b.loads.map headerAt) := by
  have hloads := loadHeaders_eq (fun seg hseg => (segment_spec (b := b) hseg).2.2) b.loadStart
  unfold headers programHeaders
  unfold loadStart at hloads
  unfold loads loadStart
  cases hinterp : b.interpBytes with
  | none =>
    have hnil : (interpPadded none).length = 0 := rfl
    rw [hinterp, hnil, Nat.add_zero] at hloads
    rw [hnil, Nat.add_zero]
    exact congrArg (stackHeader :: ·) hloads
  | some data =>
    rw [hinterp] at hloads
    exact congrArg (fun rest => stackHeader :: interpHeader b.dataStart data.length :: rest) hloads

/-- The headers of type `PT_LOAD` are those of the segments. -/
theorem filter_headers (b : ElfBuilder) :
    (b.headers.filter fun h => h.type == 1) = b.loads.map headerAt := by
  have hall : ((b.loads.map headerAt).filter fun h => h.type == 1) = b.loads.map headerAt :=
    List.filter_eq_self.mpr (List.forall_mem_map.mpr fun _ _ => rfl)
  rw [headers_eq, List.filter_cons_of_neg (by decide), List.filter_append, hall]
  cases b.interpBytes <;> rfl

theorem mem_headers_load {h : ProgramHeader} :
    h ∈ b.headers ∧ h.type = 1 ↔ ∃ placed ∈ b.loads, headerAt placed = h := by
  rw [← List.mem_map, ← filter_headers, List.mem_filter, beq_iff_eq]

/-- The headers of type `PT_INTERP`. -/
theorem mem_headers_interp {h : ProgramHeader} :
    h ∈ b.headers ∧ h.type = 3 ↔ ∃ data, b.interpBytes = some data ∧ h = interpHeader b.dataStart data.length := by
  rw [headers_eq, List.mem_cons, List.mem_append, Option.mem_toList, Option.map_eq_some_iff, List.mem_map]
  constructor
  · rintro ⟨rfl | ⟨data, hdata, rfl⟩ | ⟨placed, -, rfl⟩, htype⟩
    · cases htype
    · exact ⟨data, hdata, rfl⟩
    · cases htype
  · rintro ⟨data, hdata, rfl⟩
    exact ⟨Or.inr (Or.inl ⟨data, hdata, rfl⟩), rfl⟩

/-! ### What is mapped -/

variable {file : List UInt8}

/-- A built file is something in front of the segments, and the segments. -/
theorem exists_front (harch : b.arch = py "i386") (h : b.build = .ok file) :
    ∃ front, front.length = b.loadStart ∧
      file = front ++ (b.collectPages.map ElfSegment.toPiece).flatMap Piece.data ∧
      ∃ head, head.length = b.dataStart ∧ front = head ++ interpPadded b.interpBytes := by
  obtain ⟨-, phdrs, ehdr, hphdrs, hehdr, rfl⟩ := build_eq_ok.mp h
  have hhead := length_headerBytes (parse_buildEhdr harch hehdr []).1 (length_packHeaders hphdrs)
  refine ⟨_, ?_, ?_, _, hhead, rfl⟩
  · rw [List.length_append, hhead]
    rfl
  · rw [List.flatMap_map]
    rfl

/-- Each segment is found at its offset. -/
theorem load_slice (harch : b.arch = py "i386") (h : b.build = .ok file) {placed : ℕ × Piece ℤ UInt8}
    (hplaced : placed ∈ b.loads) :
    (file.drop placed.1).take placed.2.data.length = placed.2.data ∧
      placed.1 + placed.2.data.length ≤ file.length := by
  obtain ⟨front, hfront, rfl, -⟩ := exists_front harch h
  unfold loads at hplaced
  rw [← hfront] at hplaced
  have hslice := place_slice front [] _ placed hplaced rfl
  have hstop := stop_le_of_mem_place placed hplaced rfl
  rw [List.filter_eq_self.mpr fun _ _ => rfl] at hslice hstop
  rw [List.append_nil] at hslice
  rw [List.length_append]
  exact ⟨hslice, hstop⟩

/-- A byte of the file in a segment is one of the segment's piece. -/
theorem load_cell (harch : b.arch = py "i386") (h : b.build = .ok file) {placed : ℕ × Piece ℤ UInt8}
    (hplaced : placed ∈ b.loads) (a : ℕ) (x : UInt8) :
    (placed.2.addr ≤ a ∧ a < placed.2.addr + placed.2.data.length ∧
      file[placed.1 + (a - placed.2.addr)]? = some x) ↔ placed.2.cell a = some x := by
  have hslice := (load_slice harch h hplaced).1
  rw [Piece.cell_eq_some]
  constructor
  · rintro ⟨hlow, hhigh, hx⟩
    refine ⟨hlow, ?_⟩
    rw [← hslice, List.getElem?_take_of_lt (by omega), List.getElem?_drop]
    exact hx
  · rintro ⟨hlow, hx⟩
    obtain ⟨hlt, -⟩ := List.getElem?_eq_some_iff.mp hx
    refine ⟨hlow, by omega, ?_⟩
    rw [← hslice, List.getElem?_take_of_lt hlt, List.getElem?_drop] at hx
    exact hx

theorem rights_segmentFlags (prot : ℤ) (h : ProgramHeader) (hflags : h.flags = segmentFlags prot) :
    h.rights = protRights prot := by
  unfold ProgramHeader.rights protRights
  rw [hflags]
  unfold segmentFlags
  cases protBit prot 0 <;> cases protBit prot 1 <;> cases protBit prot 2 <;> rfl

/-- **What is mapped are the pages** with their rights. -/
theorem maps_iff (harch : b.arch = py "i386") (h : b.build = .ok file) {elf : Elf32}
    (helf : elf.headers = b.headers) (a : ℕ) (x : UInt8) (rights : Rights) :
    elf.Maps file a x rights ↔ ∃ page ∈ b.classifiedPages, protRights page.prot = rights ∧ page.addr ≤ a ∧
      page.data[a - page.addr]? = some x := by
  have hloads : elf.Maps file a x rights ↔
      ∃ placed ∈ b.loads, protRights placed.2.tag = rights ∧ placed.2.cell a = some x := by
    unfold Elf32.Maps
    rw [helf]
    constructor
    · rintro ⟨header, hmem, htype, hrights, hcell⟩
      obtain ⟨placed, hplaced, rfl⟩ := mem_headers_load.mp ⟨hmem, htype⟩
      rw [rights_segmentFlags placed.2.tag _ rfl] at hrights
      exact ⟨placed, hplaced, hrights, (load_cell harch h hplaced a x).mp hcell⟩
    · rintro ⟨placed, hplaced, hrights, hcell⟩
      obtain ⟨hmem, htype⟩ := mem_headers_load.mpr ⟨placed, hplaced, rfl⟩
      refine ⟨_, hmem, htype, ?_, (load_cell harch h hplaced a x).mpr hcell⟩
      rw [rights_segmentFlags placed.2.tag _ rfl]
      exact hrights
  rw [hloads]
  unfold loads
  rw [exists_mem_place _ fun p => protRights p.tag = rights ∧ p.cell a = some x, collectPages_toPiece,
    exists_mem_runs_cell fun prot => protRights prot = rights]
  simp only [List.mem_map, exists_exists_and_eq_and, Piece.cell_eq_some, b.pages_perm.mem_iff]
  rfl

/-- What is known of a segment in the file. -/
theorem load_spec {placed : ℕ × Piece ℤ UInt8} (h : placed ∈ b.loads) :
    placed.2.addr < 2 ^ 32 ∧ placed.2.addr % 0x1000 = 0 ∧ placed.1 % 0x1000 = 0 := by
  have hmem : placed.2 ∈ b.collectPages.map ElfSegment.toPiece := by
    rw [← place_map_snd (fun _ => true) b.loadStart (b.collectPages.map ElfSegment.toPiece)]
    exact List.mem_map_of_mem h
  obtain ⟨seg, hseg, hpiece⟩ := List.mem_map.mp hmem
  have hsegment := segment_spec hseg
  have hoffset : ∀ placed ∈ b.loads, 0x1000 ∣ placed.1 := dvd_of_mem_place b.dvd_loadStart
    (List.forall_mem_map.mpr fun seg hseg => (segment_spec (b := b) hseg).2.2)
  rw [← hpiece]
  exact ⟨hsegment.1, hsegment.2.1, Nat.mod_eq_zero_of_dvd (hoffset placed h)⟩

/-- The segments are in their order, in the file and in memory. -/
theorem loads_pairwise (b : ElfBuilder) :
    b.loads.Pairwise fun p q => p.1 + p.2.data.length ≤ q.1 ∧ p.2.addr + p.2.data.length ≤ q.2.addr := by
  have hfile : b.loads.Pairwise fun p q => p.1 + p.2.data.length ≤ q.1 := by
    unfold loads
    exact (place_pairwise b.loadStart _).imp fun h => h rfl
  have hmemory : (b.loads.map Prod.snd).Pairwise Before := by
    unfold loads
    rw [place_map_snd, collectPages_toPiece]
    exact runs_pairwise b.pages_pairwise
  rw [List.pairwise_map] at hmemory
  exact hfile.and hmemory

/-- The interpreter is found where its header points to. -/
theorem interp_slice (harch : b.arch = py "i386") (h : b.build = .ok file) {data : List UInt8}
    (hdata : b.interpBytes = some data) : (file.drop b.dataStart).take data.length = data := by
  obtain ⟨front, -, rfl, head, hhead, rfl⟩ := exists_front harch h
  rw [List.append_assoc, List.drop_left' hhead, hdata]
  show List.take _ (data ++ pagePadding data.length ++ _) = _
  rw [List.append_assoc, List.take_left]

theorem interpBytes_eq_some {data : List UInt8} :
    b.interpBytes = some data ↔ ∃ s, b.interp = some s ∧ s ≠ [] ∧ data = s.flatMap utf8Char ++ [0] := by
  unfold interpBytes interpreter
  simp only [Option.map_eq_some_iff, Option.filter_eq_some_iff, decide_eq_true_eq, and_assoc]
  exact exists_congr fun s => and_congr_right' (and_congr_right' eq_comm)

/-! ### Loading -/

/-- What a loader finds in a file that was built. -/
structure Loads (b : ElfBuilder) (file : List UInt8) (elf : Elf32) : Prop where
  /-- The file is for the right machine and starts at the entry point. -/
  ident : elf.osabi = b.osabi ∧ elf.type = b.eType ∧ elf.machine = 3 ∧ (elf.entry : ℤ) = b.oep % 2 ^ 32
  /-- What is mapped are the pages, with their rights, and nothing else. -/
  maps : ∀ a x rights, elf.Maps file a x rights ↔ ∃ page ∈ b.classifiedPages,
    protRights page.prot = rights ∧ page.addr ≤ a ∧ page.data[a - page.addr]? = some x
  /-- A segment lies within the file, and is as long in memory as there. -/
  whole : ∀ h ∈ elf.headers, h.type = 1 → h.memsz = h.filesz ∧ h.offset + h.filesz ≤ file.length
  /-- The offsets are congruent to the addresses. -/
  congruent : ∀ h ∈ elf.headers, h.type = 1 → h.offset % 0x1000 = h.vaddr % 0x1000
  /-- The segments are disjoint and ascending, in the file and in memory. -/
  ascending : (elf.headers.filter fun h => h.type == 1).Pairwise fun g h =>
    g.offset + g.filesz ≤ h.offset ∧ g.vaddr + g.memsz ≤ h.vaddr
  /-- The interpreter's entry points at the string, with a zero behind it. -/
  interp : ∀ h ∈ elf.headers, h.type = 3 → ∃ s, b.interp = some s ∧
    (file.drop h.offset).take h.filesz = s.flatMap utf8Char ++ [0]
  /-- There is such an entry where there is an interpreter. -/
  hasInterp : (∃ h ∈ elf.headers, h.type = 3) ↔ ∃ s, b.interp = some s ∧ s ≠ []

/-- What is built fits into the fields of an ELF32 file, and its interpreter can be written. -/
structure Fits (b : ElfBuilder) : Prop where
  interp : ∀ s, b.interp = some s → PyStr.encodable s = true
  osabi : b.osabi < 256
  type : b.eType < 65536
  headers : ∀ h ∈ b.headers, h.offset < 2 ^ 32 ∧ h.filesz < 2 ^ 32

/-- Of a file that was built, a loader gets what it was built from. -/
theorem loads_of_build (harch : b.arch = py "i386") (h : b.build = .ok file) :
    ∃ elf, parseElf32 file = some elf ∧ b.Loads file elf := by
  refine ⟨_, parseElf32_build harch h, ?_⟩
  constructor
  case ident =>
    have hentry : 0 ≤ b.oep % 2 ^ 32 := Int.emod_nonneg b.oep (by decide)
    exact ⟨rfl, rfl, rfl, Int.toNat_of_nonneg hentry⟩
  case maps => exact maps_iff harch h rfl
  case whole =>
    intro header hmem htype
    obtain ⟨placed, hplaced, rfl⟩ := mem_headers_load.mp ⟨hmem, htype⟩
    exact ⟨rfl, (load_slice harch h hplaced).2⟩
  case congruent =>
    intro header hmem htype
    obtain ⟨placed, hplaced, rfl⟩ := mem_headers_load.mp ⟨hmem, htype⟩
    obtain ⟨-, haddr, hoffset⟩ := load_spec hplaced
    exact hoffset.trans haddr.symm
  case ascending =>
    show (b.headers.filter fun h => h.type == 1).Pairwise _
    rw [filter_headers, List.pairwise_map]
    exact b.loads_pairwise
  case interp =>
    intro header hmem htype
    obtain ⟨data, hdata, rfl⟩ := mem_headers_interp.mp ⟨hmem, htype⟩
    obtain ⟨s, hs, -, rfl⟩ := interpBytes_eq_some.mp hdata
    exact ⟨s, hs, interp_slice harch h hdata⟩
  case hasInterp =>
    constructor
    · rintro ⟨header, hmem, htype⟩
      obtain ⟨data, hdata, -⟩ := mem_headers_interp.mp ⟨hmem, htype⟩
      obtain ⟨s, hs, hne, -⟩ := interpBytes_eq_some.mp hdata
      exact ⟨s, hs, hne⟩
    · rintro ⟨s, hs, hne⟩
      have hdata := interpBytes_eq_some.mpr ⟨s, hs, hne, rfl⟩
      exact ⟨_, mem_headers_interp.mpr ⟨_, hdata, rfl⟩⟩

theorem segmentFlags_lt (prot : ℤ) : segmentFlags prot < 8 := by
  unfold segmentFlags
  cases protBit prot 0 <;> cases protBit prot 1 <;> cases protBit prot 2 <;> decide

/-- The headers can be packed where the offsets and the sizes fit. -/
theorem packHeaders_headers (b : ElfBuilder) :
    (∃ phdrs, packHeaders b.headers = .ok phdrs) ↔
      ∀ h ∈ b.headers, h.offset < 2 ^ 32 ∧ h.filesz < 2 ^ 32 := by
  rw [packHeaders_isOk]
  refine forall₂_congr fun h hmem => ?_
  rw [headers_eq, List.mem_cons, List.mem_append, Option.mem_toList, Option.map_eq_some_iff, List.mem_map]
    at hmem
  obtain rfl | ⟨data, -, rfl⟩ | ⟨placed, hplaced, rfl⟩ := hmem
  · decide
  · simp [ProgramHeader.values, interpHeader]
  · have haddr := (load_spec hplaced).1
    have hflags := segmentFlags_lt placed.2.tag
    have hflags' : segmentFlags placed.2.tag < 4294967296 := by omega
    simp [ProgramHeader.values, headerAt] at haddr ⊢
    tauto

/-- A file is built where everything fits. -/
theorem build_isOk (harch : b.arch = py "i386") (hruns : b.collectPages.length < 65534) :
    (∃ file, b.build = .ok file) ↔ b.Fits := by
  have hcount : b.headers.length < 65536 := by
    rw [length_headers]
    split <;> omega
  have hehdr := buildEhdr_isOk harch b.headers.length
  have hphdrs := b.packHeaders_headers
  have hinterp : (∀ s, b.interpreter = some s → PyStr.encodable s = true) ↔
      ∀ s, b.interp = some s → PyStr.encodable s = true := by
    unfold interpreter
    simp only [Option.filter_eq_some_iff, decide_eq_true_eq]
    constructor
    · intro h s hs
      by_cases hne : s = []
      · rw [hne]
        rfl
      · exact h s ⟨hs, hne⟩
    · rintro h s ⟨hs, -⟩
      exact h s hs
  simp only [build_eq_ok, hinterp]
  constructor
  · rintro ⟨file, hencodable, phdrs, ehdr, hphdr, hehdr', -⟩
    obtain ⟨hosabi, htype, -⟩ := hehdr.mp ⟨ehdr, hehdr'⟩
    exact ⟨hencodable, hosabi, htype, hphdrs.mp ⟨phdrs, hphdr⟩⟩
  · rintro ⟨hencodable, hosabi, htype, hfits⟩
    obtain ⟨ehdr, hehdr'⟩ := hehdr.mpr ⟨hosabi, htype, hcount⟩
    obtain ⟨phdrs, hphdr⟩ := hphdrs.mpr hfits
    exact ⟨_, hencodable, phdrs, ehdr, hphdr, hehdr', rfl⟩

/-- **Loading a built file gives back the pages**, and a file is built where its offsets and sizes fit. -/
theorem build_loads (b : ElfBuilder) (harch : b.arch = py "i386") (hruns : b.collectPages.length < 65534) :
    (∀ file, b.build = .ok file → ∃ elf, parseElf32 file = some elf ∧ b.Loads file elf) ∧
      ((∃ file, b.build = .ok file) ↔ b.Fits) :=
  ⟨fun _ h => loads_of_build harch h, build_isOk harch hruns⟩

/-- A program of one page, with an interpreter. -/
def onePage : ElfBuilder where
  classifiedPages := [⟨0x8048000, List.replicate 0x1000 0x90, 5, by decide, by decide, List.length_replicate⟩]
  oep := 0x8048010
  arch := py "i386"
  eType := 2
  interp := some (py "/lib/ld-linux.so.2")
  osabi := 0
  addr_nodup := List.nodup_singleton _

theorem onePage_loads : onePage.loads.map headerAt =
    [⟨1, 0x2000, 0x8048000, 0x8048000, 0x1000, 0x1000, 5, 0x1000⟩] := by
  have hinterp : onePage.interpBytes = some ((py "/lib/ld-linux.so.2").flatMap utf8Char ++ [0]) := by decide
  have hlength : ((py "/lib/ld-linux.so.2").flatMap utf8Char ++ [0]).length = 19 := by decide
  have hstart : onePage.dataStart = 0x1000 := by decide
  have hload : onePage.loadStart = 0x2000 := by
    rw [loadStart, hstart, hinterp, length_interpPadded, hlength]
  have hpage : onePage.collectPages = [⟨0x8048000, List.replicate 0x1000 0x90, 5⟩] := rfl
  rw [loads, hload, hpage]
  show [ProgramHeader.mk 1 0x2000 0x8048000 0x8048000 (List.replicate 0x1000 0x90).length
    (List.replicate 0x1000 0x90).length (segmentFlags 5) 0x1000] = _
  rw [List.length_replicate]
  rfl

theorem onePage_fits : onePage.Fits := by
  have hinterp : onePage.interpBytes = some ((py "/lib/ld-linux.so.2").flatMap utf8Char ++ [0]) := by decide
  have hstart : onePage.dataStart = 0x1000 := by decide
  refine ⟨by decide, by decide, by decide, ?_⟩
  rw [headers_eq, hinterp, hstart, onePage_loads]
  decide

theorem build_loads_onePage : ∃ file elf, onePage.build = .ok file ∧ parseElf32 file = some elf ∧
    onePage.Loads file elf := by
  have hruns : onePage.collectPages.length < 65534 := by decide
  obtain ⟨hloads, hbuild⟩ := build_loads onePage rfl hruns
  obtain ⟨file, hfile⟩ := hbuild.mpr onePage_fits
  obtain ⟨elf, helf, hload⟩ := hloads file hfile
  exact ⟨file, elf, hfile, helf, hload⟩

/-! ### All of memory -/

/-- One of the first pages of memory, with zeros. -/
def firstPage {n : ℕ} (h : n ≤ 2 ^ 20) (i : Fin n) : ElfPage where
  addr := i * 0x1000
  data := List.replicate 0x1000 0
  prot := 7
  addr_lt := by
    have hlt := i.isLt
    omega
  addr_aligned := Nat.mul_mod_left _ _
  data_length := List.length_replicate

/-- The first pages of memory. -/
def firstPages (n : ℕ) (h : n ≤ 2 ^ 20) : List ElfPage := (List.finRange n).map (firstPage h)

/-- The first pages as pieces. -/
def firstPiece (i : ℕ) : Piece ℤ UInt8 := ⟨i * 0x1000, List.replicate 0x1000 0, 7⟩

theorem firstPages_toPiece (n : ℕ) (h : n ≤ 2 ^ 20) :
    (firstPages n h).map ElfPage.toPiece = (List.range n).map firstPiece := by
  rw [← List.map_coe_finRange_eq_range, List.map_map, firstPages, List.map_map]
  rfl

/-- A program that consists of the first pages. -/
def ofFirstPages (n : ℕ) (h : n ≤ 2 ^ 20) : ElfBuilder where
  classifiedPages := firstPages n h
  oep := 0
  arch := py "i386"
  eType := 2
  interp := none
  osabi := 0
  addr_nodup := by
    rw [firstPages, List.map_map]
    refine (List.nodup_finRange n).map fun i j hij => ?_
    have heq : (i : ℕ) * 0x1000 = j * 0x1000 := hij
    omega

theorem ofFirstPages_pages (n : ℕ) (h : n ≤ 2 ^ 20) :
    (ofFirstPages n h).pages.map ElfPage.toPiece = (List.range n).map firstPiece := by
  rw [← firstPages_toPiece n h]
  refine congrArg (List.map _) (List.Pairwise.insertionSort_eq ?_)
  show (firstPages n h).Pairwise _
  rw [firstPages, List.pairwise_map]
  refine (List.pairwise_lt_finRange n).imp fun {i j} hij => ?_
  show (i : ℕ) * 0x1000 ≤ j * 0x1000
  have hlt : (i : ℕ) < j := hij
  omega

/-- Pages that follow each other give one segment. -/
theorem ofFirstPages_segments (n : ℕ) (h : n + 1 ≤ 2 ^ 20) :
    (ofFirstPages (n + 1) h).collectPages.map ElfSegment.toPiece =
      [⟨0, ((List.range (n + 1)).map firstPiece).flatMap Piece.data, 7⟩] := by
  have hchain : ((List.range (n + 1)).map firstPiece).IsChain fun p q => q.addr = p.stop ∧ q.tag = p.tag := by
    rw [List.isChain_map, List.isChain_range_succ]
    intro m hm
    refine ⟨?_, rfl⟩
    show (m + 1) * 0x1000 = m * 0x1000 + (List.replicate 0x1000 (0 : UInt8)).length
    rw [List.length_replicate]
    omega
  rw [collectPages_toPiece, ofFirstPages_pages]
  rw [List.range_succ_eq_map, List.map_cons] at hchain ⊢
  exact runsFrom_of_isChain hchain

theorem length_firstPieces (n : ℕ) : (((List.range n).map firstPiece).flatMap Piece.data).length = n * 0x1000 := by
  induction n with
  | zero => rfl
  | succ n ih =>
    rw [List.range_succ, List.map_append, List.flatMap_append, List.length_append, ih, List.map_singleton,
      List.flatMap_singleton]
    show n * 0x1000 + (List.replicate 0x1000 (0 : UInt8)).length = _
    rw [List.length_replicate]
    omega

/-- The first pages fit where they have fewer than `2 ^ 32` bytes. -/
theorem ofFirstPages_fits (n : ℕ) (h : n + 1 ≤ 2 ^ 20) (hfits : (ofFirstPages (n + 1) h).Fits) :
    n + 1 < 2 ^ 20 := by
  have hmem : headerAt ((ofFirstPages (n + 1) h).loadStart,
      ⟨0, ((List.range (n + 1)).map firstPiece).flatMap Piece.data, 7⟩) ∈ (ofFirstPages (n + 1) h).headers := by
    refine (mem_headers_load.mpr ⟨_, ?_, rfl⟩).1
    rw [loads, ofFirstPages_segments]
    exact List.mem_singleton_self _
  have hsize := (hfits.headers _ hmem).2
  replace hsize : (((List.range (n + 1)).map firstPiece).flatMap Piece.data).length < 2 ^ 32 := hsize
  rw [length_firstPieces] at hsize
  omega

/-- All of memory is a segment that is too long. -/
theorem allPages_not_built : ¬ ∀ b : ElfBuilder, b.arch = py "i386" → b.osabi < 256 → b.eType < 65536 →
    b.collectPages.length < 65534 →
      ∃ file elf, b.build = .ok file ∧ parseElf32 file = some elf ∧ b.Loads file elf := by
  intro hall
  have hsucc : 1048575 + 1 ≤ 2 ^ 20 := by norm_num
  have hlength : (ofFirstPages (1048575 + 1) hsucc).collectPages.length = 1 := by
    rw [← List.length_map ElfSegment.toPiece, ofFirstPages_segments]
    rfl
  have hruns : (ofFirstPages (1048575 + 1) hsucc).collectPages.length < 65534 := by omega
  have hosabi : (ofFirstPages (1048575 + 1) hsucc).osabi < 256 := by
    show 0 < 256
    decide
  have htype : (ofFirstPages (1048575 + 1) hsucc).eType < 65536 := by
    show 2 < 65536
    decide
  obtain ⟨file, -, hfile, -⟩ := hall _ rfl hosabi htype hruns
  have hlt := ofFirstPages_fits _ hsucc ((build_isOk rfl hruns).mp ⟨file, hfile⟩)
  omega

end ElfBuilder

end TaintForge
