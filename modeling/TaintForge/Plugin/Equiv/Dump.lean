import TaintForge.Lib.AddressRuns
import TaintForge.Plugin.Dump
import TaintForge.Plugin.Equiv.Pages

/-!
# The regions and the dump

Both loops of `doDump` go over the same pieces of memory, which are the readable pages of the program and of the
libraries.  The regions are the runs of these pieces, and the file holds those of the program one after another.

* `regions_eq`: the regions are the runs, with their places in the file.
* `unpackedBin_eq`: the file is the contents of the program's pieces.
* `dump_regions`: the regions of the program are found in the file, and those of the libraries are not there.
-/

namespace TaintForge

open Runs

variable {pageBits : Fin 32} (input : DumpInput pageBits)

namespace DumpInput

/-! ### Libraries -/

theorem addrLibPath_isSome (addr : ℕ) :
    (addrLibPath input.libDeps addr).isSome = addrInLib input.libDeps addr := by
  unfold addrLibPath addrInLib
  split
  · rfl
  · rw [List.findIdx?_isSome]

theorem pageIsProgram_eq_false {addr : ℕ} (h : addrInLib input.libDeps addr = true) (page : Page pageBits) :
    input.pageIsProgram addr page = false := by
  unfold pageIsProgram
  rw [if_pos h]

/-! ### The pieces -/

/-- What a piece is tagged with: its protection and its library. -/
abbrev Tag := BitVec 32 × Option ℕ

/-- Whether the file holds the pieces of a tag. -/
def inFile (tag : Tag) : Bool := tag.2.isNone

/-- The piece of a key, where its page is one of the program or of a library and can be read. -/
def piece (addr : ℕ) : Option (Piece Tag UInt8) :=
  (input.pages.lookup addr).bind fun page =>
    if addrInLib input.libDeps addr = true ∨ input.pageIsProgram addr page = true then
      (input.memory.readPage addr).map fun data =>
        ⟨addr, data, (page.prot, addrLibPath input.libDeps addr)⟩
    else none

/-- The pieces in the order of their addresses. -/
def pieces : List (Piece Tag UInt8) := input.keys.filterMap input.piece

theorem length_of_readPage {addr : ℕ} {data : List UInt8} (h : input.memory.readPage addr = some data) :
    data.length = pageSize pageBits := by
  rw [input.memory.readPage_eq addr data h, List.length_map, List.length_range]

/-- A region that is open, as the piece and the place that it stands for. -/
def openedAt (placed : ℕ × Piece Tag UInt8) : OpenRegion :=
  ⟨placed.2.addr, placed.2.data.length, placed.2.tag.1, placed.2.tag.2, placed.2.tag.2.isSome, placed.1⟩

/-- What a round does is to add the piece of its key, if there is one. -/
theorem regionStep_eq (s : RegionLoop) (addr : ℕ) :
    input.regionStep s addr = match input.piece addr with
      | none => s
      | some p => input.addToRegions s p.addr p.data.length p.tag.1 p.tag.2 := by
  unfold regionStep piece
  cases input.pages.lookup addr with
  | none => rfl
  | some page =>
    dsimp only [Option.bind_some]
    by_cases h : addrInLib input.libDeps addr = true ∨ input.pageIsProgram addr page = true
    · rw [if_neg, if_pos h]
      · cases hread : input.memory.readPage addr with
        | none => rfl
        | some data =>
          have hlength := input.length_of_readPage hread
          have hpos := pageSize_pos pageBits
          rw [Option.getD_some, if_neg (by omega)]
          rfl
      · rw [← Bool.not_eq_true, ← Bool.not_eq_true]
        exact fun hnone => h.elim hnone.1 hnone.2
    · rw [if_pos, if_neg h]
      rw [← Bool.not_eq_true, ← Bool.not_eq_true]
      exact not_or.mp h

/-! ### The loop over the pieces -/

/-- A round for a piece. -/
def addPiece (s : RegionLoop) (p : Piece Tag UInt8) : RegionLoop :=
  input.addToRegions s p.addr p.data.length p.tag.1 p.tag.2

theorem regionLoop_eq : input.regionLoop = input.pieces.foldl input.addPiece ⟨[], none, 0, none⟩ := by
  unfold regionLoop pieces
  rw [List.foldl_filterMap]
  congr 1
  ext s addr
  rw [regionStep_eq]
  cases input.piece addr <;> rfl

/-- The regions that are printed when the loop ends in a state. -/
def printed (s : RegionLoop) : List Region := s.regions ++ (s.current.map input.closeRegion).toList

/-- The region of a piece at a place in the file. -/
def regionAt (placed : ℕ × Piece Tag UInt8) : Region := input.closeRegion (openedAt placed)

/-- While a piece is open at an offset, `main_off` is behind what the file holds of it. -/
structure Open (s : RegionLoop) (offset : ℕ) (p : Piece Tag UInt8) : Prop where
  current : s.current = some (openedAt (offset, p))
  mainOff : s.mainOff = if inFile p.tag = true then offset + p.data.length else offset

theorem addPiece_merge {s : RegionLoop} {offset : ℕ} {p q : Piece Tag UInt8} (h : Open s offset p)
    (hnext : q.addr = p.stop ∧ q.tag = p.tag) :
    Open (input.addPiece s q) offset (p.append q) ∧ (input.addPiece s q).regions = s.regions := by
  obtain ⟨haddr, htag⟩ := hnext
  have hcond : q.addr = (openedAt (offset, p)).start + (openedAt (offset, p)).size ∧
      q.tag.1 = (openedAt (offset, p)).prot ∧ q.tag.2 = (openedAt (offset, p)).mod :=
    ⟨haddr, congrArg Prod.fst htag, congrArg Prod.snd htag⟩
  have hstep : input.addPiece s q =
      { s with
        current := some { openedAt (offset, p) with size := p.data.length + q.data.length }
        mainOff := if q.tag.2.isSome = true then s.mainOff else s.mainOff + q.data.length } := by
    unfold addPiece addToRegions
    rw [h.current]
    exact if_pos hcond
  rw [hstep]
  refine ⟨⟨?_, ?_⟩, rfl⟩
  · show some _ = some _
    unfold openedAt Piece.append
    rw [List.length_append]
  · show (if q.tag.2.isSome = true then _ else _) = if p.tag.2.isNone = true then _ else _
    rw [h.mainOff, htag]
    unfold inFile Piece.append
    rw [List.length_append, ← Nat.add_assoc]
    cases p.tag.2 <;> rfl

theorem addPiece_close {s : RegionLoop} {offset : ℕ} {p q : Piece Tag UInt8} (h : Open s offset p)
    (hnext : ¬ (q.addr = p.stop ∧ q.tag = p.tag)) :
    Open (input.addPiece s q) s.mainOff q ∧
      (input.addPiece s q).regions = s.regions ++ [input.regionAt (offset, p)] := by
  have hcond : ¬ (q.addr = (openedAt (offset, p)).start + (openedAt (offset, p)).size ∧
      q.tag.1 = (openedAt (offset, p)).prot ∧ q.tag.2 = (openedAt (offset, p)).mod) :=
    fun hboth => hnext ⟨hboth.1, Prod.ext hboth.2.1 hboth.2.2⟩
  have hstep : input.addPiece s q =
      { regions := s.regions ++ [input.closeRegion (openedAt (offset, p))]
        current := some (openedAt (s.mainOff, q))
        mainOff := if q.tag.2.isSome = true then s.mainOff else s.mainOff + q.data.length
        savedBase := if !q.tag.2.isSome && s.savedBase.isNone then some q.addr else s.savedBase } := by
    unfold addPiece addToRegions
    rw [h.current]
    exact if_neg hcond
  rw [hstep]
  refine ⟨⟨rfl, ?_⟩, rfl⟩
  show (if q.tag.2.isSome = true then _ else _) = if q.tag.2.isNone = true then _ else _
  cases q.tag.2 <;> rfl

/-- From an open piece on, what is printed are the runs in their places. -/
theorem printed_foldl (pieces : List (Piece Tag UInt8)) {s : RegionLoop} {offset : ℕ} {p : Piece Tag UInt8}
    (h : Open s offset p) :
    input.printed (pieces.foldl input.addPiece s) =
      s.regions ++ (place inFile offset (runsFrom p pieces)).map input.regionAt := by
  induction pieces generalizing s offset p with
  | nil =>
    unfold printed
    rw [List.foldl_nil, h.current]
    rfl
  | cons q pieces ih =>
    rw [List.foldl_cons]
    unfold runsFrom
    split
    · rename_i hnext
      obtain ⟨hopen, hregions⟩ := input.addPiece_merge h hnext
      rw [ih hopen, hregions]
    · rename_i hnext
      obtain ⟨hopen, hregions⟩ := input.addPiece_close h hnext
      rw [ih hopen, hregions, List.append_assoc, h.mainOff]
      rfl

/-- **The regions are the runs of the pieces**, each with its place in the file. -/
theorem regions_eq : input.regions = (place inFile 0 (runs input.pieces)).map input.regionAt := by
  show input.printed input.regionLoop = _
  rw [regionLoop_eq]
  cases hpieces : input.pieces with
  | nil => rfl
  | cons p pieces =>
    have hopen : Open (input.addPiece ⟨[], none, 0, none⟩ p) 0 p := by
      refine ⟨rfl, ?_⟩
      show (if p.tag.2.isSome = true then _ else _) = if p.tag.2.isNone = true then _ else _
      cases p.tag.2 <;> rfl
    rw [List.foldl_cons, input.printed_foldl pieces hopen]
    rfl

/-! ### The file -/

theorem inFile_eq (prot : BitVec 32) (addr : ℕ) :
    inFile (prot, addrLibPath input.libDeps addr) = !addrInLib input.libDeps addr := by
  rw [← addrLibPath_isSome]
  exact (Option.not_isSome _).symm

theorem dumpPage_eq (addr : ℕ) :
    input.dumpPage addr =
      ((input.piece addr).toList.filter fun p => inFile p.tag).flatMap Piece.data := by
  unfold dumpPage piece
  cases input.pages.lookup addr with
  | none => rfl
  | some page =>
    have hfile := input.inFile_eq page.prot addr
    dsimp only [Option.bind_some]
    by_cases hlib : addrInLib input.libDeps addr = true
    · -- A page of a library is a piece, but not one that the file holds.
      rw [hlib, Bool.not_true] at hfile
      rw [input.pageIsProgram_eq_false hlib, if_neg Bool.false_ne_true, if_pos (Or.inl hlib)]
      cases input.memory.readPage addr with
      | none => rfl
      | some data =>
        rw [Option.map_some, Option.toList_some, List.filter_cons_of_neg (by rw [hfile]; decide)]
        rfl
    · rw [Bool.not_eq_true] at hlib
      rw [hlib, Bool.not_false] at hfile
      simp only [hlib, Bool.false_eq_true, false_or]
      split
      · cases input.memory.readPage addr with
        | none => rfl
        | some data =>
          rw [Option.map_some, Option.toList_some, List.filter_cons_of_pos (by exact hfile)]
          exact (List.append_nil data).symm
      · rfl

/-- **The file is the contents of the program's pieces.** -/
theorem unpackedBin_eq : input.unpackedBin = (input.pieces.filter fun p => inFile p.tag).flatMap Piece.data := by
  unfold unpackedBin pieces
  induction input.keys with
  | nil => rfl
  | cons addr keys ih =>
    rw [List.flatMap_cons, ih, dumpPage_eq, List.filterMap_cons]
    cases input.piece addr with
    | none => rfl
    | some p =>
      rw [Option.toList_some, ← List.flatMap_append, ← List.filter_append]
      rfl

/-! ### Regions and pages -/

/-- The keys are addresses of pages. -/
def Aligned : Prop := ∀ key ∈ input.pages.keys, pageAddress pageBits key = key

variable {input}

theorem mem_keys {key : ℕ} : key ∈ input.keys ↔ key ∈ input.pages := by
  unfold keys
  rw [(List.perm_insertionSort _ _).mem_iff]
  exact AList.mem_keys.symm

theorem keys_pairwise (h : input.Aligned) :
    input.keys.Pairwise fun a b => a + pageSize pageBits ≤ b := by
  have hsorted : input.keys.Pairwise (· ≤ ·) := List.pairwise_insertionSort _ _
  have hnodup : input.keys.Nodup := (List.perm_insertionSort _ _).nodup_iff.mpr input.pages.keys_nodup
  refine (hsorted.and hnodup).imp_of_mem fun {a b} ha hb hab => ?_
  have hpage := h a (AList.mem_keys.mp (mem_keys.mp ha))
  have hpage' := h b (AList.mem_keys.mp (mem_keys.mp hb))
  unfold pageAddress at hpage hpage'
  have hlt : a / pageSize pageBits < b / pageSize pageBits := by
    by_contra hge
    have hmul := Nat.mul_le_mul_right (pageSize pageBits) (Nat.not_lt.mp hge)
    rw [hpage, hpage'] at hmul
    exact hab.2 (le_antisymm hab.1 hmul)
  have hmul := Nat.mul_le_mul_right (pageSize pageBits) (Nat.succ_le_of_lt hlt)
  rw [Nat.succ_mul, hpage, hpage'] at hmul
  exact hmul

theorem piece_eq_some {addr : ℕ} {p : Piece Tag UInt8} :
    input.piece addr = some p ↔ ∃ page data, input.pages.lookup addr = some page ∧
      (addrInLib input.libDeps addr = true ∨ input.pageIsProgram addr page = true) ∧
      input.memory.readPage addr = some data ∧ p = ⟨addr, data, (page.prot, addrLibPath input.libDeps addr)⟩ := by
  unfold piece
  constructor
  · intro h
    obtain ⟨page, hpage, h⟩ := Option.bind_eq_some_iff.mp h
    split at h
    · rename_i hkind
      obtain ⟨data, hdata, rfl⟩ := Option.map_eq_some_iff.mp h
      exact ⟨page, data, hpage, hkind, hdata, rfl⟩
    · cases h
  · rintro ⟨page, data, hpage, hkind, hdata, rfl⟩
    rw [hpage, Option.bind_some, if_pos hkind, hdata, Option.map_some]

theorem pieces_pairwise (h : input.Aligned) : input.pieces.Pairwise Before := by
  unfold pieces
  rw [List.pairwise_filterMap]
  refine (keys_pairwise h).imp fun {a b} hab p hp q hq => ?_
  obtain ⟨-, data, -, -, hdata, rfl⟩ := piece_eq_some.mp hp
  obtain ⟨-, -, -, -, -, rfl⟩ := piece_eq_some.mp hq
  show a + data.length ≤ b
  rw [input.length_of_readPage hdata]
  exact hab

theorem mem_pieces {p : Piece Tag UInt8} : p ∈ input.pieces ↔ ∃ addr, input.piece addr = some p := by
  unfold pieces
  rw [List.mem_filterMap]
  constructor
  · rintro ⟨addr, -, hp⟩
    exact ⟨addr, hp⟩
  · rintro ⟨addr, hp⟩
    obtain ⟨page, -, hpage, -⟩ := piece_eq_some.mp hp
    refine ⟨addr, mem_keys.mpr ?_, hp⟩
    rw [← AList.lookup_isSome, hpage]
    rfl

/-- What a piece has at an address is what the guest has there. -/
theorem byte_of_piece {p : Piece Tag UInt8} (hp : p ∈ input.pieces) {a : ℕ} {x : UInt8}
    (hx : p.cell a = some x) : x = input.memory.byte a := by
  obtain ⟨addr, hpiece⟩ := mem_pieces.mp hp
  obtain ⟨page, data, -, -, hdata, rfl⟩ := piece_eq_some.mp hpiece
  obtain ⟨hle, hx⟩ := Piece.cell_eq_some.mp hx
  dsimp only at hle hx
  rw [input.memory.readPage_eq addr data hdata, List.getElem?_map] at hx
  obtain ⟨i, hi, rfl⟩ := Option.map_eq_some_iff.mp hx
  obtain ⟨hlt, hi⟩ := List.getElem?_eq_some_iff.mp hi
  rw [List.getElem_range] at hi
  rw [← hi, Nat.add_sub_cancel' hle]

variable (input) in
/-- The bytes of the guest from an address. -/
def guestBytes (addr size : ℕ) : List UInt8 := (List.range size).map fun i => input.memory.byte (addr + i)

/-- A run has the bytes of the guest. -/
theorem data_of_run {r : Piece Tag UInt8} (hr : r ∈ runs input.pieces) :
    r.data = input.guestBytes r.addr r.data.length := by
  unfold guestBytes
  refine List.ext_getElem (by rw [List.length_map, List.length_range]) fun i hi hi' => ?_
  rw [List.getElem_map, List.getElem_range]
  have hcell : r.cell (r.addr + i) = some r.data[i] := by
    rw [Piece.cell_eq_some, Nat.add_sub_cancel_left]
    exact ⟨Nat.le_add_right _ _, List.getElem?_eq_getElem hi⟩
  obtain ⟨p, hp, -, hx⟩ := (runs_cell input.pieces r.tag _ _).mp ⟨r, hr, rfl, hcell⟩
  exact byte_of_piece hp hx

/-! ### The report -/

variable (input) in
/-- The page of an address is tracked with a protection and can be read, and it is one of the program or of a
library. -/
def DumpsPage (lib : Bool) (prot : BitVec 32) (a : ℕ) : Prop :=
  ∃ page, input.pages.lookup (pageAddress pageBits a) = some page ∧ page.prot = prot ∧
    addrInLib input.libDeps (pageAddress pageBits a) = lib ∧
    (lib = true ∨ input.pageIsProgram (pageAddress pageBits a) page = true) ∧
    (input.memory.readPage (pageAddress pageBits a)).isSome = true

/-- The addresses of a page. -/
theorem pageAddress_eq_iff {key : ℕ} (halign : pageAddress pageBits key = key) (a : ℕ) :
    key ≤ a ∧ a < key + pageSize pageBits ↔ pageAddress pageBits a = key := by
  have hmod : key % pageSize pageBits = 0 := by
    rw [← halign]
    exact Nat.mul_mod_left _ _
  have hlt := Nat.mod_lt a (pageSize_pos pageBits)
  have hchunk : pageSize pageBits ≤ pageSize pageBits - key % pageSize pageBits := by omega
  rw [mem_chunk_iff hchunk, halign]
  omega

/-- An address is in a piece where its page is one of the report. -/
theorem exists_piece_iff (h : input.Aligned) (lib : Bool) (prot : BitVec 32) (a : ℕ) :
    (∃ p ∈ input.pieces, (p.tag.2.isSome = lib ∧ p.tag.1 = prot) ∧ (p.cell a).isSome = true) ↔
      input.DumpsPage lib prot a := by
  have hkey : ∀ key page, input.pages.lookup key = some page → pageAddress pageBits key = key := by
    intro key page hpage
    refine h key (AList.mem_keys.mp (AList.lookup_isSome.mp ?_))
    rw [hpage]
    rfl
  constructor
  · rintro ⟨p, hp, ⟨rfl, rfl⟩, hcell⟩
    obtain ⟨addr, hpiece⟩ := mem_pieces.mp hp
    obtain ⟨page, data, hpage, hkind, hdata, rfl⟩ := piece_eq_some.mp hpiece
    have hrange := Piece.cell_isSome.mp hcell
    unfold Piece.stop at hrange
    rw [input.length_of_readPage hdata] at hrange
    obtain rfl : pageAddress pageBits a = addr := (pageAddress_eq_iff (hkey addr page hpage) a).mp hrange
    have hlib := input.addrLibPath_isSome (pageAddress pageBits a)
    refine ⟨page, hpage, rfl, hlib.symm, ?_, by rw [hdata]; rfl⟩
    rw [← hlib] at hkind
    exact hkind
  · rintro ⟨page, hpage, rfl, rfl, hkind, hread⟩
    obtain ⟨data, hdata⟩ := Option.isSome_iff_exists.mp hread
    refine ⟨_, mem_pieces.mpr ⟨_, piece_eq_some.mpr ⟨page, data, hpage, hkind, hdata, rfl⟩⟩,
      ⟨input.addrLibPath_isSome _, rfl⟩, ?_⟩
    rw [Piece.cell_isSome, Piece.stop, input.length_of_readPage hdata]
    exact (pageAddress_eq_iff (hkey _ page hpage) a).mpr rfl

theorem regions_pairwise (h : input.Aligned) :
    input.regions.Pairwise fun r q => r.addr + r.size ≤ q.addr := by
  have hruns := runs_pairwise (pieces_pairwise h)
  rw [← place_map_snd inFile 0 (runs input.pieces), List.pairwise_map] at hruns
  rw [regions_eq, List.pairwise_map]
  exact hruns

theorem exists_region_iff (h : input.Aligned) (lib : Bool) (prot : BitVec 32) (a : ℕ) :
    (∃ r ∈ input.regions, r.lib = lib ∧ r.prot = prot ∧ r.addr ≤ a ∧ a < r.addr + r.size) ↔
      input.DumpsPage lib prot a := by
  rw [← exists_piece_iff h, ← exists_mem_runs (fun tag => tag.2.isSome = lib ∧ tag.1 = prot) input.pieces a,
    ← exists_mem_place inFile _ 0, regions_eq]
  simp only [List.mem_map, exists_exists_and_eq_and, Piece.cell_isSome, and_assoc]
  rfl

theorem region_slice {r : Region} (hr : r ∈ input.regions) (hlib : r.lib = false) :
    (input.unpackedBin.drop r.offset).take r.size = input.guestBytes r.addr r.size := by
  rw [regions_eq] at hr
  obtain ⟨placed, hplaced, rfl⟩ := List.mem_map.mp hr
  have hrun : placed.2 ∈ runs input.pieces := by
    rw [← place_map_snd inFile 0 (runs input.pieces)]
    exact List.mem_map_of_mem hplaced
  have hfile : inFile placed.2.tag = true := by
    have hnone : placed.2.tag.2.isSome = false := hlib
    rw [inFile, ← Option.not_isSome, hnone]
    rfl
  have hslice := place_slice [] [] (runs input.pieces) placed hplaced hfile
  rw [List.nil_append, List.append_nil, runs_flatMap, ← unpackedBin_eq] at hslice
  exact hslice.trans (data_of_run hrun)

theorem unpackedBin_eq_regions :
    input.unpackedBin =
      (input.regions.filter fun r => !r.lib).flatMap fun r => input.guestBytes r.addr r.size := by
  rw [unpackedBin_eq, ← runs_flatMap, regions_eq, List.filter_map, List.flatMap_map]
  conv_lhs => rw [← place_map_snd inFile 0 (runs input.pieces), List.filter_map, List.flatMap_map]
  have hsame : ((fun r : Region => !r.lib) ∘ input.regionAt) =
      ((fun p : Piece Tag UInt8 => inFile p.tag) ∘ Prod.snd : ℕ × Piece Tag UInt8 → Bool) := by
    funext placed
    exact Option.not_isSome _
  rw [hsame]
  refine List.flatMap_congr fun placed hplaced => ?_
  refine data_of_run ?_
  rw [← place_map_snd inFile 0 (runs input.pieces)]
  exact List.mem_map_of_mem (List.mem_of_mem_filter hplaced)

/-- **The regions and the file agree.**  The regions are one after another.  Those that are not of a library
cover the pages that are dumped, with their protections, and each has the bytes of the guest at its offset in the
file, which holds nothing else; those of a library cover its readable pages. -/
theorem dump_regions (input : DumpInput pageBits) (haligned : input.Aligned) :
    input.regions.Pairwise (fun r q => r.addr + r.size ≤ q.addr) ∧
    (∀ lib prot a, (∃ r ∈ input.regions, r.lib = lib ∧ r.prot = prot ∧ r.addr ≤ a ∧ a < r.addr + r.size) ↔
      input.DumpsPage lib prot a) ∧
    (∀ r ∈ input.regions, r.lib = false →
      (input.unpackedBin.drop r.offset).take r.size = input.guestBytes r.addr r.size) ∧
    input.unpackedBin =
      (input.regions.filter fun r => !r.lib).flatMap fun r => input.guestBytes r.addr r.size :=
  ⟨regions_pairwise haligned, exists_region_iff haligned, fun _ => region_slice, unpackedBin_eq_regions⟩

/-- The table of a run is one that can be dumped. -/
theorem aligned_of_run {events : List GuestEvent}
    (h : input.pages = (PageTracker.run events : PageTracker pageBits).pages) : input.Aligned := by
  intro key hkey
  apply run_aligned events key
  unfold PageTracker.view
  rw [Option.isSome_map, ← h]
  exact AList.lookup_isSome.mpr (AList.mem_keys.mpr hkey)

/-! ### A library -/

/-- A memory that can be read everywhere. -/
def zeroMemory : GuestMemory smallPages where
  byte := fun _ => 0
  readPage := fun _ => some ((List.range (pageSize smallPages)).map fun _ => 0)
  readPage_eq := fun _ _ h => (Option.some.inj h).symm

/-- A table with one page, which is a page of a library. -/
def libraryInput : DumpInput smallPages where
  pages := AList.singleton 0x40000000 (Page.new 5)
  libDeps := [⟨[47, 108], 0x40000000, 0x40001000, 0⟩]
  mainWindow := none
  memory := zeroMemory

theorem libraryInput_aligned : libraryInput.Aligned := by
  intro key hkey
  rw [libraryInput, AList.keys_singleton, List.mem_singleton] at hkey
  rw [hkey]
  decide

theorem dump_regions_library :
    libraryInput.regions.Pairwise (fun r q => r.addr + r.size ≤ q.addr) ∧
    (∀ lib prot a,
      (∃ r ∈ libraryInput.regions, r.lib = lib ∧ r.prot = prot ∧ r.addr ≤ a ∧ a < r.addr + r.size) ↔
        libraryInput.DumpsPage lib prot a) ∧
    (∀ r ∈ libraryInput.regions, r.lib = false →
      (libraryInput.unpackedBin.drop r.offset).take r.size = libraryInput.guestBytes r.addr r.size) ∧
    libraryInput.unpackedBin =
      (libraryInput.regions.filter fun r => !r.lib).flatMap fun r => libraryInput.guestBytes r.addr r.size :=
  dump_regions libraryInput libraryInput_aligned

/-- The report has a region for the page, and the file has no bytes for it. -/
theorem library_region_not_in_file :
    ¬ ∀ r ∈ libraryInput.regions,
      (libraryInput.unpackedBin.drop r.offset).take r.size = libraryInput.guestBytes r.addr r.size := by
  intro h
  have hdumps : libraryInput.DumpsPage true 5 0x40000000 := by
    refine ⟨Page.new 5, ?_, rfl, by decide, Or.inl rfl, rfl⟩
    rw [show pageAddress smallPages 0x40000000 = 0x40000000 by decide]
    rfl
  obtain ⟨r, hr, -, -, hlow, hhigh⟩ := (exists_region_iff libraryInput_aligned true 5 0x40000000).mpr hdumps
  have hempty : libraryInput.unpackedBin = [] := by decide
  have hslice := h r hr
  rw [hempty, List.drop_nil, List.take_nil] at hslice
  have hlength := congrArg List.length hslice
  rw [guestBytes, List.length_map, List.length_range, List.length_nil] at hlength
  omega

end DumpInput

end TaintForge
