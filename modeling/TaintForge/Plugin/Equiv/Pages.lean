import TaintForge.Plugin.Pages
import Mathlib.Data.Set.Basic
import Mathlib.Tactic.Ring

/-!
# The page table and the guest

`GuestSpace` is the address space of the guest: what the last call that covered a page made of it, and which
bytes were written since the page was last mapped.  `Tracks` says that the table of the plugin agrees with it.

* `applyPendingMmap_view`, `applyPendingMprotect_view`, `applyPendingMunmap_view`, `markWritten_spec`: what each
  operation does to the table.
* `CleanRemap`: the steps on which the table stays in agreement.  It leaves out an `mmap` over a page that still
  has written bytes in the table, and one without write and execute rights over a page that is tracked with
  other rights.
* `pageTracker_tracks`: a run of the guest stays in agreement exactly where all its steps are such.
-/

namespace TaintForge

variable {pageBits : Fin 32}

/-! ### Ranges of pages -/

theorem pageSize_pos (pageBits : Fin 32) : 0 < pageSize pageBits := Nat.two_pow_pos _

theorem pageSize_le (pageBits : Fin 32) : pageSize pageBits ≤ 2 ^ 31 :=
  Nat.pow_le_pow_right (by decide) (by have := pageBits.isLt; omega)

/-- An address is on a page that has a byte of a range. -/
def CoversPage (pageBits : Fin 32) (start size addr : ℕ) : Prop :=
  ∃ byte, start ≤ byte ∧ byte < start + size ∧ pageAddress pageBits byte = pageAddress pageBits addr

theorem pageAddress_inj {a b : ℕ} :
    pageAddress pageBits a = pageAddress pageBits b ↔ a / pageSize pageBits = b / pageSize pageBits :=
  Nat.mul_left_inj (pageSize_pos pageBits).ne'

theorem not_coversPage_zero {start addr : ℕ} : ¬ CoversPage pageBits start 0 addr := by
  rintro ⟨byte, hlow, hhigh, -⟩
  omega

/-- The pages of a range are those between its first and its last. -/
theorem coversPage_iff {start size addr : ℕ} (hsize : size ≠ 0) :
    CoversPage pageBits start size addr ↔
      start / pageSize pageBits ≤ addr / pageSize pageBits ∧
        addr / pageSize pageBits ≤ (start + size - 1) / pageSize pageBits := by
  have hpos := pageSize_pos pageBits
  constructor
  · rintro ⟨byte, hlow, hhigh, hpage⟩
    rw [pageAddress_inj] at hpage
    rw [← hpage]
    exact ⟨Nat.div_le_div_right hlow, Nat.div_le_div_right (by omega)⟩
  · rintro ⟨hlow, hhigh⟩
    have hlast := (Nat.le_div_iff_mul_le hpos).mp hhigh
    refine ⟨max start (addr / pageSize pageBits * pageSize pageBits), le_max_left _ _, by omega, ?_⟩
    rw [pageAddress_inj]
    -- The byte is the first one of the range on the page.
    rcases le_total start (addr / pageSize pageBits * pageSize pageBits) with hle | hle
    · rw [max_eq_right hle, Nat.mul_div_cancel _ hpos]
    · rw [max_eq_left hle]
      exact le_antisymm hlow ((Nat.le_div_iff_mul_le hpos).mpr hle)

instance (start size addr : ℕ) : Decidable (CoversPage pageBits start size addr) :=
  if h : size = 0 then isFalse (by rw [h]; exact not_coversPage_zero)
  else decidable_of_iff _ (coversPage_iff h).symm

theorem pageAddresses_nodup (start last : ℕ) : (pageAddresses pageBits start last).Nodup := by
  refine List.Nodup.map ?_ List.nodup_range
  intro i j h
  have hmul : i * pageSize pageBits = j * pageSize pageBits := by
    dsimp only at h
    omega
  exact Nat.eq_of_mul_eq_mul_right (pageSize_pos pageBits) hmul

/-- The loops go through the pages of a range. -/
theorem mem_pageAddresses {start size addr : ℕ} (hsize : size ≠ 0) :
    pageAddress pageBits addr ∈
        pageAddresses pageBits (pageAddress pageBits start) (pageAddress pageBits (start + size - 1)) ↔
      CoversPage pageBits start size addr := by
  have hpos := pageSize_pos pageBits
  rw [coversPage_iff hsize]
  unfold pageAddresses pageAddress
  rw [← Nat.sub_mul, Nat.mul_div_cancel _ hpos, List.mem_map]
  have hrange : start / pageSize pageBits ≤ (start + size - 1) / pageSize pageBits :=
    Nat.div_le_div_right (by omega)
  constructor
  · rintro ⟨i, hi, h⟩
    rw [← Nat.add_mul] at h
    have hpage := Nat.eq_of_mul_eq_mul_right hpos h
    have hlt := List.mem_range.mp hi
    omega
  · rintro ⟨hlow, hhigh⟩
    refine ⟨addr / pageSize pageBits - start / pageSize pageBits, List.mem_range.mpr (by omega), ?_⟩
    rw [← Nat.add_mul, Nat.add_sub_cancel' hlow]

/-- The rounding of `applyPendingMprotect` ends behind the last page. -/
theorem pageAddress_end {start size : ℕ} (hsize : size ≠ 0) :
    pageAddress pageBits (start + size + pageSize pageBits - 1) - pageSize pageBits =
      pageAddress pageBits (start + size - 1) := by
  have hpos := pageSize_pos pageBits
  have hshift : start + size + pageSize pageBits - 1 = start + size - 1 + pageSize pageBits := by omega
  unfold pageAddress
  rw [hshift, Nat.add_div_right _ hpos, Nat.succ_mul, Nat.add_sub_cancel]

/-! ### The system calls -/

/-- What the agreement is about: the protection of a page and its bitmap. -/
def PageTracker.view (s : PageTracker pageBits) (key : ℕ) :
    Option (BitVec 32 × Option (BitVec (pageSize pageBits))) :=
  (s.pages.lookup key).map fun page => (page.prot, page.wbitmap)

/-- A loop over keys that changes the entry of each. -/
theorem foldl_view {σ γ : Type*} (view : σ → ℕ → γ) (f : σ → ℕ → σ) (update : γ → γ)
    (hstep : ∀ s key other, view (f s key) other = if other = key then update (view s other) else view s other)
    {keys : List ℕ} (hnodup : keys.Nodup) (s : σ) (other : ℕ) :
    view (keys.foldl f s) other = if other ∈ keys then update (view s other) else view s other := by
  induction keys generalizing s with
  | nil => rfl
  | cons key keys ih =>
    obtain ⟨hkey, hnodup⟩ := List.nodup_cons.mp hnodup
    rw [List.foldl_cons, ih hnodup, hstep]
    by_cases h : other = key
    · rw [if_pos h, if_neg (h ▸ hkey), if_pos (List.mem_cons.mpr (Or.inl h))]
    · rw [if_neg h]
      simp only [List.mem_cons, h, false_or]

theorem view_insert (s : PageTracker pageBits) (key other : ℕ) (page : Page pageBits) :
    ((s.pages.insert key page).lookup other).map (fun page => (page.prot, page.wbitmap)) =
      if other = key then some (page.prot, page.wbitmap) else s.view other := by
  split
  · rename_i h
    rw [h, AList.lookup_insert]
    rfl
  · rename_i h
    rw [AList.lookup_insert_ne h]
    rfl

theorem nextCodeGeneration_pages (s : PageTracker pageBits) : (nextCodeGeneration s).2.pages = s.pages := by
  unfold nextCodeGeneration
  split <;> rfl

theorem nextCodeGeneration_view (s : PageTracker pageBits) : (nextCodeGeneration s).2.view = s.view := by
  unfold PageTracker.view
  rw [nextCodeGeneration_pages]

theorem chooseGeneration_pages (remapGeneration : BitVec 32) (s : PageTracker pageBits) :
    (chooseGeneration remapGeneration s).2.pages = s.pages := by
  unfold chooseGeneration
  split
  · exact nextCodeGeneration_pages s
  · rfl

/-- The flags and the generation of a page are not looked at. -/
theorem remapPage_view (prot : BitVec 32) (key other : ℕ) (page : Page pageBits) (generation : BitVec 32)
    (s : PageTracker pageBits) :
    (remapPage prot key page generation s).1.view other =
      if other = key then some (page.prot, page.wbitmap) else s.view other := by
  unfold remapPage
  split
  · unfold PageTracker.view
    show (((chooseGeneration generation s).2.pages.insert key _).lookup other).map _ = _
    rw [chooseGeneration_pages]
    exact view_insert s key other { page with dynExec := true, genWritten := (chooseGeneration generation s).1 }
  · exact view_insert s key other page

theorem protectedPage_view (s : PageTracker pageBits) (prot : BitVec 32) (key : ℕ) :
    ((protectedPage s prot key).prot, (protectedPage s prot key).wbitmap) =
      (prot, (s.view key).bind Prod.snd) := by
  unfold protectedPage PageTracker.view
  cases s.pages.lookup key <;> rfl

/-- A page gets a protection and keeps its bitmap. -/
def reprotect {w : ℕ} (prot : BitVec 32) (page : Option (BitVec 32 × Option (BitVec w))) :
    Option (BitVec 32 × Option (BitVec w)) :=
  some (prot, page.bind Prod.snd)

theorem mmapPage_view (prot : BitVec 32) (s : PageTracker pageBits × BitVec 32) (key other : ℕ) :
    (mmapPage prot s key).1.view other =
      if other = key then reprotect prot (s.1.view other) else s.1.view other := by
  unfold mmapPage
  rw [remapPage_view, protectedPage_view]
  split
  · rename_i h
    rw [h]
    rfl
  · rfl

theorem mprotectPage_view (prot : BitVec 32) (s : PageTracker pageBits × BitVec 32) (key other : ℕ) :
    (mprotectPage prot s key).1.view other =
      if other = key then reprotect prot (s.1.view other) else s.1.view other := by
  have hpage := protectedPage_view s.1 prot key
  unfold mprotectPage
  dsimp only
  split
  all_goals
    rw [remapPage_view]
    split
    · rename_i h
      rw [h]
      exact congrArg some hpage
    · rfl

theorem munmapPage_view (s : PageTracker pageBits) (key other : ℕ) :
    (munmapPage s key).view other = if other = key then none else s.view other := by
  unfold munmapPage PageTracker.view
  split
  · rename_i h
    rw [h, AList.lookup_erase]
    rfl
  · rename_i h
    rw [AList.lookup_erase_ne h]

theorem mmapPages_view (prot : BitVec 32) {keys : List ℕ} (hnodup : keys.Nodup) (s : PageTracker pageBits)
    (other : ℕ) :
    ((keys.foldl (mmapPage prot) (s, 0)).1).view other =
      if other ∈ keys then reprotect prot (s.view other) else s.view other :=
  foldl_view (fun s : PageTracker pageBits × BitVec 32 => s.1.view) (mmapPage prot) (reprotect prot)
    (mmapPage_view prot) hnodup (s, 0) other

theorem mprotectPages_view (prot : BitVec 32) {keys : List ℕ} (hnodup : keys.Nodup) (s : PageTracker pageBits)
    (other : ℕ) :
    ((keys.foldl (mprotectPage prot) (s, 0)).1).view other =
      if other ∈ keys then reprotect prot (s.view other) else s.view other :=
  foldl_view (fun s : PageTracker pageBits × BitVec 32 => s.1.view) (mprotectPage prot) (reprotect prot)
    (mprotectPage_view prot) hnodup (s, 0) other

theorem munmapPages_view {keys : List ℕ} (hnodup : keys.Nodup) (s : PageTracker pageBits) (other : ℕ) :
    (keys.foldl munmapPage s).view other = if other ∈ keys then none else s.view other :=
  foldl_view PageTracker.view munmapPage (fun _ => none) munmapPage_view hnodup s other

variable (s : PageTracker pageBits) (pending : PendingMmap)

/-- An `mmap` with write or execute rights sets the protection of the pages that it covers. -/
theorem applyPendingMmap_view (mappedAddr : BitVec 32) (addr : ℕ) :
    (applyPendingMmap s pending mappedAddr).view (pageAddress pageBits addr) =
      if (protWrites pending.prot = true ∨ protExecutes pending.prot = true) ∧
          CoversPage pageBits mappedAddr.toNat pending.size.toNat addr then
        reprotect pending.prot (s.view (pageAddress pageBits addr))
      else s.view (pageAddress pageBits addr) := by
  have hmapped := mappedAddr.isLt
  have hbound := pending.size.isLt
  unfold applyPendingMmap
  dsimp only
  split
  · rename_i hsize
    rw [if_neg fun h => not_coversPage_zero (hsize ▸ h.2)]
  rename_i hsize
  rw [if_neg (by unfold uint64Max; omega)]
  split
  · rename_i hrights
    rw [if_neg fun h => by rw [hrights.1, hrights.2] at h; simp at h]
  · rename_i hrights
    have hrights' : protWrites pending.prot = true ∨ protExecutes pending.prot = true := by
      by_contra hnone
      rw [not_or, Bool.not_eq_true, Bool.not_eq_true] at hnone
      exact hrights hnone
    rw [mmapPages_view pending.prot (pageAddresses_nodup _ _)]
    simp only [mem_pageAddresses hsize, hrights', true_and]

/-- An `mprotect` sets the protection of the pages that it covers. -/
theorem applyPendingMprotect_view (addr : ℕ) :
    (applyPendingMprotect s pending).view (pageAddress pageBits addr) =
      if CoversPage pageBits pending.requestedAddr.toNat pending.size.toNat addr then
        reprotect pending.prot (s.view (pageAddress pageBits addr))
      else s.view (pageAddress pageBits addr) := by
  have haddr := pending.requestedAddr.isLt
  have hbound := pending.size.isLt
  have hpage := pageSize_le pageBits
  unfold applyPendingMprotect
  dsimp only
  split
  · rename_i hsize
    rw [if_neg fun h => not_coversPage_zero (hsize ▸ h)]
  rename_i hsize
  rw [if_neg (by unfold uint64Max; omega), pageAddress_end hsize,
    mprotectPages_view pending.prot (pageAddresses_nodup _ _)]
  simp only [mem_pageAddresses hsize]

/-- A `munmap` takes the pages that it covers out of the table. -/
theorem applyPendingMunmap_view (addr : ℕ) :
    (applyPendingMunmap s pending).view (pageAddress pageBits addr) =
      if CoversPage pageBits pending.requestedAddr.toNat pending.size.toNat addr then none
      else s.view (pageAddress pageBits addr) := by
  have haddr := pending.requestedAddr.isLt
  have hbound := pending.size.isLt
  unfold applyPendingMunmap
  dsimp only
  split
  · rename_i hsize
    rw [if_neg fun h => not_coversPage_zero (hsize ▸ h)]
  rename_i hsize
  rw [if_neg (by unfold uint64Max; omega), munmapPages_view (pageAddresses_nodup _ _)]
  simp only [mem_pageAddresses hsize]

/-! ### Writes -/

/-- The protection that is tracked for the page of an address. -/
def PageTracker.protAt (addr : ℕ) : Option (BitVec 32) :=
  (s.view (pageAddress pageBits addr)).map Prod.fst

/-- Whether the bit of an address is set in the bitmap of its page. -/
def PageTracker.writtenAt (addr : ℕ) : Bool :=
  ((s.view (pageAddress pageBits addr)).bind Prod.snd).any fun bitmap =>
    bitmap.getLsbD (addr % pageSize pageBits)

theorem getLsbD_setBits {w : ℕ} (bitmap : BitVec w) (offset chunk i : ℕ) (hi : i < w) :
    (setBits bitmap offset chunk).getLsbD i =
      (bitmap.getLsbD i || decide (offset ≤ i ∧ i < offset + chunk)) := by
  unfold setBits
  induction chunk with
  | zero =>
    have hempty : ¬ (offset ≤ i ∧ i < offset + 0) := by omega
    rw [decide_eq_false hempty, Bool.or_false]
    rfl
  | succ chunk ih =>
    rw [List.range_succ, List.foldl_append, List.foldl_cons, List.foldl_nil, BitVec.getLsbD_or, ih,
      BitVec.getLsbD_twoPow, Bool.or_assoc, ← Bool.decide_and, ← Bool.decide_or]
    congr 1
    apply decide_eq_decide.mpr
    omega

/-- A part of a range that is on one page, by the offsets. -/
theorem mem_chunk_iff {vaddr chunk addr : ℕ} (hchunk : chunk ≤ pageSize pageBits - vaddr % pageSize pageBits) :
    vaddr ≤ addr ∧ addr < vaddr + chunk ↔
      pageAddress pageBits addr = pageAddress pageBits vaddr ∧
        vaddr % pageSize pageBits ≤ addr % pageSize pageBits ∧
        addr % pageSize pageBits < vaddr % pageSize pageBits + chunk := by
  have hpos := pageSize_pos pageBits
  have hmod := Nat.mod_lt vaddr hpos
  have hvaddr := Nat.div_add_mod vaddr (pageSize pageBits)
  have haddr := Nat.div_add_mod addr (pageSize pageBits)
  rw [pageAddress_inj]
  constructor
  · rintro ⟨hlow, hhigh⟩
    have hpage : addr / pageSize pageBits = vaddr / pageSize pageBits := by
      refine Nat.div_eq_of_lt_le ?_ ?_
      · rw [Nat.mul_comm]
        omega
      · rw [Nat.succ_mul, Nat.mul_comm]
        omega
    rw [hpage] at haddr
    exact ⟨hpage, by omega, by omega⟩
  · rintro ⟨hpage, hlow, hhigh⟩
    rw [hpage] at haddr
    omega

theorem markChunk_view (generation : BitVec 32) (s : PageTracker pageBits) (vaddr chunk other : ℕ) :
    (markChunk generation s vaddr chunk).view other =
      if other = pageAddress pageBits vaddr then
        some (((s.view other).map Prod.fst).getD 3,
          some (setBits (((s.view other).bind Prod.snd).getD 0) (vaddr % pageSize pageBits) chunk))
      else s.view other := by
  refine (view_insert s _ other _).trans ?_
  split
  · rename_i h
    rw [h]
    unfold writtenPage PageTracker.view
    cases s.pages.lookup (pageAddress pageBits vaddr) <;> rfl
  · rfl

theorem markChunk_protAt (generation : BitVec 32) (s : PageTracker pageBits) (vaddr chunk addr : ℕ) :
    (markChunk generation s vaddr chunk).protAt addr =
      if pageAddress pageBits addr = pageAddress pageBits vaddr then some ((s.protAt addr).getD 3)
      else s.protAt addr := by
  unfold PageTracker.protAt
  rw [markChunk_view]
  split <;> rfl

theorem markChunk_writtenAt (generation : BitVec 32) (s : PageTracker pageBits) {vaddr chunk : ℕ}
    (hchunk : chunk ≤ pageSize pageBits - vaddr % pageSize pageBits) (addr : ℕ) :
    (markChunk generation s vaddr chunk).writtenAt addr =
      (s.writtenAt addr || decide (vaddr ≤ addr ∧ addr < vaddr + chunk)) := by
  have hoffset := Nat.mod_lt addr (pageSize_pos pageBits)
  unfold PageTracker.writtenAt
  simp only [mem_chunk_iff hchunk]
  rw [markChunk_view]
  split
  · rename_i hpage
    rw [Option.bind_some, Option.any_some, getLsbD_setBits _ _ _ _ hoffset]
    simp only [hpage, true_and]
    cases (s.view (pageAddress pageBits vaddr)).bind Prod.snd with
    | none =>
      show ((0#_).getLsbD _ || _) = _
      rw [BitVec.getLsbD_zero]
      rfl
    | some bitmap => rfl
  · rename_i hpage
    simp only [hpage, false_and, decide_false, Bool.or_false]

/-- A range is on the page of its first byte and on the pages of what is behind it. -/
theorem coversPage_chunk {vaddr size chunk addr : ℕ} (hpos : 0 < chunk) (hle : chunk ≤ size)
    (hchunk : chunk ≤ pageSize pageBits - vaddr % pageSize pageBits) :
    CoversPage pageBits vaddr size addr ↔
      pageAddress pageBits addr = pageAddress pageBits vaddr ∨
        CoversPage pageBits (vaddr + chunk) (size - chunk) addr := by
  constructor
  · rintro ⟨byte, hlow, hhigh, hpage⟩
    rcases Nat.lt_or_ge byte (vaddr + chunk) with hlt | hge
    · exact Or.inl (hpage.symm.trans ((mem_chunk_iff hchunk).mp ⟨hlow, hlt⟩).1)
    · exact Or.inr ⟨byte, hge, by omega, hpage⟩
  · rintro (hpage | ⟨byte, hlow, hhigh, hpage⟩)
    · exact ⟨vaddr, le_rfl, by omega, hpage.symm⟩
    · exact ⟨byte, by omega, by omega, hpage⟩

/-- A write tracks the pages that it touches, new ones as readable and writable, and sets the bits of its
bytes. -/
theorem markChunks_spec (generation : BitVec 32) (s : PageTracker pageBits) (vaddr size addr : ℕ) :
    (markChunks generation s vaddr size).protAt addr =
        (if CoversPage pageBits vaddr size addr then some ((s.protAt addr).getD 3) else s.protAt addr) ∧
      (markChunks generation s vaddr size).writtenAt addr =
        (s.writtenAt addr || decide (vaddr ≤ addr ∧ addr < vaddr + size)) := by
  fun_induction markChunks generation s vaddr size with
  | case1 s vaddr =>
    have hempty : ¬ (vaddr ≤ addr ∧ addr < vaddr + 0) := by omega
    rw [if_neg not_coversPage_zero, decide_eq_false hempty, Bool.or_false]
    exact ⟨rfl, rfl⟩
  | case2 s vaddr size hsize offset chunk ih =>
    have hoffset : offset < pageSize pageBits := Nat.mod_lt vaddr (pageSize_pos pageBits)
    have hchunk : chunk ≤ pageSize pageBits - vaddr % pageSize pageBits := min_le_right _ _
    have hpos : 0 < chunk := by omega
    have hle : chunk ≤ size := min_le_left _ _
    obtain ⟨hprot, hwritten⟩ := ih
    constructor
    · refine hprot.trans ?_
      rw [markChunk_protAt]
      simp only [coversPage_chunk hpos hle hchunk]
      -- The first page may be covered by what is behind the chunk too, and is tracked by then.
      by_cases hpage : pageAddress pageBits addr = pageAddress pageBits vaddr
      · rw [if_pos hpage, if_pos (Or.inl hpage), Option.getD_some, ite_self]
      · rw [if_neg hpage]
        simp only [hpage, false_or]
    · refine hwritten.trans ?_
      rw [markChunk_writtenAt generation s hchunk, Bool.or_assoc, ← Bool.decide_or]
      congr 1
      apply decide_eq_decide.mpr
      omega

theorem markWritten_spec (vaddr size : BitVec 32) (addr : ℕ) :
    (markWritten s vaddr size).protAt addr =
        (if CoversPage pageBits vaddr.toNat size.toNat addr then some ((s.protAt addr).getD 3)
          else s.protAt addr) ∧
      (markWritten s vaddr size).writtenAt addr =
        (s.writtenAt addr || decide (vaddr.toNat ≤ addr ∧ addr < vaddr.toNat + size.toNat)) := by
  unfold markWritten
  split
  · rename_i hsize
    have hzero : size.toNat = 0 := by rw [hsize]; rfl
    have hempty : ¬ (vaddr.toNat ≤ addr ∧ addr < vaddr.toNat + 0) := by omega
    rw [hzero, if_neg not_coversPage_zero, decide_eq_false hempty, Bool.or_false]
    exact ⟨rfl, rfl⟩
  · have hspec := markChunks_spec (nextCodeGeneration s).1 (nextCodeGeneration s).2 vaddr.toNat size.toNat addr
    unfold PageTracker.protAt PageTracker.writtenAt at hspec ⊢
    rw [nextCodeGeneration_view] at hspec
    exact hspec

/-! ### The address space of the guest -/

/-- What the last call that covered a page made of it. -/
inductive PageStatus
  | initial
  | mapped (prot : BitVec 32)
  | unmapped
  deriving DecidableEq

/-- The address space of the guest: the status of the page of each address, and the bytes that were written
since their pages were last mapped. -/
structure GuestSpace where
  status : ℕ → PageStatus
  written : Set ℕ

/-- A guest that has made no call and written nothing. -/
def GuestSpace.initial : GuestSpace := ⟨fun _ => .initial, ∅⟩

/-- The pages of a range get a status. -/
def GuestSpace.cover (pageBits : Fin 32) (g : GuestSpace) (start size : ℕ) (status : PageStatus) :
    ℕ → PageStatus :=
  fun addr => if CoversPage pageBits start size addr then status else g.status addr

/-- What a call that succeeds, or a write, does to the address space. -/
def GuestSpace.step (pageBits : Fin 32) (g : GuestSpace) : GuestEvent → GuestSpace
  | .mmap pending mappedAddr =>
    { status := g.cover pageBits mappedAddr.toNat pending.size.toNat (.mapped pending.prot)
      written := {addr ∈ g.written | ¬ CoversPage pageBits mappedAddr.toNat pending.size.toNat addr} }
  | .mprotect pending =>
    { g with status := g.cover pageBits pending.requestedAddr.toNat pending.size.toNat (.mapped pending.prot) }
  | .munmap pending =>
    { status := g.cover pageBits pending.requestedAddr.toNat pending.size.toNat .unmapped
      written :=
        {addr ∈ g.written | ¬ CoversPage pageBits pending.requestedAddr.toNat pending.size.toNat addr} }
  | .write vaddr size =>
    { g with written := g.written ∪ {addr | vaddr.toNat ≤ addr ∧ addr < vaddr.toNat + size.toNat} }

/-- The address space after a run. -/
def GuestSpace.run (pageBits : Fin 32) (events : List GuestEvent) : GuestSpace :=
  events.foldl (GuestSpace.step pageBits) .initial

/-- Whether the guest can write a page: it was there from the start, or it is mapped as writable. -/
def PageStatus.Writable : PageStatus → Prop
  | .initial => True
  | .mapped prot => protWrites prot = true
  | .unmapped => False

/-- A write of the guest hits only pages that it can write. -/
def GuestSpace.Possible (pageBits : Fin 32) (g : GuestSpace) : GuestEvent → Prop
  | .write vaddr size => ∀ addr, CoversPage pageBits vaddr.toNat size.toNat addr → (g.status addr).Writable
  | _ => True

/-- **The table agrees with the guest.**  A page that was mapped has the protection of the last call that covered
it, where only a page without write and execute rights may be missing; a page that is unmapped is missing; and
the bits that are set are those of the bytes written since their pages were last mapped. -/
structure Tracks (s : PageTracker pageBits) (g : GuestSpace) : Prop where
  mapped : ∀ addr prot, g.status addr = .mapped prot →
    s.protAt addr = some prot ∨ s.protAt addr = none ∧ protWrites prot = false ∧ protExecutes prot = false
  unmapped : ∀ addr, g.status addr = .unmapped → s.protAt addr = none
  written : ∀ addr, s.writtenAt addr = true ↔ addr ∈ g.written

/-- A step that is not an `mmap` over a page with written bytes, nor one without write and execute rights over a
page that is tracked with other rights. -/
def CleanRemap (s : PageTracker pageBits) : GuestEvent → Prop
  | .mmap pending mappedAddr => ∀ addr, CoversPage pageBits mappedAddr.toNat pending.size.toNat addr →
      s.writtenAt addr = false ∧ (protWrites pending.prot = true ∨ protExecutes pending.prot = true ∨
        ∀ prot, s.protAt addr = some prot → prot = pending.prot)
  | _ => True

theorem tracks_initial : Tracks (.initial : PageTracker pageBits) .initial where
  mapped := by
    intro addr prot h
    cases h
  unmapped := by
    intro addr h
    cases h
  written addr := iff_of_false Bool.false_ne_true (Set.notMem_empty addr)

variable {s} {pending} {g : GuestSpace}

theorem applyPendingMmap_writtenAt (s : PageTracker pageBits) (pending : PendingMmap) (mappedAddr : BitVec 32)
    (addr : ℕ) : (applyPendingMmap s pending mappedAddr).writtenAt addr = s.writtenAt addr := by
  unfold PageTracker.writtenAt
  rw [applyPendingMmap_view]
  split <;> rfl

theorem applyPendingMmap_protAt (s : PageTracker pageBits) (pending : PendingMmap) (mappedAddr : BitVec 32)
    (addr : ℕ) :
    (applyPendingMmap s pending mappedAddr).protAt addr =
      if (protWrites pending.prot = true ∨ protExecutes pending.prot = true) ∧
          CoversPage pageBits mappedAddr.toNat pending.size.toNat addr then some pending.prot
      else s.protAt addr := by
  unfold PageTracker.protAt
  rw [applyPendingMmap_view]
  split <;> rfl

/-- After an `mmap` the table agrees with the guest exactly where the step was a clean one. -/
theorem applyPendingMmap_tracks (h : Tracks s g) (mappedAddr : BitVec 32) :
    Tracks (applyPendingMmap s pending mappedAddr) (g.step pageBits (.mmap pending mappedAddr)) ↔
      CleanRemap s (.mmap pending mappedAddr) := by
  have hwritten := applyPendingMmap_writtenAt s pending mappedAddr
  have hprot := applyPendingMmap_protAt s pending mappedAddr
  constructor
  · intro h' addr hcovers
    have hstatus : (g.step pageBits (.mmap pending mappedAddr)).status addr = .mapped pending.prot :=
      if_pos hcovers
    constructor
    · rw [← hwritten, ← Bool.not_eq_true, h'.written]
      exact fun hmem => hmem.2 hcovers
    · by_cases hrights : protWrites pending.prot = true ∨ protExecutes pending.prot = true
      · exact hrights.imp_right Or.inl
      right; right
      intro prot htracked
      have hsame : (applyPendingMmap s pending mappedAddr).protAt addr = some prot := by
        rw [hprot, if_neg fun hboth => hrights hboth.1, htracked]
      rcases h'.mapped addr _ hstatus with hsome | ⟨hnone, -⟩
      · exact Option.some.inj (hsame.symm.trans hsome)
      · rw [hsame] at hnone
        cases hnone
  · intro hclean
    refine ⟨?_, ?_, ?_⟩
    · intro addr prot hstatus
      by_cases hcovers : CoversPage pageBits mappedAddr.toNat pending.size.toNat addr
      · obtain rfl : pending.prot = prot := PageStatus.mapped.inj ((if_pos hcovers).symm.trans hstatus)
        by_cases hrights : protWrites pending.prot = true ∨ protExecutes pending.prot = true
        · exact Or.inl ((hprot addr).trans (if_pos ⟨hrights, hcovers⟩))
        · rw [hprot, if_neg fun hboth => hrights hboth.1]
          rw [not_or, Bool.not_eq_true, Bool.not_eq_true] at hrights
          -- The page keeps what it was tracked as, which is right where it was tracked at all.
          cases htracked : s.protAt addr with
          | none => exact Or.inr ⟨rfl, hrights⟩
          | some tracked =>
            rcases (hclean addr hcovers).2 with hw | hx | hsame
            · rw [hrights.1] at hw
              cases hw
            · rw [hrights.2] at hx
              cases hx
            · exact Or.inl (congrArg some (hsame tracked htracked))
      · rw [hprot, if_neg fun hboth => hcovers hboth.2]
        exact h.mapped addr prot ((if_neg hcovers).symm.trans hstatus)
    · intro addr hstatus
      by_cases hcovers : CoversPage pageBits mappedAddr.toNat pending.size.toNat addr
      · cases (if_pos hcovers).symm.trans hstatus
      · rw [hprot, if_neg fun hboth => hcovers hboth.2]
        exact h.unmapped addr ((if_neg hcovers).symm.trans hstatus)
    · intro addr
      rw [hwritten, h.written]
      constructor
      · intro hmem
        refine ⟨hmem, fun hcovers => ?_⟩
        have hbit := (h.written addr).mpr hmem
        rw [(hclean addr hcovers).1] at hbit
        cases hbit
      · exact fun hmem => hmem.1

theorem applyPendingMprotect_tracks (h : Tracks s g) :
    Tracks (applyPendingMprotect s pending) (g.step pageBits (.mprotect pending)) := by
  have hprot : ∀ addr, (applyPendingMprotect s pending).protAt addr =
      if CoversPage pageBits pending.requestedAddr.toNat pending.size.toNat addr then some pending.prot
      else s.protAt addr := by
    intro addr
    unfold PageTracker.protAt
    rw [applyPendingMprotect_view]
    split <;> rfl
  refine ⟨?_, ?_, ?_⟩
  · intro addr prot hstatus
    rw [hprot]
    by_cases hcovers : CoversPage pageBits pending.requestedAddr.toNat pending.size.toNat addr
    · rw [if_pos hcovers]
      exact Or.inl (congrArg some (PageStatus.mapped.inj ((if_pos hcovers).symm.trans hstatus)))
    · rw [if_neg hcovers]
      exact h.mapped addr prot ((if_neg hcovers).symm.trans hstatus)
  · intro addr hstatus
    rw [hprot]
    by_cases hcovers : CoversPage pageBits pending.requestedAddr.toNat pending.size.toNat addr
    · cases (if_pos hcovers).symm.trans hstatus
    · rw [if_neg hcovers]
      exact h.unmapped addr ((if_neg hcovers).symm.trans hstatus)
  · intro addr
    have hwritten : (applyPendingMprotect s pending).writtenAt addr = s.writtenAt addr := by
      unfold PageTracker.writtenAt
      rw [applyPendingMprotect_view]
      split <;> rfl
    rw [hwritten]
    exact h.written addr

theorem applyPendingMunmap_tracks (h : Tracks s g) :
    Tracks (applyPendingMunmap s pending) (g.step pageBits (.munmap pending)) := by
  have hprot : ∀ addr, (applyPendingMunmap s pending).protAt addr =
      if CoversPage pageBits pending.requestedAddr.toNat pending.size.toNat addr then none
      else s.protAt addr := by
    intro addr
    unfold PageTracker.protAt
    rw [applyPendingMunmap_view]
    split <;> rfl
  refine ⟨?_, ?_, ?_⟩
  · intro addr prot hstatus
    by_cases hcovers : CoversPage pageBits pending.requestedAddr.toNat pending.size.toNat addr
    · cases (if_pos hcovers).symm.trans hstatus
    · rw [hprot, if_neg hcovers]
      exact h.mapped addr prot ((if_neg hcovers).symm.trans hstatus)
  · intro addr hstatus
    rw [hprot]
    by_cases hcovers : CoversPage pageBits pending.requestedAddr.toNat pending.size.toNat addr
    · rw [if_pos hcovers]
    · rw [if_neg hcovers]
      exact h.unmapped addr ((if_neg hcovers).symm.trans hstatus)
  · intro addr
    show _ ↔ addr ∈ g.written ∧ ¬ CoversPage pageBits _ _ addr
    rw [← h.written]
    unfold PageTracker.writtenAt
    rw [applyPendingMunmap_view]
    by_cases hcovers : CoversPage pageBits pending.requestedAddr.toNat pending.size.toNat addr
    · rw [if_pos hcovers]
      exact iff_of_false Bool.false_ne_true fun hboth => hboth.2 hcovers
    · rw [if_neg hcovers]
      exact (and_iff_left hcovers).symm

/-- A page that the guest can write is tracked, unless it was there from the start. -/
theorem markWritten_tracks (h : Tracks s g) {vaddr size : BitVec 32}
    (hpossible : g.Possible pageBits (.write vaddr size)) :
    Tracks (markWritten s vaddr size) (g.step pageBits (.write vaddr size)) := by
  refine ⟨?_, ?_, ?_⟩
  · intro addr prot hstatus
    rw [(markWritten_spec s vaddr size addr).1]
    have htracked := h.mapped addr prot hstatus
    split
    · rename_i hcovers
      have hwritable := hpossible addr hcovers
      rw [show g.status addr = .mapped prot from hstatus] at hwritable
      rcases htracked with hsome | ⟨-, hreadonly, -⟩
      · rw [hsome]
        exact Or.inl rfl
      · rw [PageStatus.Writable, hreadonly] at hwritable
        cases hwritable
    · exact htracked
  · intro addr hstatus
    rw [(markWritten_spec s vaddr size addr).1]
    split
    · rename_i hcovers
      have hwritable := hpossible addr hcovers
      rw [show g.status addr = .unmapped from hstatus] at hwritable
      exact hwritable.elim
    · exact h.unmapped addr hstatus
  · intro addr
    rw [(markWritten_spec s vaddr size addr).2, Bool.or_eq_true, decide_eq_true_eq, h.written]
    rfl

/-- **One step.**  The table stays in agreement with the guest exactly where the step is clean. -/
theorem step_tracks (h : Tracks s g) {event : GuestEvent} (hpossible : g.Possible pageBits event) :
    Tracks (s.step event) (g.step pageBits event) ↔ CleanRemap s event := by
  cases event with
  | mmap pending mappedAddr => exact applyPendingMmap_tracks h mappedAddr
  | mprotect pending => exact iff_of_true (applyPendingMprotect_tracks h) trivial
  | munmap pending => exact iff_of_true (applyPendingMunmap_tracks h) trivial
  | write vaddr size => exact iff_of_true (markWritten_tracks h hpossible) trivial

/-! ### Runs -/

/-- Every write of a run is possible when it happens. -/
def Feasible (pageBits : Fin 32) (events : List GuestEvent) : Prop :=
  ∀ prior event, prior ++ [event] <+: events → (GuestSpace.run pageBits prior).Possible pageBits event

theorem run_append (prior : List GuestEvent) (event : GuestEvent) :
    (PageTracker.run (prior ++ [event]) : PageTracker pageBits) = (PageTracker.run prior).step event := by
  unfold PageTracker.run
  rw [List.foldl_append]
  rfl

theorem guestRun_append (prior : List GuestEvent) (event : GuestEvent) :
    GuestSpace.run pageBits (prior ++ [event]) = (GuestSpace.run pageBits prior).step pageBits event := by
  unfold GuestSpace.run
  rw [List.foldl_append]
  rfl

/-- **The table follows the guest** through a run, at every point of it, exactly where every `mmap` of the run
is a clean one. -/
theorem pageTracker_tracks (events : List GuestEvent) (hfeasible : Feasible pageBits events) :
    (∀ prior, prior <+: events → Tracks (.run prior : PageTracker pageBits) (.run pageBits prior)) ↔
      ∀ prior event, prior ++ [event] <+: events → CleanRemap (.run prior : PageTracker pageBits) event := by
  constructor
  · intro h prior event hprior
    have hbefore := h prior ((List.prefix_append prior [event]).trans hprior)
    have hafter := h (prior ++ [event]) hprior
    rw [run_append, guestRun_append] at hafter
    exact (step_tracks hbefore (hfeasible prior event hprior)).mp hafter
  · intro hclean prior
    induction prior using List.reverseRecOn with
    | nil => exact fun _ => tracks_initial
    | append_singleton prior event ih =>
      intro hprior
      have hbefore := ih ((List.prefix_append prior [event]).trans hprior)
      rw [run_append, guestRun_append]
      exact (step_tracks hbefore (hfeasible prior event hprior)).mpr (hclean prior event hprior)

theorem feasible_nil : Feasible pageBits [] := by
  intro prior event hprior
  have hempty := List.prefix_nil.mp hprior
  exact absurd hempty (List.append_ne_nil_of_right_ne_nil prior (List.cons_ne_nil event []))

theorem feasible_append {events : List GuestEvent} {event : GuestEvent} (h : Feasible pageBits events)
    (hevent : (GuestSpace.run pageBits events).Possible pageBits event) :
    Feasible pageBits (events ++ [event]) := by
  intro prior next hprior
  rcases List.prefix_concat_iff.mp hprior with heq | hprior
  · obtain ⟨rfl, hnext⟩ := List.append_inj' heq rfl
    obtain rfl : next = event := List.singleton_inj.mp hnext
    exact hevent
  · exact h prior next hprior

/-- Where the table agrees with the guest, a byte of a page that was never unmapped is taken for unpacked code
exactly where its page is executable and it was written since the page was last mapped. -/
theorem byteIsUnpacked_iff (h : Tracks s g) {addr : ℕ} {prot : BitVec 32}
    (hstatus : g.status addr = .mapped prot)
    (hstatic : ∀ page, s.pages.lookup (pageAddress pageBits addr) = some page → page.dynExec = false) :
    byteIsUnpacked s addr = true ↔ protExecutes prot = true ∧ addr ∈ g.written := by
  have hmapped := h.mapped addr prot hstatus
  rw [← h.written]
  unfold byteIsUnpacked PageTracker.writtenAt PageTracker.protAt PageTracker.view at *
  cases hpage : s.pages.lookup (pageAddress pageBits addr) with
  | none =>
    rw [hpage] at hmapped
    exact iff_of_false Bool.false_ne_true fun hboth => Bool.false_ne_true hboth.2
  | some page =>
    rw [hpage] at hmapped
    rcases hmapped with hprot | ⟨hnone, -⟩
    · obtain rfl : page.prot = prot := Option.some.inj hprot
      simp only [hstatic page hpage, Bool.false_or, Bool.and_eq_true]
      rfl
    · cases hnone

/-! ### The keys of the table -/

/-- Every key of the table is the address of a page. -/
def PageTracker.Aligned (s : PageTracker pageBits) : Prop :=
  ∀ key, (s.view key).isSome = true → pageAddress pageBits key = key

theorem pageAddress_idem (addr : ℕ) :
    pageAddress pageBits (pageAddress pageBits addr) = pageAddress pageBits addr := by
  unfold pageAddress
  rw [Nat.mul_div_cancel _ (pageSize_pos pageBits)]

theorem aligned_of_mem_pageAddresses {start last key : ℕ}
    (h : key ∈ pageAddresses pageBits (pageAddress pageBits start) last) : pageAddress pageBits key = key := by
  obtain ⟨i, -, rfl⟩ := List.mem_map.mp h
  unfold pageAddress
  rw [← Nat.add_mul, Nat.mul_div_cancel _ (pageSize_pos pageBits)]

/-- A change of entries whose keys are addresses of pages. -/
theorem PageTracker.Aligned.of_view {s s' : PageTracker pageBits} (h : s.Aligned)
    (hview : ∀ key, s'.view key = s.view key ∨ pageAddress pageBits key = key) : s'.Aligned := by
  intro key hkey
  rcases hview key with hsame | haligned
  · rw [hsame] at hkey
    exact h key hkey
  · exact haligned

theorem applyPendingMmap_aligned (h : s.Aligned) (mappedAddr : BitVec 32) :
    (applyPendingMmap s pending mappedAddr).Aligned := by
  refine h.of_view fun key => ?_
  unfold applyPendingMmap
  dsimp only
  split_ifs
  · exact Or.inl rfl
  · exact Or.inl rfl
  · exact Or.inl rfl
  · rw [mmapPages_view pending.prot (pageAddresses_nodup _ _)]
    split
    · rename_i hmem
      exact Or.inr (aligned_of_mem_pageAddresses hmem)
    · exact Or.inl rfl

theorem applyPendingMprotect_aligned (h : s.Aligned) : (applyPendingMprotect s pending).Aligned := by
  refine h.of_view fun key => ?_
  unfold applyPendingMprotect
  dsimp only
  split_ifs
  · exact Or.inl rfl
  · exact Or.inl rfl
  · rw [mprotectPages_view pending.prot (pageAddresses_nodup _ _)]
    split
    · rename_i hmem
      exact Or.inr (aligned_of_mem_pageAddresses hmem)
    · exact Or.inl rfl

theorem applyPendingMunmap_aligned (h : s.Aligned) : (applyPendingMunmap s pending).Aligned := by
  refine h.of_view fun key => ?_
  unfold applyPendingMunmap
  dsimp only
  split_ifs
  · exact Or.inl rfl
  · exact Or.inl rfl
  · rw [munmapPages_view (pageAddresses_nodup _ _)]
    split
    · rename_i hmem
      exact Or.inr (aligned_of_mem_pageAddresses hmem)
    · exact Or.inl rfl

theorem markChunks_aligned (generation : BitVec 32) {s : PageTracker pageBits} (h : s.Aligned) (vaddr size : ℕ) :
    (markChunks generation s vaddr size).Aligned := by
  fun_induction markChunks generation s vaddr size with
  | case1 s vaddr => exact h
  | case2 s vaddr size hsize offset chunk ih =>
    refine ih (h.of_view fun key => ?_)
    rw [markChunk_view]
    split
    · rename_i hkey
      rw [hkey]
      exact Or.inr (pageAddress_idem vaddr)
    · exact Or.inl rfl

theorem markWritten_aligned (h : s.Aligned) (vaddr size : BitVec 32) : (markWritten s vaddr size).Aligned := by
  unfold markWritten
  split
  · exact h
  · have haligned : (nextCodeGeneration s).2.Aligned :=
      h.of_view fun key => Or.inl (congrFun (nextCodeGeneration_view s) key)
    exact markChunks_aligned _ haligned _ _

/-- **Every table of a run has addresses of pages as its keys.** -/
theorem run_aligned (events : List GuestEvent) : (PageTracker.run events : PageTracker pageBits).Aligned := by
  induction events using List.reverseRecOn with
  | nil => exact fun key hkey => absurd hkey Bool.false_ne_true
  | append_singleton prior event ih =>
    rw [run_append]
    cases event with
    | mmap pending mappedAddr => exact applyPendingMmap_aligned ih mappedAddr
    | mprotect pending => exact applyPendingMprotect_aligned ih
    | munmap pending => exact applyPendingMunmap_aligned ih
    | write vaddr size => exact markWritten_aligned ih vaddr size

/-! ### Mapping over a page -/

/-- Pages of four KiB. -/
def smallPages : Fin 32 := 12

/-- A page that is mapped, written, and then mapped again with other contents. -/
def remapRun : List GuestEvent :=
  [.mmap ⟨0, 0x1000, 3⟩ 0x40000000, .write 0x40000000 4, .mmap ⟨0x40000000, 0x1000, 5⟩ 0x40000000]

/-- A page that is mapped, and then mapped again as read-only. -/
def readOnlyRun : List GuestEvent :=
  [.mmap ⟨0, 0x1000, 3⟩ 0x40000000, .mmap ⟨0x40000000, 0x1000, 1⟩ 0x40000000]

theorem feasible_mapped : Feasible smallPages [.mmap ⟨0, 0x1000, 3⟩ 0x40000000] := by
  show Feasible smallPages ([] ++ [_])
  exact feasible_append feasible_nil trivial

theorem feasible_written :
    Feasible smallPages [.mmap ⟨0, 0x1000, 3⟩ 0x40000000, .write 0x40000000 4] := by
  refine feasible_append feasible_mapped fun addr _ => ?_
  show PageStatus.Writable (if _ then _ else _)
  split
  · rfl
  · trivial

/-- The run of a page that is mapped and written, followed by the table. -/
theorem pageTracker_tracks_written :
    (∀ prior, prior <+: [.mmap ⟨0, 0x1000, 3⟩ 0x40000000, .write 0x40000000 4] →
        Tracks (.run prior : PageTracker smallPages) (.run smallPages prior)) ↔
      ∀ prior event, prior ++ [event] <+: [.mmap ⟨0, 0x1000, 3⟩ 0x40000000, .write 0x40000000 4] →
        CleanRemap (.run prior : PageTracker smallPages) event :=
  pageTracker_tracks _ feasible_written

/-- The bytes that were written before the second mapping are taken for unpacked code, and the rights of a page
that is read-only by now are still those of its first mapping. -/
theorem remap_not_tracked :
    (Feasible smallPages remapRun ∧
      ¬ Tracks (.run remapRun : PageTracker smallPages) (.run smallPages remapRun) ∧
      insnIsUnpacked (.run remapRun : PageTracker smallPages) 0x40000000 1 = true) ∧
    Feasible smallPages readOnlyRun ∧
      ¬ Tracks (.run readOnlyRun : PageTracker smallPages) (.run smallPages readOnlyRun) := by
  refine ⟨⟨feasible_append feasible_written trivial, ?_, by decide +kernel⟩,
    feasible_append feasible_mapped trivial, ?_⟩
  · intro h
    have hmem := (h.written 0x40000000).mp (by decide +kernel)
    exact hmem.2 (by decide)
  · intro h
    have htracked : (PageTracker.run readOnlyRun : PageTracker smallPages).protAt 0x40000000 = some 3 := by
      decide
    have hstatus : (GuestSpace.run smallPages readOnlyRun).status 0x40000000 = .mapped 1 := by decide
    rcases h.mapped _ _ hstatus with hsome | ⟨hnone, -⟩
    · rw [htracked] at hsome
      exact absurd hsome (by decide)
    · rw [htracked] at hnone
      cases hnone

end TaintForge
