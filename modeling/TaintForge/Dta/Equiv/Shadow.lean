import TaintForge.Dta.Shadow
import Mathlib.Algebra.BigOperators.Group.Finset.Piecewise

/-!
# The shadow memory is a map from addresses to labels

* `writeLabels`: a map with some labels written from an address on.
* `ShadowTable`: the invariant of the page table.
* `ShadowRefines`: the memory holds the labels of a map, and only pages with a label to hold.
* `MapRun`: what a sequence of stores and fills does to a map.
* `shadow_refines_map`: the memory holds what the calls left in the map.
-/

namespace TaintForge

open OpenAddr OpenMap

/-! ### Maps -/

/-- A map with labels written from an address on. -/
def writeLabels (mem : ℕ → ℕ) (addr : ℕ) (labels : List ℕ) (a : ℕ) : ℕ :=
  if addr ≤ a then (labels[a - addr]?).getD (mem a) else mem a

@[simp] theorem writeLabels_nil (mem : ℕ → ℕ) (addr : ℕ) : writeLabels mem addr [] = mem := by
  funext a
  rw [writeLabels, List.getElem?_nil, Option.getD_none, ite_self]

theorem writeLabels_append (mem : ℕ → ℕ) (addr : ℕ) (l l' : List ℕ) :
    writeLabels (writeLabels mem addr l) (addr + l.length) l' = writeLabels mem addr (l ++ l') := by
  funext a
  unfold writeLabels
  rcases Nat.lt_or_ge a addr with hlt | hge
  · rw [if_neg (by omega), if_neg (by omega), if_neg (by omega)]
  rw [if_pos hge, if_pos hge]
  rcases Nat.lt_or_ge a (addr + l.length) with hin | hout
  · rw [if_neg (by omega), List.getElem?_append_left (by omega)]
  · rw [if_pos hout, List.getElem?_append_right (by omega),
      List.getElem?_eq_none (show l.length ≤ a - addr by omega), Option.getD_none,
      show a - (addr + l.length) = a - addr - l.length by omega]

theorem writeLabels_singleton (mem : ℕ → ℕ) (addr label : ℕ) :
    writeLabels mem addr [label] = Function.update mem addr label := by
  funext a
  unfold writeLabels
  by_cases ha : a = addr
  · rw [ha, if_pos le_rfl, Nat.sub_self, Function.update_self]
    rfl
  · rw [Function.update_of_ne ha]
    split_ifs with hle
    · rw [List.getElem?_eq_none (by rw [List.length_singleton]; omega), Option.getD_none]
    · rfl

theorem writeLabels_of_lt {mem : ℕ → ℕ} {addr a : ℕ} {labels : List ℕ} (h : a < addr) :
    writeLabels mem addr labels a = mem a := if_neg (Nat.not_le.mpr h)

theorem writeLabels_of_ge {mem : ℕ → ℕ} {addr a : ℕ} {labels : List ℕ}
    (h : addr + labels.length ≤ a) : writeLabels mem addr labels a = mem a := by
  unfold writeLabels
  split_ifs
  · rw [List.getElem?_eq_none (by omega), Option.getD_none]
  · rfl

/-! ### Pages -/

/-- How many of the labels of a page are not clean. -/
def noncleanOf (labels : ℕ → ℕ) : ℕ :=
  ((Finset.range dtaShadowPageSize).filter fun offset => labels offset ≠ provLabelClean).card

/-- The count of a page is right. -/
def ShadowPage.Counted (page : ShadowPage) : Prop := page.noncleanCount = noncleanOf page.labels

theorem ShadowPage.zero_counted : ShadowPage.zero.Counted := by
  refine (Finset.card_eq_zero.mpr ?_).symm
  exact Finset.filter_eq_empty_iff.mpr fun _ _ hne => hne rfl

/-- One label changes the number of labels that are not clean by its share. -/
theorem noncleanOf_update (labels : ℕ → ℕ) {offset : ℕ} (hoffset : offset < dtaShadowPageSize)
    (label : ℕ) :
    noncleanOf (Function.update labels offset label) +
        (if labels offset ≠ provLabelClean then 1 else 0) =
      noncleanOf labels + if label ≠ provLabelClean then 1 else 0 := by
  have hsplit : ∀ labels : ℕ → ℕ, noncleanOf labels =
      (((Finset.range dtaShadowPageSize).erase offset).filter fun o =>
        labels o ≠ provLabelClean).card + if labels offset ≠ provLabelClean then 1 else 0 := by
    intro labels
    rw [noncleanOf, ← Finset.insert_erase (Finset.mem_range.mpr hoffset), Finset.filter_insert,
      Finset.erase_insert (Finset.notMem_erase offset _)]
    split_ifs with hlabel
    · rw [Finset.card_insert_of_notMem]
      intro hmem
      exact Finset.notMem_erase offset _ (Finset.mem_filter.mp hmem).1
    · exact (Nat.add_zero _).symm
  have hsame : (((Finset.range dtaShadowPageSize).erase offset).filter fun o =>
      Function.update labels offset label o ≠ provLabelClean) =
        ((Finset.range dtaShadowPageSize).erase offset).filter fun o =>
          labels o ≠ provLabelClean := by
    refine Finset.filter_congr fun o ho => ?_
    rw [Function.update_of_ne (Finset.ne_of_mem_erase ho)]
  rw [hsplit (Function.update labels offset label), hsplit labels, hsame, Function.update_self]
  omega

/-- A label of a page is always stored. -/
theorem ShadowPage.Counted.store {page : ShadowPage} (h : page.Counted) {offset : ℕ}
    (hoffset : offset < dtaShadowPageSize) (label : ℕ) :
    ∃ page', shadowPageStore page offset label = (true, page') ∧ page'.Counted ∧
      page'.labels = Function.update page.labels offset label := by
  have hcount := noncleanOf_update page.labels hoffset label
  unfold ShadowPage.Counted at h
  unfold shadowPageStore
  dsimp only
  by_cases hsame : page.labels offset = label
  · rw [if_pos hsame]
    exact ⟨page, rfl, h, by rw [← hsame, Function.update_eq_self]⟩
  rw [if_neg hsame]
  by_cases hold : page.labels offset = provLabelClean
  · have hlabel : label ≠ provLabelClean := fun heq => hsame (hold.trans heq.symm)
    rw [if_pos ⟨hold, hlabel⟩]
    refine ⟨_, rfl, ?_, rfl⟩
    show page.noncleanCount + 1 = noncleanOf (Function.update page.labels offset label)
    rw [if_neg (not_not.mpr hold), if_pos hlabel] at hcount
    omega
  rw [if_neg fun hand => hold hand.1]
  rw [if_pos hold] at hcount
  by_cases hlabel : label = provLabelClean
  · rw [if_pos ⟨hold, hlabel⟩]
    rw [if_neg (not_not.mpr hlabel)] at hcount
    rw [if_neg (show page.noncleanCount ≠ 0 by omega)]
    refine ⟨_, rfl, ?_, rfl⟩
    show page.noncleanCount - 1 = noncleanOf (Function.update page.labels offset label)
    omega
  · rw [if_neg fun hand => hlabel hand.2]
    rw [if_pos hlabel] at hcount
    refine ⟨_, rfl, ?_, rfl⟩
    show page.noncleanCount = noncleanOf (Function.update page.labels offset label)
    omega

theorem ShadowPage.Counted.storeAll {page : ShadowPage} (h : page.Counted) {offset : ℕ}
    {labels : List ℕ} (hfits : offset + labels.length ≤ dtaShadowPageSize) :
    ∃ page', shadowPageStoreAll page offset labels = (true, page') ∧ page'.Counted ∧
      page'.labels = writeLabels page.labels offset labels := by
  induction labels generalizing page offset with
  | nil => exact ⟨page, rfl, h, (writeLabels_nil _ _).symm⟩
  | cons label labels ih =>
    rw [List.length_cons] at hfits
    have hoffset : offset < dtaShadowPageSize := by omega
    obtain ⟨page₁, hstore, hcounted, hlabels⟩ := h.store hoffset label
    have hrest : offset + 1 + labels.length ≤ dtaShadowPageSize := by omega
    obtain ⟨page₂, hall, hcounted₂, hlabels₂⟩ := ih hcounted hrest
    refine ⟨page₂, ?_, hcounted₂, ?_⟩
    · rw [shadowPageStoreAll, hstore]
      exact hall
    · rw [hlabels₂, hlabels, ← writeLabels_singleton]
      exact writeLabels_append page.labels offset [label] labels

/-! ### The page table -/

/-- The table is in good order, the counters count its slots, and it is never too full. -/
structure ShadowTable (sm : ShadowMemory) : Prop where
  good : Good shadowHash sm.slots
  large : shadowInitialSlotCapacity ≤ sm.slots.length
  alloc : sm.slots.length * 24 ≤ sizeMax
  pages : sm.pageCount = occupied sm.slots
  tombstones : sm.tombstoneCount = tombstones sm.slots
  load : sm.pageCount + sm.tombstoneCount ≤ sm.slots.length * 7 / 10

/-- The pages by their indices. -/
def ShadowMemory.pages (sm : ShadowMemory) : ℕ → Option ShadowPage := lookup shadowHash sm.slots

/-- What a call does besides: the table does not shrink, and memory does not run out by itself. -/
structure Grown (sm sm' : ShadowMemory) : Prop where
  bits : sm'.guestBits = sm.guestBits
  length : sm.slots.length ≤ sm'.slots.length
  ample : sm.heap.Ample → sm'.heap.Ample

theorem Grown.refl (sm : ShadowMemory) : Grown sm sm := ⟨rfl, le_rfl, id⟩

theorem Grown.trans {sm sm' sm'' : ShadowMemory} (h : Grown sm sm') (h' : Grown sm' sm'') :
    Grown sm sm'' :=
  ⟨h'.bits.trans h.bits, h.length.trans h'.length, h'.ample ∘ h.ample⟩

/-- An allocation may be refused: there is not memory for everything, or the table with its
successor does not fit in `size_t`. -/
def Starved (sm sm' : ShadowMemory) : Prop :=
  ¬ sm.heap.Ample ∨ sizeMax < sm'.slots.length * 48

namespace ShadowTable

variable {sm : ShadowMemory} {p : ℕ}

theorem length_pos (h : ShadowTable sm) : 0 < sm.slots.length :=
  Nat.lt_of_lt_of_le (by decide) h.large

theorem room (h : ShadowTable sm) : occupied sm.slots < sm.slots.length := by
  have hpos := h.length_pos
  have hload := h.load
  have hpages := h.pages
  omega

/-- The probe finds the page, or a slot for it. -/
theorem find_none (h : ShadowTable sm) (hnone : sm.pages p = none) :
    ∃ s, shadowFindSlotLocked sm p = .free s :=
  h.good.findSlot_free h.room hnone

theorem find_some (h : ShadowTable sm) {page : ShadowPage} (hsome : sm.pages p = some page) :
    ∃ s : ℕ, shadowFindSlotLocked sm p = .hit s ∧ sm.slots[s]? = some (.occupied p page) := by
  obtain ⟨s, hs⟩ := h.good.lookup_eq_some.mp hsome
  exact ⟨s, h.good.findSlot_of_getElem? hs, hs⟩

/-- There is always an empty slot, where a probe stops. -/
theorem exists_empty (h : ShadowTable sm) :
    ∃ i < sm.slots.length, OpenMap.view sm.slots i = .empty := by
  by_contra hnone
  push Not at hnone
  have hcover : occupied sm.slots + OpenMap.tombstones sm.slots = sm.slots.length := by
    rw [occupied, OpenMap.tombstones, count, count, ← Finset.card_union_of_disjoint,
      ← Finset.filter_or, Finset.filter_true_of_mem, Finset.card_range]
    · intro i hi
      have hne := hnone i (Finset.mem_range.mp hi)
      cases hview : OpenMap.view sm.slots i with
      | empty => exact absurd hview hne
      | tombstone => exact Or.inr rfl
      | occupied key => exact Or.inl rfl
    · rw [Finset.disjoint_filter]
      intro i _ ho
      obtain ⟨key, hkey⟩ := Cell.isOccupied_iff.mp ho
      rw [hkey, isTombstone_occupied]
      exact Bool.false_ne_true
  have hpos := h.length_pos
  have hload := h.load
  rw [h.pages, h.tombstones] at hload
  omega

/-- The allocator does not matter to the table. -/
theorem withHeap (h : ShadowTable sm) (heap : Heap) : ShadowTable { sm with heap := heap } :=
  ⟨h.good, h.large, h.alloc, h.pages, h.tombstones, h.load⟩

/-- Growing the table keeps the pages and leaves room for one more, or fails for want of memory. -/
theorem rehash (h : ShadowTable sm) :
    (∃ sm', shadowRehashLocked sm (sm.slots.length * 2) = (true, sm') ∧ ShadowTable sm' ∧
      Grown sm sm' ∧ sm'.pages = sm.pages ∧
      sm'.pageCount + sm'.tombstoneCount + 1 ≤ sm'.slots.length * 7 / 10) ∨
    ∃ sm', shadowRehashLocked sm (sm.slots.length * 2) = (false, sm') ∧ ShadowTable sm' ∧
      Grown sm sm' ∧ sm'.pages = sm.pages ∧ Starved sm sm' := by
  obtain ⟨k, hk⟩ := h.good.size
  have hdouble : sm.slots.length * 2 = 2 ^ (k + 1) := by rw [hk, pow_succ]
  have hlt : sm.slots.length < 2 ^ (k + 1) := by
    have := h.length_pos
    omega
  rw [hdouble, shadowRehashLocked]
  cases hgranted : (sm.heap.calloc (2 ^ (k + 1)) 24).1 with
  | false =>
    right
    refine ⟨{ sm with heap := sm.heap.next }, ?_, h.withHeap _, ⟨rfl, le_rfl, Heap.Ample.next⟩,
      rfl, ?_⟩
    · dsimp only
      rw [if_pos hgranted]
      rfl
    · by_cases hample : sm.heap.Ample
      · right
        show sizeMax < sm.slots.length * 48
        by_contra hle
        rw [hample.calloc (by omega)] at hgranted
        cases hgranted
      · exact Or.inl hample
  | true =>
    left
    have hle := Heap.calloc_le hgranted
    obtain ⟨hgood, hlength, htombs, hocc, hlookup⟩ := h.good.rehash hlt
    have hload := h.load
    have hlarge := h.large
    have hpages : (sm.slots.countP fun slot => slot.cell.isOccupied) = sm.pageCount := by
      rw [h.pages, occupied_eq_countP]
    have hsmall : shadowInitialSlotCapacity = 64 := rfl
    generalize hnew : sm.slots.foldl (moveSlot shadowHash) (List.replicate (2 ^ (k + 1)) .empty) = new
      at hgood hlength htombs hocc hlookup
    refine ⟨⟨sm.guestBits, new, sm.pageCount, 0, sm.heap.next⟩, ?_, ?_, ?_, hlookup, ?_⟩
    · dsimp only
      rw [if_neg (by rw [hgranted]; decide), hpages]
      rfl
    · refine ⟨hgood, ?_, ?_, ?_, htombs.symm, ?_⟩
      · show shadowInitialSlotCapacity ≤ new.length
        omega
      · show new.length * 24 ≤ sizeMax
        omega
      · exact h.pages.trans hocc.symm
      · show sm.pageCount + 0 ≤ new.length * 7 / 10
        omega
    · refine ⟨rfl, ?_, Heap.Ample.next⟩
      show sm.slots.length ≤ new.length
      omega
    · show sm.pageCount + 0 + 1 ≤ new.length * 7 / 10
      omega

theorem ensureCapacity (h : ShadowTable sm) :
    (∃ sm', shadowEnsureCapacityLocked sm = (true, sm') ∧ ShadowTable sm' ∧ Grown sm sm' ∧
      sm'.pages = sm.pages ∧
      sm'.pageCount + sm'.tombstoneCount + 1 ≤ sm'.slots.length * 7 / 10) ∨
    ∃ sm', shadowEnsureCapacityLocked sm = (false, sm') ∧ ShadowTable sm' ∧ Grown sm sm' ∧
      sm'.pages = sm.pages ∧ Starved sm sm' := by
  unfold shadowEnsureCapacityLocked
  dsimp only
  split_ifs with hload hbig
  · exact Or.inl ⟨sm, rfl, h, Grown.refl sm, rfl, hload⟩
  · refine Or.inr ⟨sm, rfl, h, Grown.refl sm, rfl, Or.inr ?_⟩
    omega
  · exact h.rehash

/-- Storing an empty page where the probe may store. -/
theorem addPage (h : ShadowTable sm) {s : ℕ} (hfind : shadowFindSlotLocked sm p = .free s)
    (hroom : sm.pageCount + sm.tombstoneCount + 1 ≤ sm.slots.length * 7 / 10) (heap : Heap) :
    ShadowTable
      { sm with
        tombstoneCount :=
          if OpenMap.view sm.slots s = .tombstone then sm.tombstoneCount - 1
          else sm.tombstoneCount
        slots := sm.slots.set s (.occupied p .zero)
        pageCount := sm.pageCount + 1
        heap := heap } := by
  obtain ⟨hgood, -⟩ := h.good.store hfind .zero
  obtain ⟨hocc, htomb⟩ := h.good.counts_store hfind .zero
  have hpages := h.pages
  have htombs := h.tombstones
  have hcount : (if OpenMap.view sm.slots s = .tombstone then sm.tombstoneCount - 1
      else sm.tombstoneCount) = OpenMap.tombstones (sm.slots.set s (.occupied p .zero)) := by
    split_ifs with hview
    · rw [hview, isTombstone_tombstone, Bool.toNat_true] at htomb
      omega
    · have hzero : (OpenMap.view sm.slots s).isTombstone = false := by
        cases hcell : OpenMap.view sm.slots s with
        | empty => rfl
        | tombstone => exact absurd hcell hview
        | occupied key => rfl
      rw [hzero, Bool.toNat_false] at htomb
      omega
  have hle : (if OpenMap.view sm.slots s = .tombstone then sm.tombstoneCount - 1
      else sm.tombstoneCount) ≤ sm.tombstoneCount := by
    split_ifs
    · exact Nat.sub_le _ _
    · exact le_rfl
  refine ⟨hgood, ?_, ?_, ?_, hcount, ?_⟩
  · exact h.large.trans_eq List.length_set.symm
  · show (List.set _ _ _).length * 24 ≤ sizeMax
    rw [List.length_set]
    exact h.alloc
  · show sm.pageCount + 1 = occupied _
    rw [hocc, hpages]
  · show sm.pageCount + 1 + (if _ then _ else _) ≤ (List.set _ _ _).length * 7 / 10
    rw [List.length_set]
    omega

/-- Finding a page without creating it. -/
theorem pageLocked_false (h : ShadowTable sm) (p : ℕ) :
    (∃ (s : ℕ) (page : ShadowPage), shadowPageLocked sm p false = (some s, sm) ∧
      sm.slots[s]? = some (.occupied p page) ∧ sm.pages p = some page) ∨
    (shadowPageLocked sm p false = (none, sm) ∧ sm.pages p = none) := by
  cases hpage : sm.pages p with
  | none =>
    obtain ⟨s, hfind⟩ := h.find_none hpage
    refine Or.inr ⟨?_, rfl⟩
    rw [shadowPageLocked, hfind]
    rfl
  | some page =>
    obtain ⟨s, hfind, hslot⟩ := h.find_some hpage
    refine Or.inl ⟨s, page, ?_, hslot, rfl⟩
    rw [shadowPageLocked, hfind]

/-- Finding a page that is created on demand, or failing for want of memory. -/
theorem pageLocked_true (h : ShadowTable sm) (p : ℕ) :
    (∃ (s : ℕ) (sm' : ShadowMemory), shadowPageLocked sm p true = (some s, sm') ∧ ShadowTable sm' ∧
      Grown sm sm' ∧ sm'.slots[s]? = some (.occupied p ((sm.pages p).getD .zero)) ∧
      sm'.pages = Function.update sm.pages p (some ((sm.pages p).getD .zero))) ∨
    ∃ sm', shadowPageLocked sm p true = (none, sm') ∧ ShadowTable sm' ∧ Grown sm sm' ∧
      sm'.pages = sm.pages ∧ Starved sm sm' := by
  cases hpage : sm.pages p with
  | some page =>
    obtain ⟨s, hfind, hslot⟩ := h.find_some hpage
    refine Or.inl ⟨s, sm, ?_, h, Grown.refl sm, hslot, ?_⟩
    · rw [shadowPageLocked, hfind]
    · rw [Option.getD_some, ← hpage, Function.update_eq_self]
  | none =>
    obtain ⟨s, hfind⟩ := h.find_none hpage
    rw [shadowPageLocked, hfind]
    dsimp only
    rw [if_neg (by decide)]
    obtain ⟨sm₁, hensure, h₁, hgrown, hpages, hroom⟩ | ⟨sm₁, hensure, h₁, hgrown, hpages, hstarved⟩ :=
      h.ensureCapacity
    · rw [hensure]
      dsimp only
      obtain ⟨s₁, hfind₁⟩ := h₁.find_none ((congrFun hpages p).trans hpage)
      rw [hfind₁]
      dsimp only
      cases hgranted : (sm₁.heap.calloc 1 16388).1 with
      | false =>
        rw [if_pos rfl]
        refine Or.inr ⟨_, rfl, h₁.withHeap _, hgrown.trans ⟨rfl, le_rfl, Heap.Ample.next⟩, hpages,
          Or.inl fun hample => ?_⟩
        rw [(hgrown.ample hample).calloc (by decide)] at hgranted
        cases hgranted
      | true =>
        rw [if_neg (by decide)]
        obtain ⟨-, hlookup⟩ := h₁.good.store hfind₁ ShadowPage.zero
        have hlt := (h₁.good.find_spec p)
        rw [show findSlot shadowHash sm₁.slots p = .free s₁ from hfind₁] at hlt
        refine Or.inl ⟨s₁, _, rfl, h₁.addPage hfind₁ hroom _, ?_, ?_, ?_⟩
        · refine hgrown.trans ⟨rfl, ?_, Heap.Ample.next⟩
          exact List.length_set.ge
        · exact List.getElem?_set_self hlt.2.1
        · rw [← hpages]
          exact hlookup
    · rw [hensure]
      exact Or.inr ⟨sm₁, rfl, h₁, hgrown, hpages, hstarved⟩

/-- Changing a page in its slot. -/
theorem changePage (h : ShadowTable sm) {s : ℕ} {old : ShadowPage}
    (hslot : sm.slots[s]? = some (.occupied p old)) (page : ShadowPage) :
    ShadowTable { sm with slots := sm.slots.set s (.occupied p page) } ∧
      ShadowMemory.pages { sm with slots := sm.slots.set s (.occupied p page) } =
        Function.update sm.pages p (some page) := by
  obtain ⟨hgood, hlookup⟩ := h.good.change hslot page
  have hlt := (List.getElem?_eq_some_iff.mp hslot).1
  have hview := view_of_getElem? hslot
  have hocc := occupied_set hlt (.occupied p page)
  have htomb := tombstones_set hlt (.occupied p page)
  rw [hview] at hocc htomb
  refine ⟨⟨hgood, ?_, ?_, ?_, ?_, ?_⟩, hlookup⟩
  · exact h.large.trans_eq List.length_set.symm
  · show (List.set _ _ _).length * 24 ≤ sizeMax
    rw [List.length_set]
    exact h.alloc
  · exact h.pages.trans (Nat.add_right_cancel hocc).symm
  · exact h.tombstones.trans (Nat.add_right_cancel htomb).symm
  · show sm.pageCount + sm.tombstoneCount ≤ (List.set _ _ _).length * 7 / 10
    rw [List.length_set]
    exact h.load

theorem removePage (h : ShadowTable sm) {page : ShadowPage} (hpage : sm.pages p = some page) :
    ShadowTable (shadowRemovePageLocked sm p) ∧
      (shadowRemovePageLocked sm p).pages = Function.update sm.pages p none ∧
      Grown sm (shadowRemovePageLocked sm p) := by
  obtain ⟨s, hfind, hslot⟩ := h.find_some hpage
  obtain ⟨hgood, hlookup⟩ := h.good.erase hslot
  have hlt := (List.getElem?_eq_some_iff.mp hslot).1
  have hview := view_of_getElem? hslot
  have hocc := occupied_set hlt (.tombstone : ShadowPageSlot)
  have htomb := tombstones_set hlt (.tombstone : ShadowPageSlot)
  rw [hview] at hocc htomb
  have hpages := h.pages
  have htombs := h.tombstones
  have hload := h.load
  simp only [Slot.cell, isOccupied_occupied, isOccupied_tombstone, isTombstone_occupied,
    isTombstone_tombstone, Bool.toNat_true, Bool.toNat_false, Nat.add_zero] at hocc htomb
  rw [shadowRemovePageLocked, hfind]
  dsimp only
  refine ⟨⟨hgood, ?_, ?_, ?_, ?_, ?_⟩, hlookup, ⟨rfl, List.length_set.ge, id⟩⟩
  · exact h.large.trans_eq List.length_set.symm
  · show (List.set _ _ _).length * 24 ≤ sizeMax
    rw [List.length_set]
    exact h.alloc
  · show sm.pageCount - 1 = occupied (sm.slots.set s .tombstone)
    omega
  · show sm.tombstoneCount + 1 = OpenMap.tombstones (sm.slots.set s .tombstone)
    omega
  · show sm.pageCount - 1 + (sm.tombstoneCount + 1) ≤ (List.set _ _ _).length * 7 / 10
    rw [List.length_set]
    omega

end ShadowTable

/-! ### The memory as a map -/

/-- The memory holds the labels of a map, in pages that have a label to hold. -/
structure ShadowRefines (sm : ShadowMemory) (mem : ℕ → ℕ) : Prop where
  bits : sm.guestBits = 32
  table : ShadowTable sm
  counted : ∀ p page, sm.pages p = some page → page.Counted ∧ 0 < page.noncleanCount
  labels : ∀ p offset, offset < dtaShadowPageSize →
    ((sm.pages p).getD .zero).labels offset = mem (p * dtaShadowPageSize + offset)
  outside : ∀ a, 2 ^ 32 ≤ a → mem a = provLabelClean

namespace ShadowRefines

variable {sm sm' : ShadowMemory} {mem : ℕ → ℕ} {p : ℕ}

theorem getD_counted (h : ShadowRefines sm mem) (p : ℕ) : ((sm.pages p).getD .zero).Counted := by
  cases hpage : sm.pages p with
  | none => exact ShadowPage.zero_counted
  | some page => exact (h.counted p page hpage).1

/-- Only the table matters. -/
theorem congr (h : ShadowRefines sm mem) (htable : ShadowTable sm')
    (hbits : sm'.guestBits = sm.guestBits) (hpages : sm'.pages = sm.pages) :
    ShadowRefines sm' mem where
  bits := hbits.trans h.bits
  table := htable
  counted p page hpage := h.counted p page (hpages ▸ hpage)
  labels p offset hoffset := by
    rw [hpages]
    exact h.labels p offset hoffset
  outside := h.outside

/-- Writing in one page, seen from the pages. -/
theorem writeLabels_page (mem : ℕ → ℕ) {p q offset o : ℕ} {labels : List ℕ}
    (hfits : offset + labels.length ≤ dtaShadowPageSize) (ho : o < dtaShadowPageSize) :
    writeLabels mem (p * dtaShadowPageSize + offset) labels (q * dtaShadowPageSize + o) =
      if q = p then writeLabels (fun i => mem (p * dtaShadowPageSize + i)) offset labels o
      else mem (q * dtaShadowPageSize + o) := by
  rcases Nat.lt_trichotomy q p with hqp | rfl | hqp
  · rw [if_neg (Nat.ne_of_lt hqp)]
    apply writeLabels_of_lt
    have hmul : (q + 1) * dtaShadowPageSize ≤ p * dtaShadowPageSize :=
      Nat.mul_le_mul_right _ hqp
    rw [Nat.add_mul, Nat.one_mul] at hmul
    omega
  · rw [if_pos rfl]
    unfold writeLabels
    by_cases hle : offset ≤ o
    · rw [if_pos (Nat.add_le_add_left hle _), if_pos hle, Nat.add_sub_add_left]
    · rw [if_neg (by omega), if_neg hle]
  · rw [if_neg (Nat.ne_of_gt hqp)]
    apply writeLabels_of_ge
    have hmul : (p + 1) * dtaShadowPageSize ≤ q * dtaShadowPageSize :=
      Nat.mul_le_mul_right _ hqp
    rw [Nat.add_mul, Nat.one_mul] at hmul
    omega

/-- A page with some labels written, or no page where that leaves nothing in it. -/
theorem writePage (h : ShadowRefines sm mem) (htable : ShadowTable sm')
    (hbits : sm'.guestBits = sm.guestBits) {page : ShadowPage}
    (hpages : sm'.pages =
      Function.update sm.pages p (if page.noncleanCount = 0 then none else some page))
    (hcounted : page.Counted) {offset : ℕ} {labels : List ℕ}
    (hfits : offset + labels.length ≤ dtaShadowPageSize)
    (hlabels : page.labels = writeLabels ((sm.pages p).getD .zero).labels offset labels)
    (hin : (p + 1) * dtaShadowPageSize ≤ 2 ^ 32) :
    ShadowRefines sm' (writeLabels mem (p * dtaShadowPageSize + offset) labels) where
  bits := hbits.trans h.bits
  table := htable
  counted q stored hstored := by
    rw [hpages] at hstored
    by_cases hq : q = p
    · subst hq
      rw [Function.update_self] at hstored
      split_ifs at hstored with hzero
      obtain rfl := Option.some.inj hstored
      exact ⟨hcounted, Nat.pos_of_ne_zero hzero⟩
    · rw [Function.update_of_ne hq] at hstored
      exact h.counted q stored hstored
  labels q o ho := by
    rw [writeLabels_page mem hfits ho, hpages]
    by_cases hq : q = p
    · subst hq
      have hback : writeLabels (fun i => mem (q * dtaShadowPageSize + i)) offset labels o =
          page.labels o := by
        rw [hlabels]
        unfold writeLabels
        rw [h.labels q o ho]
      rw [Function.update_self, if_pos rfl, hback]
      split_ifs with hzero
      · -- a page that goes away was clean
        rw [hcounted, noncleanOf, Finset.card_eq_zero] at hzero
        have hclean := Finset.filter_eq_empty_iff.mp hzero (Finset.mem_range.mpr ho)
        exact (not_not.mp hclean).symm
      · rfl
    · rw [Function.update_of_ne hq, if_neg hq]
      exact h.labels q o ho
  outside a ha := by
    rw [Nat.add_mul, Nat.one_mul] at hin
    rw [writeLabels_of_ge (by omega)]
    exact h.outside a ha

/-- Nothing changes when clean labels are written where no page is. -/
theorem writeLabels_clean (h : ShadowRefines sm mem) (hpage : sm.pages p = none) {offset : ℕ}
    {labels : List ℕ} (hfits : offset + labels.length ≤ dtaShadowPageSize)
    (hclean : ∀ label ∈ labels, label = provLabelClean) :
    writeLabels mem (p * dtaShadowPageSize + offset) labels = mem := by
  funext a
  unfold writeLabels
  split_ifs with hle
  · cases hget : labels[a - (p * dtaShadowPageSize + offset)]? with
    | none => rfl
    | some label =>
      have hlt := (List.getElem?_eq_some_iff.mp hget).1
      have hlabel := hclean label (List.mem_of_getElem? hget)
      have hmem := h.labels p (a - p * dtaShadowPageSize) (by omega)
      rw [hpage, Nat.add_sub_cancel' (by omega)] at hmem
      rw [Option.getD_some, hlabel, ← hmem]
      rfl
  · rfl

/-- Writing the page that was found. -/
theorem writeFound (h : ShadowRefines sm mem) {sm₁ : ShadowMemory} (h₁ : ShadowTable sm₁)
    (hgrown : Grown sm sm₁) {s : ℕ}
    (hslot : sm₁.slots[s]? = some (.occupied p ((sm.pages p).getD .zero)))
    (hpages : sm₁.pages = Function.update sm.pages p (some ((sm.pages p).getD .zero))) {offset : ℕ}
    {labels : List ℕ} (hfits : offset + labels.length ≤ dtaShadowPageSize)
    (hin : (p + 1) * dtaShadowPageSize ≤ 2 ^ 32) :
    ∃ sm', shadowWritePage sm₁ s p offset labels = (true, sm') ∧ Grown sm sm' ∧
      ShadowRefines sm' (writeLabels mem (p * dtaShadowPageSize + offset) labels) := by
  obtain ⟨page, hstore, hcounted, hlabels⟩ := (h.getD_counted p).storeAll hfits
  obtain ⟨h₂, hpages₂⟩ := h₁.changePage hslot page
  rw [hpages, Function.update_idem] at hpages₂
  have hgrown₂ : Grown sm { sm₁ with slots := sm₁.slots.set s (.occupied p page) } :=
    hgrown.trans ⟨rfl, List.length_set.ge, id⟩
  rw [shadowWritePage, hslot]
  dsimp only
  rw [hstore]
  dsimp only
  rw [if_neg (by decide)]
  split_ifs with hzero
  · obtain ⟨h₃, hpages₃, hgrown₃⟩ :=
      h₂.removePage ((congrFun hpages₂ p).trans (Function.update_self _ _ _))
    rw [hpages₂, Function.update_idem] at hpages₃
    refine ⟨_, rfl, hgrown₂.trans hgrown₃, ?_⟩
    refine h.writePage h₃ (hgrown₂.trans hgrown₃).bits ?_ hcounted hfits hlabels hin
    rw [hpages₃, if_pos hzero]
  · refine ⟨_, rfl, hgrown₂, ?_⟩
    refine h.writePage h₂ hgrown₂.bits ?_ hcounted hfits hlabels hin
    rw [hpages₂, if_neg hzero]

/-- One round of the loops: the labels of one page are written, or nothing is for want of memory, which
clean labels do not take. -/
theorem storeChunk (h : ShadowRefines sm mem) {addr : ℕ} (haddr : addr < 2 ^ 32) {labels : List ℕ}
    {needsPage : Bool} (hneeds : needsPage = labels.any fun labelId => labelId != provLabelClean)
    (hfits : addr % dtaShadowPageSize + labels.length ≤ dtaShadowPageSize) :
    ∃ ok sm', shadowStoreChunk sm addr needsPage labels = (ok, sm') ∧ Grown sm sm' ∧
      (ok = true ∧ ShadowRefines sm' (writeLabels mem addr labels) ∨
        ok = false ∧ ShadowRefines sm' mem ∧ Starved sm sm' ∧ needsPage = true) := by
  have hsplit : addr / dtaShadowPageSize * dtaShadowPageSize + addr % dtaShadowPageSize = addr :=
    Nat.div_add_mod' addr dtaShadowPageSize
  have hin : (addr / dtaShadowPageSize + 1) * dtaShadowPageSize ≤ 2 ^ 32 := by
    have hdiv : addr / dtaShadowPageSize < 2 ^ 20 := Nat.div_lt_of_lt_mul haddr
    calc (addr / dtaShadowPageSize + 1) * dtaShadowPageSize
        ≤ 2 ^ 20 * dtaShadowPageSize := Nat.mul_le_mul_right _ hdiv
      _ = 2 ^ 32 := by decide
  unfold shadowStoreChunk
  dsimp only
  generalize addr / dtaShadowPageSize = p at *
  generalize addr % dtaShadowPageSize = offset at *
  rw [← hsplit]
  cases needsPage with
  | true =>
    obtain ⟨s, sm₁, hlocked, h₁, hgrown, hslot, hpages⟩ |
      ⟨sm₁, hlocked, h₁, hgrown, hpages, hstarved⟩ := h.table.pageLocked_true p
    · obtain ⟨sm', hwrite, hgrown', h'⟩ := h.writeFound h₁ hgrown hslot hpages hfits hin
      rw [hlocked]
      exact ⟨true, sm', hwrite, hgrown', Or.inl ⟨rfl, h'⟩⟩
    · rw [hlocked]
      exact ⟨false, sm₁, rfl, hgrown, Or.inr ⟨rfl, h.congr h₁ hgrown.bits hpages, hstarved, rfl⟩⟩
  | false =>
    obtain ⟨s, page, hlocked, hslot, hpage⟩ | ⟨hlocked, hpage⟩ := h.table.pageLocked_false p
    · have hslot' : sm.slots[s]? = some (.occupied p ((sm.pages p).getD .zero)) := by
        rw [hpage]
        exact hslot
      have hpages : sm.pages =
          Function.update sm.pages p (some ((sm.pages p).getD .zero)) := by
        rw [hpage, Option.getD_some, ← hpage, Function.update_eq_self]
      obtain ⟨sm', hwrite, hgrown', h'⟩ :=
        h.writeFound h.table (Grown.refl sm) hslot' hpages hfits hin
      rw [hlocked]
      exact ⟨true, sm', hwrite, hgrown', Or.inl ⟨rfl, h'⟩⟩
    · rw [hlocked]
      refine ⟨true, sm, rfl, Grown.refl sm, Or.inl ⟨rfl, ?_⟩⟩
      have hclean : ∀ label ∈ labels, label = provLabelClean := by
        intro label hmem
        have hno := List.any_eq_false.mp hneeds.symm label hmem
        exact not_not.mp fun hne => hno (bne_iff_ne.mpr hne)
      rw [h.writeLabels_clean hpage hfits hclean]
      exact h

/-! ### Ranges -/

theorem shadowChunk_spec (addr : ℕ) {count : ℕ} (h : 0 < count) :
    0 < shadowChunk addr count ∧ shadowChunk addr count ≤ count ∧
      addr % dtaShadowPageSize + shadowChunk addr count ≤ dtaShadowPageSize := by
  have hlt : addr % dtaShadowPageSize < dtaShadowPageSize := Nat.mod_lt _ (by decide)
  refine ⟨shadowChunk_pos addr h, ?_, ?_⟩ <;> unfold shadowChunk <;> dsimp only <;>
    split_ifs <;> omega

/-- The loop writes all labels, or those of the first pages for want of memory. -/
theorem storeChunks (h : ShadowRefines sm mem) {addr : ℕ} {labels : List ℕ}
    (hend : addr + labels.length ≤ 2 ^ 32) :
    ∃ ok sm' n, shadowStoreChunks sm addr labels = (ok, sm') ∧ Grown sm sm' ∧
      n ≤ labels.length ∧ ShadowRefines sm' (writeLabels mem addr (labels.take n)) ∧
      (ok = true → n = labels.length) ∧
      (ok = false → Starved sm sm' ∧ ∃ label ∈ labels, label ≠ provLabelClean) := by
  induction hlength : labels.length using Nat.strong_induction_on generalizing sm mem addr labels with
  | h length ih =>
    subst hlength
    rw [shadowStoreChunks]
    by_cases hnil : labels = []
    · subst hnil
      rw [if_pos rfl]
      exact ⟨true, sm, 0, rfl, Grown.refl sm, le_rfl, by rwa [List.take_nil, writeLabels_nil],
        fun _ => rfl, nofun⟩
    rw [if_neg hnil]
    dsimp only
    obtain ⟨hpos, hle, hfits⟩ := shadowChunk_spec addr (List.length_pos_of_ne_nil hnil)
    generalize shadowChunk addr labels.length = chunk at *
    have htake : (labels.take chunk).length = chunk := List.length_take_of_le hle
    obtain ⟨ok, sm₁, hchunk, hgrown, ⟨rfl, h₁⟩ | ⟨rfl, h₁, hstarved, hneeds⟩⟩ :=
      h.storeChunk (show addr < 2 ^ 32 by omega) rfl (by rw [htake]; exact hfits)
    · rw [hchunk]
      dsimp only
      have hrest : (labels.drop chunk).length = labels.length - chunk := List.length_drop
      have hend' : addr + chunk + (labels.drop chunk).length ≤ 2 ^ 32 := by omega
      obtain ⟨ok, sm₂, n, hloop, hgrown₂, hn, h₂, hall, hfail⟩ :=
        ih (labels.length - chunk) (by omega) h₁ hend' hrest
      refine ⟨ok, sm₂, chunk + n, hloop, hgrown.trans hgrown₂, by omega, ?_, fun hok => ?_,
        fun hok => ?_⟩
      · have happend := writeLabels_append mem addr (labels.take chunk) ((labels.drop chunk).take n)
        rw [htake] at happend
        rw [List.take_add, ← happend]
        exact h₂
      · rw [hall hok]
        omega
      · obtain ⟨hstarved, label, hmem, hne⟩ := hfail hok
        exact ⟨hstarved.imp_left fun hno hample => hno (hgrown.ample hample), label,
          List.mem_of_mem_drop hmem, hne⟩
    · rw [hchunk]
      refine ⟨false, sm₁, 0, rfl, hgrown, Nat.zero_le _, ?_, nofun, fun _ => ⟨hstarved, ?_⟩⟩
      · rw [List.take_zero, writeLabels_nil]
        exact h₁
      · obtain ⟨label, hmem, hne⟩ := List.any_eq_true.mp hneeds
        exact ⟨label, List.mem_of_mem_take hmem, bne_iff_ne.mp hne⟩

/-- A fill is a store of one label many times. -/
theorem fillChunks_eq (sm : ShadowMemory) (labelId addr size : ℕ) :
    shadowFillChunks sm labelId addr size =
      shadowStoreChunks sm addr (List.replicate size labelId) := by
  induction size using Nat.strong_induction_on generalizing sm addr with
  | h size ih =>
    rw [shadowFillChunks, shadowStoreChunks]
    by_cases hzero : size = 0
    · subst hzero
      rw [if_pos rfl, if_pos List.replicate_zero]
    rw [if_neg hzero, if_neg fun hnil => hzero ((List.replicate_eq_nil_iff labelId).mp hnil)]
    dsimp only
    rw [List.length_replicate]
    obtain ⟨hpos, hle, -⟩ := shadowChunk_spec addr (Nat.pos_of_ne_zero hzero)
    generalize shadowChunk addr size = chunk at *
    have hany : ((List.replicate chunk labelId).any fun labelId => labelId != provLabelClean) =
        (labelId != provLabelClean) := by
      rw [List.any_replicate, if_neg (Nat.ne_of_gt hpos)]
    rw [List.take_replicate, Nat.min_eq_left hle, List.drop_replicate, hany]
    split
    · rfl
    · exact ih (size - chunk) (by omega) _ _

end ShadowRefines

/-! ### Calls -/

/-- The calls that change the labels, each with the registry as it is then. -/
inductive ShadowOp where
  | store (registry : ProvRegistry) (addr : ℕ) (labels : List ℕ)
  | fill (registry : ProvRegistry) (addr size labelId : ℕ)

/-- Clearing a range is filling it with `CLEAN`. -/
def ShadowOp.clear (registry : ProvRegistry) (addr size : ℕ) : ShadowOp :=
  .fill registry addr size provLabelClean

def shadowCall (sm : ShadowMemory) : ShadowOp → Bool × ShadowMemory
  | .store registry addr labels => shadowStoreLabels registry sm addr labels
  | .fill registry addr size labelId => shadowFillLabel registry sm addr size labelId

/-- The first address of a call. -/
def ShadowOp.start : ShadowOp → ℕ
  | .store _ addr _ => addr % 2 ^ 32
  | .fill _ addr _ _ => addr % 2 ^ 32

/-- The labels of a call.  A fill ends with the memory. -/
def ShadowOp.labels : ShadowOp → List ℕ
  | .store _ _ labels => labels
  | .fill _ addr size labelId => List.replicate (min size (2 ^ 32 - addr % 2 ^ 32)) labelId

/-- A call that is not refused: the labels are valid and the range ends with the memory at most. -/
def ShadowOp.Accepted : ShadowOp → Prop
  | .store registry addr labels =>
    (∀ label ∈ labels, provLabelIdValidLocked registry label = true) ∧
      addr % 2 ^ 32 + labels.length ≤ 2 ^ 32
  | .fill registry _ _ labelId => provLabelIdValidLocked registry labelId = true

/-- What a call may do to a map and return: write its labels; write none, if it is refused; write
some from the first on, if memory runs out. -/
inductive MapStep (starved : Prop) (op : ShadowOp) (mem : ℕ → ℕ) : Bool → (ℕ → ℕ) → Prop
  | refused (h : ¬ op.Accepted) : MapStep starved op mem false mem
  | written (h : op.Accepted) : MapStep starved op mem true (writeLabels mem op.start op.labels)
  | cut (h : op.Accepted) (hstarved : starved) (n : ℕ) (hn : n ≤ op.labels.length) :
      MapStep starved op mem false (writeLabels mem op.start (op.labels.take n))

/-- A clamped range in 32 bits. -/
theorem shadowClampRange_eq {sm : ShadowMemory} (hbits : sm.guestBits = 32) (addr size : ℕ) :
    shadowClampRange sm addr size = (addr % 2 ^ 32, min size (2 ^ 32 - addr % 2 ^ 32)) := by
  have hand : addr &&& 0xffffffff = addr % 2 ^ 32 := Nat.and_two_pow_sub_one_eq_mod addr 32
  rw [shadowClampRange, shadowNormalizeAddr, if_pos hbits, if_pos hbits, hand]
  dsimp only
  split_ifs with hgt
  · rw [Nat.min_eq_right hgt.le]
  · rw [Nat.min_eq_left (Nat.not_lt.mp hgt)]

/-- **One call**: the memory goes the way of the map. -/
theorem ShadowRefines.call {sm : ShadowMemory} {mem : ℕ → ℕ} (h : ShadowRefines sm mem)
    (op : ShadowOp) :
    Grown sm (shadowCall sm op).2 ∧ ∃ mem',
      MapStep (Starved sm (shadowCall sm op).2) op mem (shadowCall sm op).1 mem' ∧
        ShadowRefines (shadowCall sm op).2 mem' := by
  have hstart : ∀ addr : ℕ, addr % 2 ^ 32 < 2 ^ 32 := fun addr =>
    Nat.mod_lt _ (Nat.two_pow_pos 32)
  -- what the loop does is what the map allows
  have hloop : ∀ {addr : ℕ} {labels : List ℕ} {op : ShadowOp}, op.start = addr →
      op.labels = labels → op.Accepted → addr + labels.length ≤ 2 ^ 32 →
      Grown sm (shadowStoreChunks sm addr labels).2 ∧ ∃ mem',
        MapStep (Starved sm (shadowStoreChunks sm addr labels).2) op mem
          (shadowStoreChunks sm addr labels).1 mem' ∧
        ShadowRefines (shadowStoreChunks sm addr labels).2 mem' := by
    rintro _ _ op rfl rfl haccepted hend
    obtain ⟨ok, sm', n, hstore, hgrown, hn, h', hall, hfail⟩ := h.storeChunks hend
    rw [hstore]
    refine ⟨hgrown, _, ?_, h'⟩
    cases ok with
    | true =>
      rw [hall rfl, List.take_length]
      exact .written haccepted
    | false => exact .cut haccepted (hfail rfl).1 n hn
  cases op with
  | store registry addr labels =>
    rw [shadowCall, shadowStoreLabels]
    by_cases hvalid : labels.all (provLabelIdValidLocked registry) = false
    · rw [if_pos hvalid]
      refine ⟨Grown.refl sm, mem, .refused fun haccepted => ?_, h⟩
      rw [List.all_eq_true.mpr haccepted.1] at hvalid
      cases hvalid
    rw [if_neg hvalid, shadowClampRange_eq h.bits]
    dsimp only
    by_cases hfits : addr % 2 ^ 32 + labels.length ≤ 2 ^ 32
    · rw [if_neg (not_not.mpr (Nat.min_eq_left (by omega)))]
      exact hloop rfl rfl
        ⟨List.all_eq_true.mp (Bool.eq_true_of_not_eq_false hvalid), hfits⟩ hfits
    · have := hstart addr
      rw [if_pos (by rw [Nat.min_eq_right (by omega)]; omega)]
      exact ⟨Grown.refl sm, mem, .refused fun haccepted => hfits haccepted.2, h⟩
  | fill registry addr size labelId =>
    rw [shadowCall, shadowFillLabel]
    by_cases hvalid : provLabelIdValidLocked registry labelId = false
    · rw [if_pos hvalid]
      refine ⟨Grown.refl sm, mem, .refused fun haccepted => ?_, h⟩
      have haccepted : provLabelIdValidLocked registry labelId = true := haccepted
      rw [haccepted] at hvalid
      cases hvalid
    rw [if_neg hvalid]
    have haccepted : (ShadowOp.fill registry addr size labelId).Accepted :=
      Bool.eq_true_of_not_eq_false hvalid
    by_cases hsize : size = 0
    · subst hsize
      rw [if_pos rfl]
      have hwritten := @MapStep.written (Starved sm sm) _ mem haccepted
      rw [ShadowOp.labels, Nat.zero_min, List.replicate_zero, writeLabels_nil] at hwritten
      exact ⟨Grown.refl sm, mem, hwritten, h⟩
    rw [if_neg hsize, shadowClampRange_eq h.bits]
    dsimp only
    rw [ShadowRefines.fillChunks_eq]
    refine hloop rfl rfl haccepted ?_
    have := hstart addr
    rw [List.length_replicate]
    omega

/-- Clearing a range never fails. -/
theorem ShadowRefines.clear {sm : ShadowMemory} {mem : ℕ → ℕ} (h : ShadowRefines sm mem)
    {registry : ProvRegistry} (hvalid : provLabelIdValidLocked registry provLabelClean = true)
    (addr size : ℕ) : ∃ sm', shadowFillLabel registry sm addr size provLabelClean = (true, sm') ∧
      Grown sm sm' ∧ ShadowRefines sm' (writeLabels mem (addr % 2 ^ 32)
        (List.replicate (min size (2 ^ 32 - addr % 2 ^ 32)) provLabelClean)) := by
  rw [shadowFillLabel, if_neg (ne_true_of_eq_false · hvalid)]
  by_cases hsize : size = 0
  · rw [if_pos hsize, hsize, Nat.zero_min, List.replicate_zero, writeLabels_nil]
    exact ⟨sm, rfl, .refl sm, h⟩
  have hstart : addr % 2 ^ 32 < 2 ^ 32 := Nat.mod_lt _ (Nat.two_pow_pos 32)
  rw [if_neg hsize, shadowClampRange_eq h.bits]
  dsimp only
  rw [ShadowRefines.fillChunks_eq]
  have hend : addr % 2 ^ 32 + (List.replicate (min size (2 ^ 32 - addr % 2 ^ 32)) provLabelClean).length
      ≤ 2 ^ 32 := by
    rw [List.length_replicate]
    omega
  obtain ⟨ok, sm', n, hstore, hgrown, -, h', hall, hfail⟩ := h.storeChunks hend
  cases ok with
  | true =>
    rw [hall rfl, List.take_length] at h'
    exact ⟨sm', hstore, hgrown, h'⟩
  | false =>
    obtain ⟨-, label, hmem, hne⟩ := hfail rfl
    exact absurd (List.eq_of_mem_replicate hmem) hne

/-! ### Runs -/

/-- The memory after some calls, and what the calls returned. -/
def shadowRun (sm : ShadowMemory) : List ShadowOp → List Bool × ShadowMemory
  | [] => ([], sm)
  | op :: ops =>
    let (ok, sm) := shadowCall sm op
    let (oks, sm) := shadowRun sm ops
    (ok :: oks, sm)

/-- What some calls may do to a map and return. -/
inductive MapRun (starved : Prop) : (ℕ → ℕ) → List ShadowOp → List Bool → (ℕ → ℕ) → Prop
  | nil (mem : ℕ → ℕ) : MapRun starved mem [] [] mem
  | cons {mem mem' mem'' : ℕ → ℕ} {op : ShadowOp} {ops : List ShadowOp} {ok : Bool}
      {oks : List Bool} (hstep : MapStep starved op mem ok mem')
      (hrun : MapRun starved mem' ops oks mem'') : MapRun starved mem (op :: ops) (ok :: oks) mem''

theorem MapStep.mono {starved starved' : Prop} (himp : starved → starved') {op : ShadowOp}
    {mem mem' : ℕ → ℕ} {ok : Bool} (h : MapStep starved op mem ok mem') :
    MapStep starved' op mem ok mem' := by
  cases h with
  | refused hno => exact .refused hno
  | written haccepted => exact .written haccepted
  | cut haccepted hstarved n hn => exact .cut haccepted (himp hstarved) n hn

theorem MapRun.mono {starved starved' : Prop} (himp : starved → starved') {ops : List ShadowOp}
    {mem mem' : ℕ → ℕ} {oks : List Bool} (h : MapRun starved mem ops oks mem') :
    MapRun starved' mem ops oks mem' := by
  induction h with
  | nil mem => exact .nil mem
  | cons hstep _ ih => exact .cons (hstep.mono himp) ih

/-- **All calls**: the memory goes the way of the map. -/
theorem ShadowRefines.run {sm : ShadowMemory} {mem : ℕ → ℕ} (h : ShadowRefines sm mem)
    (ops : List ShadowOp) :
    Grown sm (shadowRun sm ops).2 ∧ ∃ mem',
      MapRun (Starved sm (shadowRun sm ops).2) mem ops (shadowRun sm ops).1 mem' ∧
        ShadowRefines (shadowRun sm ops).2 mem' := by
  induction ops generalizing sm mem with
  | nil => exact ⟨Grown.refl sm, mem, .nil mem, h⟩
  | cons op ops ih =>
    obtain ⟨hgrown, mem₁, hstep, h₁⟩ := h.call op
    obtain ⟨hgrown₂, mem₂, hrun, h₂⟩ := ih h₁
    refine ⟨hgrown.trans hgrown₂, mem₂, .cons (hstep.mono ?_) (hrun.mono ?_), h₂⟩
    · -- the table only grows afterwards
      refine Or.imp_right fun hbig => ?_
      have hle := hgrown₂.length
      show sizeMax < (shadowRun (shadowCall sm op).2 ops).2.slots.length * 48
      omega
    · exact Or.imp_left fun hno hample => hno (hgrown.ample hample)

theorem ShadowRefines.create {heap : Heap} {sm : ShadowMemory}
    (hcreate : shadowCreateWithRegistry 32 heap = some sm) :
    ShadowRefines sm fun _ => provLabelClean := by
  unfold shadowCreateWithRegistry at hcreate
  dsimp only at hcreate
  split_ifs at hcreate
  obtain rfl := Option.some.inj hcreate
  have hgood : Good shadowHash (List.replicate shadowInitialSlotCapacity
      (.empty : ShadowPageSlot)) := Good.replicate shadowHash 6
  have hnone : ∀ p, lookup shadowHash (List.replicate shadowInitialSlotCapacity
      (.empty : ShadowPageSlot)) p = none := by
    intro p
    by_contra hsome
    obtain ⟨page, hpage⟩ := Option.ne_none_iff_exists'.mp hsome
    obtain ⟨i, hi⟩ := hgood.lookup_eq_some.mp hpage
    cases (List.mem_replicate.mp (List.mem_of_getElem? hi)).2
  refine ⟨rfl, ⟨hgood, List.length_replicate.ge, ?_, (occupied_replicate _).symm,
    (tombstones_replicate _).symm, Nat.zero_le _⟩, ?_, ?_, fun _ _ => rfl⟩
  · show (List.replicate shadowInitialSlotCapacity _).length * 24 ≤ sizeMax
    rw [List.length_replicate]
    decide
  · intro p page hpage
    rw [ShadowMemory.pages, hnone] at hpage
    cases hpage
  · intro p offset _
    rw [ShadowMemory.pages, hnone]
    rfl

/-! ### Reading -/

/-- Counting in blocks. -/
theorem card_filter_range_mul (P : ℕ → Prop) [DecidablePred P] (n m : ℕ) :
    ((Finset.range (n * m)).filter P).card =
      ∑ p ∈ Finset.range n, ((Finset.range m).filter fun i => P (p * m + i)).card := by
  induction n with
  | zero => rw [Nat.zero_mul, Finset.range_zero, Finset.sum_empty, Finset.filter_empty,
      Finset.card_empty]
  | succ n ih =>
    rw [Finset.sum_range_succ, ← ih, Nat.add_mul, Nat.one_mul, Finset.card_filter,
      Finset.card_filter, Finset.card_filter, Finset.sum_range_add]

/-- The labels that are not clean, as the counts of the pages have them. -/
def shadowNonclean (sm : ShadowMemory) : ℕ :=
  (sm.slots.map (Slot.weight fun _ page => page.noncleanCount)).sum

/-- What can be read from a memory that holds the labels of a map. -/
structure ShadowReads (sm : ShadowMemory) (mem : ℕ → ℕ) : Prop where
  load : ∀ addr, shadowLoadLabel sm addr = mem (addr % 2 ^ 32)
  loads : ∀ addr count, shadowLoadLabels sm addr count =
    if addr % 2 ^ 32 + count ≤ 2 ^ 32 then
      some ((List.range count).map fun index => mem (addr % 2 ^ 32 + index))
    else none
  hasTaint : ∀ addr, shadowPageHasTaint sm addr = true ↔ ∃ offset < dtaShadowPageSize,
    mem (addr % 2 ^ 32 / dtaShadowPageSize * dtaShadowPageSize + offset) ≠ provLabelClean
  nonclean : shadowNonclean sm =
    ((Finset.range (2 ^ 32)).filter fun a => mem a ≠ provLabelClean).card
  pages : ∀ (i p : ℕ) (page : ShadowPage), sm.slots[i]? = some (.occupied p page) →
    page.noncleanCount = noncleanOf page.labels ∧
      ∃ offset < dtaShadowPageSize, page.labels offset ≠ provLabelClean
  probes : ∀ p, ∃ s < sm.slots.length,
    shadowFindSlotLocked sm p = .hit s ∨ shadowFindSlotLocked sm p = .free s
  stops : ∃ i < sm.slots.length, OpenMap.view sm.slots i = .empty

theorem exists_of_noncleanOf_pos {labels : ℕ → ℕ} (h : 0 < noncleanOf labels) :
    ∃ offset < dtaShadowPageSize, labels offset ≠ provLabelClean := by
  obtain ⟨offset, hmem⟩ := Finset.card_pos.mp h
  obtain ⟨hlt, hne⟩ := Finset.mem_filter.mp hmem
  exact ⟨offset, Finset.mem_range.mp hlt, hne⟩

theorem noncleanOf_pos {labels : ℕ → ℕ} {offset : ℕ} (hlt : offset < dtaShadowPageSize)
    (hne : labels offset ≠ provLabelClean) : 0 < noncleanOf labels :=
  Finset.card_pos.mpr ⟨offset, Finset.mem_filter.mpr ⟨Finset.mem_range.mpr hlt, hne⟩⟩

namespace ShadowRefines

variable {sm : ShadowMemory} {mem : ℕ → ℕ}

theorem pageOf (h : ShadowRefines sm mem) (a : ℕ) :
    shadowPageOf sm a = sm.pages (a / dtaShadowPageSize) := by
  rw [shadowPageOf]
  obtain ⟨s, page, hlocked, hslot, hpage⟩ | ⟨hlocked, hpage⟩ :=
    h.table.pageLocked_false (a / dtaShadowPageSize)
  · rw [hlocked, hpage]
    dsimp only
    rw [hslot]
  · rw [hlocked, hpage]

theorem labelAt (h : ShadowRefines sm mem) (a : ℕ) : shadowLabelAt sm a = mem a := by
  have hlt : a % dtaShadowPageSize < dtaShadowPageSize := Nat.mod_lt _ (by decide)
  have hlabel := h.labels (a / dtaShadowPageSize) (a % dtaShadowPageSize) hlt
  rw [Nat.div_add_mod'] at hlabel
  rw [shadowLabelAt, h.pageOf, ← hlabel]
  cases sm.pages (a / dtaShadowPageSize) <;> rfl

theorem normalize (h : ShadowRefines sm mem) (addr : ℕ) :
    shadowNormalizeAddr sm addr = addr % 2 ^ 32 := by
  rw [shadowNormalizeAddr, if_pos h.bits]
  exact Nat.and_two_pow_sub_one_eq_mod addr 32

/-- The labels of a page that is there are those of the map. -/
theorem noncleanOf_page (h : ShadowRefines sm mem) (p : ℕ) :
    ((sm.pages p).elim 0 fun page => page.noncleanCount) =
      noncleanOf fun offset => mem (p * dtaShadowPageSize + offset) := by
  have hsame : noncleanOf ((sm.pages p).getD .zero).labels =
      noncleanOf fun offset => mem (p * dtaShadowPageSize + offset) := by
    refine congrArg Finset.card (Finset.filter_congr fun offset hoffset => ?_)
    rw [h.labels p offset (Finset.mem_range.mp hoffset)]
  have hcounted := h.getD_counted p
  rw [← hsame, ← hcounted]
  cases sm.pages p <;> rfl

/-- A page lies below the end of memory. -/
theorem page_lt (h : ShadowRefines sm mem) {p : ℕ} {page : ShadowPage}
    (hpage : sm.pages p = some page) : p < 2 ^ 20 := by
  obtain ⟨hcounted, hpos⟩ := h.counted p page hpage
  rw [hcounted] at hpos
  obtain ⟨offset, hoffset, hne⟩ := exists_of_noncleanOf_pos hpos
  have hlabel := h.labels p offset hoffset
  rw [hpage, Option.getD_some] at hlabel
  rw [hlabel] at hne
  by_contra hge
  apply hne
  apply h.outside
  show 2 ^ 32 ≤ p * 4096 + offset
  omega

theorem nonclean (h : ShadowRefines sm mem) : shadowNonclean sm =
    ((Finset.range (2 ^ 32)).filter fun a => mem a ≠ provLabelClean).card := by
  have hmul : 2 ^ 32 = 2 ^ 20 * dtaShadowPageSize := by decide
  rw [hmul, card_filter_range_mul, shadowNonclean, 
    h.table.good.sum_slots _ fun p page hpage => Finset.mem_range.mpr (h.page_lt hpage)]
  exact Finset.sum_congr rfl fun p _ => h.noncleanOf_page p

theorem reads (h : ShadowRefines sm mem) : ShadowReads sm mem where
  load addr := by rw [shadowLoadLabel, h.labelAt, h.normalize]
  loads addr count := by
    have hlt : addr % 2 ^ 32 < 2 ^ 32 := Nat.mod_lt _ (Nat.two_pow_pos 32)
    rw [shadowLoadLabels, shadowClampRange_eq h.bits]
    dsimp only
    by_cases hfits : addr % 2 ^ 32 + count ≤ 2 ^ 32
    · rw [if_neg (not_not.mpr (Nat.min_eq_left (by omega))), if_pos hfits]
      congr 1
      exact List.map_congr_left fun index _ => h.labelAt _
    · rw [if_pos (by rw [Nat.min_eq_right (by omega)]; omega), if_neg hfits]
  hasTaint addr := by
    have hcount := h.noncleanOf_page (addr % 2 ^ 32 / dtaShadowPageSize)
    rw [shadowPageHasTaint, h.normalize, h.pageOf]
    constructor
    · intro htaint
      apply exists_of_noncleanOf_pos
      rw [← hcount]
      revert htaint
      cases sm.pages (addr % 2 ^ 32 / dtaShadowPageSize) with
      | none => exact nofun
      | some page => exact fun htaint => Nat.pos_of_ne_zero (bne_iff_ne.mp htaint)
    · rintro ⟨offset, hoffset, hne⟩
      have hpos : 0 < noncleanOf fun offset =>
          mem (addr % 2 ^ 32 / dtaShadowPageSize * dtaShadowPageSize + offset) :=
        noncleanOf_pos hoffset hne
      rw [← hcount] at hpos
      revert hpos
      cases sm.pages (addr % 2 ^ 32 / dtaShadowPageSize) with
      | none => exact fun hpos => absurd hpos (lt_irrefl 0)
      | some page => exact fun hpos => bne_iff_ne.mpr (Nat.ne_of_gt hpos)
  nonclean := h.nonclean
  pages i p page hslot := by
    have hpage : sm.pages p = some page := h.table.good.lookup_eq_some.mpr ⟨i, hslot⟩
    obtain ⟨hcounted, hpos⟩ := h.counted p page hpage
    refine ⟨hcounted, exists_of_noncleanOf_pos ?_⟩
    rw [← hcounted]
    exact hpos
  probes p := by
    have hspec := h.table.good.find_spec p
    rw [shadowFindSlotLocked]
    cases hfind : findSlot shadowHash sm.slots p with
    | hit s =>
      rw [hfind] at hspec
      exact ⟨s, hspec.1, Or.inl rfl⟩
    | free s =>
      rw [hfind] at hspec
      exact ⟨s, hspec.2.1, Or.inr rfl⟩
    | full => exact absurd hfind (h.table.good.findSlot_ne_full h.table.room p)
  stops := h.table.exists_empty

end ShadowRefines

/-- **The shadow memory is a map.**  After any calls it reads as a map that started out clean and in
which each call wrote its labels; a call that is not refused writes all of them unless memory runs
out. -/
theorem shadow_refines_map {heap : Heap} {sm : ShadowMemory}
    (hcreate : shadowCreateWithRegistry 32 heap = some sm) (ops : List ShadowOp) :
    ∃ mem, MapRun (Starved sm (shadowRun sm ops).2) (fun _ => provLabelClean) ops
        (shadowRun sm ops).1 mem ∧ ShadowReads (shadowRun sm ops).2 mem := by
  obtain ⟨-, mem, hrun, h⟩ := (ShadowRefines.create hcreate).run ops
  exact ⟨mem, hrun, h.reads⟩

/-- Two bytes on both sides of a page boundary, the first of them cleared again. -/
theorem shadow_refines_map_boundary :
    ∃ registry sm, provRegistryCreate 0 ⟨fun _ => true⟩ = some registry ∧
      shadowCreateWithRegistry 32 ⟨fun _ => true⟩ = some sm ∧
      ∃ mem, MapRun
          (Starved sm
            (shadowRun sm [.fill registry 4095 2 provLabelUnknown, .clear registry 4095 1]).2)
          (fun _ => provLabelClean)
          [.fill registry 4095 2 provLabelUnknown, .clear registry 4095 1]
          (shadowRun sm [.fill registry 4095 2 provLabelUnknown, .clear registry 4095 1]).1 mem ∧
        ShadowReads
          (shadowRun sm [.fill registry 4095 2 provLabelUnknown, .clear registry 4095 1]).2 mem :=
  ⟨_, _, rfl, rfl, @shadow_refines_map ⟨fun _ => true⟩ _ rfl _⟩

end TaintForge
