import TaintForge.Dse.AuxBuffers
import Mathlib.Algebra.BigOperators.Group.List.Basic

/-!
# The accounting of the captured bytes

Room for captured bytes is taken from one budget.  Every operation changes the budget by what it
changes the buffers of its slot by, and what was captured stays at the beginning of the buffers.

* `growStringCapacity_stable`, `growStringCapacity_bounds`: the doubling ends, between the request and
  the limit.
* `SlotHolds`: the buffers of a slot hold what was captured.
* `Accounts`: an operation on a slot and the budget.
* `captureBuffers_forget`: without the buffers a capture is the one of `Dse.AuxTrace`.
* `AuxMemory.Accounted`: the invariant of all runs.
-/

namespace TaintForge

/-! ### The capacity -/

/-- So many doublings lead from a capacity to the largest. -/
def Doublings (n capacity : ℕ) : Prop :=
  0 < capacity ∧ capacity ≤ dseMaxStringBytesPerInsn ∧ dseMaxStringBytesPerInsn ≤ capacity * 2 ^ n

theorem Doublings.double {n capacity : ℕ} (h : Doublings (n + 1) capacity)
    (hsmall : capacity < dseMaxStringBytesPerInsn / 2) : Doublings n (capacity * 2) := by
  obtain ⟨hpos, hle, hreach⟩ := h
  refine ⟨by omega, by unfold dseMaxStringBytesPerInsn at *; omega, ?_⟩
  calc dseMaxStringBytesPerInsn ≤ capacity * 2 ^ (n + 1) := hreach
    _ = capacity * 2 * 2 ^ n := by ring

theorem doublings_of_pos {capacity : ℕ} (hpos : 0 < capacity)
    (hle : capacity ≤ dseMaxStringBytesPerInsn) : Doublings 16 capacity := by
  refine ⟨hpos, hle, ?_⟩
  unfold dseMaxStringBytesPerInsn
  omega

theorem growStringCapacity_of_le {required capacity : ℕ} (h : required ≤ capacity) (fuel : ℕ) :
    growStringCapacity required fuel capacity = capacity := by
  cases fuel with
  | zero => rfl
  | succ fuel => rw [growStringCapacity, if_neg (not_lt.mpr h)]

/-- The loop has ended by itself: more rounds change nothing. -/
theorem growStringCapacity_stable {required n capacity : ℕ} (h : Doublings n capacity)
    (hrequired : required ≤ dseMaxStringBytesPerInsn) (more : ℕ) :
    growStringCapacity required (n + more) capacity = growStringCapacity required n capacity := by
  induction n generalizing capacity with
  | zero =>
    have hfull : dseMaxStringBytesPerInsn ≤ capacity := by simpa using h.2.2
    have hle : required ≤ capacity := hrequired.trans hfull
    rw [growStringCapacity_of_le hle, growStringCapacity_of_le hle]
  | succ n ih =>
    rw [Nat.add_right_comm, growStringCapacity, growStringCapacity]
    split
    · split
      · rfl
      · rename_i hsmall
        exact ih (h.double (not_le.mp hsmall))
    · rfl

/-- The capacity that is found is enough, not too large and not smaller than the old one. -/
theorem growStringCapacity_bounds {required n capacity : ℕ} (h : Doublings n capacity)
    (hrequired : required ≤ dseMaxStringBytesPerInsn) :
    required ≤ growStringCapacity required n capacity ∧
      growStringCapacity required n capacity ≤ dseMaxStringBytesPerInsn ∧
      capacity ≤ growStringCapacity required n capacity := by
  induction n generalizing capacity with
  | zero =>
    have hfull : dseMaxStringBytesPerInsn ≤ capacity := by simpa using h.2.2
    exact ⟨hrequired.trans hfull, h.2.1, le_rfl⟩
  | succ n ih =>
    rw [growStringCapacity]
    split
    · split
      · exact ⟨hrequired, le_rfl, h.2.1⟩
      · rename_i hsmall
        obtain ⟨henough, hlimit, hmore⟩ := ih (h.double (not_le.mp hsmall))
        exact ⟨henough, hlimit, by omega⟩
    · rename_i henough
      exact ⟨not_lt.mp henough, h.2.1, le_rfl⟩

/-! ### Blocks of memory -/

@[simp] theorem length_freshBlock (junk : ℕ → BitVec 8) (size : ℕ) :
    (freshBlock junk size).length = size := by
  simp [freshBlock]

theorem length_memcpy {destination source : List (BitVec 8)} {count : ℕ}
    (hsource : count ≤ source.length) (hdestination : count ≤ destination.length) :
    (memcpy destination source count).length = destination.length := by
  simp [memcpy]
  omega

theorem take_memcpy {destination source : List (BitVec 8)} {count : ℕ}
    (hsource : count ≤ source.length) :
    (memcpy destination source count).take count = source.take count := by
  have hlength : (source.take count).length = count := by simp [hsource]
  rw [memcpy, List.take_append_of_le_length hlength.ge, List.take_of_length_le hlength.le]

@[simp] theorem length_pokeBytes (block bytes : List (BitVec 8)) (start : ℕ) :
    (pokeBytes block start bytes).length = block.length := by
  induction bytes generalizing block start with
  | nil => rfl
  | cons byte bytes ih => rw [pokeBytes, ih, List.length_set]

theorem take_pokeBytes {block bytes : List (BitVec 8)} {start : ℕ}
    (h : start + bytes.length ≤ block.length) :
    (pokeBytes block start bytes).take (start + bytes.length) = block.take start ++ bytes := by
  induction bytes generalizing block start with
  | nil => simp [pokeBytes]
  | cons byte bytes ih =>
    rw [List.length_cons] at h
    have hroom : start + 1 + bytes.length ≤ (block.set start byte).length := by
      rw [List.length_set]
      omega
    have hcount : start + (bytes.length + 1) = start + 1 + bytes.length := by omega
    have hstep : (block.set start byte).take (start + 1) = block.take start ++ [byte] := by
      have hstart : start < block.length := by omega
      rw [List.take_succ_eq_append_getElem (by simpa using hstart), List.take_set_of_le le_rfl,
        List.getElem_set_self]
    rw [pokeBytes, List.length_cons, hcount, ih hroom, hstep, List.append_assoc]
    rfl

/-! ### A slot and its buffers -/

/-- The taint of captured bytes as it is stored. -/
def storedTaint (taint : List Bool) : List (BitVec 8) := taint.map fun t => if t then 1 else 0

/-- The buffers of a slot are as large as its capacity and begin with what was captured. -/
structure SlotHolds (slot : AuxSlot) : Prop where
  limit : slot.aux.stringSummary.capacity ≤ dseMaxStringBytesPerInsn
  room : slot.aux.stringSummary.bytesCaptured ≤ slot.aux.stringSummary.capacity
  valuesLength : slot.buffers.values.length = slot.aux.stringSummary.capacity
  taintLength : slot.buffers.valueTaint.length = slot.aux.stringSummary.capacity
  values : slot.buffers.values.take slot.aux.stringSummary.bytesCaptured =
    slot.aux.stringSummary.values
  taint : slot.buffers.valueTaint.take slot.aux.stringSummary.bytesCaptured =
    storedTaint slot.aux.stringSummary.valueTaint

theorem SlotHolds.size {slot : AuxSlot} (h : SlotHolds slot) :
    slot.buffers.size = slot.aux.stringSummary.capacity * 2 := by
  rw [StringBuffers.size, h.valuesLength, h.taintLength]
  omega

theorem slotHolds_cleared {aux : InsnAux} (h : aux.stringSummary = .zero) :
    SlotHolds ⟨aux, .null⟩ := by
  constructor <;> simp [h, DseStringSummary.zero, StringBuffers.null, storedTaint]

/-- The fields of a summary that are about its buffers. -/
structure KeepsBytes (aux aux' : InsnAux) : Prop where
  capacity : aux'.stringSummary.capacity = aux.stringSummary.capacity
  bytesCaptured : aux'.stringSummary.bytesCaptured = aux.stringSummary.bytesCaptured
  values : aux'.stringSummary.values = aux.stringSummary.values
  valueTaint : aux'.stringSummary.valueTaint = aux.stringSummary.valueTaint

theorem KeepsBytes.refl (aux : InsnAux) : KeepsBytes aux aux := ⟨rfl, rfl, rfl, rfl⟩

theorem KeepsBytes.trans {aux aux' aux'' : InsnAux} (h : KeepsBytes aux aux')
    (h' : KeepsBytes aux' aux'') : KeepsBytes aux aux'' :=
  ⟨h'.capacity.trans h.capacity, h'.bytesCaptured.trans h.bytesCaptured, h'.values.trans h.values,
    h'.valueTaint.trans h.valueTaint⟩

theorem SlotHolds.keeps {slot : AuxSlot} (h : SlotHolds slot) {aux : InsnAux}
    (hkeeps : KeepsBytes slot.aux aux) : SlotHolds ⟨aux, slot.buffers⟩ := by
  obtain ⟨hcapacity, hcaptured, hvalues, htaint⟩ := hkeeps
  refine ⟨?_, ?_, ?_, ?_, ?_, ?_⟩
  · rw [hcapacity]
    exact h.limit
  · rw [hcaptured, hcapacity]
    exact h.room
  · rw [hcapacity]
    exact h.valuesLength
  · rw [hcapacity]
    exact h.taintLength
  · rw [hcaptured, hvalues]
    exact h.values
  · rw [hcaptured, htaint]
    exact h.taint

theorem keepsBytes_mark (aux : InsnAux) : KeepsBytes aux (dseAuxMarkStringMismatch aux) :=
  ⟨rfl, rfl, rfl, rfl⟩

theorem keepsBytes_validate (aux : InsnAux) (first index observed : ℕ) :
    KeepsBytes aux (dseAuxValidateStringAddress aux first index observed) := by
  unfold dseAuxValidateStringAddress
  dsimp only
  split_ifs
  all_goals exact ⟨rfl, rfl, rfl, rfl⟩

theorem keepsBytes_prepare (aux : InsnAux) (insn : InsnMeta) :
    KeepsBytes aux (dseAuxPrepareString aux insn) := by
  unfold dseAuxPrepareString
  dsimp only
  split_ifs
  all_goals exact ⟨rfl, rfl, rfl, rfl⟩

theorem keepsBytes_resolve (aux : InsnAux) (post : PostState) :
    KeepsBytes aux (dseAuxResolveStringPostState aux post).2 := by
  unfold dseAuxResolveStringPostState
  dsimp only
  split_ifs
  all_goals exact ⟨rfl, rfl, rfl, rfl⟩

theorem keepsBytes_finalize (aux : InsnAux) (nextPc : BitVec 64) (post : PostState) :
    KeepsBytes aux (dseAuxFinalize aux nextPc post) := by
  unfold dseAuxFinalize
  dsimp only
  split_ifs
  · exact ⟨rfl, rfl, rfl, rfl⟩
  · have hresolve := keepsBytes_resolve
      { aux with nextPc := nextPc, nextPcValid := true, executionComplete := true } post
    exact ⟨hresolve.capacity, hresolve.bytesCaptured, hresolve.values, hresolve.valueTaint⟩

/-! ### Making room -/

/-- The budget changes by what the buffers of the slot change by, and stays within its maximum. -/
structure Accounts (ring ring' : DseAuxRing) (slot slot' : AuxSlot) : Prop where
  entries : ring'.entries = ring.entries
  maxDynamicBytes : ring'.maxDynamicBytes = ring.maxDynamicBytes
  bytes : ring'.dynamicBytes + slot.buffers.size = ring.dynamicBytes + slot'.buffers.size
  bound : ring.dynamicBytes ≤ ring.maxDynamicBytes → ring'.dynamicBytes ≤ ring'.maxDynamicBytes

theorem Accounts.same {ring ring' : DseAuxRing} {slot slot' : AuxSlot}
    (hentries : ring'.entries = ring.entries) (hbytes : ring'.dynamicBytes = ring.dynamicBytes)
    (hmax : ring'.maxDynamicBytes = ring.maxDynamicBytes)
    (hsize : slot'.buffers.size = slot.buffers.size) : Accounts ring ring' slot slot' := by
  refine ⟨hentries, hmax, by rw [hbytes, hsize], ?_⟩
  rw [hbytes, hmax]
  exact id

/-- What making room does to a slot. -/
structure Reserved (ring : DseAuxRing) (slot : AuxSlot) (required : ℕ)
    (result : Bool × DseAuxRing × AuxSlot) : Prop where
  accounts : Accounts ring result.2.1 slot result.2.2
  holds : SlotHolds result.2.2
  enough : result.1 = true → required ≤ result.2.2.aux.stringSummary.capacity
  refused : result.1 = false → result.2.2 = slot
  record : ∃ capacity, result.2.2.aux =
    slot.aux.mapString fun summary => { summary with capacity := capacity }
  values : result.2.2.buffers.values.take slot.aux.stringSummary.bytesCaptured =
    slot.buffers.values.take slot.aux.stringSummary.bytesCaptured
  taint : result.2.2.buffers.valueTaint.take slot.aux.stringSummary.bytesCaptured =
    slot.buffers.valueTaint.take slot.aux.stringSummary.bytesCaptured

/-- Nothing is done when there is no need or no room. -/
theorem Reserved.unchanged {ring ring' : DseAuxRing} {slot : AuxSlot} {required : ℕ} {ok : Bool}
    (h : SlotHolds slot) (hentries : ring'.entries = ring.entries)
    (hbytes : ring'.dynamicBytes = ring.dynamicBytes)
    (hmax : ring'.maxDynamicBytes = ring.maxDynamicBytes)
    (henough : ok = true → required ≤ slot.aux.stringSummary.capacity) :
    Reserved ring slot required (ok, ring', slot) :=
  ⟨.same hentries hbytes hmax rfl, h, henough, fun _ => rfl,
    ⟨slot.aux.stringSummary.capacity, rfl⟩, rfl, rfl⟩

/-- The copy into a larger block keeps what was captured. -/
theorem copied_spec (junk : ℕ → BitVec 8) {block : List (BitVec 8)} {count size : ℕ}
    (hcount : count ≤ block.length) (hsize : block.length ≤ size) :
    (if count ≠ 0 then memcpy (freshBlock junk size) block count else freshBlock junk size).length =
        size ∧
      (if count ≠ 0 then memcpy (freshBlock junk size) block count
        else freshBlock junk size).take count = block.take count := by
  by_cases hzero : count = 0
  · simp [hzero]
  · rw [if_pos hzero]
    have hfits : count ≤ (freshBlock junk size).length := by
      rw [length_freshBlock]
      omega
    exact ⟨by rw [length_memcpy hcount hfits, length_freshBlock], take_memcpy hcount⟩

/-- The search for a capacity starts where it can end. -/
theorem startCapacity_doublings {slot : AuxSlot} (h : SlotHolds slot) :
    Doublings 16 (if slot.aux.stringSummary.capacity ≠ 0 then
      slot.aux.stringSummary.capacity else 64) := by
  by_cases hzero : slot.aux.stringSummary.capacity = 0
  · rw [if_neg (not_not.mpr hzero)]
    exact doublings_of_pos (by decide) (by decide)
  · rw [if_pos hzero]
    exact doublings_of_pos (Nat.pos_of_ne_zero hzero) h.limit

/-- The capacity that a slot grows to. -/
theorem grownCapacity_bounds {slot : AuxSlot} (h : SlotHolds slot) (required : ℕ)
    (hrequired : required ≤ dseMaxStringBytesPerInsn)
    (hneed : slot.aux.stringSummary.capacity < required) :
    let capacity := growStringCapacity required 16
      (if slot.aux.stringSummary.capacity ≠ 0 then slot.aux.stringSummary.capacity else 64)
    required ≤ capacity ∧ capacity ≤ dseMaxStringBytesPerInsn ∧
      slot.aux.stringSummary.capacity ≤ capacity := by
  obtain ⟨henough, hlimit, -⟩ :=
    growStringCapacity_bounds (startCapacity_doublings h) hrequired
  exact ⟨henough, hlimit, hneed.le.trans henough⟩

theorem reserveBuffers_spec (ring : DseAuxRing) {slot : AuxSlot} (h : SlotHolds slot) (required : ℕ)
    (junk : Junk) : Reserved ring slot required (reserveBuffers ring slot required junk) := by
  have hbounds := grownCapacity_bounds h required
  unfold reserveBuffers
  dsimp only at hbounds ⊢
  generalize growStringCapacity required 16 _ = capacity at *
  by_cases hlarge : required > dseMaxStringBytesPerInsn
  · rw [if_pos hlarge]
    exact .unchanged h rfl rfl rfl nofun
  rw [if_neg hlarge]
  by_cases henough : required ≤ slot.aux.stringSummary.capacity
  · rw [if_pos henough]
    exact .unchanged h rfl rfl rfl fun _ => henough
  rw [if_neg henough]
  by_cases hbudget : ring.dynamicBytes > ring.maxDynamicBytes ∨
      (capacity - slot.aux.stringSummary.capacity) * 2 > ring.maxDynamicBytes - ring.dynamicBytes
  · rw [if_pos hbudget]
    exact .unchanged h rfl rfl rfl nofun
  rw [if_neg hbudget]
  by_cases hgranted : (ring.heap.calloc 1 capacity).1 = false ∨
      ((ring.heap.calloc 1 capacity).2.calloc 1 capacity).1 = false
  · rw [if_pos hgranted]
    exact .unchanged h rfl rfl rfl nofun
  rw [if_neg hgranted]
  obtain ⟨hroom, hlimit, hgrows⟩ := hbounds (not_lt.mp hlarge) (not_le.mp henough)
  obtain ⟨hvaluesLength, hvalues⟩ := copied_spec junk.values
    (h.room.trans h.valuesLength.ge) (h.valuesLength.trans_le hgrows)
  obtain ⟨htaintLength, htaint⟩ := copied_spec junk.valueTaint
    (h.room.trans h.taintLength.ge) (h.taintLength.trans_le hgrows)
  -- both blocks are chosen by the same test
  generalize hbuffers : (if slot.aux.stringSummary.bytesCaptured ≠ 0 then
      (⟨memcpy (freshBlock junk.values capacity) slot.buffers.values
          slot.aux.stringSummary.bytesCaptured,
        memcpy (freshBlock junk.valueTaint capacity) slot.buffers.valueTaint
          slot.aux.stringSummary.bytesCaptured⟩ : StringBuffers)
    else ⟨freshBlock junk.values capacity, freshBlock junk.valueTaint capacity⟩) = buffers
  have hfirst : buffers.values = _ := (congrArg StringBuffers.values hbuffers.symm).trans
    (apply_ite StringBuffers.values _ _ _)
  have hsecond : buffers.valueTaint = _ := (congrArg StringBuffers.valueTaint hbuffers.symm).trans
    (apply_ite StringBuffers.valueTaint _ _ _)
  rw [← hfirst] at hvaluesLength hvalues
  rw [← hsecond] at htaintLength htaint
  have hsize : buffers.size = capacity * 2 := by
    rw [StringBuffers.size, hvaluesLength, htaintLength]
    omega
  refine ⟨⟨rfl, rfl, ?_, fun _ => ?_⟩, ⟨hlimit, h.room.trans hgrows, hvaluesLength, htaintLength,
    hvalues.trans h.values, htaint.trans h.taint⟩, fun _ => hroom, nofun, ⟨capacity, rfl⟩, hvalues,
    htaint⟩
  · rw [h.size]
    change ring.dynamicBytes + (capacity - slot.aux.stringSummary.capacity) * 2 + _ =
      ring.dynamicBytes + buffers.size
    rw [hsize]
    omega
  · change ring.dynamicBytes + (capacity - slot.aux.stringSummary.capacity) * 2 ≤ ring.maxDynamicBytes
    omega

/-- Without the buffers, making room is what it is for the records. -/
theorem reserveBuffers_forget (ring : DseAuxRing) (slot : AuxSlot) (required : ℕ) (junk : Junk) :
    ((reserveBuffers ring slot required junk).1, (reserveBuffers ring slot required junk).2.1,
      (reserveBuffers ring slot required junk).2.2.aux) =
        dseAuxStringReserve ring slot.aux required := by
  unfold reserveBuffers dseAuxStringReserve
  dsimp only
  generalize growStringCapacity required 16 _ = capacity
  split_ifs
  all_goals rfl

/-! ### Capturing a read -/

@[simp] theorem length_valueBytes (value : BitVec 64) (size : ℕ) :
    (valueBytes value size).length = size := by
  simp [valueBytes]

@[simp] theorem length_taintBytes (taint : BitVec 8) (size : ℕ) :
    (taintBytes taint size).length = size := by
  simp [taintBytes]

theorem storedTaint_append (taint : List Bool) (value : BitVec 8) (size : ℕ) :
    storedTaint (taint ++ (List.range size).map value.getLsbD) =
      storedTaint taint ++ taintBytes value size := by
  simp [storedTaint, taintBytes]

/-- The bytes of a read follow what was captured before. -/
theorem SlotHolds.append {slot : AuxSlot} (h : SlotHolds slot) (value : BitVec 64)
    (valueTaint : BitVec 8) {size : ℕ}
    (hroom : slot.aux.stringSummary.bytesCaptured + size ≤ slot.aux.stringSummary.capacity) :
    SlotHolds ⟨slot.aux.mapString fun summary => summary.appendBytes value valueTaint size,
      ⟨pokeBytes slot.buffers.values slot.aux.stringSummary.bytesCaptured (valueBytes value size),
        pokeBytes slot.buffers.valueTaint slot.aux.stringSummary.bytesCaptured
          (taintBytes valueTaint size)⟩⟩ := by
  refine ⟨h.limit, hroom, ?_, ?_, ?_, ?_⟩
  · exact (length_pokeBytes _ _ _).trans h.valuesLength
  · exact (length_pokeBytes _ _ _).trans h.taintLength
  · have hfits : slot.aux.stringSummary.bytesCaptured + (valueBytes value size).length ≤
        slot.buffers.values.length := by
      rw [length_valueBytes, h.valuesLength]
      exact hroom
    have hpoke := take_pokeBytes hfits
    rw [length_valueBytes, h.values] at hpoke
    exact hpoke
  · have hfits : slot.aux.stringSummary.bytesCaptured + (taintBytes valueTaint size).length ≤
        slot.buffers.valueTaint.length := by
      rw [length_taintBytes, h.taintLength]
      exact hroom
    have hpoke := take_pokeBytes hfits
    rw [length_taintBytes, h.taint] at hpoke
    exact hpoke.trans (storedTaint_append _ _ _).symm

theorem keepsBytes_noteRead (aux : InsnAux) (address : ℕ) : KeepsBytes aux (noteRead aux address) := by
  unfold noteRead
  dsimp only
  split_ifs
  · exact ⟨rfl, rfl, rfl, rfl⟩
  · exact ⟨rfl, rfl, rfl, rfl⟩
  · exact (keepsBytes_validate aux _ _ address).trans ⟨rfl, rfl, rfl, rfl⟩

theorem storeRead_spec (ring : DseAuxRing) {slot : AuxSlot} (h : SlotHolds slot) (value : BitVec 64)
    (valueTaint : BitVec 8) (size : ℕ) (junk : Junk) :
    Accounts ring (storeRead ring slot value valueTaint size junk).1 slot
        (storeRead ring slot value valueTaint size junk).2 ∧
      SlotHolds (storeRead ring slot value valueTaint size junk).2 := by
  unfold storeRead
  dsimp only
  by_cases hfull : slot.aux.stringSummary.bytesCaptured > dseMaxStringBytesPerInsn - size
  · rw [if_pos hfull]
    exact ⟨.same rfl rfl rfl rfl, h.keeps ⟨rfl, rfl, rfl, rfl⟩⟩
  rw [if_neg hfull]
  have hreserved := reserveBuffers_spec ring h (slot.aux.stringSummary.bytesCaptured + size) junk
  generalize reserveBuffers ring slot _ junk = result at *
  obtain ⟨reserved, ring', slot'⟩ := result
  have haccounts : Accounts ring ring' slot slot' := hreserved.accounts
  dsimp only
  by_cases hrefused : reserved = false
  · rw [if_pos hrefused]
    exact ⟨⟨haccounts.entries, haccounts.maxDynamicBytes, haccounts.bytes, haccounts.bound⟩,
      hreserved.holds.keeps ⟨rfl, rfl, rfl, rfl⟩⟩
  rw [if_neg hrefused]
  obtain ⟨capacity, hrecord⟩ := hreserved.record
  dsimp only at hrecord
  have hcaptured : slot'.aux.stringSummary.bytesCaptured = slot.aux.stringSummary.bytesCaptured := by
    rw [hrecord]
    rfl
  have hroom : slot'.aux.stringSummary.bytesCaptured + size ≤ slot'.aux.stringSummary.capacity := by
    rw [hcaptured]
    exact hreserved.enough (by simpa using hrefused)
  have happended := hreserved.holds.append value valueTaint hroom
  rw [hcaptured] at happended
  refine ⟨⟨haccounts.entries, haccounts.maxDynamicBytes, ?_, haccounts.bound⟩, happended⟩
  rw [haccounts.bytes]
  simp [StringBuffers.size]

/-- A capture keeps the buffers in order and the budget in step. -/
theorem captureBuffers_spec (ring : DseAuxRing) {slot : AuxSlot} (h : SlotHolds slot) (address : ℕ)
    (value : BitVec 64) (valueValid : Bool) (valueTaint : BitVec 8) (size : ℕ) (junk : Junk) :
    Accounts ring (captureBuffers ring slot address value valueValid valueTaint size junk).1 slot
        (captureBuffers ring slot address value valueValid valueTaint size junk).2 ∧
      SlotHolds (captureBuffers ring slot address value valueValid valueTaint size junk).2 := by
  have hmark : Accounts ring ring slot (slot.mapAux dseAuxMarkStringMismatch) ∧
      SlotHolds (slot.mapAux dseAuxMarkStringMismatch) :=
    ⟨.same rfl rfl rfl rfl, h.keeps (keepsBytes_mark slot.aux)⟩
  unfold captureBuffers
  dsimp only
  split_ifs
  · exact ⟨.same rfl rfl rfl rfl, h⟩
  · exact hmark
  · exact hmark
  · have hnoted : SlotHolds (slot.mapAux fun aux => noteRead aux address) :=
      h.keeps (keepsBytes_noteRead slot.aux address)
    obtain ⟨haccounts, hholds⟩ := storeRead_spec ring hnoted value valueTaint size junk
    exact ⟨⟨haccounts.entries, haccounts.maxDynamicBytes, haccounts.bytes, haccounts.bound⟩, hholds⟩

/-- What a capture does to the record once the read has been noted. -/
def storeReadRecord (ring : DseAuxRing) (aux : InsnAux) (value : BitVec 64) (valueTaint : BitVec 8)
    (size : ℕ) : DseAuxRing × InsnAux :=
  if aux.stringSummary.bytesCaptured > dseMaxStringBytesPerInsn - size then
    (ring, aux.mapString fun summary => { summary with overflow := true })
  else
    let (reserved, ring, aux) :=
      dseAuxStringReserve ring aux (aux.stringSummary.bytesCaptured + size)
    if reserved = false then
      (ring, aux.mapString fun summary => { summary with overflow := true })
    else (ring, aux.mapString fun summary => summary.appendBytes value valueTaint size)

theorem storeRead_forget (ring : DseAuxRing) (slot : AuxSlot) (value : BitVec 64)
    (valueTaint : BitVec 8) (size : ℕ) (junk : Junk) :
    ((storeRead ring slot value valueTaint size junk).1,
      (storeRead ring slot value valueTaint size junk).2.aux) =
        storeReadRecord ring slot.aux value valueTaint size := by
  unfold storeRead storeReadRecord
  dsimp only
  by_cases hfull : slot.aux.stringSummary.bytesCaptured > dseMaxStringBytesPerInsn - size
  · rw [if_pos hfull, if_pos hfull]
    rfl
  rw [if_neg hfull, if_neg hfull,
    ← reserveBuffers_forget ring slot (slot.aux.stringSummary.bytesCaptured + size) junk]
  generalize reserveBuffers ring slot _ junk = result
  dsimp only
  by_cases hrefused : result.1 = false
  · rw [if_pos hrefused, if_pos hrefused]
    rfl
  · rw [if_neg hrefused, if_neg hrefused]

/-- Without the buffers, a capture is what it is for the records. -/
theorem captureBuffers_forget (ring : DseAuxRing) (slot : AuxSlot) (address : ℕ) (value : BitVec 64)
    (valueValid : Bool) (valueTaint : BitVec 8) (size : ℕ) (junk : Junk) :
    ((captureBuffers ring slot address value valueValid valueTaint size junk).1,
      (captureBuffers ring slot address value valueValid valueTaint size junk).2.aux) =
        dseAuxCaptureStringRead ring slot.aux address value valueValid valueTaint size := by
  unfold captureBuffers dseAuxCaptureStringRead
  dsimp only
  by_cases hactive : slot.aux.stringSummary.active = false ∨ slot.aux.stringSummary.kind ≠ .movs
  · rw [if_pos hactive, if_pos hactive]
  by_cases hvalid : valueValid = false
  · rw [if_neg hactive, if_neg hactive, if_pos hvalid, if_pos hvalid]
    rfl
  by_cases hsize : size = 0 ∨ size ≠ slot.aux.stringSummary.elementSize ∨ size > 8
  · rw [if_neg hactive, if_neg hactive, if_neg hvalid, if_neg hvalid, if_pos hsize, if_pos hsize]
    rfl
  rw [if_neg hactive, if_neg hactive, if_neg hvalid, if_neg hvalid, if_neg hsize, if_neg hsize]
  exact storeRead_forget ring (slot.mapAux fun aux => noteRead aux address) value valueTaint size junk

/-! ### All runs -/

namespace AuxMemory

/-- The budget is what the buffers of all slots take, and they hold what was captured. -/
structure Accounted (m : AuxMemory) : Prop where
  maxDynamicBytes : m.ring.maxDynamicBytes = dseMaxStringTraceBytes
  slots : List.Forall₂ (fun aux buffers => SlotHolds ⟨aux, buffers⟩) m.ring.entries m.buffers
  total : m.ring.dynamicBytes = m.totalBytes
  bound : m.ring.dynamicBytes ≤ m.ring.maxDynamicBytes

/-- Other buffers in one slot change the sum by what they change. -/
theorem sum_set {l : List StringBuffers} {i : ℕ} {old : StringBuffers} (h : l[i]? = some old)
    (new : StringBuffers) :
    ((l.set i new).map StringBuffers.size).sum + old.size =
      (l.map StringBuffers.size).sum + new.size := by
  induction l generalizing i with
  | nil => simp at h
  | cons b l ih =>
    cases i with
    | zero =>
      obtain rfl : b = old := by simpa using h
      simp only [List.set_cons_zero, List.map_cons, List.sum_cons]
      omega
    | succ i =>
      have hrest := ih (by simpa using h)
      simp only [List.set_cons_succ, List.map_cons, List.sum_cons]
      omega

theorem forall₂_set {l : List InsnAux} {l' : List StringBuffers}
    (h : List.Forall₂ (fun aux buffers => SlotHolds ⟨aux, buffers⟩) l l') {slot : AuxSlot}
    (hslot : SlotHolds slot) (i : ℕ) :
    List.Forall₂ (fun aux buffers => SlotHolds ⟨aux, buffers⟩) (l.set i slot.aux)
      (l'.set i slot.buffers) := by
  induction h generalizing i with
  | nil => exact .nil
  | cons hhead htail ih =>
    cases i with
    | zero => exact .cons hslot htail
    | succ i => exact .cons hhead (ih i)

variable {m : AuxMemory}

theorem slot?_eq_some {i : ℕ} {slot : AuxSlot} :
    m.slot? i = some slot ↔ m.ring.entries[i]? = some slot.aux ∧ m.buffers[i]? = some slot.buffers := by
  unfold slot?
  cases haux : m.ring.entries[i]? with
  | none => simp
  | some aux =>
    cases hbuffers : m.buffers[i]? with
    | none => simp
    | some buffers =>
      constructor
      · intro h
        obtain rfl := Option.some.inj h
        exact ⟨rfl, rfl⟩
      · rintro ⟨haux', hbuffers'⟩
        rw [Option.some.inj haux', Option.some.inj hbuffers']

/-- The slots of an accounted ring hold what was captured. -/
theorem Accounted.holds (h : m.Accounted) {i : ℕ} {slot : AuxSlot} (hslot : m.slot? i = some slot) :
    SlotHolds slot := by
  obtain ⟨haux, hbuffers⟩ := slot?_eq_some.mp hslot
  obtain ⟨hi, haux⟩ := List.getElem?_eq_some_iff.mp haux
  obtain ⟨hi', hbuffers⟩ := List.getElem?_eq_some_iff.mp hbuffers
  have hget := h.slots.get hi hi'
  rw [List.get_eq_getElem, List.get_eq_getElem, haux, hbuffers] at hget
  exact hget

/-- The budget covers each slot. -/
theorem Accounted.covers (h : m.Accounted) {i : ℕ} {slot : AuxSlot} (hslot : m.slot? i = some slot) :
    slot.buffers.size ≤ m.ring.dynamicBytes := by
  have hsum := sum_set (slot?_eq_some.mp hslot).2 .null
  have hnull : StringBuffers.null.size = 0 := rfl
  have htotal : m.ring.dynamicBytes = (m.buffers.map StringBuffers.size).sum := h.total
  omega

/-- An operation on one slot keeps the accounts when it keeps those of the slot. -/
theorem Accounted.put (h : m.Accounted) {i : ℕ} {slot : AuxSlot} (hslot : m.slot? i = some slot)
    {ring : DseAuxRing} {slot' : AuxSlot} (haccounts : Accounts m.ring ring slot slot')
    (hholds : SlotHolds slot') : (AuxMemory.put ring m i slot').Accounted := by
  refine ⟨haccounts.maxDynamicBytes.trans h.maxDynamicBytes, ?_, ?_, haccounts.bound h.bound⟩
  · have hset := forall₂_set h.slots hholds i
    rw [← haccounts.entries] at hset
    exact hset
  · have hsum := sum_set (slot?_eq_some.mp hslot).2 slot'.buffers
    have hbytes := haccounts.bytes
    have htotal : m.ring.dynamicBytes = (m.buffers.map StringBuffers.size).sum := h.total
    change ring.dynamicBytes = ((m.buffers.set i slot'.buffers).map StringBuffers.size).sum
    omega

theorem Accounted.stepSlot (h : m.Accounted) (i : ℕ)
    {f : DseAuxRing → AuxSlot → DseAuxRing × AuxSlot}
    (hf : ∀ slot, SlotHolds slot → slot.buffers.size ≤ m.ring.dynamicBytes →
      Accounts m.ring (f m.ring slot).1 slot (f m.ring slot).2 ∧ SlotHolds (f m.ring slot).2) :
    (m.stepSlot i f).Accounted := by
  unfold AuxMemory.stepSlot
  split
  · exact h
  · rename_i slot hslot
    obtain ⟨haccounts, hholds⟩ := hf slot (h.holds hslot) (h.covers hslot)
    exact h.put hslot haccounts hholds

/-- A slot gives back what its buffers took. -/
theorem accounts_release {ring : DseAuxRing} {slot : AuxSlot} (h : SlotHolds slot)
    (hcovers : slot.buffers.size ≤ ring.dynamicBytes) (aux : InsnAux) :
    Accounts ring (dseAuxReleaseString ring slot.aux) slot ⟨aux, .null⟩ := by
  have hsize := h.size
  have hnull : StringBuffers.null.size = 0 := rfl
  have hcovered : slot.aux.stringSummary.capacity * 2 ≤ ring.dynamicBytes := by omega
  refine ⟨rfl, rfl, ?_, fun hbound => ?_⟩
  · change (if _ then _ else _) + _ = _ + StringBuffers.null.size
    rw [if_pos hcovered]
    omega
  · change (if _ then _ else _) ≤ ring.maxDynamicBytes
    rw [if_pos hcovered]
    omega

theorem Accounted.reuse (h : m.Accounted) (ref : TraceRef) (exec : InsnExec) :
    (m.step (.reuse ref exec)).Accounted := by
  unfold AuxMemory.step
  dsimp only
  unfold dseAuxRecord
  split_ifs with hseq
  · exact h
  cases hstored : m.ring.entries[ref.slot]? with
  | none => exact h
  | some stored =>
    -- the buffers of the slot are there as well
    have hlength := h.slots.length_eq
    obtain ⟨hi, -⟩ := List.getElem?_eq_some_iff.mp hstored
    have hbuffers : m.buffers[ref.slot]? = some (m.buffers.get ⟨ref.slot, hlength ▸ hi⟩) :=
      List.getElem?_eq_getElem _
    have hslot : m.slot? ref.slot = some ⟨stored, m.buffers.get ⟨ref.slot, hlength ▸ hi⟩⟩ :=
      slot?_eq_some.mpr ⟨hstored, hbuffers⟩
    exact h.put hslot (accounts_release (h.holds hslot) (h.covers hslot) _)
      (slotHolds_cleared rfl)

/-- Every operation keeps the accounts. -/
theorem Accounted.step (h : m.Accounted) (op : AuxOp) : (m.step op).Accounted := by
  unfold AuxMemory.step
  cases op with
  | reserve i required junk =>
    apply h.stepSlot
    intro slot hslot _
    have hreserved := reserveBuffers_spec m.ring hslot required junk
    exact ⟨hreserved.accounts, hreserved.holds⟩
  | capture i address value valueValid valueTaint size junk =>
    apply h.stepSlot
    intro slot hslot _
    exact captureBuffers_spec m.ring hslot address value valueValid valueTaint size junk
  | prepare i insn =>
    apply h.stepSlot
    intro slot hslot _
    exact ⟨.same rfl rfl rfl rfl, hslot.keeps (keepsBytes_prepare slot.aux insn)⟩
  | finalize i nextPc post =>
    apply h.stepSlot
    intro slot hslot _
    exact ⟨.same rfl rfl rfl rfl, hslot.keeps (keepsBytes_finalize slot.aux nextPc post)⟩
  | reuse ref exec => exact h.reuse ref exec
  | release i =>
    apply h.stepSlot
    intro slot hslot hcovers
    exact ⟨accounts_release hslot hcovers _, slotHolds_cleared rfl⟩

theorem Accounted.run (h : m.Accounted) (ops : List AuxOp) : (m.run ops).Accounted := by
  induction ops generalizing m with
  | nil => exact h
  | cons op ops ih => exact ih (h.step op)

/-- A new ring owes nothing. -/
theorem accounted_create {capacity : ℕ} {heap : Heap} (h : create capacity heap = some m) :
    m.Accounted := by
  obtain ⟨ring, hring, rfl⟩ := Option.map_eq_some_iff.mp h
  unfold dseAuxCreate at hring
  split at hring
  · obtain rfl := Option.some.inj hring
    refine ⟨rfl, ?_, ?_, Nat.zero_le _⟩
    · refine List.forall₂_iff_get.mpr ⟨by simp, ?_⟩
      intro i hi hi'
      simp only [List.get_eq_getElem, List.getElem_replicate]
      exact slotHolds_cleared rfl
    · simp [totalBytes, StringBuffers.null, StringBuffers.size]
  · cases hring

end AuxMemory

/-- What a request for room comes to: the search for a capacity ends, a granted request gets a
capacity between what was asked for and the limit, a refused one changes nothing, and the bytes
captured so far stay where they are. -/
structure ReserveSound (slot : AuxSlot) (required : ℕ) (result : Bool × DseAuxRing × AuxSlot) :
    Prop where
  ends : required ≤ dseMaxStringBytesPerInsn → ∀ more,
    growStringCapacity required (16 + more)
        (if slot.aux.stringSummary.capacity ≠ 0 then slot.aux.stringSummary.capacity else 64) =
      growStringCapacity required 16
        (if slot.aux.stringSummary.capacity ≠ 0 then slot.aux.stringSummary.capacity else 64)
  granted : result.1 = true → required ≤ result.2.2.aux.stringSummary.capacity ∧
    result.2.2.aux.stringSummary.capacity ≤ dseMaxStringBytesPerInsn
  refused : result.1 = false → result.2.2 = slot
  captured : result.2.2.aux.stringSummary.bytesCaptured = slot.aux.stringSummary.bytesCaptured
  values : result.2.2.buffers.values.take slot.aux.stringSummary.bytesCaptured =
    slot.buffers.values.take slot.aux.stringSummary.bytesCaptured
  taint : result.2.2.buffers.valueTaint.take slot.aux.stringSummary.bytesCaptured =
    slot.buffers.valueTaint.take slot.aux.stringSummary.bytesCaptured

theorem reserveBuffers_sound (ring : DseAuxRing) {slot : AuxSlot} (h : SlotHolds slot)
    (required : ℕ) (junk : Junk) :
    ReserveSound slot required (reserveBuffers ring slot required junk) := by
  have hreserved := reserveBuffers_spec ring h required junk
  obtain ⟨capacity, hrecord⟩ := hreserved.record
  refine ⟨?_, fun hok => ⟨hreserved.enough hok, hreserved.holds.limit⟩, hreserved.refused, ?_,
    hreserved.values, hreserved.taint⟩
  · intro hrequired more
    exact growStringCapacity_stable (startCapacity_doublings h) hrequired more
  · rw [hrecord]
    rfl

/-- In every run of a ring the budget is the sum of the capacities of the two buffers of all slots,
which are as large as the capacities say, and never more than the maximum; and room is made in every
slot as it should be. -/
theorem aux_buffers_accounted {capacity : ℕ} {heap : Heap} {m : AuxMemory}
    (hcreate : AuxMemory.create capacity heap = some m) (ops : List AuxOp) :
    (m.run ops).ring.dynamicBytes =
        ((m.run ops).ring.entries.map fun aux => 2 * aux.stringSummary.capacity).sum ∧
      (m.run ops).ring.dynamicBytes ≤ dseMaxStringTraceBytes ∧
      ∀ i slot, (m.run ops).slot? i = some slot →
        slot.buffers.values.length = slot.aux.stringSummary.capacity ∧
        slot.buffers.valueTaint.length = slot.aux.stringSummary.capacity ∧
        ∀ required junk, ReserveSound slot required
          (reserveBuffers (m.run ops).ring slot required junk) := by
  have haccounted := (AuxMemory.accounted_create hcreate).run ops
  generalize m.run ops = m' at *
  refine ⟨?_, haccounted.maxDynamicBytes ▸ haccounted.bound, ?_⟩
  · rw [haccounted.total, AuxMemory.totalBytes]
    congr 1
    have hslots := haccounted.slots
    generalize m'.ring.entries = entries at hslots ⊢
    generalize m'.buffers = buffers at hslots ⊢
    induction hslots with
    | nil => rfl
    | cons hhead _ ih =>
      rw [List.map_cons, List.map_cons, ih, hhead.size, Nat.mul_comm]
  · intro i slot hslot
    have hholds := haccounted.holds hslot
    exact ⟨hholds.valuesLength, hholds.taintLength, reserveBuffers_sound m'.ring hholds⟩

/-- A ring of two slots where room for a read has been made in the first one. -/
theorem aux_buffers_accounted_two :
    ∃ m, AuxMemory.create 2 ⟨fun _ => true⟩ = some m ∧
      (m.run [.reserve 0 65 ⟨fun _ => 7, fun _ => 9⟩]).ring.dynamicBytes = 256 ∧
      (m.run [.reserve 0 65 ⟨fun _ => 7, fun _ => 9⟩]).ring.dynamicBytes ≤
        dseMaxStringTraceBytes := by
  refine ⟨_, rfl, by decide, ?_⟩
  have hcreate : AuxMemory.create 2 ⟨fun _ => true⟩ =
      some ⟨⟨List.replicate 2 .zero, 0, dseMaxStringTraceBytes, ⟨fun _ => true⟩⟩,
        List.replicate 2 .null⟩ := rfl
  exact (aux_buffers_accounted hcreate [.reserve 0 65 ⟨fun _ => 7, fun _ => 9⟩]).2.1

end TaintForge
