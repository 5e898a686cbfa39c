import TaintForge.Lib.Windows
import TaintForge.Dse.Equiv.StringTransfer

/-!
# The ranges of a `movs`

The elements of a `movs` fill a window of the 32-bit addresses, upwards from the first one or downwards, and
the window may go on from the last address to the first.

* `DseStringSummary.slot`: the place of an element in its window.
* `stringElementAddress_slot`: where an element is, from the start of the window on.
* `dseMovsSummaryRangesOverlap_iff`: the test for an overlap.
-/

namespace TaintForge

open BitVec (window)

namespace DseStringSummary

/-- The number of bytes. -/
def total (summary : DseStringSummary) : ℕ := summary.expectedIterations * summary.elementSize

/-- The place of an element, counted from the low addresses on. -/
def slot (summary : DseStringSummary) (event : ℕ) : ℕ :=
  if summary.direction < 0 then summary.expectedIterations - 1 - event else event

/-- The lowest address of a range, if it does not go on from the last address to the first. -/
def rangeStart (summary : DseStringSummary) (first : ℕ) : BitVec 32 :=
  if summary.direction < 0 then
    BitVec.ofNat 32 first - BitVec.ofNat 32 ((summary.expectedIterations - 1) * summary.elementSize)
  else BitVec.ofNat 32 first

variable {summary : DseStringSummary} {event byte : ℕ}

theorem slot_lt (h : event < summary.expectedIterations) : summary.slot event < summary.expectedIterations := by
  rw [slot]
  split <;> omega

theorem slot_slot (h : event < summary.expectedIterations) : summary.slot (summary.slot event) = event := by
  rw [slot, slot]
  split <;> omega

theorem slot_byte_lt (h : event < summary.expectedIterations) (hbyte : byte < summary.elementSize) :
    summary.slot event * summary.elementSize + byte < summary.total := by
  have hmul : (summary.slot event + 1) * summary.elementSize ≤ summary.total :=
    Nat.mul_le_mul_right _ (slot_lt h)
  rw [Nat.succ_mul] at hmul
  omega

end DseStringSummary

open DseStringSummary

section Ranges

variable {summary : DseStringSummary}

/-- **An element is at its place in the window.** -/
theorem stringElementAddress_slot (hdir : summary.direction = 1 ∨ summary.direction = -1) (first : ℕ) {event : ℕ}
    (hevent : event < summary.expectedIterations) :
    stringElementAddress first summary.direction summary.elementSize event =
      summary.rangeStart first + BitVec.ofNat 32 (summary.slot event * summary.elementSize) := by
  rw [stringElementAddress, rangeStart, slot]
  rcases hdir with hdir | hdir
  · rw [hdir, if_neg (by decide), if_neg (by decide), one_mul, ← Nat.cast_mul, BitVec.ofInt_natCast]
  · rw [hdir, if_pos (by decide), if_pos (by decide)]
    -- what is missing to the last element
    have hsplit : (summary.expectedIterations - 1) * summary.elementSize =
        (summary.expectedIterations - 1 - event) * summary.elementSize + event * summary.elementSize := by
      rw [← Nat.add_mul]
      congr 1
      omega
    have hneg : BitVec.ofInt 32 (-1 * (event : ℤ) * summary.elementSize) =
        -BitVec.ofNat 32 (event * summary.elementSize) := by
      rw [neg_one_mul, neg_mul, BitVec.ofInt_neg, ← Nat.cast_mul, BitVec.ofInt_natCast]
    rw [hneg, hsplit, BitVec.ofNat_add]
    ring

theorem stringByteAddress_slot (hdir : summary.direction = 1 ∨ summary.direction = -1) (first : ℕ) {event : ℕ}
    (hevent : event < summary.expectedIterations) (byte : ℕ) :
    dseStringEventByteAddress first summary.direction summary.elementSize event byte =
      (summary.rangeStart first +
        BitVec.ofNat 32 (summary.slot event * summary.elementSize + byte)).toNat := by
  rw [dseStringEventByteAddress_eq, stringElementAddress_slot hdir first hevent, BitVec.ofNat_add,
    BitVec.add_assoc]

/-- Different bytes are at different addresses. -/
theorem stringByteAddress_injOn (hdir : summary.direction = 1 ∨ summary.direction = -1)
    (htotal : summary.total < 2 ^ 32) {first event event' byte byte' : ℕ}
    (hevent : event < summary.expectedIterations) (hbyte : byte < summary.elementSize)
    (hevent' : event' < summary.expectedIterations) (hbyte' : byte' < summary.elementSize)
    (hsame : dseStringEventByteAddress first summary.direction summary.elementSize event byte =
      dseStringEventByteAddress first summary.direction summary.elementSize event' byte') :
    event = event' ∧ byte = byte' := by
  rw [stringByteAddress_slot hdir first hevent, stringByteAddress_slot hdir first hevent'] at hsame
  have hoffset := window_offset_inj ((slot_byte_lt hevent hbyte).trans htotal)
    ((slot_byte_lt hevent' hbyte').trans htotal) (BitVec.eq_of_toNat_eq hsame)
  have hslot : summary.slot event = summary.slot event' := by
    have hdiv := congrArg (· / summary.elementSize) hoffset
    have hpos : 0 < summary.elementSize := by omega
    rwa [Nat.mul_comm, Nat.mul_comm (summary.slot event'), Nat.mul_add_div hpos, Nat.mul_add_div hpos,
      Nat.div_eq_of_lt hbyte, Nat.div_eq_of_lt hbyte'] at hdiv
  refine ⟨?_, by rw [hslot] at hoffset; omega⟩
  rw [← slot_slot hevent, hslot, slot_slot hevent']

/-- The bytes of all elements are those of the window. -/
theorem mem_window_iff (hdir : summary.direction = 1 ∨ summary.direction = -1) {first : ℕ} {a : BitVec 32} :
    a ∈ window (summary.rangeStart first) summary.total ↔
      ∃ event < summary.expectedIterations, ∃ byte < summary.elementSize,
        dseStringEventByteAddress first summary.direction summary.elementSize event byte = a.toNat := by
  constructor
  · rintro ⟨j, hj, rfl⟩
    have hpos : 0 < summary.elementSize := by
      by_contra h
      rw [total, Nat.eq_zero_of_not_pos h, Nat.mul_zero] at hj
      exact absurd hj (Nat.not_lt_zero j)
    have hevent : j / summary.elementSize < summary.expectedIterations := Nat.div_lt_of_lt_mul (by
      rwa [Nat.mul_comm])
    refine ⟨summary.slot (j / summary.elementSize), slot_lt hevent, j % summary.elementSize,
      Nat.mod_lt _ hpos, ?_⟩
    rw [stringByteAddress_slot hdir first (slot_lt hevent), slot_slot hevent, Nat.mul_comm, Nat.div_add_mod]
  · rintro ⟨event, hevent, byte, hbyte, haddr⟩
    rw [stringByteAddress_slot hdir first hevent] at haddr
    exact ⟨_, slot_byte_lt hevent hbyte, BitVec.eq_of_toNat_eq haddr⟩

/-- **The test for an overlap**: it fails if and only if no byte that is written is one that is read. -/
theorem dseMovsSummaryRangesOverlap_iff (hkind : summary.kind = .movs)
    (hdir : summary.direction = 1 ∨ summary.direction = -1) (htotal : summary.total < 2 ^ 32) :
    dseMovsSummaryRangesOverlap summary = false ↔
      ∀ event < summary.expectedIterations, ∀ byte < summary.elementSize,
        ∀ event' < summary.expectedIterations, ∀ byte' < summary.elementSize,
          summary.destination event byte ≠ summary.source event' byte' := by
  have hwindows : (∀ event < summary.expectedIterations, ∀ byte < summary.elementSize,
      ∀ event' < summary.expectedIterations, ∀ byte' < summary.elementSize,
        summary.destination event byte ≠ summary.source event' byte') ↔
      Disjoint (window (summary.rangeStart summary.destinationFirst) summary.total)
        (window (summary.rangeStart summary.sourceFirst) summary.total) := by
    rw [Set.disjoint_left]
    constructor
    · intro h a hdestination hsource
      obtain ⟨event, hevent, byte, hbyte, hd⟩ := (mem_window_iff hdir).mp hdestination
      obtain ⟨event', hevent', byte', hbyte', hs⟩ := (mem_window_iff hdir).mp hsource
      exact h event hevent byte hbyte event' hevent' byte' hbyte' (hd.trans hs.symm)
    · intro h event hevent byte hbyte event' hevent' byte' hbyte' hsame
      have hlt : summary.destination event byte < 2 ^ 32 := BitVec.isLt _
      have haddr : summary.destination event byte = (BitVec.ofNat 32 (summary.destination event byte)).toNat := by
        rw [BitVec.toNat_ofNat, Nat.mod_eq_of_lt hlt]
      exact h ((mem_window_iff hdir).mpr ⟨event, hevent, byte, hbyte, haddr⟩)
        ((mem_window_iff hdir).mpr ⟨event', hevent', byte', hbyte', hsame.symm.trans haddr⟩)
  rw [hwindows, disjoint_window htotal.le, dseMovsSummaryRangesOverlap]
  by_cases hempty : summary.expectedIterations = 0 ∨ summary.elementSize = 0
  · -- there are no bytes
    have hzero : summary.total = 0 := by
      rw [total]
      rcases hempty with h | h <;> rw [h]
      · exact Nat.zero_mul _
      · exact Nat.mul_zero _
    rw [if_pos (Or.inr hempty), hzero]
    simp
  · have hdirection : ¬ (summary.direction ≠ 1 ∧ summary.direction ≠ -1) := by omega
    have hsmall : ¬ summary.expectedIterations * summary.elementSize ≥ 2 ^ 32 := not_le.mpr htotal
    rw [if_neg (by rw [hkind]; simpa using hempty), if_neg hdirection]
    dsimp only
    rw [if_neg hsmall, Bool.or_eq_false_iff, decide_eq_false_iff_not, decide_eq_false_iff_not, not_or]
    exact And.comm

end Ranges

/-- The direction of an exact string instruction. -/
theorem exactMovs_direction {aux : InsnAux} (h : dseAuxHasExactMovs aux = true) :
    aux.stringSummary.kind = .movs ∧
      (aux.stringSummary.direction = 1 ∨ aux.stringSummary.direction = -1) := by
  simp only [dseAuxHasExactMovs, dseAuxHasExactStringKind, Bool.and_eq_true, Bool.or_eq_true,
    beq_iff_eq] at h
  tauto

end TaintForge
