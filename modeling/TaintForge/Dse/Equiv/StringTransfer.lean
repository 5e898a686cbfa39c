import TaintForge.Dse.Frontier

/-!
# The backward transfer of string instructions

`dseMemNeedApplyExactString` takes a need back over the elements of a `movs` or `stos`, the last element
first, since an element may read what an earlier one has written.

* `StringMachine.execEvents`: the instruction itself, element by element.
* `applyStringEvent_sound`: one element, and `exact_string_need_sound`: runs that agree on the need taken
  back agree on the need after them.
-/

namespace TaintForge

open Function

/-! ### Addresses -/

/-- The address of the first byte of an element. -/
def stringElementAddress (first : ℕ) (direction : ℤ) (elementSize eventIndex : ℕ) : BitVec 32 :=
  BitVec.ofNat 32 first + BitVec.ofInt 32 (direction * eventIndex * elementSize)

theorem dseStringEventByteAddress_eq (first : ℕ) (direction : ℤ) (elementSize event byte : ℕ) :
    dseStringEventByteAddress first direction elementSize event byte =
      (stringElementAddress first direction elementSize event + BitVec.ofNat 32 byte).toNat := by
  rw [dseStringEventByteAddress, stringElementAddress, BitVec.ofInt_add, BitVec.ofInt_natCast,
    BitVec.add_assoc]

/-- The bytes of an element are at different addresses. -/
theorem dseStringEventByteAddress_injOn {first : ℕ} {direction : ℤ} {elementSize event b c : ℕ}
    (hb : b < 2 ^ 32) (hc : c < 2 ^ 32)
    (h : dseStringEventByteAddress first direction elementSize event b =
      dseStringEventByteAddress first direction elementSize event c) : b = c := by
  rw [dseStringEventByteAddress_eq, dseStringEventByteAddress_eq] at h
  have hoffset : BitVec.ofNat 32 b = BitVec.ofNat 32 c :=
    (BitVec.add_right_inj _).mp (BitVec.eq_of_toNat_eq h)
  have hmod := congrArg BitVec.toNat hoffset
  rwa [BitVec.toNat_ofNat, BitVec.toNat_ofNat, Nat.mod_eq_of_lt hb, Nat.mod_eq_of_lt hc] at hmod

/-! ### The instruction -/

/-- The memory and the registers. -/
structure StringMachine where
  mem : ℕ → BitVec 8
  regs : RegId → BitVec 64

namespace StringMachine

variable (summary : DseStringSummary)

/-- A byte of a register. -/
def regByte (s : StringMachine) (r : RegId) (byte : ℕ) : BitVec 8 := (s.regs r).extractLsb' (8 * byte) 8

/-- What an event puts into a byte of its destination. -/
def sourceByte (s : StringMachine) (event byte : ℕ) : BitVec 8 :=
  if summary.kind = .movs then s.mem (summary.source event byte) else s.regByte .rax byte

/-- One element is read and then written. -/
def execEvent (s : StringMachine) (event : ℕ) : StringMachine :=
  { s with
    mem := (List.range summary.elementSize).foldl
      (fun mem byte => update mem (summary.destination event byte) (s.sourceByte summary event byte))
      s.mem }

/-- The first elements, in order. -/
def execEvents (s : StringMachine) (count : ℕ) : StringMachine :=
  (List.range count).foldl (execEvent summary) s

end StringMachine

/-- A series of updates leaves alone what is at none of the addresses. -/
theorem foldl_update_of_ne {α β γ : Type} [DecidableEq α] {f : γ → α} {v : γ → β} {a : α} {l : List γ}
    (h : ∀ x ∈ l, f x ≠ a) (m : α → β) : l.foldl (fun m x => update m (f x) (v x)) m a = m a := by
  induction l generalizing m with
  | nil => rfl
  | cons x l ih =>
    rw [List.foldl_cons, ih fun y hy => h y (List.mem_cons_of_mem x hy)]
    exact update_of_ne (h x List.mem_cons_self).symm _ _

/-- A series of updates at different addresses. -/
theorem foldl_update_of_mem {α β γ : Type} [DecidableEq α] {f : γ → α} {v : γ → β} {x : γ} {l : List γ}
    (hinj : ∀ y ∈ l, ∀ z ∈ l, f y = f z → y = z) (hx : x ∈ l) (m : α → β) :
    l.foldl (fun m x => update m (f x) (v x)) m (f x) = v x := by
  induction l generalizing m with
  | nil => exact absurd hx List.not_mem_nil
  | cons y l ih =>
    rw [List.foldl_cons]
    by_cases hmem : x ∈ l
    · exact ih (fun y hy z hz => hinj y (List.mem_cons_of_mem _ hy) z (List.mem_cons_of_mem _ hz)) hmem _
    · obtain rfl : x = y := (List.mem_cons.mp hx).resolve_right hmem
      rw [foldl_update_of_ne, update_self]
      intro z hz hzx
      -- a later byte at this address would be the byte itself
      exact hmem (hinj z (List.mem_cons_of_mem _ hz) x hx hzx ▸ hz)

namespace StringMachine

variable {summary : DseStringSummary} {s : StringMachine} {event byte : ℕ}

theorem execEvent_destination (hsize : summary.elementSize ≤ 8) (hbyte : byte < summary.elementSize) :
    (s.execEvent summary event).mem (summary.destination event byte) = s.sourceByte summary event byte := by
  refine foldl_update_of_mem (fun b hb c hc h => ?_) (List.mem_range.mpr hbyte) _
  rw [List.mem_range] at hb hc
  exact dseStringEventByteAddress_injOn (by omega) (by omega) h

theorem execEvent_of_ne {a : ℕ} (h : ∀ byte < summary.elementSize, summary.destination event byte ≠ a) :
    (s.execEvent summary event).mem a = s.mem a :=
  foldl_update_of_ne (fun byte hbyte => h byte (List.mem_range.mp hbyte)) _

theorem execEvents_succ (count : ℕ) :
    s.execEvents summary (count + 1) = (s.execEvents summary count).execEvent summary count := by
  rw [execEvents, List.range_succ, List.foldl_append]
  rfl

end StringMachine

/-! ### The need -/

/-- Two runs agree on what is needed. -/
structure AgreeOn (needed : Finset ℕ × RegWorklist) (s t : StringMachine) : Prop where
  mem : ∀ a ∈ needed.1, s.mem a = t.mem a
  regs : ∀ r byte, (needed.2 r).getLsbD byte = true → s.regByte r byte = t.regByte r byte

/-- Whether the value of a byte is taken from the record, because it is not tainted. -/
def capturedUntainted (aux : InsnAux) (event byte : ℕ) : Bool :=
  if aux.stringSummary.kind = .movs then
    !aux.stringSummary.valueTaint.getD (event * aux.stringSummary.elementSize + byte) false
  else !(aux.regTaint .rax).getLsbD byte

/-- The need after the events below `k`. -/
def needAt (aux : InsnAux) (needed : Finset ℕ × RegWorklist) (k : ℕ) : Finset ℕ × RegWorklist :=
  (List.range' k (aux.stringSummary.expectedIterations - k)).reverse.foldl
    (dseMemNeedApplyStringEvent aux) needed

theorem needAt_zero (aux : InsnAux) (needed : Finset ℕ × RegWorklist) :
    needAt aux needed 0 = dseMemNeedApplyExactString needed aux := by
  rw [needAt, dseMemNeedApplyExactString, List.range_eq_range', Nat.sub_zero]

theorem needAt_expectedIterations (aux : InsnAux) (needed : Finset ℕ × RegWorklist) :
    needAt aux needed aux.stringSummary.expectedIterations = needed := by
  rw [needAt, Nat.sub_self]
  rfl

theorem needAt_of_lt {aux : InsnAux} {k : ℕ} (hk : k < aux.stringSummary.expectedIterations)
    (needed : Finset ℕ × RegWorklist) :
    needAt aux needed k = dseMemNeedApplyStringEvent aux (needAt aux needed (k + 1)) k := by
  have hcount : aux.stringSummary.expectedIterations - k =
      (aux.stringSummary.expectedIterations - (k + 1)) + 1 := by omega
  rw [needAt, hcount, List.range'_succ, List.reverse_cons, List.foldl_append]
  rfl

section Event

variable {aux : InsnAux} {needed : Finset ℕ × RegWorklist} {event byte : ℕ}

theorem getLsbD_stringEventMask (hsize : aux.stringSummary.elementSize ≤ 8)
    (hbyte : byte < aux.stringSummary.elementSize) :
    (stringEventMask needed.1 aux.stringSummary event).getLsbD byte =
      decide (aux.stringSummary.destination event byte ∈ needed.1) := by
  rw [stringEventMask, ByteMask.getLsbD_ofFn, decide_eq_true (show byte < 8 by omega),
    decide_eq_true hbyte, Bool.true_and, Bool.true_and]

/-- The registers that were needed still are. -/
theorem applyStringEvent_regs (r : RegId) (h : (needed.2 r).getLsbD byte = true) :
    ((dseMemNeedApplyStringEvent aux needed event).2 r).getLsbD byte = true := by
  rw [dseMemNeedApplyStringEvent]
  dsimp only
  split_ifs
  · exact h
  · exact h
  · show (update needed.2 .rax _ r).getLsbD byte = true
    by_cases hrax : r = .rax
    · subst hrax
      rw [update_self, BitVec.getLsbD_or, h, Bool.true_or]
    · rw [update_of_ne hrax]
      exact h

/-- What was needed and is no destination of the event still is. -/
theorem applyStringEvent_mem {a : ℕ} (ha : a ∈ needed.1)
    (hne : ∀ byte < aux.stringSummary.elementSize, aux.stringSummary.destination event byte ≠ a) :
    a ∈ (dseMemNeedApplyStringEvent aux needed event).1 := by
  have hkept : a ∉ stringEventBytes (stringEventMask needed.1 aux.stringSummary event)
      aux.stringSummary.elementSize (aux.stringSummary.destination event) := by
    intro hmem
    obtain ⟨byte, hbyte, hdest⟩ := Finset.mem_image.mp hmem
    exact hne byte (Finset.mem_range.mp (Finset.mem_filter.mp hbyte).1) hdest
  rw [dseMemNeedApplyStringEvent]
  dsimp only
  split_ifs
  · exact ha
  · exact Finset.mem_union_left _ (Finset.mem_sdiff.mpr ⟨ha, hkept⟩)
  · exact Finset.mem_sdiff.mpr ⟨ha, hkept⟩

/-- **A needed byte is replaced by where its value comes from**, unless that is captured. -/
theorem applyStringEvent_source (hsize : aux.stringSummary.elementSize ≤ 8)
    (hbyte : byte < aux.stringSummary.elementSize)
    (hneeded : aux.stringSummary.destination event byte ∈ needed.1)
    (htaint : capturedUntainted aux event byte = false) {s t : StringMachine}
    (hagree : AgreeOn (dseMemNeedApplyStringEvent aux needed event) s t) :
    s.sourceByte aux.stringSummary event byte = t.sourceByte aux.stringSummary event byte := by
  have hmask : (stringEventMask needed.1 aux.stringSummary event).getLsbD byte = true := by
    rw [getLsbD_stringEventMask hsize hbyte, decide_eq_true hneeded]
  have hne : stringEventMask needed.1 aux.stringSummary event ≠ 0 := by
    intro hzero
    rw [hzero, BitVec.ofNat_eq_ofNat, BitVec.getLsbD_zero] at hmask
    exact Bool.false_ne_true hmask
  rw [dseMemNeedApplyStringEvent] at hagree
  dsimp only at hagree
  rw [if_neg hne] at hagree
  by_cases hmovs : aux.stringSummary.kind = .movs
  · rw [if_pos hmovs] at hagree
    rw [capturedUntainted, if_pos hmovs, Bool.not_eq_false'] at htaint
    rw [StringMachine.sourceByte, StringMachine.sourceByte, if_pos hmovs, if_pos hmovs]
    apply hagree.mem
    refine Finset.mem_union_right _ (Finset.mem_image_of_mem _ (Finset.mem_filter.mpr ?_))
    exact ⟨Finset.mem_range.mpr hbyte, by rw [hmask, htaint, Bool.true_and]⟩
  · rw [if_neg hmovs] at hagree
    rw [capturedUntainted, if_neg hmovs, Bool.not_eq_false'] at htaint
    rw [StringMachine.sourceByte, StringMachine.sourceByte, if_neg hmovs, if_neg hmovs]
    apply hagree.regs
    dsimp only
    rw [update_self, BitVec.getLsbD_or, BitVec.getLsbD_and, hmask, htaint, Bool.true_and, Bool.or_true]

/-- One event keeps two runs in agreement. -/
theorem applyStringEvent_sound (hsize : aux.stringSummary.elementSize ≤ 8) {s t : StringMachine}
    (hagree : AgreeOn (dseMemNeedApplyStringEvent aux needed event) s t)
    (hcaptured : ∀ byte < aux.stringSummary.elementSize,
      aux.stringSummary.destination event byte ∈ needed.1 → capturedUntainted aux event byte = true →
        s.sourceByte aux.stringSummary event byte = t.sourceByte aux.stringSummary event byte) :
    AgreeOn needed (s.execEvent aux.stringSummary event) (t.execEvent aux.stringSummary event) where
  mem a ha := by
    by_cases hdest : ∃ byte < aux.stringSummary.elementSize, aux.stringSummary.destination event byte = a
    · obtain ⟨byte, hbyte, rfl⟩ := hdest
      rw [StringMachine.execEvent_destination hsize hbyte, StringMachine.execEvent_destination hsize hbyte]
      cases htaint : capturedUntainted aux event byte with
      | true => exact hcaptured byte hbyte ha htaint
      | false => exact applyStringEvent_source hsize hbyte ha htaint hagree
    · have hne : ∀ byte < aux.stringSummary.elementSize,
          aux.stringSummary.destination event byte ≠ a := fun byte hbyte h => hdest ⟨byte, hbyte, h⟩
      rw [StringMachine.execEvent_of_ne hne, StringMachine.execEvent_of_ne hne]
      exact hagree.mem a (applyStringEvent_mem ha hne)
  regs r byte h := hagree.regs r byte (applyStringEvent_regs r h)

end Event

/-! ### The instruction as a whole -/

theorem elementSize_le_of_exact {aux : InsnAux} {kind : DseStringKind}
    (h : dseAuxHasExactStringKind aux kind = true) : aux.stringSummary.elementSize ≤ 8 := by
  simp only [dseAuxHasExactStringKind, Bool.and_eq_true, Bool.or_eq_true, beq_iff_eq] at h
  omega

/-- **Runs that agree on the need taken back agree on the need.** -/
theorem exact_string_need_sound {aux : InsnAux} {needed : Finset ℕ × RegWorklist} {s t : StringMachine}
    (hexact : dseAuxHasExactMovs aux = true ∨ dseAuxHasExactStos aux = true)
    (hagree : AgreeOn (dseMemNeedApplyExactString needed aux) s t)
    (hcaptured : ∀ event < aux.stringSummary.expectedIterations,
      ∀ byte < aux.stringSummary.elementSize,
        aux.stringSummary.destination event byte ∈ (needAt aux needed (event + 1)).1 →
        capturedUntainted aux event byte = true →
          (s.execEvents aux.stringSummary event).sourceByte aux.stringSummary event byte =
            (t.execEvents aux.stringSummary event).sourceByte aux.stringSummary event byte) :
    ∀ a ∈ needed.1,
      (s.execEvents aux.stringSummary aux.stringSummary.expectedIterations).mem a =
        (t.execEvents aux.stringSummary aux.stringSummary.expectedIterations).mem a := by
  have hsize : aux.stringSummary.elementSize ≤ 8 :=
    hexact.elim elementSize_le_of_exact elementSize_le_of_exact
  -- after `k` events the runs agree on what is needed there
  have hrun : ∀ k ≤ aux.stringSummary.expectedIterations,
      AgreeOn (needAt aux needed k) (s.execEvents aux.stringSummary k)
        (t.execEvents aux.stringSummary k) := by
    intro k
    induction k with
    | zero =>
      intro _
      rw [needAt_zero]
      exact hagree
    | succ k ih =>
      intro hk
      have hstep := ih (by omega)
      rw [needAt_of_lt hk] at hstep
      rw [StringMachine.execEvents_succ, StringMachine.execEvents_succ]
      exact applyStringEvent_sound hsize hstep (hcaptured k hk)
  have hlast := (hrun _ le_rfl).mem
  rwa [needAt_expectedIterations] at hlast

/-- A `movsb` over two bytes whose second source is its first destination. -/
def overlappingMovs : InsnAux :=
  { InsnAux.zero with
    executionComplete := true
    memReadRange := ⟨2, true, false, 16, 17⟩
    memWriteRange := ⟨2, true, false, 17, 18⟩
    stringSummary :=
      ⟨.movs, true, true, false, false, true, 1, 1, 2, 2, 2, 2, 64, 16, 17, [5, 5], [true, true]⟩ }

theorem overlappingMovs_need :
    ((⟨fun _ => 0, fun _ => 0⟩ : StringMachine).execEvents overlappingMovs.stringSummary 2).mem 18 =
      ((⟨fun a => if a = 16 then 0 else 1, fun _ => 0⟩ : StringMachine).execEvents
        overlappingMovs.stringSummary 2).mem 18 := by
  have hneed : dseMemNeedApplyExactString ({18}, fun _ => 0) overlappingMovs = ({16}, fun _ => 0) := by
    decide
  have hagree : AgreeOn (dseMemNeedApplyExactString ({18}, fun _ => 0) overlappingMovs)
      ⟨fun _ => 0, fun _ => 0⟩ ⟨fun a => if a = 16 then 0 else 1, fun _ => 0⟩ := by
    rw [hneed]
    exact ⟨by decide, fun r byte h => rfl⟩
  exact exact_string_need_sound (Or.inl (by decide)) hagree (by decide) 18 (by decide)

end TaintForge
