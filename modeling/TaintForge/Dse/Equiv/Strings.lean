import TaintForge.Dse.AuxTrace

/-!
# The summaries of string instructions lose nothing

Of the accesses of a repeated `movs` or `stos` only the first addresses, the element size, the
direction, the counts and the bytes that were read are kept.

* `Sequence`: addresses that go in steps of the element size from the first one.
* `Unbroken`: what holds of a summary as long as nothing marked it.
* `string_summary_lossless`: when a summary is marked exact, the accesses can be read off it.
-/

namespace TaintForge

/-! ### Accesses -/

/-- An element that was read. -/
structure StringRead where
  address : ℕ
  value : BitVec 64
  valueValid : Bool
  valueTaint : BitVec 8
  size : ℕ

/-- An element that was written. -/
structure StringWrite where
  address : ℕ
  size : ℕ

/-- The accesses of a string instruction as they are captured. -/
inductive StringEvent where
  | read (r : StringRead)
  | write (w : StringWrite)

def captureEvent (state : DseAuxRing × InsnAux) : StringEvent → DseAuxRing × InsnAux
  | .read r =>
    dseAuxCaptureStringRead state.1 state.2 r.address r.value r.valueValid r.valueTaint r.size
  | .write w => (state.1, dseAuxCaptureStringWrite state.2 w.address w.size)

/-- The elements a summary of some kind captures; a `stos` reads none. -/
def capturedReads (kind : DseStringKind) : List StringEvent → List StringRead
  | [] => []
  | .read r :: events => if kind = .movs then r :: capturedReads kind events else
      capturedReads kind events
  | .write _ :: events => capturedReads kind events

def capturedWrites : List StringEvent → List StringWrite
  | [] => []
  | .read _ :: events => capturedWrites events
  | .write w :: events => w :: capturedWrites events

/-- The bytes of an element, the lowest first. -/
def StringRead.bytes (r : StringRead) : List (BitVec 8) :=
  (List.range r.size).map fun byte => (r.value >>> (8 * byte)).setWidth 8

/-- `k` steps from an address, in 32 bits. -/
def stepAddress (first : BitVec 32) (direction : ℤ) (elementSize k : ℕ) : BitVec 32 :=
  first + BitVec.ofInt 32 (k * (direction * elementSize))

theorem stepAddress_forward (first : BitVec 32) (elementSize k : ℕ) :
    stepAddress first 1 elementSize k = first + BitVec.ofNat 32 (k * elementSize) := by
  rw [stepAddress, Int.one_mul, ← Int.natCast_mul]
  rfl

theorem stepAddress_backward (first : BitVec 32) (elementSize k : ℕ) :
    stepAddress first (-1) elementSize k = first - BitVec.ofNat 32 (k * elementSize) := by
  have hneg : (k : ℤ) * (-1 * elementSize) = -((k * elementSize : ℕ) : ℤ) := by
    rw [Int.natCast_mul]
    ring
  rw [stepAddress, hneg, BitVec.ofInt_neg, ← BitVec.sub_eq_add_neg]
  rfl

/-! ### Sequences of addresses -/

/-- The addresses start where a register points to and go in steps.  The steps are counted up to
`UINT32_MAX`, and the direction is not known before the second. -/
structure Sequence (first : ℕ) (start : BitVec 32) (direction : ℤ) (elementSize : ℕ)
    (addresses : List ℕ) : Prop where
  head : ∀ a, addresses[0]? = some a → a = first ∧ BitVec.ofNat 32 a = start
  steps : ∀ (k a : ℕ), k ≠ 0 → k < uint32Max → addresses[k]? = some a →
    BitVec.ofNat 32 a = stepAddress (BitVec.ofNat 32 first) direction elementSize k
  unknown : direction = 0 → addresses.length ≤ 1

namespace Sequence

variable {first elementSize : ℕ} {start : BitVec 32} {direction : ℤ} {addresses : List ℕ}

theorem nil (first : ℕ) (start : BitVec 32) (direction : ℤ) (elementSize : ℕ) :
    Sequence first start direction elementSize [] where
  head _ h := nomatch h
  steps _ _ _ _ h := nomatch h
  unknown _ := Nat.zero_le 1

theorem singleton {a : ℕ} (ha : BitVec.ofNat 32 a = start) (direction : ℤ) (elementSize : ℕ) :
    Sequence a start direction elementSize [a] where
  head b hb := by
    obtain rfl := Option.some.inj hb
    exact ⟨rfl, ha⟩
  steps k b hk _ hb := by
    have hlt := (List.getElem?_eq_some_iff.mp hb).1
    rw [List.length_singleton] at hlt
    omega
  unknown _ := le_rfl

/-- While the direction is not known any will do. -/
theorem turn (h : Sequence first start 0 elementSize addresses) (direction : ℤ) :
    Sequence first start direction elementSize addresses where
  head := h.head
  steps k a hk _ ha := by
    have hlt := (List.getElem?_eq_some_iff.mp ha).1
    have hle := h.unknown rfl
    omega
  unknown _ := h.unknown rfl

/-- The direction becomes known, or stays what it is. -/
theorem turn_of (h : Sequence first start direction elementSize addresses) {direction' : ℤ}
    (hkeep : direction ≠ 0 → direction' = direction) :
    Sequence first start direction' elementSize addresses := by
  by_cases hzero : direction = 0
  · rw [hzero] at h
    exact h.turn direction'
  · rw [hkeep hzero]
    exact h

/-- Every address is as many steps from the first one as it comes after it. -/
theorem get (h : Sequence first start direction elementSize addresses)
    (hlength : addresses.length ≤ uint32Max) {k a : ℕ} (ha : addresses[k]? = some a) :
    BitVec.ofNat 32 a = stepAddress (BitVec.ofNat 32 first) direction elementSize k := by
  by_cases hk : k = 0
  · subst hk
    rw [(h.head a ha).1, stepAddress, Nat.cast_zero, Int.zero_mul]
    exact (BitVec.add_zero _).symm
  · have hlt := (List.getElem?_eq_some_iff.mp ha).1
    exact h.steps k a hk (hlt.trans_le hlength) ha

theorem append (h : Sequence first start direction elementSize addresses)
    (hdirection : direction ≠ 0) (hne : addresses ≠ []) {a : ℕ}
    (ha : addresses.length < uint32Max →
      BitVec.ofNat 32 a =
        stepAddress (BitVec.ofNat 32 first) direction elementSize addresses.length) :
    Sequence first start direction elementSize (addresses ++ [a]) where
  head b hb := by
    rw [List.getElem?_append_left (List.length_pos_of_ne_nil hne)] at hb
    exact h.head b hb
  steps k b hk hlt hb := by
    rcases Nat.lt_or_ge k addresses.length with hin | hout
    · rw [List.getElem?_append_left hin] at hb
      exact h.steps k b hk hlt hb
    · have hle := (List.getElem?_eq_some_iff.mp hb).1
      rw [List.length_append, List.length_singleton] at hle
      obtain rfl : k = addresses.length := by omega
      rw [List.getElem?_concat_length] at hb
      obtain rfl := Option.some.inj hb
      exact ha hlt
  unknown hzero := absurd hzero hdirection

end Sequence

/-! ### One access -/

/-- What the accesses of an instruction do not change in its summary. -/
structure SameInsn (s s' : DseStringSummary) : Prop where
  kind : s'.kind = s.kind
  active : s'.active = s.active
  hasRepPrefix : s'.hasRepPrefix = s.hasRepPrefix
  elementSize : s'.elementSize = s.elementSize
  expectedIterations : s'.expectedIterations = s.expectedIterations
  exact : s'.exact = s.exact

theorem SameInsn.refl (s : DseStringSummary) : SameInsn s s := ⟨rfl, rfl, rfl, rfl, rfl, rfl⟩

theorem SameInsn.trans {s s' s'' : DseStringSummary} (h : SameInsn s s') (h' : SameInsn s' s'') :
    SameInsn s s'' :=
  ⟨h'.kind.trans h.kind, h'.active.trans h.active, h'.hasRepPrefix.trans h.hasRepPrefix,
    h'.elementSize.trans h.elementSize, h'.expectedIterations.trans h.expectedIterations,
    h'.exact.trans h.exact⟩

/-- A record that differs in its summary only, which is about the same instruction. -/
structure SameRecord (aux aux' : InsnAux) : Prop where
  summary : SameInsn aux.stringSummary aux'.stringSummary
  rest : aux' = { aux with stringSummary := aux'.stringSummary }

theorem SameRecord.refl (aux : InsnAux) : SameRecord aux aux := ⟨.refl _, rfl⟩

theorem SameRecord.trans {aux aux' aux'' : InsnAux} (h : SameRecord aux aux')
    (h' : SameRecord aux' aux'') : SameRecord aux aux'' := by
  refine ⟨h.summary.trans h'.summary, ?_⟩
  have hrest := h'.rest
  rw [h.rest] at hrest
  exact hrest

theorem SameRecord.map (aux : InsnAux) {f : DseStringSummary → DseStringSummary}
    (hf : SameInsn aux.stringSummary (f aux.stringSummary)) : SameRecord aux (aux.mapString f) :=
  ⟨hf, rfl⟩

theorem SameRecord.mark (aux : InsnAux) : SameRecord aux (dseAuxMarkStringMismatch aux) :=
  .map aux ⟨rfl, rfl, rfl, rfl, rfl, rfl⟩

theorem SameRecord.reg32 {aux aux' : InsnAux} (h : SameRecord aux aux') (r : RegId) :
    aux'.reg32 r = aux.reg32 r := by
  rw [h.rest]
  rfl

/-- A record that was marked. -/
structure Marked (aux aux' : InsnAux) : Prop where
  same : SameRecord aux aux'
  mismatch : aux'.stringSummary.patternMismatch = true
  direction : aux'.stringSummary.direction = aux.stringSummary.direction

theorem Marked.mark (aux : InsnAux) : Marked aux (dseAuxMarkStringMismatch aux) :=
  ⟨.mark aux, rfl, rfl⟩

/-- The direction is up, down or not known. -/
def DseStringSummary.DirectionOk (s : DseStringSummary) : Prop :=
  s.direction = 0 ∨ s.direction = 1 ∨ s.direction = -1

/-- An address that was checked: the record is marked, or only the direction is new. -/
theorem dseAuxValidateStringAddress_cases (aux : InsnAux) (first observed : ℕ) {k : ℕ}
    (hk : k ≠ 0) (hdirection : aux.stringSummary.DirectionOk) :
    dseAuxValidateStringAddress aux first k observed = dseAuxMarkStringMismatch aux ∨
    ∃ direction : ℤ, dseAuxValidateStringAddress aux first k observed =
        aux.mapString (fun summary => { summary with direction := direction }) ∧
      (direction = 1 ∨ direction = -1) ∧
      (aux.stringSummary.direction ≠ 0 → direction = aux.stringSummary.direction) ∧
      BitVec.ofNat 32 observed =
        stepAddress (BitVec.ofNat 32 first) direction aux.stringSummary.elementSize k := by
  have hsame : ∀ {direction : ℤ}, aux.stringSummary.direction = direction →
      aux.mapString (fun summary => { summary with direction := direction }) = aux := by
    rintro _ rfl
    rfl
  unfold dseAuxValidateStringAddress
  dsimp only
  rw [if_neg hk]
  by_cases hzero : aux.stringSummary.direction = 0
  · rw [if_pos hzero]
    split_ifs with hforward hbackward
    · exact Or.inr ⟨1, rfl, Or.inl rfl, fun hne => absurd hzero hne,
        hforward.trans (stepAddress_forward _ _ _).symm⟩
    · exact Or.inr ⟨-1, rfl, Or.inr rfl, fun hne => absurd hzero hne,
        hbackward.trans (stepAddress_backward _ _ _).symm⟩
    · exact Or.inl rfl
  · rw [if_neg hzero]
    rcases hdirection.resolve_left hzero with hone | hone
    · rw [if_pos (show aux.stringSummary.direction > 0 by rw [hone]; decide)]
      split_ifs with hwrong
      · exact Or.inl rfl
      · refine Or.inr ⟨1, (hsame hone).symm, Or.inl rfl, fun _ => hone.symm, ?_⟩
        rw [stepAddress_forward]
        exact not_not.mp hwrong
    · rw [if_neg (show ¬ aux.stringSummary.direction > 0 by rw [hone]; decide)]
      split_ifs with hwrong
      · exact Or.inl rfl
      · refine Or.inr ⟨-1, (hsame hone).symm, Or.inr rfl, fun _ => hone.symm, ?_⟩
        rw [stepAddress_backward]
        exact not_not.mp hwrong

/-- What holds of a summary as long as nothing marked it; the bytes are there as long as nothing
failed to be captured. -/
structure Unbroken (aux : InsnAux) (reads : List StringRead) (writes : List StringWrite) :
    Prop where
  readEvents : aux.stringSummary.readEvents = min reads.length uint32Max
  writeEvents : aux.stringSummary.writeEvents = min writes.length uint32Max
  source : Sequence aux.stringSummary.sourceFirst (aux.reg32 .rsi) aux.stringSummary.direction
    aux.stringSummary.elementSize (reads.map StringRead.address)
  destination : Sequence aux.stringSummary.destinationFirst (aux.reg32 .rdi)
    aux.stringSummary.direction aux.stringSummary.elementSize (writes.map StringWrite.address)
  readSize : ∀ r ∈ reads, r.valueValid = true ∧ r.size = aux.stringSummary.elementSize
  writeSize : ∀ w ∈ writes, w.size = aux.stringSummary.elementSize
  bytes : aux.stringSummary.overflow = false →
    aux.stringSummary.values = reads.flatMap StringRead.bytes ∧
      aux.stringSummary.bytesCaptured = reads.length * aux.stringSummary.elementSize ∧
      aux.stringSummary.bytesCaptured ≤ dseMaxStringBytesPerInsn

theorem countEvent_min (n : ℕ) : countEvent (min n uint32Max) = min (n + 1) uint32Max := by
  unfold countEvent
  split_ifs with hne <;> omega

/-- The part of a capture that checks the address, for the source or the destination. -/
def noteAddress (aux : InsnAux) (setFirst : ℕ → DseStringSummary → DseStringSummary)
    (start : BitVec 32) (first k address : ℕ) : InsnAux :=
  if k = 0 then
    if BitVec.ofNat 32 address ≠ start then
      dseAuxMarkStringMismatch (aux.mapString (setFirst address))
    else aux.mapString (setFirst address)
  else dseAuxValidateStringAddress aux first k address

/-- The summary after an address was noted without a mark: the first address and the direction may
be new. -/
structure Noted (start : BitVec 32) (oldFirst k address elementSize : ℕ) (oldDirection : ℤ)
    (first : ℕ) (direction : ℤ) : Prop where
  begins : k = 0 → first = address ∧ BitVec.ofNat 32 address = start
  goesOn : k ≠ 0 → first = oldFirst ∧ direction ≠ 0 ∧
    BitVec.ofNat 32 address = stepAddress (BitVec.ofNat 32 oldFirst) direction elementSize k
  keeps : oldDirection ≠ 0 → direction = oldDirection
  range : direction = 0 ∨ direction = 1 ∨ direction = -1

/-- A sequence takes one more address. -/
theorem Noted.append {start : BitVec 32} {oldFirst address elementSize first : ℕ}
    {oldDirection direction : ℤ} {addresses : List ℕ}
    (h : Noted start oldFirst (min addresses.length uint32Max) address elementSize oldDirection
      first direction)
    (hseq : Sequence oldFirst start oldDirection elementSize addresses) :
    Sequence first start direction elementSize (addresses ++ [address]) := by
  by_cases hnil : addresses = []
  · subst hnil
    obtain ⟨rfl, hstart⟩ := h.begins (Nat.zero_min _)
    exact Sequence.singleton hstart direction elementSize
  · have hpos := List.length_pos_of_ne_nil hnil
    have hne : min addresses.length uint32Max ≠ 0 := by
      have hmax : 0 < uint32Max := by decide
      omega
    obtain ⟨rfl, hdirection, haddress⟩ := h.goesOn hne
    refine (hseq.turn_of h.keeps).append hdirection hnil fun hlt => ?_
    rw [Nat.min_eq_left hlt.le] at haddress
    exact haddress

/-- Noting an address marks the record, or changes the first address and the direction. -/
theorem noteAddress_cases (aux : InsnAux) (setFirst : ℕ → DseStringSummary → DseStringSummary)
    (start : BitVec 32) {first : ℕ} (k address : ℕ)
    (hset : ∀ a, SameInsn aux.stringSummary (setFirst a aux.stringSummary))
    (hfirst : setFirst first aux.stringSummary = aux.stringSummary)
    (hdir : ∀ a, (setFirst a aux.stringSummary).direction = aux.stringSummary.direction)
    (hdirection : aux.stringSummary.DirectionOk) :
    Marked aux (noteAddress aux setFirst start first k address) ∨
    ∃ (first' : ℕ) (direction : ℤ), noteAddress aux setFirst start first k address =
        aux.mapString (fun summary => { setFirst first' summary with direction := direction }) ∧
      Noted start first k address aux.stringSummary.elementSize aux.stringSummary.direction
        first' direction := by
  unfold noteAddress
  by_cases hk : k = 0
  · rw [if_pos hk]
    split_ifs with hbase
    · exact Or.inl ⟨(SameRecord.map aux (hset address)).trans (.mark _), rfl, hdir address⟩
    · rw [not_not] at hbase
      refine Or.inr ⟨address, aux.stringSummary.direction, ?_, ⟨fun _ => ⟨rfl, hbase⟩,
        fun hne => absurd hk hne, fun _ => rfl, hdirection⟩⟩
      rw [InsnAux.mapString, InsnAux.mapString, ← hdir address]
  · rw [if_neg hk]
    obtain hmark | ⟨direction, hmap, hone, hkeep, haddress⟩ :=
      dseAuxValidateStringAddress_cases aux first address hk hdirection
    · rw [hmark]
      exact Or.inl (.mark aux)
    · refine Or.inr ⟨first, direction, ?_, ⟨fun hzero => absurd hzero hk, fun _ => ⟨rfl, ?_, haddress⟩,
        hkeep, Or.inr hone⟩⟩
      · rw [hmap, InsnAux.mapString, InsnAux.mapString, hfirst]
      · rcases hone with rfl | rfl <;> decide

/-- A write is captured, or the record is marked. -/
theorem dseAuxCaptureStringWrite_cases {aux : InsnAux} (hactive : aux.stringSummary.active = true)
    (hdirection : aux.stringSummary.DirectionOk) (address size : ℕ) :
    Marked aux (dseAuxCaptureStringWrite aux address size) ∨
    (size = aux.stringSummary.elementSize ∧ ∃ (first : ℕ) (direction : ℤ),
      dseAuxCaptureStringWrite aux address size =
        aux.mapString (fun summary =>
          { summary with
            destinationFirst := first
            direction := direction
            writeEvents := countEvent summary.writeEvents }) ∧
      Noted (aux.reg32 .rdi) aux.stringSummary.destinationFirst aux.stringSummary.writeEvents
        address aux.stringSummary.elementSize aux.stringSummary.direction first direction) := by
  by_cases hsize : size = 0 ∨ size ≠ aux.stringSummary.elementSize
  · have hcode : dseAuxCaptureStringWrite aux address size = dseAuxMarkStringMismatch aux := by
      rw [dseAuxCaptureStringWrite, if_neg (by rw [hactive]; decide), if_pos hsize]
    rw [hcode]
    exact Or.inl (.mark aux)
  have hcode : dseAuxCaptureStringWrite aux address size =
      (noteAddress aux (fun first summary => { summary with destinationFirst := first })
        (aux.reg32 .rdi) aux.stringSummary.destinationFirst aux.stringSummary.writeEvents
        address).mapString fun summary =>
          { summary with writeEvents := countEvent summary.writeEvents } := by
    rw [dseAuxCaptureStringWrite, if_neg (by rw [hactive]; decide), if_neg hsize]
    rfl
  rw [hcode]
  rw [not_or, not_not] at hsize
  obtain hmarked | ⟨first, direction, hmap, hnoted⟩ := noteAddress_cases aux
    (fun first summary => { summary with destinationFirst := first }) (aux.reg32 .rdi)
    aux.stringSummary.writeEvents address (fun _ => ⟨rfl, rfl, rfl, rfl, rfl, rfl⟩) rfl
    (fun _ => rfl) hdirection
  · exact Or.inl ⟨hmarked.same.trans (.map _ ⟨rfl, rfl, rfl, rfl, rfl, rfl⟩), hmarked.mismatch,
      hmarked.direction⟩
  · refine Or.inr ⟨hsize.2, first, direction, ?_, hnoted⟩
    rw [hmap]
    rfl

/-- Making room changes the capacity only. -/
theorem dseAuxStringReserve_cases (ring : DseAuxRing) (aux : InsnAux) (required : ℕ) :
    (∃ ring', dseAuxStringReserve ring aux required = (false, ring', aux)) ∨
    (∃ (ring' : DseAuxRing) (capacity : ℕ), dseAuxStringReserve ring aux required =
      (true, ring', aux.mapString fun summary => { summary with capacity := capacity })) := by
  unfold dseAuxStringReserve
  dsimp only
  generalize growStringCapacity required 16 _ = newCapacity
  split_ifs
  · exact Or.inl ⟨_, rfl⟩
  · exact Or.inr ⟨ring, aux.stringSummary.capacity, rfl⟩
  · exact Or.inl ⟨_, rfl⟩
  · exact Or.inl ⟨_, rfl⟩
  · exact Or.inr ⟨_, _, rfl⟩

/-- What a read leaves behind: it was captured, or room for it was missing. -/
structure ReadNoted (aux aux' : InsnAux) (r : StringRead) (first : ℕ) (direction : ℤ) : Prop where
  same : SameRecord aux aux'
  mismatch : aux'.stringSummary.patternMismatch = aux.stringSummary.patternMismatch
  sourceFirst : aux'.stringSummary.sourceFirst = first
  direction : aux'.stringSummary.direction = direction
  destinationFirst : aux'.stringSummary.destinationFirst = aux.stringSummary.destinationFirst
  readEvents : aux'.stringSummary.readEvents = countEvent aux.stringSummary.readEvents
  writeEvents : aux'.stringSummary.writeEvents = aux.stringSummary.writeEvents
  bytes : aux'.stringSummary.overflow = false →
    aux.stringSummary.overflow = false ∧
      aux'.stringSummary.values = aux.stringSummary.values ++ r.bytes ∧
      aux'.stringSummary.bytesCaptured = aux.stringSummary.bytesCaptured + r.size ∧
      aux'.stringSummary.bytesCaptured ≤ dseMaxStringBytesPerInsn

/-- The part of a capture that counts a read and keeps its bytes. -/
def finishRead (ring : DseAuxRing) (aux : InsnAux) (r : StringRead) : DseAuxRing × InsnAux :=
  let aux := aux.mapString fun summary =>
    { summary with readEvents := countEvent summary.readEvents }
  if aux.stringSummary.bytesCaptured > dseMaxStringBytesPerInsn - r.size then
    (ring, aux.mapString fun summary => { summary with overflow := true })
  else
    let (reserved, ring, aux) :=
      dseAuxStringReserve ring aux (aux.stringSummary.bytesCaptured + r.size)
    if reserved = false then
      (ring, aux.mapString fun summary => { summary with overflow := true })
    else (ring, aux.mapString fun summary => summary.appendBytes r.value r.valueTaint r.size)

theorem finishRead_noted (ring : DseAuxRing) (aux : InsnAux) {r : StringRead} (hsize : r.size ≤ 8) :
    ReadNoted aux (finishRead ring aux r).2 r aux.stringSummary.sourceFirst
      aux.stringSummary.direction := by
  have hmax : 8 ≤ dseMaxStringBytesPerInsn := by decide
  have hover : ∀ aux' : InsnAux, aux' = (aux.mapString fun summary =>
      { summary with readEvents := countEvent summary.readEvents, overflow := true }) →
      ReadNoted aux aux' r aux.stringSummary.sourceFirst aux.stringSummary.direction := by
    rintro _ rfl
    exact ⟨.map _ ⟨rfl, rfl, rfl, rfl, rfl, rfl⟩, rfl, rfl, rfl, rfl, rfl, rfl, nofun⟩
  unfold finishRead
  dsimp only
  split_ifs with hroom hreserved
  · exact hover _ rfl
  · -- room for the bytes was missing
    obtain ⟨ring', hcode⟩ | ⟨ring', capacity, hcode⟩ := dseAuxStringReserve_cases ring
      (aux.mapString fun summary => { summary with readEvents := countEvent summary.readEvents })
      ((aux.mapString fun summary =>
        { summary with readEvents := countEvent summary.readEvents }).stringSummary.bytesCaptured +
          r.size)
    · rw [hcode]
      exact hover _ rfl
    · rw [hcode] at hreserved
      cases hreserved
  · obtain ⟨ring', hcode⟩ | ⟨ring', capacity, hcode⟩ := dseAuxStringReserve_cases ring
      (aux.mapString fun summary => { summary with readEvents := countEvent summary.readEvents })
      ((aux.mapString fun summary =>
        { summary with readEvents := countEvent summary.readEvents }).stringSummary.bytesCaptured +
          r.size)
    · rw [hcode] at hreserved
      exact absurd rfl hreserved
    · rw [hcode]
      refine ⟨⟨⟨rfl, rfl, rfl, rfl, rfl, rfl⟩, rfl⟩, rfl, rfl, rfl, rfl, rfl, rfl, fun hok => ?_⟩
      refine ⟨hok, rfl, rfl, ?_⟩
      have hle : aux.stringSummary.bytesCaptured ≤ dseMaxStringBytesPerInsn - r.size :=
        Nat.not_lt.mp hroom
      show aux.stringSummary.bytesCaptured + r.size ≤ dseMaxStringBytesPerInsn
      omega

/-- A read is captured, or the record is marked. -/
theorem dseAuxCaptureStringRead_cases {aux : InsnAux} (hactive : aux.stringSummary.active = true)
    (hkind : aux.stringSummary.kind = .movs)
    (hdirection : aux.stringSummary.DirectionOk) (ring : DseAuxRing) (r : StringRead) :
    Marked aux (captureEvent (ring, aux) (.read r)).2 ∨
    ((r.valueValid = true ∧ r.size = aux.stringSummary.elementSize) ∧
      ∃ (first : ℕ) (direction : ℤ),
        ReadNoted aux (captureEvent (ring, aux) (.read r)).2 r first direction ∧
        Noted (aux.reg32 .rsi) aux.stringSummary.sourceFirst aux.stringSummary.readEvents
          r.address aux.stringSummary.elementSize aux.stringSummary.direction first direction) := by
  have hguard : ¬ (aux.stringSummary.active = false ∨ aux.stringSummary.kind ≠ .movs) := by
    rintro (hoff | hne)
    · rw [hactive] at hoff
      cases hoff
    · exact hne hkind
  rw [captureEvent]
  by_cases hvalid : r.valueValid = false
  · have hcode : dseAuxCaptureStringRead ring aux r.address r.value r.valueValid r.valueTaint r.size =
        (ring, dseAuxMarkStringMismatch aux) := by
      rw [dseAuxCaptureStringRead, if_neg hguard, if_pos hvalid]
    rw [hcode]
    exact Or.inl (.mark aux)
  by_cases hsize : r.size = 0 ∨ r.size ≠ aux.stringSummary.elementSize ∨ r.size > 8
  · have hcode : dseAuxCaptureStringRead ring aux r.address r.value r.valueValid r.valueTaint r.size =
        (ring, dseAuxMarkStringMismatch aux) := by
      rw [dseAuxCaptureStringRead, if_neg hguard, if_neg hvalid, if_pos hsize]
    rw [hcode]
    exact Or.inl (.mark aux)
  have hcode : dseAuxCaptureStringRead ring aux r.address r.value r.valueValid r.valueTaint r.size =
      finishRead ring
        (noteAddress aux (fun first summary => { summary with sourceFirst := first })
          (aux.reg32 .rsi) aux.stringSummary.sourceFirst aux.stringSummary.readEvents r.address)
        r := by
    rw [dseAuxCaptureStringRead, if_neg hguard, if_neg hvalid, if_neg hsize]
    rfl
  rw [hcode]
  rw [not_or, not_or, not_not, Nat.not_lt] at hsize
  obtain hmarked | ⟨first, direction, hmap, hnoted⟩ := noteAddress_cases aux
    (fun first summary => { summary with sourceFirst := first }) (aux.reg32 .rsi)
    aux.stringSummary.readEvents r.address (fun _ => ⟨rfl, rfl, rfl, rfl, rfl, rfl⟩) rfl
    (fun _ => rfl) hdirection
  · have hfinish := finishRead_noted ring (noteAddress aux
      (fun first summary => { summary with sourceFirst := first }) (aux.reg32 .rsi)
      aux.stringSummary.sourceFirst aux.stringSummary.readEvents r.address) hsize.2.2
    exact Or.inl ⟨hmarked.same.trans hfinish.same, hfinish.mismatch.trans hmarked.mismatch,
      hfinish.direction.trans hmarked.direction⟩
  · refine Or.inr ⟨⟨Bool.eq_true_of_not_eq_false hvalid, hsize.2.1⟩, first, direction, ?_, hnoted⟩
    rw [hmap]
    have hfinish := finishRead_noted ring (aux.mapString fun summary =>
      { summary with sourceFirst := first, direction := direction }) hsize.2.2
    exact ⟨(SameRecord.map aux ⟨rfl, rfl, rfl, rfl, rfl, rfl⟩).trans hfinish.same, hfinish.mismatch,
      hfinish.sourceFirst, hfinish.direction, hfinish.destinationFirst, hfinish.readEvents,
      hfinish.writeEvents, hfinish.bytes⟩

/-! ### All accesses -/

/-- The record of a string instruction in progress. -/
structure InProgress (base aux : InsnAux) (reads : List StringRead) (writes : List StringWrite) :
    Prop where
  same : SameRecord base aux
  direction : aux.stringSummary.DirectionOk
  unbroken : aux.stringSummary.patternMismatch = false → Unbroken aux reads writes

namespace InProgress

variable {base aux : InsnAux} {reads : List StringRead} {writes : List StringWrite}

/-- A marked record tells nothing. -/
theorem marked (h : InProgress base aux reads writes) {aux' : InsnAux} (hmarked : Marked aux aux')
    (reads' : List StringRead) (writes' : List StringWrite) :
    InProgress base aux' reads' writes' := by
  refine ⟨h.same.trans hmarked.same, ?_, fun hno => ?_⟩
  · rw [DseStringSummary.DirectionOk, hmarked.direction]
    exact h.direction
  · rw [hmarked.mismatch] at hno
    cases hno

theorem write (h : InProgress base aux reads writes) (hactive : base.stringSummary.active = true)
    (w : StringWrite) :
    InProgress base (dseAuxCaptureStringWrite aux w.address w.size) reads (writes ++ [w]) := by
  obtain hmarked | ⟨hsize, first, direction, hcode, hnoted⟩ := dseAuxCaptureStringWrite_cases
    (h.same.summary.active.trans hactive) h.direction w.address w.size
  · exact h.marked hmarked _ _
  rw [hcode]
  refine ⟨h.same.trans (.map _ ⟨rfl, rfl, rfl, rfl, rfl, rfl⟩), hnoted.range, fun hno => ?_⟩
  have hold := h.unbroken hno
  constructor
  · exact hold.readEvents
  · show countEvent aux.stringSummary.writeEvents = min (writes ++ [w]).length uint32Max
    rw [hold.writeEvents, countEvent_min, List.length_append, List.length_singleton]
  · exact hold.source.turn_of hnoted.keeps
  · have hlength : (writes.map StringWrite.address).length = writes.length := List.length_map _
    rw [hold.writeEvents, ← hlength] at hnoted
    rw [List.map_append, List.map_singleton]
    exact hnoted.append hold.destination
  · exact hold.readSize
  · intro other hother
    rcases List.mem_append.mp hother with hother | hother
    · exact hold.writeSize other hother
    · obtain rfl := List.mem_singleton.mp hother
      exact hsize
  · exact hold.bytes

theorem read (h : InProgress base aux reads writes) (hactive : base.stringSummary.active = true)
    (hkind : base.stringSummary.kind = .movs) (ring : DseAuxRing) (r : StringRead) :
    InProgress base (captureEvent (ring, aux) (.read r)).2 (reads ++ [r]) writes := by
  obtain hmarked | ⟨hsize, first, direction, hread, hnoted⟩ := dseAuxCaptureStringRead_cases
    (h.same.summary.active.trans hactive) (h.same.summary.kind.trans hkind) h.direction ring r
  · exact h.marked hmarked _ _
  generalize (captureEvent (ring, aux) (.read r)).2 = aux' at hread ⊢
  have helement := hread.same.summary.elementSize
  refine ⟨h.same.trans hread.same, ?_, fun hno => ?_⟩
  · rw [DseStringSummary.DirectionOk, hread.direction]
    exact hnoted.range
  have hold := h.unbroken (hread.mismatch.symm.trans hno)
  constructor
  · rw [hread.readEvents, hold.readEvents, countEvent_min, List.length_append,
      List.length_singleton]
  · rw [hread.writeEvents]
    exact hold.writeEvents
  · have hlength : (reads.map StringRead.address).length = reads.length := List.length_map _
    rw [hold.readEvents, ← hlength] at hnoted
    rw [hread.sourceFirst, hread.direction, helement, hread.same.reg32, List.map_append,
      List.map_singleton]
    exact hnoted.append hold.source
  · rw [hread.destinationFirst, hread.direction, helement, hread.same.reg32]
    exact hold.destination.turn_of hnoted.keeps
  · intro other hother
    rw [helement]
    rcases List.mem_append.mp hother with hother | hother
    · exact hold.readSize other hother
    · obtain rfl := List.mem_singleton.mp hother
      exact hsize
  · intro w hw
    rw [helement]
    exact hold.writeSize w hw
  · intro hok
    obtain ⟨hok, hvalues, hcount, hle⟩ := hread.bytes hok
    obtain ⟨hvalues', hcount', -⟩ := hold.bytes hok
    refine ⟨?_, ?_, hle⟩
    · rw [hvalues, hvalues', List.flatMap_append, List.flatMap_singleton]
    · rw [hcount, hcount', helement, hsize.2, List.length_append, List.length_singleton,
        Nat.add_mul, Nat.one_mul]

/-- All accesses of the instruction. -/
theorem events (h : InProgress base aux reads writes) (hactive : base.stringSummary.active = true)
    (ring : DseAuxRing) (events : List StringEvent) :
    InProgress base (events.foldl captureEvent (ring, aux)).2
      (reads ++ capturedReads base.stringSummary.kind events) (writes ++ capturedWrites events) := by
  induction events generalizing ring aux reads writes with
  | nil =>
    rw [capturedReads, capturedWrites, List.append_nil, List.append_nil]
    exact h
  | cons event events ih =>
    cases event with
    | write w =>
      have hstep := ih (h.write hactive w) ring
      rw [List.append_assoc] at hstep
      exact hstep
    | read r =>
      rw [capturedReads, capturedWrites]
      by_cases hkind : base.stringSummary.kind = .movs
      · rw [if_pos hkind]
        have hstep := ih (h.read hactive hkind ring r) (captureEvent (ring, aux) (.read r)).1
        rw [List.append_assoc] at hstep
        exact hstep
      · -- reads of other instructions are not captured
        have hskip : captureEvent (ring, aux) (.read r) = (ring, aux) := by
          rw [captureEvent, dseAuxCaptureStringRead,
            if_pos (Or.inr fun heq => hkind (h.same.summary.kind.symm.trans heq))]
        rw [if_neg hkind, List.foldl_cons, hskip]
        exact ih h ring

end InProgress

/-! ### The end of the instruction -/

/-- A register that moved by the bytes of an instruction. -/
theorem dseAuxDirectionFromPostState_eq {before after : BitVec 32} {iterations elementSize : ℕ}
    {direction : ℤ}
    (h : dseAuxDirectionFromPostState before after (iterations * elementSize) = direction)
    (hne : direction ≠ 0) :
    (direction = 1 ∨ direction = -1) ∧
      after = stepAddress before direction elementSize iterations := by
  unfold dseAuxDirectionFromPostState at h
  split_ifs at h with hzero hsame hforward hbackward
  · subst h
    refine ⟨Or.inl rfl, ?_⟩
    rw [stepAddress_forward, hzero, hsame]
    exact (BitVec.add_zero before).symm
  · exact absurd h.symm hne
  · subst h
    exact ⟨Or.inl rfl, by rw [stepAddress_forward, hforward]⟩
  · subst h
    exact ⟨Or.inr rfl, by rw [stepAddress_backward, hbackward]⟩
  · exact absurd h.symm hne

/-- What the registers after an instruction tell. -/
structure PostAgrees (aux : InsnAux) (post : PostState) (direction : ℤ) : Prop where
  range : direction = 1 ∨ direction = -1
  byteCount : aux.stringSummary.expectedIterations * aux.stringSummary.elementSize ≤ uint32Max
  keeps : aux.stringSummary.direction ≠ 0 → direction = aux.stringSummary.direction
  destination : (post.regVals .rdi).setWidth 32 = stepAddress (aux.reg32 .rdi) direction
    aux.stringSummary.elementSize aux.stringSummary.expectedIterations
  source : aux.stringSummary.kind = .movs → (post.regVals .rsi).setWidth 32 =
    stepAddress (aux.reg32 .rsi) direction aux.stringSummary.elementSize
      aux.stringSummary.expectedIterations
  counter : aux.stringSummary.hasRepPrefix = true → (post.regVals .rcx).setWidth 32 = 0#32

theorem dseAuxResolveStringPostState_true {aux aux' : InsnAux} {post : PostState}
    (h : dseAuxResolveStringPostState aux post = (true, aux')) :
    ∃ direction : ℤ, PostAgrees aux post direction ∧
      aux' = aux.mapString fun summary => { summary with direction := direction } := by
  unfold dseAuxResolveStringPostState at h
  dsimp only at h
  generalize hmoved : dseAuxDirectionFromPostState (aux.reg32 .rdi) ((post.regVals .rdi).setWidth 32)
    (aux.stringSummary.expectedIterations * aux.stringSummary.elementSize) = direction at h
  split_ifs at h with hsnapshot hwrong hcounter
  · cases h
  · cases h
  · cases h
  obtain rfl := (Prod.mk.inj h).2
  rw [not_or, not_or] at hsnapshot hwrong
  obtain ⟨hrange, hdestination⟩ := dseAuxDirectionFromPostState_eq hmoved hwrong.1
  refine ⟨direction, ⟨hrange, Nat.not_lt.mp hsnapshot.1, ?_, hdestination, ?_, ?_⟩, rfl⟩
  · intro hne
    by_contra hother
    exact hwrong.2.2 ⟨hne, fun heq => hother heq.symm⟩
  · intro hkind
    have halong := Bool.eq_true_of_not_eq_false hwrong.2.1
    rw [sourceMovedAlong, hkind] at halong
    exact (dseAuxDirectionFromPostState_eq (eq_of_beq halong) hwrong.1).2
  · intro hrep
    by_contra hne
    exact hcounter ⟨hrep, hne⟩

/-- The accesses of an instruction as its summary tells them. -/
structure Lossless (base : InsnAux) (insn : InsnMeta) (events : List StringEvent) (post : PostState)
    (s : DseStringSummary) : Prop where
  kind : s.kind = dseStringKindOf insn.insnId ∧ s.kind ≠ .none
  elementSize : s.elementSize = insn.stringElementSize
  iterations : s.expectedIterations =
    if insn.hasRepPrefix then (base.reg32 .rcx).toNat else 1
  direction : s.direction = 1 ∨ s.direction = -1
  writeCount : s.writeEvents = s.expectedIterations ∧
    (capturedWrites events).length = s.expectedIterations
  readCount : s.readEvents = (if s.kind = .movs then s.expectedIterations else 0) ∧
    (capturedReads s.kind events).length = if s.kind = .movs then s.expectedIterations else 0
  write : ∀ (k : ℕ) (w : StringWrite), (capturedWrites events)[k]? = some w →
    w.size = s.elementSize ∧ BitVec.ofNat 32 w.address =
      stepAddress (BitVec.ofNat 32 s.destinationFirst) s.direction s.elementSize k
  writeFirst : ∀ w : StringWrite, (capturedWrites events)[0]? = some w →
    s.destinationFirst = w.address ∧ BitVec.ofNat 32 w.address = base.reg32 .rdi
  read : ∀ (k : ℕ) (r : StringRead), (capturedReads s.kind events)[k]? = some r →
    r.size = s.elementSize ∧ BitVec.ofNat 32 r.address =
      stepAddress (BitVec.ofNat 32 s.sourceFirst) s.direction s.elementSize k
  readFirst : ∀ r : StringRead, (capturedReads s.kind events)[0]? = some r →
    s.sourceFirst = r.address ∧ BitVec.ofNat 32 r.address = base.reg32 .rsi
  bytes : s.values = (capturedReads s.kind events).flatMap StringRead.bytes ∧
    s.bytesCaptured = (capturedReads s.kind events).length * s.elementSize
  edi : (post.regVals .rdi).setWidth 32 =
    stepAddress (base.reg32 .rdi) s.direction s.elementSize s.expectedIterations
  esi : s.kind = .movs → (post.regVals .rsi).setWidth 32 =
    stepAddress (base.reg32 .rsi) s.direction s.elementSize s.expectedIterations

/-- A record that is marked exact at the end. -/
theorem dseAuxFinalize_exact {aux : InsnAux} (hactive : aux.stringSummary.active = true)
    (hkind : aux.stringSummary.kind ≠ .none) {nextPc : BitVec 64} {post : PostState}
    (hexact : (dseAuxFinalize aux nextPc post).stringSummary.exact = true) :
    ∃ direction : ℤ, PostAgrees aux post direction ∧ stringIsExact aux.stringSummary true = true ∧
      (dseAuxFinalize aux nextPc post).stringSummary =
        { aux.stringSummary with direction := direction, exact := true } := by
  unfold dseAuxFinalize at hexact ⊢
  dsimp only at hexact ⊢
  rw [if_neg (by rw [hactive]; decide)] at hexact ⊢
  generalize hresolve : dseAuxResolveStringPostState
    { aux with nextPc := nextPc, nextPcValid := true, executionComplete := true } post = resolved
    at hexact ⊢
  obtain ⟨valid, aux'⟩ := resolved
  replace hexact : stringIsExact aux'.stringSummary valid = true := hexact
  cases valid with
  | false =>
    -- without the registers no summary is exact
    unfold stringIsExact at hexact
    have hsame : aux'.stringSummary.kind = aux.stringSummary.kind := by
      unfold dseAuxResolveStringPostState at hresolve
      dsimp only at hresolve
      split_ifs at hresolve
      · obtain rfl := (Prod.mk.inj hresolve).2
        rfl
      · obtain rfl := (Prod.mk.inj hresolve).2
        rfl
      · obtain rfl := (Prod.mk.inj hresolve).2
        rfl
      · cases hresolve
    cases hcase : aux'.stringSummary.kind with
    | none => exact absurd (hsame.symm.trans hcase) hkind
    | movs =>
      rw [hcase] at hexact
      cases hexact
    | stos =>
      rw [hcase] at hexact
      cases hexact
  | true =>
    obtain ⟨direction, hpost, hmap⟩ := dseAuxResolveStringPostState_true hresolve
    subst hmap
    refine ⟨direction, ⟨hpost.range, hpost.byteCount, hpost.keeps, hpost.destination, hpost.source,
      hpost.counter⟩, hexact, ?_⟩
    replace hexact : stringIsExact { aux.stringSummary with direction := direction } true = true :=
      hexact
    show { aux.stringSummary with
      direction := direction
      exact := stringIsExact { aux.stringSummary with direction := direction } true } = _
    rw [hexact]

/-- The record after the accesses of an instruction and its end. -/
def summarise (ring : DseAuxRing) (base : InsnAux) (insn : InsnMeta) (events : List StringEvent)
    (nextPc : BitVec 64) (post : PostState) : InsnAux :=
  dseAuxFinalize (events.foldl captureEvent (ring, dseAuxPrepareString base insn)).2 nextPc post

theorem capturedReads_of_ne {kind : DseStringKind} (hkind : kind ≠ .movs)
    (events : List StringEvent) : capturedReads kind events = [] := by
  induction events with
  | nil => rfl
  | cons event events ih =>
    cases event with
    | read r => rw [capturedReads, if_neg hkind, ih]
    | write w => rw [capturedReads, ih]

/-- Accesses of an instruction that is not summarised change nothing. -/
theorem events_inactive {aux : InsnAux} (hactive : aux.stringSummary.active = false)
    (ring : DseAuxRing) (events : List StringEvent) :
    (events.foldl captureEvent (ring, aux)).2 = aux := by
  induction events generalizing ring with
  | nil => rfl
  | cons event events ih =>
    have hskip : captureEvent (ring, aux) event = (ring, aux) := by
      cases event with
      | read r => rw [captureEvent, dseAuxCaptureStringRead, if_pos (Or.inl hactive)]
      | write w => rw [captureEvent, dseAuxCaptureStringWrite, if_pos hactive]
    rw [List.foldl_cons, hskip]
    exact ih ring

/-- A summary that was just started. -/
structure Started (base : InsnAux) (insn : InsnMeta) (aux : InsnAux) : Prop where
  active : aux.stringSummary.active = true
  kind : aux.stringSummary.kind = dseStringKindOf insn.insnId ∧ aux.stringSummary.kind ≠ .none
  elementSize : aux.stringSummary.elementSize = insn.stringElementSize ∧ 0 < insn.stringElementSize
  iterations : aux.stringSummary.expectedIterations =
    if insn.hasRepPrefix then (base.reg32 .rcx).toNat else 1
  reg32 : ∀ r, aux.reg32 r = base.reg32 r
  progress : InProgress aux aux [] []

theorem dseAuxPrepareString_cases {base : InsnAux} (hfresh : base.stringSummary = .zero)
    (insn : InsnMeta) :
    ((dseAuxPrepareString base insn).stringSummary.active = false ∧
      (dseAuxPrepareString base insn).stringSummary.exact = false) ∨
    Started base insn (dseAuxPrepareString base insn) := by
  unfold dseAuxPrepareString
  by_cases hsize : insn.stringElementSize = 0
  · rw [if_pos hsize, hfresh]
    exact Or.inl ⟨rfl, rfl⟩
  rw [if_neg hsize]
  dsimp only
  by_cases hkind : dseStringKindOf insn.insnId = .none
  · rw [if_pos hkind, InsnAux.mapString, hfresh]
    exact Or.inl ⟨rfl, rfl⟩
  rw [if_neg hkind]
  right
  obtain ⟨aux, hsummary, hregs, hcode⟩ : ∃ aux : InsnAux,
      aux.stringSummary =
        { DseStringSummary.zero with
          kind := dseStringKindOf insn.insnId
          hasRepPrefix := insn.hasRepPrefix
          elementSize := insn.stringElementSize
          expectedIterations := if insn.hasRepPrefix then (base.reg32 .rcx).toNat else 1 } ∧
      aux.regVals = base.regVals ∧
      aux = (base.mapString fun summary =>
        { summary with
          elementSize := insn.stringElementSize
          hasRepPrefix := insn.hasRepPrefix
          patternMismatch := false
          expectedIterations := if insn.hasRepPrefix then (base.reg32 .rcx).toNat else 1
          direction := 0 }).mapString fun summary =>
            { summary with kind := dseStringKindOf insn.insnId } := by
    refine ⟨_, ?_, ?_, rfl⟩
    · rw [InsnAux.mapString, InsnAux.mapString, hfresh]
      rfl
    · rfl
  rw [← hcode]
  -- an incomplete snapshot of the registers marks the record from the start
  have hstarted : ∀ aux' : InsnAux, aux'.regVals = aux.regVals →
      (∃ mismatch, aux'.stringSummary =
        { aux.stringSummary with patternMismatch := mismatch, active := true }) →
      Started base insn aux' := by
    rintro aux' hregs' ⟨mismatch, hsummary'⟩
    rw [hsummary] at hsummary'
    have hreg32 : ∀ r, aux'.reg32 r = base.reg32 r := by
      intro r
      rw [InsnAux.reg32, InsnAux.reg32, hregs', hregs]
    refine ⟨by rw [hsummary'], by rw [hsummary']; exact ⟨rfl, hkind⟩, ?_, by rw [hsummary'], hreg32,
      .refl aux', Or.inl (by rw [hsummary']; rfl), fun _ => ?_⟩
    · rw [hsummary']
      exact ⟨rfl, Nat.pos_of_ne_zero hsize⟩
    · refine ⟨by rw [hsummary']; rfl, by rw [hsummary']; rfl, .nil _ _ _ _, .nil _ _ _ _, nofun, nofun,
        fun _ => ?_⟩
      rw [hsummary']
      exact ⟨rfl, (Nat.zero_mul _).symm, Nat.zero_le _⟩
  split_ifs
  · exact hstarted _ rfl ⟨true, rfl⟩
  · exact hstarted _ rfl ⟨aux.stringSummary.patternMismatch, rfl⟩

/-- The counts of an exact summary. -/
theorem Unbroken.counts {aux : InsnAux} {reads : List StringRead} {writes : List StringWrite}
    (h : Unbroken aux reads writes) (hsize : 0 < aux.stringSummary.elementSize)
    (hstos : aux.stringSummary.kind ≠ .movs → reads = [])
    (hkind : aux.stringSummary.kind ≠ .none) (hover : aux.stringSummary.overflow = false)
    (hexact : stringIsExact aux.stringSummary true = true) :
    aux.stringSummary.expectedIterations ≤ dseMaxStringBytesPerInsn ∧
      aux.stringSummary.writeEvents = aux.stringSummary.expectedIterations ∧
      writes.length = aux.stringSummary.expectedIterations ∧
      aux.stringSummary.readEvents =
        (if aux.stringSummary.kind = .movs then aux.stringSummary.expectedIterations else 0) ∧
      reads.length =
        if aux.stringSummary.kind = .movs then aux.stringSummary.expectedIterations else 0 := by
  obtain ⟨-, hcaptured, hmax⟩ := h.bytes hover
  have hsmall : dseMaxStringBytesPerInsn < uint32Max := by decide
  have hwrites := h.writeEvents
  have hreads := h.readEvents
  have hle : ∀ n, n ≤ n * aux.stringSummary.elementSize := fun n => Nat.le_mul_of_pos_right n hsize
  have hiterations := hle aux.stringSummary.expectedIterations
  unfold stringIsExact at hexact
  dsimp only at hexact
  cases hcase : aux.stringSummary.kind with
  | none => exact absurd hcase hkind
  | movs =>
    rw [hcase] at hexact
    simp only [Bool.and_eq_true, beq_iff_eq] at hexact
    obtain ⟨⟨⟨-, hread⟩, hwrite⟩, hbytes⟩ := hexact
    have hlength : reads.length = aux.stringSummary.expectedIterations :=
      Nat.eq_of_mul_eq_mul_right hsize (hcaptured.symm.trans hbytes.symm)
    rw [if_pos rfl]
    exact ⟨by omega, hwrite, by omega, hread, hlength⟩
  | stos =>
    rw [hcase] at hexact
    simp only [Bool.and_eq_true, beq_iff_eq, decide_eq_true_eq] at hexact
    obtain ⟨⟨-, hwrite⟩, hbytes⟩ := hexact
    have hnil : reads = [] := hstos (by rw [hcase]; decide)
    rw [hnil, List.length_nil] at hreads ⊢
    rw [if_neg (by decide)]
    exact ⟨by omega, hwrite, by omega, by omega, rfl⟩

/-- An exact summary was never marked, and its bytes were all captured. -/
theorem stringIsExact_clean {s : DseStringSummary} (hkind : s.kind ≠ .none)
    (hexact : stringIsExact s true = true) : s.overflow = false ∧ s.patternMismatch = false := by
  unfold stringIsExact at hexact
  dsimp only at hexact
  cases hcase : s.kind with
  | none => exact absurd hcase hkind
  | movs =>
    rw [hcase] at hexact
    simp only [Bool.and_eq_true, Bool.true_and, Bool.not_eq_true'] at hexact
    exact hexact.1.1.1
  | stos =>
    rw [hcase] at hexact
    simp only [Bool.and_eq_true, Bool.true_and, Bool.not_eq_true'] at hexact
    exact hexact.1.1

/-- **The summaries lose nothing.**  Whatever accesses a string instruction makes, a summary that is
marked exact at its end tells how many there were, where they were, which bytes were read, and where
the registers went. -/
theorem string_summary_lossless {base : InsnAux} (hfresh : base.stringSummary = .zero)
    (ring : DseAuxRing) (insn : InsnMeta) (events : List StringEvent) (nextPc : BitVec 64)
    (post : PostState)
    (hexact : (summarise ring base insn events nextPc post).stringSummary.exact = true) :
    Lossless base insn events post (summarise ring base insn events nextPc post).stringSummary := by
  rw [summarise] at hexact ⊢
  obtain ⟨hactive, hno⟩ | hstarted := dseAuxPrepareString_cases hfresh insn
  · -- an instruction that is not summarised is not exact
    rw [events_inactive hactive, dseAuxFinalize] at hexact
    dsimp only at hexact
    rw [if_pos hactive] at hexact
    rw [hexact] at hno
    cases hno
  generalize dseAuxPrepareString base insn = aux₀ at *
  have hprogress := hstarted.progress.events hstarted.active ring events
  rw [List.nil_append, List.nil_append] at hprogress
  generalize (events.foldl captureEvent (ring, aux₀)).2 = aux at *
  have hsame := hprogress.same.summary
  have hkind : aux.stringSummary.kind ≠ .none := by
    rw [hsame.kind]
    exact hstarted.kind.2
  have hreg32 : ∀ r, aux.reg32 r = base.reg32 r := fun r =>
    (hprogress.same.reg32 r).trans (hstarted.reg32 r)
  obtain ⟨direction, hpost, hcounts, hsummary⟩ :=
    dseAuxFinalize_exact (hsame.active.trans hstarted.active) hkind hexact
  obtain ⟨hover, hmismatch⟩ := stringIsExact_clean hkind hcounts
  have hunbroken := hprogress.unbroken hmismatch
  have hsize : 0 < aux.stringSummary.elementSize := by
    rw [hsame.elementSize, hstarted.elementSize.1]
    exact hstarted.elementSize.2
  obtain ⟨hmax, hwriteEvents, hwrites, hreadEvents, hreads⟩ := hunbroken.counts hsize
    (fun hne => capturedReads_of_ne (fun heq => hne (hsame.kind.trans heq)) events) hkind hover
    hcounts
  rw [← hsame.kind] at hreads hunbroken
  obtain ⟨hvalues, hcaptured, -⟩ := hunbroken.bytes hover
  have hsmall : dseMaxStringBytesPerInsn ≤ uint32Max := by decide
  -- the sequences, in the direction that was found at the end
  have hsource := hunbroken.source.turn_of hpost.keeps
  have hdestination := hunbroken.destination.turn_of hpost.keeps
  rw [hreg32] at hsource hdestination
  rw [hsummary]
  refine
    { kind := ⟨hsame.kind.trans hstarted.kind.1, hkind⟩
      elementSize := hsame.elementSize.trans hstarted.elementSize.1
      iterations := hsame.expectedIterations.trans hstarted.iterations
      direction := hpost.range
      writeCount := ⟨hwriteEvents, hwrites⟩
      readCount := ⟨hreadEvents, hreads⟩
      write := fun k w hw => ⟨hunbroken.writeSize w (List.mem_of_getElem? hw), ?_⟩
      writeFirst := fun w hw => ?_
      read := fun k r hr => ⟨(hunbroken.readSize r (List.mem_of_getElem? hr)).2, ?_⟩
      readFirst := fun r hr => ?_
      bytes := ⟨hvalues, hcaptured⟩
      edi := ?_
      esi := fun hmovs => ?_ }
  · refine hdestination.get ?_ (by rw [List.getElem?_map, hw, Option.map_some])
    rw [List.length_map]
    omega
  · obtain ⟨hfirst, hstart⟩ :=
      hdestination.head w.address (by rw [List.getElem?_map, hw, Option.map_some])
    exact ⟨hfirst.symm, hstart⟩
  · refine hsource.get ?_ (by rw [List.getElem?_map, hr, Option.map_some])
    rw [List.length_map, hreads]
    split_ifs <;> omega
  · obtain ⟨hfirst, hstart⟩ :=
      hsource.head r.address (by rw [List.getElem?_map, hr, Option.map_some])
    exact ⟨hfirst.symm, hstart⟩
  · rw [← hreg32]
    exact hpost.destination
  · rw [← hreg32]
    exact hpost.source hmovs

/-! ### Two bytes downwards -/

/-- A record before `rep movsb` of two bytes, the destination at the bottom of memory. -/
def twoBytesBase : InsnAux :=
  { InsnAux.zero with
    regVals := fun
      | .rcx => 2
      | .rsi => 0x1001
      | .rdi => 0
      | _ => 0
    regValueValidMask := BitVec.allOnes 32 }

def twoBytesInsn : InsnMeta :=
  ⟨.movsb, true, true, 0, 0, 0, 0, 0, [], [], false, 0, 0, .none, false, true, 1⟩

/-- The bytes are copied downwards, and the destination wraps around. -/
def twoBytesEvents : List StringEvent :=
  [.read ⟨0x1001, 0x41, true, 1, 1⟩, .write ⟨0, 1⟩, .read ⟨0x1000, 0x42, true, 0, 1⟩,
    .write ⟨0xffffffff, 1⟩]

def twoBytesPost : PostState where
  regVals
    | .rsi => 0xfff
    | .rdi => 0xfffffffe
    | _ => 0
  validMask := BitVec.allOnes 32

def twoBytesRing : DseAuxRing := ⟨[], 0, dseMaxStringTraceBytes, ⟨fun _ => true⟩⟩

theorem string_summary_lossless_two_bytes :
    Lossless twoBytesBase twoBytesInsn twoBytesEvents twoBytesPost
      (summarise twoBytesRing twoBytesBase twoBytesInsn twoBytesEvents 0 twoBytesPost).stringSummary :=
  string_summary_lossless rfl twoBytesRing twoBytesInsn twoBytesEvents 0 twoBytesPost
    (by decide)

end TaintForge
