import TaintForge.Dse.AuxTrace

/-!
# The buffers behind the records

`aux_trace.c` once more, with the two buffers of a slot as the blocks of memory that they are: a block
that `malloc` returns holds anything, and what was captured is copied when a larger block takes its
place.  The records of `Dse.AuxTrace` keep only the bytes that were captured.

* `AuxMemory`: the ring and, for each slot, its two buffers.
* `reserveBuffers`, `captureBuffers`: `dse_aux_string_reserve` and `dse_aux_capture_string_read`.
* `AuxOp`, `AuxMemory.step`: what can happen to a ring.
-/

namespace TaintForge

/-- The blocks `values` and `value_taint` of a summary; a null pointer is an empty block. -/
structure StringBuffers where
  values : List (BitVec 8)
  valueTaint : List (BitVec 8)
  deriving DecidableEq, Repr

def StringBuffers.null : StringBuffers := ⟨[], []⟩

/-- How many bytes the two blocks take. -/
def StringBuffers.size (buffers : StringBuffers) : ℕ :=
  buffers.values.length + buffers.valueTaint.length

/-- What the next two blocks hold when `malloc` returns them. -/
structure Junk where
  values : ℕ → BitVec 8
  valueTaint : ℕ → BitVec 8

/-- A block of so many bytes. -/
def freshBlock (junk : ℕ → BitVec 8) (size : ℕ) : List (BitVec 8) := (List.range size).map junk

/-- `memcpy(destination, source, count)` -/
def memcpy (destination source : List (BitVec 8)) (count : ℕ) : List (BitVec 8) :=
  source.take count ++ destination.drop count

/-- Store bytes one after the other. -/
def pokeBytes (block : List (BitVec 8)) (start : ℕ) : List (BitVec 8) → List (BitVec 8)
  | [] => block
  | byte :: bytes => pokeBytes (block.set start byte) (start + 1) bytes

/-- A slot with its buffers. -/
structure AuxSlot where
  aux : InsnAux
  buffers : StringBuffers

/-- Change the record of a slot. -/
def AuxSlot.mapAux (slot : AuxSlot) (f : InsnAux → InsnAux) : AuxSlot := ⟨f slot.aux, slot.buffers⟩

/-- `dse_aux_string_reserve` -/
def reserveBuffers (ring : DseAuxRing) (slot : AuxSlot) (required : ℕ) (junk : Junk) :
    Bool × DseAuxRing × AuxSlot :=
  let summary := slot.aux.stringSummary
  if required > dseMaxStringBytesPerInsn then (false, ring, slot)
  else if required ≤ summary.capacity then (true, ring, slot)
  else
    let newCapacity :=
      growStringCapacity required 16 (if summary.capacity ≠ 0 then summary.capacity else 64)
    let additionalBytes := (newCapacity - summary.capacity) * 2
    if ring.dynamicBytes > ring.maxDynamicBytes ∨
        additionalBytes > ring.maxDynamicBytes - ring.dynamicBytes then (false, ring, slot)
    else
      let (grantedValues, heap) := ring.heap.calloc 1 newCapacity
      let (grantedTaint, heap) := heap.calloc 1 newCapacity
      if grantedValues = false ∨ grantedTaint = false then (false, { ring with heap := heap }, slot)
      else
        let newValues := freshBlock junk.values newCapacity
        let newTaint := freshBlock junk.valueTaint newCapacity
        let buffers :=
          if summary.bytesCaptured ≠ 0 then
            ⟨memcpy newValues slot.buffers.values summary.bytesCaptured,
              memcpy newTaint slot.buffers.valueTaint summary.bytesCaptured⟩
          else ⟨newValues, newTaint⟩
        (true, { ring with dynamicBytes := ring.dynamicBytes + additionalBytes, heap := heap },
          ⟨slot.aux.mapString fun summary => { summary with capacity := newCapacity }, buffers⟩)

/-- The bytes of a value. -/
def valueBytes (value : BitVec 64) (size : ℕ) : List (BitVec 8) :=
  (List.range size).map fun byte => (value >>> (8 * byte)).setWidth 8

/-- The taint of the bytes of a value, one byte for each. -/
def taintBytes (taint : BitVec 8) (size : ℕ) : List (BitVec 8) :=
  (List.range size).map fun byte => if taint.getLsbD byte then 1 else 0

/-- The address of a read is compared with those before it, and the read is counted. -/
def noteRead (aux : InsnAux) (address : ℕ) : InsnAux :=
  let summary := aux.stringSummary
  let eventIndex := summary.readEvents
  let aux :=
    if eventIndex = 0 then
      let aux := aux.mapString fun summary => { summary with sourceFirst := address }
      if BitVec.ofNat 32 address ≠ aux.reg32 .rsi then dseAuxMarkStringMismatch aux else aux
    else dseAuxValidateStringAddress aux summary.sourceFirst eventIndex address
  aux.mapString fun summary => { summary with readEvents := countEvent summary.readEvents }

/-- The bytes of a read are stored after those before it, if there is room. -/
def storeRead (ring : DseAuxRing) (slot : AuxSlot) (value : BitVec 64) (valueTaint : BitVec 8)
    (size : ℕ) (junk : Junk) : DseAuxRing × AuxSlot :=
  let captured := slot.aux.stringSummary.bytesCaptured
  if captured > dseMaxStringBytesPerInsn - size then
    (ring, slot.mapAux fun aux => aux.mapString fun summary => { summary with overflow := true })
  else
    let (reserved, ring, slot) := reserveBuffers ring slot (captured + size) junk
    if reserved = false then
      (ring, slot.mapAux fun aux => aux.mapString fun summary => { summary with overflow := true })
    else
      (ring,
        ⟨slot.aux.mapString fun summary => summary.appendBytes value valueTaint size,
          ⟨pokeBytes slot.buffers.values captured (valueBytes value size),
            pokeBytes slot.buffers.valueTaint captured (taintBytes valueTaint size)⟩⟩)

/-- `dse_aux_capture_string_read` -/
def captureBuffers (ring : DseAuxRing) (slot : AuxSlot) (address : ℕ) (value : BitVec 64)
    (valueValid : Bool) (valueTaint : BitVec 8) (size : ℕ) (junk : Junk) : DseAuxRing × AuxSlot :=
  let summary := slot.aux.stringSummary
  if summary.active = false ∨ summary.kind ≠ .movs then (ring, slot)
  else if valueValid = false then (ring, slot.mapAux dseAuxMarkStringMismatch)
  else if size = 0 ∨ size ≠ summary.elementSize ∨ size > 8 then
    (ring, slot.mapAux dseAuxMarkStringMismatch)
  else storeRead ring (slot.mapAux fun aux => noteRead aux address) value valueTaint size junk

/-- The ring with the buffers of its slots. -/
structure AuxMemory where
  ring : DseAuxRing
  buffers : List StringBuffers

namespace AuxMemory

/-- `dse_aux_create`: the slots are cleared. -/
def create (capacity : ℕ) (heap : Heap) : Option AuxMemory :=
  (dseAuxCreate capacity heap).map fun ring => ⟨ring, List.replicate capacity .null⟩

/-- A slot, if there is one. -/
def slot? (m : AuxMemory) (i : ℕ) : Option AuxSlot :=
  match m.ring.entries[i]?, m.buffers[i]? with
  | some aux, some buffers => some ⟨aux, buffers⟩
  | _, _ => none

/-- The ring with another record and other buffers in a slot. -/
def put (ring : DseAuxRing) (m : AuxMemory) (i : ℕ) (slot : AuxSlot) : AuxMemory :=
  ⟨{ ring with entries := ring.entries.set i slot.aux }, m.buffers.set i slot.buffers⟩

/-- How many bytes the buffers of all slots take. -/
def totalBytes (m : AuxMemory) : ℕ := (m.buffers.map StringBuffers.size).sum

end AuxMemory

/-- What can happen to a ring: room is made in a slot, a read is captured there, the summary of a
slot is started or finished, the slot of a new entry is taken into use again, or a slot is given up. -/
inductive AuxOp
  | reserve (slot required : ℕ) (junk : Junk)
  | capture (slot address : ℕ) (value : BitVec 64) (valueValid : Bool) (valueTaint : BitVec 8)
      (size : ℕ) (junk : Junk)
  | prepare (slot : ℕ) (insn : InsnMeta)
  | finalize (slot : ℕ) (nextPc : BitVec 64) (post : PostState)
  | reuse (ref : TraceRef) (exec : InsnExec)
  | release (slot : ℕ)

/-- One operation on a slot that exists. -/
def AuxMemory.stepSlot (m : AuxMemory) (i : ℕ) (f : DseAuxRing → AuxSlot → DseAuxRing × AuxSlot) :
    AuxMemory :=
  match m.slot? i with
  | none => m
  | some slot => .put (f m.ring slot).1 m i (f m.ring slot).2

/-- One operation.  The record of a new entry is built by the plugin from a cleared one. -/
def AuxMemory.step (m : AuxMemory) : AuxOp → AuxMemory
  | .reserve i required junk => m.stepSlot i fun ring slot => (reserveBuffers ring slot required junk).2
  | .capture i address value valueValid valueTaint size junk =>
    m.stepSlot i fun ring slot =>
      captureBuffers ring slot address value valueValid valueTaint size junk
  | .prepare i insn =>
    m.stepSlot i fun ring slot => (ring, slot.mapAux fun aux => dseAuxPrepareString aux insn)
  | .finalize i nextPc post =>
    m.stepSlot i fun ring slot => (ring, slot.mapAux fun aux => dseAuxFinalize aux nextPc post)
  | .reuse ref exec =>
    match dseAuxRecord m.ring ref exec.aux with
    | (ring, none) => ⟨ring, m.buffers⟩
    | (ring, some i) => ⟨ring, m.buffers.set i .null⟩
  | .release i =>
    m.stepSlot i fun ring slot =>
      (dseAuxReleaseString ring slot.aux, ⟨slot.aux.mapString fun _ => .zero, .null⟩)

/-- One operation after the other. -/
def AuxMemory.run (m : AuxMemory) (ops : List AuxOp) : AuxMemory := ops.foldl AuxMemory.step m

end TaintForge
