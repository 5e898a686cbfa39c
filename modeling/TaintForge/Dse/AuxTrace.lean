import TaintForge.Prov.Basic
import TaintForge.Dse.Trace

/-!
# What is recorded of an execution

The rings of `aux_trace.c` and the callbacks of the plugin that fill them.  For every traced
instruction the registers before it, their taint and the memory accesses are recorded; a string
instruction also gets a summary, which is *exact* when every access followed the pattern.

* `InsnAux`, `DseAuxRing`: the records, one for each slot of the trace.
* `dseAuxPrepareString`, `dseAuxCaptureStringRead`, `dseAuxCaptureStringWrite`,
  `dseAuxNoteMemAccess`, `dseAuxFinalize`: what happens to the record of the current instruction.
* `dseAuxHasExactMovs`, `dseAuxHasExactStos`, `dseAuxFor`: reading it back.
* `Recorder`: the trace, the records and the current one, with the callbacks as steps.
-/

namespace TaintForge

/-- `DSE_MAX_MEM_ACCESSES` -/
def dseMaxMemAccesses : ℕ := 8

/-- `DSE_MAX_STRING_BYTES_PER_INSN` -/
def dseMaxStringBytesPerInsn : ℕ := 64 * 1024

/-- `DSE_MAX_STRING_TRACE_BYTES` -/
def dseMaxStringTraceBytes : ℕ := 64 * 1024 * 1024

structure DseMemRead where
  addr : ℕ
  value : BitVec 64
  taint : BitVec 8
  effectiveTaint : BitVec 8
  addressTainted : Bool
  size : ℕ
  deriving DecidableEq, Repr

structure DseMemWrite where
  addr : ℕ
  value : BitVec 64
  size : ℕ
  valueValid : Bool
  deriving DecidableEq, Repr

inductive DseStringKind where
  | none | movs | stos
  deriving DecidableEq, Repr

/-- The accesses of a string instruction.  `values` and `valueTaint` are null exactly while
`capacity` is zero. -/
structure DseStringSummary where
  kind : DseStringKind
  active : Bool
  exact : Bool
  overflow : Bool
  patternMismatch : Bool
  hasRepPrefix : Bool
  elementSize : ℕ
  direction : ℤ
  expectedIterations : ℕ
  readEvents : ℕ
  writeEvents : ℕ
  bytesCaptured : ℕ
  capacity : ℕ
  sourceFirst : ℕ
  destinationFirst : ℕ
  values : List (BitVec 8)
  valueTaint : List Bool
  deriving DecidableEq, Repr

/-- A cleared summary. -/
def DseStringSummary.zero : DseStringSummary :=
  ⟨.none, false, false, false, false, false, 0, 0, 0, 0, 0, 0, 0, 0, 0, [], []⟩

/-- The accesses of one kind: how many, whether the range of the addresses is known, and it. -/
structure MemAccessRange where
  total : ℕ
  rangeValid : Bool
  rangeUnknown : Bool
  minAddr : ℕ
  maxAddr : ℕ
  deriving DecidableEq, Repr

/-- The record of one executed instruction; the accesses are the lists `memReads`, `memWrites`. -/
structure InsnAux where
  valid : Bool
  executionComplete : Bool
  seqId : ℕ
  metaId : ℕ
  pc : BitVec 64
  regVals : RegId → BitVec 64
  regTaint : RegId → BitVec 8
  regValueValidMask : BitVec 32
  eflagsValid : Bool
  eflagsBefore : BitVec 32
  nextPcValid : Bool
  nextPc : BitVec 64
  hasMemRead : Bool
  memReadAddr : ℕ
  memReadVal : BitVec 64
  memReadTaint : BitVec 8
  memReadEffectiveTaint : BitVec 8
  memReadAddressTainted : Bool
  hasMemWrite : Bool
  memWriteAddr : ℕ
  memWriteSize : ℕ
  memReadOverflow : Bool
  memReadRange : MemAccessRange
  memReads : List DseMemRead
  memWriteOverflow : Bool
  memWriteRange : MemAccessRange
  memWrites : List DseMemWrite
  stringSummary : DseStringSummary

def MemAccessRange.zero : MemAccessRange := ⟨0, false, false, 0, 0⟩

/-- A cleared record. -/
def InsnAux.zero : InsnAux where
  valid := false
  executionComplete := false
  seqId := 0
  metaId := 0
  pc := 0
  regVals _ := 0
  regTaint _ := 0
  regValueValidMask := 0
  eflagsValid := false
  eflagsBefore := 0
  nextPcValid := false
  nextPc := 0
  hasMemRead := false
  memReadAddr := 0
  memReadVal := 0
  memReadTaint := 0
  memReadEffectiveTaint := 0
  memReadAddressTainted := false
  hasMemWrite := false
  memWriteAddr := 0
  memWriteSize := 0
  memReadOverflow := false
  memReadRange := .zero
  memReads := []
  memWriteOverflow := false
  memWriteRange := .zero
  memWrites := []
  stringSummary := .zero

/-- The records, one for each slot of the trace, and the budget for captured bytes. -/
structure DseAuxRing where
  entries : List InsnAux
  dynamicBytes : ℕ
  maxDynamicBytes : ℕ
  heap : Heap

/-- A pointer into the trace: the slot and what it holds. -/
structure TraceRef where
  slot : ℕ
  entry : TraceEntry
  deriving DecidableEq, Repr

/-- `traceGetLast` as a pointer. -/
def traceRefLast (tb : TraceBuffer) (i : ℕ) : Option TraceRef :=
  (traceGetLast tb i).map fun entry => ⟨tb.entries.slotOf i, entry⟩

/-- The bit of a register. -/
def RegId.bit (r : RegId) : BitVec 32 := 1#32 <<< r.toNat

/-- The low 32 bits of a register before the instruction. -/
def InsnAux.reg32 (aux : InsnAux) (r : RegId) : BitVec 32 := (aux.regVals r).setWidth 32

/-- Change the summary of a record. -/
def InsnAux.mapString (aux : InsnAux) (f : DseStringSummary → DseStringSummary) : InsnAux :=
  { aux with stringSummary := f aux.stringSummary }

/-! ### The summary of a string instruction -/

/-- `dseAuxMarkStringMismatch` -/
def dseAuxMarkStringMismatch (aux : InsnAux) : InsnAux :=
  aux.mapString fun summary => { summary with patternMismatch := true }

/-- `dseAuxValidateStringAddress`: the second event tells the direction, later ones follow it. -/
def dseAuxValidateStringAddress (aux : InsnAux) (firstAddress eventIndex observedAddress : ℕ) :
    InsnAux :=
  let summary := aux.stringSummary
  if eventIndex = 0 then aux
  else
    let first := BitVec.ofNat 32 firstAddress
    let observed := BitVec.ofNat 32 observedAddress
    let distance := BitVec.ofNat 32 (eventIndex * summary.elementSize)
    let forward := first + distance
    let backward := first - distance
    if summary.direction = 0 then
      if observed = forward then aux.mapString fun summary => { summary with direction := 1 }
      else if observed = backward then
        aux.mapString fun summary => { summary with direction := -1 }
      else dseAuxMarkStringMismatch aux
    else if observed ≠ (if summary.direction > 0 then forward else backward) then
      dseAuxMarkStringMismatch aux
    else aux

/-- The kind of a string instruction that is summarised. -/
def dseStringKindOf : X86Insn → DseStringKind
  | .movsb | .movsw | .movsd | .movsq => .movs
  | .stosb | .stosw | .stosd | .stosq => .stos
  | _ => .none

/-- The registers whose values a summary relies on. -/
def stringRequiredRegisters (summary : DseStringSummary) : BitVec 32 :=
  RegId.rdi.bit ||| (if summary.kind = .movs then RegId.rsi.bit else RegId.rax.bit) |||
    (if summary.hasRepPrefix then RegId.rcx.bit else 0)

/-- `dseAuxPrepareString`: start the summary. -/
def dseAuxPrepareString (aux : InsnAux) (insn : InsnMeta) : InsnAux :=
  if insn.stringElementSize = 0 then aux
  else
    let aux := aux.mapString fun summary =>
      { summary with
        elementSize := insn.stringElementSize
        hasRepPrefix := insn.hasRepPrefix
        patternMismatch := false
        expectedIterations := if insn.hasRepPrefix then (aux.reg32 .rcx).toNat else 1
        direction := 0 }
    if dseStringKindOf insn.insnId = .none then aux
    else
      let aux := aux.mapString fun summary =>
        { summary with kind := dseStringKindOf insn.insnId }
      let required := stringRequiredRegisters aux.stringSummary
      let aux :=
        if aux.regValueValidMask &&& required ≠ required then dseAuxMarkStringMismatch aux else aux
      aux.mapString fun summary => { summary with active := true }

/-- The capacity doubles until it is enough or the largest. -/
def growStringCapacity (required : ℕ) : ℕ → ℕ → ℕ
  | 0, capacity => capacity
  | fuel + 1, capacity =>
    if capacity < required then
      if capacity ≥ dseMaxStringBytesPerInsn / 2 then dseMaxStringBytesPerInsn
      else growStringCapacity required fuel (capacity * 2)
    else capacity

/-- `dseAuxStringReserve`: make room for captured bytes, within the budget of the ring. -/
def dseAuxStringReserve (ring : DseAuxRing) (aux : InsnAux) (required : ℕ) :
    Bool × DseAuxRing × InsnAux :=
  let summary := aux.stringSummary
  if required > dseMaxStringBytesPerInsn then (false, ring, aux)
  else if required ≤ summary.capacity then (true, ring, aux)
  else
    -- sixteen doublings lead from one byte to the largest capacity
    let newCapacity :=
      growStringCapacity required 16 (if summary.capacity ≠ 0 then summary.capacity else 64)
    let additionalBytes := (newCapacity - summary.capacity) * 2
    if ring.dynamicBytes > ring.maxDynamicBytes ∨
        additionalBytes > ring.maxDynamicBytes - ring.dynamicBytes then (false, ring, aux)
    else
      let (grantedValues, heap) := ring.heap.calloc 1 newCapacity
      let (grantedTaint, heap) := heap.calloc 1 newCapacity
      if grantedValues = false ∨ grantedTaint = false then (false, { ring with heap := heap }, aux)
      else
        (true, { ring with dynamicBytes := ring.dynamicBytes + additionalBytes, heap := heap },
          aux.mapString fun summary => { summary with capacity := newCapacity })

/-- The bytes of a value that was read, with their taint. -/
def DseStringSummary.appendBytes (summary : DseStringSummary) (value : BitVec 64)
    (taint : BitVec 8) (size : ℕ) : DseStringSummary :=
  { summary with
    values := summary.values ++
      (List.range size).map fun byte => (value >>> (8 * byte)).setWidth 8
    valueTaint := summary.valueTaint ++ (List.range size).map taint.getLsbD
    bytesCaptured := summary.bytesCaptured + size }

/-- Count one event, without wrapping around. -/
def countEvent (events : ℕ) : ℕ := if events ≠ uint32Max then events + 1 else events

/-- `dseAuxCaptureStringRead` -/
def dseAuxCaptureStringRead (ring : DseAuxRing) (aux : InsnAux) (address : ℕ) (value : BitVec 64)
    (valueValid : Bool) (valueTaint : BitVec 8) (size : ℕ) : DseAuxRing × InsnAux :=
  let summary := aux.stringSummary
  if summary.active = false ∨ summary.kind ≠ .movs then (ring, aux)
  else if valueValid = false then (ring, dseAuxMarkStringMismatch aux)
  else if size = 0 ∨ size ≠ summary.elementSize ∨ size > 8 then (ring, dseAuxMarkStringMismatch aux)
  else
    let eventIndex := summary.readEvents
    let aux :=
      if eventIndex = 0 then
        let aux := aux.mapString fun summary => { summary with sourceFirst := address }
        if BitVec.ofNat 32 address ≠ aux.reg32 .rsi then dseAuxMarkStringMismatch aux else aux
      else dseAuxValidateStringAddress aux summary.sourceFirst eventIndex address
    let aux := aux.mapString fun summary =>
      { summary with readEvents := countEvent summary.readEvents }
    if aux.stringSummary.bytesCaptured > dseMaxStringBytesPerInsn - size then
      (ring, aux.mapString fun summary => { summary with overflow := true })
    else
      let (reserved, ring, aux) :=
        dseAuxStringReserve ring aux (aux.stringSummary.bytesCaptured + size)
      if reserved = false then
        (ring, aux.mapString fun summary => { summary with overflow := true })
      else (ring, aux.mapString fun summary => summary.appendBytes value valueTaint size)

/-- `dseAuxCaptureStringWrite` -/
def dseAuxCaptureStringWrite (aux : InsnAux) (address size : ℕ) : InsnAux :=
  let summary := aux.stringSummary
  if summary.active = false then aux
  else if size = 0 ∨ size ≠ summary.elementSize then dseAuxMarkStringMismatch aux
  else
    let eventIndex := summary.writeEvents
    let aux :=
      if eventIndex = 0 then
        let aux := aux.mapString fun summary => { summary with destinationFirst := address }
        if BitVec.ofNat 32 address ≠ aux.reg32 .rdi then dseAuxMarkStringMismatch aux else aux
      else dseAuxValidateStringAddress aux summary.destinationFirst eventIndex address
    aux.mapString fun summary => { summary with writeEvents := countEvent summary.writeEvents }

/-! ### The accesses -/

/-- `dseAuxNoteMemAccess` -/
def dseAuxNoteMemAccess (range : MemAccessRange) (address size : ℕ) : MemAccessRange :=
  let range := { range with total := countEvent range.total }
  if size = 0 ∨ address > uint64Max - (size - 1) then { range with rangeUnknown := true }
  else
    let last := address + size - 1
    if range.rangeValid = false then
      { range with rangeValid := true, minAddr := address, maxAddr := last }
    else
      { range with
        minAddr := if address < range.minAddr then address else range.minAddr
        maxAddr := if last > range.maxAddr then last else range.maxAddr }

/-- One access as the emulator reports it; the taint comes from the shadow state. -/
structure MemAccess where
  vaddr : ℕ
  size : ℕ
  value : Option (BitVec 64)
  rawTaint : BitVec 8
  effectiveTaint : BitVec 8
  addressTainted : Bool

/-- The record after a store, the part of `dseOnMem` for stores. -/
def dseOnMemStore (aux : InsnAux) (access : MemAccess) : InsnAux :=
  let aux := dseAuxCaptureStringWrite aux access.vaddr access.size
  let aux :=
    { aux with memWriteRange := dseAuxNoteMemAccess aux.memWriteRange access.vaddr access.size }
  let aux :=
    if aux.hasMemWrite = false then
      { aux with
        memWriteAddr := access.vaddr
        memWriteSize := if access.size ≤ maxRegBytes then access.size else 0 }
    else aux
  let aux := { aux with hasMemWrite := true }
  if access.size = 0 ∨ access.size > maxRegBytes ∨ aux.memWrites.length ≥ dseMaxMemAccesses then
    { aux with memWriteOverflow := true }
  else
    { aux with
      memWrites := aux.memWrites ++
        [⟨access.vaddr, access.value.getD 0, access.size, access.value.isSome⟩] }

/-- The record after a load, the part of `dseOnMem` for loads. -/
def dseOnMemLoad (ring : DseAuxRing) (aux : InsnAux) (access : MemAccess) : DseAuxRing × InsnAux :=
  let aux :=
    { aux with memReadRange := dseAuxNoteMemAccess aux.memReadRange access.vaddr access.size }
  let value := access.value.getD 0
  let aux :=
    if aux.hasMemRead = false then
      { aux with
        memReadAddr := access.vaddr
        memReadVal := value
        memReadTaint := access.rawTaint
        memReadEffectiveTaint := access.effectiveTaint
        memReadAddressTainted := access.addressTainted }
    else aux
  let (ring, aux) := dseAuxCaptureStringRead ring aux access.vaddr value access.value.isSome
    access.rawTaint access.size
  let aux := { aux with hasMemRead := true }
  if access.size = 0 ∨ access.size > maxRegBytes ∨ aux.memReads.length ≥ dseMaxMemAccesses then
    (ring, { aux with memReadOverflow := true })
  else
    (ring, { aux with
      memReads := aux.memReads ++
        [⟨access.vaddr, value, access.rawTaint, access.effectiveTaint, access.addressTainted,
          access.size⟩] })

/-! ### The end of the instruction -/

/-- `dseAuxDirectionFromPostState` -/
def dseAuxDirectionFromPostState (before after : BitVec 32) (byteCount : ℕ) : ℤ :=
  if byteCount = 0 then if after = before then 1 else 0
  else if after = before + BitVec.ofNat 32 byteCount then 1
  else if after = before - BitVec.ofNat 32 byteCount then -1
  else 0

/-- The registers after an instruction. -/
structure PostState where
  regVals : RegId → BitVec 64
  validMask : BitVec 32

/-- The registers that have to be known before and after. -/
def stringPostRequiredRegisters (summary : DseStringSummary) : BitVec 32 :=
  RegId.rdi.bit ||| (if summary.kind = .movs then RegId.rsi.bit else 0) |||
    (if summary.hasRepPrefix then RegId.rcx.bit else 0)

/-- Whether the source of a `movs` moved the way the destination did. -/
def sourceMovedAlong (aux : InsnAux) (post : PostState) (byteCount : ℕ) (direction : ℤ) : Bool :=
  aux.stringSummary.kind ≠ .movs ||
    dseAuxDirectionFromPostState (aux.reg32 .rsi) ((post.regVals .rsi).setWidth 32) byteCount ==
      direction

/-- `dseAuxResolveStringPostState`: do the registers after the instruction agree? -/
def dseAuxResolveStringPostState (aux : InsnAux) (post : PostState) : Bool × InsnAux :=
  let summary := aux.stringSummary
  let byteCount := summary.expectedIterations * summary.elementSize
  let required := stringPostRequiredRegisters summary
  if byteCount > uint32Max ∨ aux.regValueValidMask &&& required ≠ required ∨
      post.validMask &&& required ≠ required then (false, dseAuxMarkStringMismatch aux)
  else
    let direction :=
      dseAuxDirectionFromPostState (aux.reg32 .rdi) ((post.regVals .rdi).setWidth 32) byteCount
    if direction = 0 ∨ sourceMovedAlong aux post byteCount direction = false ∨
        (summary.direction ≠ 0 ∧ summary.direction ≠ direction) then
      (false, dseAuxMarkStringMismatch aux)
    else
      let aux := aux.mapString fun summary => { summary with direction := direction }
      if summary.hasRepPrefix = true ∧ (post.regVals .rcx).setWidth 32 ≠ 0#32 then
        (false, dseAuxMarkStringMismatch aux)
      else (true, aux)

/-- Whether the summary tells everything. -/
def stringIsExact (summary : DseStringSummary) (postStateValid : Bool) : Bool :=
  let expectedBytes := summary.expectedIterations * summary.elementSize
  match summary.kind with
  | .movs => postStateValid && !summary.overflow && !summary.patternMismatch &&
      summary.readEvents == summary.expectedIterations &&
      summary.writeEvents == summary.expectedIterations && expectedBytes == summary.bytesCaptured
  | .stos => postStateValid && !summary.overflow && !summary.patternMismatch &&
      summary.writeEvents == summary.expectedIterations &&
      decide (expectedBytes ≤ dseMaxStringBytesPerInsn)
  | .none => summary.exact

/-- `dseAuxFinalize`: the next instruction is about to be executed. -/
def dseAuxFinalize (aux : InsnAux) (nextPc : BitVec 64) (post : PostState) : InsnAux :=
  let aux := { aux with nextPc := nextPc, nextPcValid := true, executionComplete := true }
  if aux.stringSummary.active = false then aux
  else
    let (postStateValid, aux) := dseAuxResolveStringPostState aux post
    aux.mapString fun summary => { summary with exact := stringIsExact summary postStateValid }

/-! ### Reading the records back -/

/-- `dseAuxHasExactStringKind` -/
def dseAuxHasExactStringKind (aux : InsnAux) (expectedKind : DseStringKind) : Bool :=
  let summary := aux.stringSummary
  let totalBytes := summary.expectedIterations * summary.elementSize
  aux.executionComplete && summary.active && summary.exact && summary.kind == expectedKind &&
    !summary.overflow && !summary.patternMismatch &&
    (summary.elementSize == 1 || summary.elementSize == 2 || summary.elementSize == 4 ||
      summary.elementSize == 8) &&
    (summary.direction == 1 || summary.direction == -1) &&
    (summary.hasRepPrefix || summary.expectedIterations == 1) &&
    decide (totalBytes ≤ dseMaxStringBytesPerInsn) &&
    if summary.expectedIterations = 0 then
      summary.hasRepPrefix && summary.readEvents == 0 && summary.writeEvents == 0 &&
        aux.memReadRange.total == 0 && aux.memWriteRange.total == 0
    else
      aux.memWriteRange.rangeValid && !aux.memWriteRange.rangeUnknown &&
        aux.memWriteRange.total == summary.expectedIterations &&
        summary.writeEvents == summary.expectedIterations &&
        if expectedKind = .movs then
          aux.memReadRange.rangeValid && !aux.memReadRange.rangeUnknown &&
            aux.memReadRange.total == summary.expectedIterations &&
            summary.readEvents == summary.expectedIterations &&
            summary.bytesCaptured == totalBytes &&
            decide (summary.capacity ≥ summary.bytesCaptured) && summary.capacity != 0
        else
          aux.memReadRange.total == 0 && summary.readEvents == 0 && summary.bytesCaptured == 0

def dseAuxHasExactMovs (aux : InsnAux) : Bool := dseAuxHasExactStringKind aux .movs

def dseAuxHasExactStos (aux : InsnAux) : Bool := dseAuxHasExactStringKind aux .stos

/-- `dseAuxFor`: the record of an entry, if its slot still holds it. -/
def dseAuxFor (ring : DseAuxRing) (ref : TraceRef) : Option InsnAux :=
  if ref.entry.seqId = 0 then none
  else
    match ring.entries[ref.slot]? with
    | none => none
    | some aux =>
      if aux.valid = false ∨ aux.pc ≠ ref.entry.pc ∨ aux.seqId ≠ ref.entry.seqId ∨
          aux.metaId ≠ ref.entry.metaId then none
      else some aux

/-! ### The recorder -/

/-- `dseAuxReleaseString`: give the captured bytes of a slot back to the budget. -/
def dseAuxReleaseString (ring : DseAuxRing) (aux : InsnAux) : DseAuxRing :=
  { ring with
    dynamicBytes :=
      if aux.stringSummary.capacity * 2 ≤ ring.dynamicBytes then
        ring.dynamicBytes - aux.stringSummary.capacity * 2
      else 0 }

/-- `dseAuxRecord`: put a record into the slot of an entry, and tell the slot. -/
def dseAuxRecord (ring : DseAuxRing) (ref : TraceRef) (aux : InsnAux) : DseAuxRing × Option ℕ :=
  if ref.entry.seqId = 0 then (ring, none)
  else
    match ring.entries[ref.slot]? with
    | none => (ring, none)
    | some stored =>
      let ring := dseAuxReleaseString ring stored
      let aux :=
        { aux with
          valid := true
          seqId := ref.entry.seqId
          metaId := ref.entry.metaId
          pc := ref.entry.pc }
      ({ ring with entries := ring.entries.set ref.slot aux }, some ref.slot)

/-- `dseAuxCreate` -/
def dseAuxCreate (capacity : ℕ) (heap : Heap) : Option DseAuxRing :=
  if capacity > 0 ∧ capacity &&& (capacity - 1) = 0 then
    some ⟨List.replicate capacity .zero, 0, dseMaxStringTraceBytes, heap⟩
  else none

/-- The trace, the records and the slot of the current record. -/
structure Recorder where
  tb : TraceBuffer
  ring : DseAuxRing
  curAux : Option ℕ

/-- Change the current record. -/
def Recorder.mapCurrent (s : Recorder) (f : InsnAux → InsnAux) : Recorder :=
  match s.curAux with
  | none => s
  | some slot => { s with ring := { s.ring with entries := s.ring.entries.modify slot f } }

/-- What is known when an instruction is about to be executed. -/
structure InsnExec where
  entry : TraceEntry
  insn : Option InsnMeta
  taintSeen : Bool
  regVals : RegId → BitVec 64
  validMask : BitVec 32
  eflags : Option (BitVec 32)
  regTaint : RegId → BitVec 8

/-- The registers as the new instruction finds them. -/
def InsnExec.aux (exec : InsnExec) : InsnAux :=
  { InsnAux.zero with
    regVals := exec.regVals
    regValueValidMask := exec.validMask
    eflagsValid := exec.eflags.isSome
    eflagsBefore := exec.eflags.getD 0
    regTaint := exec.regTaint }

/-- Record the instruction just appended, the newest of the trace, once taint has been seen. -/
def Recorder.recordNewest (s : Recorder) (exec : InsnExec) : Recorder :=
  match traceRefLast s.tb 0 with
  | none => { s with curAux := none }
  | some ref =>
    if exec.taintSeen = false then { s with curAux := none }
    else
      let (ring, curAux) := dseAuxRecord s.ring ref exec.aux
      let s := { s with ring := ring, curAux := curAux }
      match exec.insn with
      | none => s
      | some insn => s.mapCurrent fun aux => dseAuxPrepareString aux insn

/-- `vcpuInsnExec`, as far as it records: the previous instruction is complete, this one starts. -/
def Recorder.insnExec (s : Recorder) (exec : InsnExec) : Recorder :=
  let s := s.mapCurrent fun aux =>
    dseAuxFinalize aux exec.entry.pc ⟨exec.regVals, exec.validMask⟩
  -- once the ids have run out nothing is appended and nothing is recorded
  if s.tb.nextSeqId = 0 then { s with curAux := none }
  else { s with tb := traceAppend s.tb exec.entry }.recordNewest exec

/-- A store of the current instruction. -/
def Recorder.memStore (s : Recorder) (access : MemAccess) : Recorder :=
  s.mapCurrent fun aux => dseOnMemStore aux access

/-- A load of the current instruction. -/
def Recorder.memLoad (s : Recorder) (access : MemAccess) : Recorder :=
  match s.curAux with
  | none => s
  | some slot =>
    match s.ring.entries[slot]? with
    | none => s
    | some aux =>
      let (ring, aux) := dseOnMemLoad s.ring aux access
      { s with ring := { ring with entries := ring.entries.set slot aux } }

/-- A branch of the trace has been resolved. -/
def Recorder.controlTransfer (s : Recorder) (seqId edgeId targetLabel : ℕ) : Recorder :=
  { s with tb := traceRecordControlTransfer s.tb seqId edgeId targetLabel }

end TaintForge
