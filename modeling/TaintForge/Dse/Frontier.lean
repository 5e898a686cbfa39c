import TaintForge.Lib.ByteMask
import TaintForge.Dse.AuxTrace
import Mathlib.Data.Finset.Image

/-!
# What is needed, and how one instruction changes it

The backward scan of `dse.c` keeps a frontier: the register bytes, flags and memory bytes whose
last writer is still to be found.  An instruction that is selected gives up what it writes and asks
for what it reads.

* `dseMetaRegBytes`: the register bytes an instruction reads or writes.
* `dseMemNeedAddAuxReads`, `dseMemNeedConsumeWrite`, `dseMemNeedApplyExactString`: the memory.
* `DseDependencyFrontier`, `dseDependencyFrontierApply`: the whole frontier.
-/

namespace TaintForge

/-- The bytes of each register, `uint8_t[REG_COUNT]`. -/
abbrev RegWorklist := RegId → BitVec 8

/-! ### Masks of registers -/

/-- `dseByteMask` -/
def dseByteMask (byteCount : ℕ) : BitVec 8 :=
  if byteCount = 0 ∨ byteCount > maxRegBytes then 0 else BitVec.ofNat 8 (2 ^ byteCount - 1)

/-- `dseNaturalRegMask`: the bytes of a register of the architecture. -/
def dseNaturalRegMask (naturalWidth : ℕ) : BitVec 8 :=
  if naturalWidth = 0 ∨ naturalWidth % 8 ≠ 0 then 0 else dseByteMask (naturalWidth / 8)

/-- `dseRegWorklistEmpty` -/
def dseRegWorklistEmpty (needed : RegWorklist) : Bool := RegId.all.all fun r => needed r == 0

/-- The bytes of a register in a list of slices. -/
def sliceBytes (slices : List RegSlice) (naturalMask : BitVec 8) (r : RegId) : BitVec 8 :=
  slices.foldl (fun bytes slice =>
    if regSliceIsValid slice = true ∧ slice.regId = some r then
      bytes ||| (slice.mask &&& naturalMask)
    else bytes) 0

/-- Whether a mask of registers has a register. -/
def hasReg (mask : BitVec 32) (r : RegId) : Bool := mask.getLsbD r.toNat

/-- `dseMetaRegBytes`: the bytes of the slices; all of a register that has no slice. -/
def dseMetaRegBytes (insn : InsnMeta) (writes : Bool) (naturalMask : BitVec 8) : RegWorklist :=
  fun r =>
    let slices := if writes then insn.regWrites else insn.regReads
    let registerMask := if writes then insn.regsWrittenMask else insn.regsReadMask
    let bytes := sliceBytes slices naturalMask r
    if hasReg registerMask r = true ∧ bytes = 0 then naturalMask else bytes

/-- `dseMetaExplicitReadBytes` -/
def dseMetaExplicitReadBytes (insn : InsnMeta) (naturalMask : BitVec 8) : RegWorklist :=
  fun r => sliceBytes insn.regReads naturalMask r

/-- `dseMetaWritesNeeded` -/
def dseMetaWritesNeeded (insn : InsnMeta) (needed : RegWorklist) (naturalMask : BitVec 8) : Bool :=
  RegId.all.any fun r => dseMetaRegBytes insn true naturalMask r &&& needed r != 0

/-- `dseConsumeMetaWrites` -/
def dseConsumeMetaWrites (insn : InsnMeta) (needed : RegWorklist) (naturalMask : BitVec 8) :
    RegWorklist :=
  fun r => needed r &&& ~~~dseMetaRegBytes insn true naturalMask r

/-- `dseAddMetaValueInputs`: ask for the tainted bytes that are read as values.  A register that
only forms an address counts with its explicit reads. -/
def dseAddMetaValueInputs (insn : InsnMeta) (aux : InsnAux)
    (excludedAddressMask forcedValueMask : BitVec 32) (needed : RegWorklist)
    (naturalMask : BitVec 8) : RegWorklist :=
  if insn.isSelfZeroing then needed
  else fun r =>
    let valueReads :=
      if hasReg excludedAddressMask r = true ∧ hasReg forcedValueMask r = false then
        dseMetaExplicitReadBytes insn naturalMask r
      else dseMetaRegBytes insn false naturalMask r
    needed r ||| (valueReads &&& (aux.regTaint r &&& naturalMask))

/-- `dseAddAddressInputs`: ask for the tainted bytes of the registers of a mask. -/
def dseAddAddressInputs (addressRegMask : BitVec 32) (aux : InsnAux) (needed : RegWorklist)
    (naturalMask : BitVec 8) : RegWorklist :=
  fun r => if hasReg addressRegMask r then needed r ||| (aux.regTaint r &&& naturalMask) else needed r

/-- `dseForcedAddressValueMask`: the address registers whose value is needed all the same. -/
def dseForcedAddressValueMask (insn : InsnMeta) (neededBefore : RegWorklist)
    (naturalMask : BitVec 8) : BitVec 32 :=
  let force (needed r : RegId) : BitVec 32 :=
    if neededBefore needed &&& naturalMask ≠ 0 then r.bit else 0
  match insn.insnId with
  | .lea => insn.memAddrRegMask
  | .push | .pop | .pushf | .pushfd | .pushfq | .call | .ret => force .rsp .rsp
  | .leave => force .rsp .rbp
  | .movsb | .movsw | .movsd | .movsq => force .rsi .rsi ||| force .rdi .rdi
  | .stosb | .stosw | .stosd | .stosq => force .rdi .rdi
  | _ => 0

/-! ### The memory -/

/-- The addresses of an access. -/
def memRange (addr size : ℕ) : Finset ℕ := (Finset.range size).image (addr + ·)

/-- Whether an access is empty or runs over the end of the address space. -/
def accessUnusable (addr size : ℕ) : Bool := size == 0 || decide (addr > uint64Max - (size - 1))

/-- `dseMemNeedAddRead`: ask for the tainted bytes of a read. -/
def dseMemNeedAddRead (needed : Finset ℕ) (read : DseMemRead) : Bool × Finset ℕ :=
  if read.size > maxRegBytes ∨ accessUnusable read.addr read.size = true then (false, needed)
  else
    (true, needed ∪ ((Finset.range read.size).filter fun byte => read.taint.getLsbD byte).image
      (read.addr + ·))

/-- Ask for the bytes of the reads one after the other. -/
def dseMemNeedAddReads : List DseMemRead → Finset ℕ → Bool × Finset ℕ
  | [], needed => (true, needed)
  | read :: reads, needed =>
    match dseMemNeedAddRead needed read with
    | (true, needed) => dseMemNeedAddReads reads needed
    | (false, needed) => (false, needed)

/-- `dseMemNeedAddAuxReads` -/
def dseMemNeedAddAuxReads (needed : Finset ℕ) (aux : InsnAux) : Bool × Finset ℕ :=
  if aux.memReadOverflow = true ∨ (aux.hasMemRead = true ∧ aux.memReads = []) then (false, needed)
  else dseMemNeedAddReads aux.memReads needed

/-- `dseMemNeedWriteOverlaps` -/
def dseMemNeedWriteOverlaps (needed : Finset ℕ) (write : DseMemWrite) : Bool :=
  !accessUnusable write.addr write.size &&
    (List.range write.size).any fun byte => decide (write.addr + byte ∈ needed)

/-- `dseMemNeedConsumeWrite` -/
def dseMemNeedConsumeWrite (needed : Finset ℕ) (write : DseMemWrite) : Finset ℕ :=
  if accessUnusable write.addr write.size = true then needed
  else needed \ memRange write.addr write.size

/-- `dseMemNeedRangeMayOverlap` -/
def dseMemNeedRangeMayOverlap (needed : Finset ℕ) (aux : InsnAux) : Bool :=
  if needed = ∅ then false
  else if aux.memWriteRange.rangeValid = false ∨ aux.memWriteRange.rangeUnknown = true then true
  else decide (∃ address ∈ needed,
    address ≥ aux.memWriteRange.minAddr ∧ address ≤ aux.memWriteRange.maxAddr)

/-- `dseMemNeedMaskForRange` -/
def dseMemNeedMaskForRange (needed : Finset ℕ) (address size : ℕ) : BitVec 8 :=
  if size > maxRegBytes ∨ accessUnusable address size = true then 0
  else ByteMask.ofFn size fun byte => decide (address + byte ∈ needed)

/-! ### String instructions -/

/-- `dseAuxHasUsableExactString` -/
def dseAuxHasUsableExactString (naturalWidth : ℕ) (aux : InsnAux) : Bool :=
  naturalWidth == 32 && aux.stringSummary.elementSize != 0 &&
    decide (aux.stringSummary.elementSize ≤ naturalWidth / 8) &&
    (dseAuxHasExactMovs aux || dseAuxHasExactStos aux)

/-- `dseStringEventByteAddress`: a byte of the element an event of a string instruction moves. -/
def dseStringEventByteAddress (first : ℕ) (direction : ℤ) (elementSize eventIndex byteIndex : ℕ) :
    ℕ :=
  (BitVec.ofNat 32 first +
    BitVec.ofInt 32 (direction * eventIndex * elementSize + byteIndex)).toNat

/-- The address a byte is moved to. -/
def DseStringSummary.destination (summary : DseStringSummary) (event byte : ℕ) : ℕ :=
  dseStringEventByteAddress summary.destinationFirst summary.direction summary.elementSize event byte

/-- The address a byte is moved from. -/
def DseStringSummary.source (summary : DseStringSummary) (event byte : ℕ) : ℕ :=
  dseStringEventByteAddress summary.sourceFirst summary.direction summary.elementSize event byte

/-- `dseMovsSummaryRangesOverlap` -/
def dseMovsSummaryRangesOverlap (summary : DseStringSummary) : Bool :=
  if summary.kind ≠ .movs ∨ summary.expectedIterations = 0 ∨ summary.elementSize = 0 then false
  else if summary.direction ≠ 1 ∧ summary.direction ≠ -1 then true
  else
    let totalBytes := summary.expectedIterations * summary.elementSize
    if totalBytes ≥ 2 ^ 32 then true
    else
      let backwardDisplacement :=
        BitVec.ofNat 32 ((summary.expectedIterations - 1) * summary.elementSize)
      let start (first : ℕ) : BitVec 32 :=
        if summary.direction < 0 then BitVec.ofNat 32 first - backwardDisplacement
        else BitVec.ofNat 32 first
      let sourceStart := start summary.sourceFirst
      let destinationStart := start summary.destinationFirst
      decide ((destinationStart - sourceStart).toNat < totalBytes) ||
        decide ((sourceStart - destinationStart).toNat < totalBytes)

/-- `dseExactMovsRequiresFullReplay` -/
def dseExactMovsRequiresFullReplay (aux : InsnAux) : Bool :=
  dseAuxHasExactMovs aux && dseMovsSummaryRangesOverlap aux.stringSummary

/-- `dseMemNeedExactStringWriteOverlaps` -/
def dseMemNeedExactStringWriteOverlaps (naturalWidth : ℕ) (needed : Finset ℕ) (aux : InsnAux) :
    Bool :=
  dseAuxHasUsableExactString naturalWidth aux &&
    (List.range aux.stringSummary.expectedIterations).any fun event =>
      (List.range aux.stringSummary.elementSize).any fun byte =>
        decide (aux.stringSummary.destination event byte ∈ needed)

/-- The bytes of an event whose destinations are needed. -/
def stringEventMask (needed : Finset ℕ) (summary : DseStringSummary) (event : ℕ) : BitVec 8 :=
  ByteMask.ofFn summary.elementSize fun byte => decide (summary.destination event byte ∈ needed)

/-- The addresses of the bytes of a mask. -/
def stringEventBytes (mask : BitVec 8) (elementSize : ℕ) (address : ℕ → ℕ) : Finset ℕ :=
  ((Finset.range elementSize).filter fun byte => mask.getLsbD byte).image address

/-- The tainted source bytes of an event, those of a mask. -/
def stringEventSources (mask : BitVec 8) (summary : DseStringSummary) (event : ℕ) : Finset ℕ :=
  ((Finset.range summary.elementSize).filter fun byte =>
    mask.getLsbD byte && summary.valueTaint.getD (event * summary.elementSize + byte) false).image
    (summary.source event)

/-- One event, backwards: give up the needed destinations, ask for where they come from. -/
def dseMemNeedApplyStringEvent (aux : InsnAux) (needed : Finset ℕ × RegWorklist) (event : ℕ) :
    Finset ℕ × RegWorklist :=
  let summary := aux.stringSummary
  let mask := stringEventMask needed.1 summary event
  if mask = 0 then needed
  else
    let memory :=
      needed.1 \ stringEventBytes mask summary.elementSize (summary.destination event)
    if summary.kind = .movs then (memory ∪ stringEventSources mask summary event, needed.2)
    else
      (memory, Function.update needed.2 .rax (needed.2 .rax ||| (mask &&& aux.regTaint .rax)))

/-- `dseMemNeedApplyExactString`: the events, the last one first. -/
def dseMemNeedApplyExactString (needed : Finset ℕ × RegWorklist) (aux : InsnAux) :
    Finset ℕ × RegWorklist :=
  (List.range aux.stringSummary.expectedIterations).reverse.foldl
    (dseMemNeedApplyStringEvent aux) needed

/-! ### The frontier -/

structure DseDependencyFrontier where
  regs : RegWorklist
  flags : BitVec 8
  memory : Finset ℕ

/-- `dseDependencyFrontierInit` -/
def DseDependencyFrontier.init : DseDependencyFrontier := ⟨fun _ => 0, 0, ∅⟩

/-- `dseDependencyFrontierEmpty` -/
def dseDependencyFrontierEmpty (frontier : DseDependencyFrontier) : Bool :=
  dseRegWorklistEmpty frontier.regs && frontier.flags == 0 && decide (frontier.memory = ∅)

/-- `dseDependencyFrontierMemoryRelevant` -/
def dseDependencyFrontierMemoryRelevant (naturalWidth : ℕ) (frontier : DseDependencyFrontier)
    (aux : InsnAux) : Bool :=
  if dseAuxHasUsableExactString naturalWidth aux then
    dseMemNeedRangeMayOverlap frontier.memory aux &&
      dseMemNeedExactStringWriteOverlaps naturalWidth frontier.memory aux
  else aux.memWrites.any fun write => dseMemNeedWriteOverlaps frontier.memory write

/-- Why an instruction is relevant for a frontier. -/
structure FrontierRelevance where
  register : Bool
  memory : Bool
  flag : Bool
  deriving DecidableEq, Repr

def FrontierRelevance.any (relevance : FrontierRelevance) : Bool :=
  relevance.register || relevance.memory || relevance.flag

/-- The address registers of the accesses that took place. -/
def observedAddressMask (insn : InsnMeta) (aux : InsnAux) : BitVec 32 :=
  (if aux.hasMemRead then insn.memReadAddrRegMask else 0) |||
    (if aux.hasMemWrite then insn.memWriteAddrRegMask else 0)

/-- The registers that count with their explicit reads only: those of the addresses, the counter
of an exact string instruction and what a `stos` stores. -/
def excludedValueMask (naturalWidth : ℕ) (insn : InsnMeta) (aux : InsnAux) : BitVec 32 :=
  let exactString := dseAuxHasUsableExactString naturalWidth aux
  observedAddressMask insn aux ||| (if exactString then RegId.rcx.bit else 0) |||
    (if exactString = true ∧ aux.stringSummary.kind = .stos then RegId.rax.bit else 0)

/-- The memory is given up; a `stos` asks for the register it stores. -/
def frontierConsumeMemory (naturalWidth : ℕ) (frontier : DseDependencyFrontier) (aux : InsnAux)
    (memoryRelevant : Bool) : DseDependencyFrontier :=
  if memoryRelevant = false then frontier
  else if dseAuxHasUsableExactString naturalWidth aux then
    let (memory, regs) := dseMemNeedApplyExactString (frontier.memory, frontier.regs) aux
    { frontier with memory := memory, regs := regs }
  else { frontier with memory := aux.memWrites.foldl dseMemNeedConsumeWrite frontier.memory }

/-- The flags: given up where they are written, asked for where they are read. -/
def frontierApplyFlags (insn : InsnMeta) (flags : BitVec 8) (relevance : FrontierRelevance)
    (pathRelevant : Bool) : BitVec 8 :=
  let flags :=
    if relevance.flag then flags &&& ~~~insn.flagsWriteMask ||| insn.flagsReadMask else flags
  if pathRelevant || relevance.register || relevance.memory then flags ||| insn.flagsReadMask
  else flags

/-- `dseDependencyFrontierApply`: whether the reads could be asked for, and the frontier before
the instruction. -/
def dseDependencyFrontierApply (naturalWidth : ℕ) (frontier : DseDependencyFrontier)
    (insn : InsnMeta) (aux : InsnAux) (relevance : FrontierRelevance) (pathRelevant : Bool)
    (naturalMask : BitVec 8) : Bool × DseDependencyFrontier :=
  let neededBefore := frontier.regs
  let frontier := frontierConsumeMemory naturalWidth frontier aux relevance.memory
  let flags := frontierApplyFlags insn frontier.flags relevance pathRelevant
  let regs := dseConsumeMetaWrites insn frontier.regs naturalMask
  let regs := dseAddMetaValueInputs insn aux (excludedValueMask naturalWidth insn aux)
    (dseForcedAddressValueMask insn neededBefore naturalMask) regs naturalMask
  let regs :=
    if insn.insnId = .lea ∧ relevance.register = true then
      dseAddAddressInputs insn.memAddrRegMask aux regs naturalMask
    else regs
  if dseAuxHasUsableExactString naturalWidth aux = false ∧ aux.hasMemRead = true then
    let (added, memory) := dseMemNeedAddAuxReads frontier.memory aux
    (added, ⟨regs, flags, memory⟩)
  else (true, ⟨regs, flags, frontier.memory⟩)

end TaintForge
