import TaintForge.Lib.RingBuffer
import TaintForge.Dta.Meta

/-!
# The trace and the branch events

The two rings of `trace.c`.  A trace entry gets the next sequence id when it is appended; resetting
the ring does not reset the ids.
-/

namespace TaintForge

/-- One executed instruction. -/
structure TraceEntry where
  seqId : ℕ
  vcpuIndex : ℕ
  metaId : ℕ
  pc : BitVec 64
  instrBytes : List UInt8
  controlTransferValid : Bool
  dcfgEdgeId : ℕ
  targetLabel : ℕ
  deriving DecidableEq, Repr

structure TraceBuffer where
  entries : RingBuffer TraceEntry
  nextSeqId : ℕ

/-- `traceBufferCreate`: the capacity has to be a power of two. -/
def traceBufferCreate (capacity : ℕ) : Option TraceBuffer :=
  if capacity > 0 ∧ capacity &&& (capacity - 1) = 0 then some ⟨RingBuffer.create capacity, 1⟩
  else none

/-- `traceAppend`: refused once the ids have run out. -/
def traceAppend (tb : TraceBuffer) (entry : TraceEntry) : TraceBuffer :=
  if tb.nextSeqId = 0 then tb
  else
    { entries := tb.entries.push { entry with seqId := tb.nextSeqId }
      nextSeqId := (tb.nextSeqId + 1) % 2 ^ 64 }

def traceGetLast (tb : TraceBuffer) (i : ℕ) : Option TraceEntry := tb.entries.getLast i

/-- Whether the entry `i` back has the id. -/
def hasSeqId (tb : TraceBuffer) (seqId i : ℕ) : Bool :=
  match traceGetLast tb i with
  | some entry => entry.seqId == seqId
  | none => false

/-- How far back the entry with an id is, the newest one first. -/
def traceFindIndex (tb : TraceBuffer) (seqId : ℕ) : Option ℕ :=
  (List.range tb.entries.count).find? (hasSeqId tb seqId)

/-- `traceFindSeq`: the entry with an id and how far back it is. -/
def traceFindSeq (tb : TraceBuffer) (seqId : ℕ) : Option (ℕ × TraceEntry) :=
  if seqId = 0 then none
  else
    match traceFindIndex tb seqId with
    | none => none
    | some i => (traceGetLast tb i).map fun entry => (i, entry)

/-- `traceRecordControlTransfer`: note the edge and the label of the target of a branch. -/
def traceRecordControlTransfer (tb : TraceBuffer) (seqId edgeId targetLabel : ℕ) : TraceBuffer :=
  if seqId = 0 ∨ targetLabel = 2 ^ 32 - 1 then tb
  else
    match traceFindIndex tb seqId with
    | none => tb
    | some i =>
      { tb with
        entries := tb.entries.modifyLast i fun entry =>
          { entry with
            controlTransferValid := true
            dcfgEdgeId := edgeId
            targetLabel := targetLabel } }

/-- `traceReset`: forget the entries, keep the ids. -/
def traceReset (tb : TraceBuffer) : TraceBuffer := { tb with entries := tb.entries.reset }

/-- One executed conditional branch. -/
structure BranchEvent where
  branchSeqId : ℕ
  vcpuIndex : ℕ
  conditionLabel : ℕ
  dcfgEdgeId : ℕ
  deriving DecidableEq, Repr

/-- `BranchEventBuffer`; the ids of the events themselves are not used. -/
abbrev BranchEventBuffer := RingBuffer BranchEvent

end TaintForge
