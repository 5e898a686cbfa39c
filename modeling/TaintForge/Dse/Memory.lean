import TaintForge.Dse.Context
import TaintForge.Dse.Frontier

/-!
# The symbolic memory

The part of `dse.c` that reads and writes the memory byte by byte, and the loop over the elements of a
`movs` in `dse_lift_x86.c`.  Addresses are computed modulo `2 ^ 64`, those of string instructions modulo
`2 ^ 32`.

* `dseLoadTrackedByteAt`, `dseStoreTrackedByteAt`: one byte, with the check that its value is what was
  observed.
* `dseLoadMem`, `dseStoreMem`: the access of an instruction.
* `liftExactMovs`: the elements of a `movs`, those whose destinations are required.
-/

namespace TaintForge

open Function

/-! ### Bytes -/

/-- A check that the value is what was observed; if not, it is evaluated once more for the report. -/
def expectOrReport (e : SymExpr) (observedValue : BitVec 8) : Fallible DSECtx Unit := fun ctx =>
  match dseReplayExpect e (observedValue.setWidth 64) ctx with
  | (.ok, ctx) => (some (), ctx)
  | (_, ctx) =>
    let heap := (dseEvalExprObserved ctx.observedValues e ctx.exprs.heap).2
    (none, { ctx with exprs := { ctx.exprs with heap := heap } })

/-- `dse_load_tracked_byte_at`: a byte that is not tainted is a constant, one that was never written is a
variable. -/
def dseLoadTrackedByteAt (address epoch : ℕ) (observedValue : BitVec 8) (valueTainted : Bool) :
    Fallible DSECtx SymExpr := fun ctx =>
  if valueTainted = false then exprStep (symExprConst (observedValue.setWidth 64) 8) ctx
  else
    match ctx.state.symMem address with
    | some cell => (do
        let value ← symExprClone cell.expr
        expectOrReport value observedValue
        return value : Fallible DSECtx SymExpr) ctx
    | none =>
      dseNewObservedEpochVar (BitVec.ofNat 64 address) epoch ctx.memoryRootEpoch epoch 0 8 .memoryRoot
        (observedValue.setWidth 64) none ctx

def DSECtx.memoryIncomplete (ctx : DSECtx) : DSECtx := { ctx with memoryModelComplete := false }

/-- `g_hash_table_replace` on the memory. -/
def DSECtx.setCell (ctx : DSECtx) (address : ℕ) (cell : DseMemCell) : DSECtx :=
  { ctx with state := { ctx.state with symMem := update ctx.state.symMem address (some cell) } }

/-- `dse_store_tracked_byte_at` -/
def dseStoreTrackedByteAt (address : ℕ) (symbolicValue : SymExpr) (writerAux : InsnAux)
    (observedValue : BitVec 8) : Fallible DSECtx Unit :=
  if symbolicValue.width ≠ 8 then do
    Fallible.modify DSECtx.memoryIncomplete
    Fallible.fail
  else do
    expectOrReport symbolicValue observedValue
    allocate [8, 24] DSECtx.markResourceLimit
    Fallible.modify (·.setCell address ⟨symbolicValue, writerAux.seqId, writerAux.pc⟩)

/-- `dse_memory_write_byte_required` -/
def dseMemoryWriteByteRequired (ctx : DSECtx) (address : ℕ) : Bool :=
  if ctx.demandActive = false then true
  else if ctx.demandAllMemoryWrites then true
  else if ctx.demandSeqId = 0 then false
  else decide ((ctx.demandSeqId, address) ∈ ctx.demandMemoryWrites)

/-! ### Accesses -/

/-- The number of bytes of an access, at least one and at most eight. -/
def accessBytes (width : ℕ) : ℕ := min (max (width / 8) 1) 8

/-- A byte of a value. -/
def byteOf (value : BitVec 64) (index : ℕ) : BitVec 8 := (value >>> (8 * index)).setWidth 8

/-- Where a byte of a value is, of the `count` bytes from `base` on. -/
def byteAddress (base count : ℕ) (bigEndian : Bool) (index : ℕ) : ℕ :=
  (base + if bigEndian then count - 1 - index else index) % 2 ^ 64

/-- The byte with some index of what an instruction reads. -/
def loadByte (aux : InsnAux) (count : ℕ) (bigEndian : Bool) (index : ℕ) : Fallible DSECtx SymExpr :=
  dseLoadTrackedByteAt (byteAddress aux.memReadAddr count bigEndian index) aux.seqId
    (byteOf aux.memReadVal index) (aux.memReadTaint.getLsbD index)

/-- The bytes with the indices from 0 to `more`, of which the first is the lowest. -/
def loadBytes (aux : InsnAux) (count : ℕ) (bigEndian : Bool) : ℕ → Fallible DSECtx SymExpr
  | 0 => loadByte aux count bigEndian 0
  | more + 1 => do
    let result ← loadBytes aux count bigEndian more
    let byte ← loadByte aux count bigEndian (more + 1)
    symExprConcat byte result

/-- `dse_load_mem` -/
def dseLoadMem (aux : InsnAux) (widthBits : ℕ) (bigEndian : Bool) : Fallible DSECtx SymExpr :=
  if widthBits = 0 ∨ aux.hasMemRead = false then Fallible.fail
  else loadBytes aux (accessBytes widthBits) bigEndian (accessBytes widthBits - 1)

/-- Store the byte at `base + offset`, if it is required. -/
def storeByte (aux : InsnAux) (write : DseMemWrite) (value : SymExpr) (count : ℕ) (bigEndian : Bool)
    (offset : ℕ) : Fallible DSECtx Unit := fun ctx =>
  let address := (write.addr + offset) % 2 ^ 64
  if dseMemoryWriteByteRequired ctx address = false then (some (), ctx)
  else
    let sourceByte := if bigEndian then count - 1 - offset else offset
    (do
      let copy ← symExprClone value
      let byte ← symExprExtract copy (8 * sourceByte) 8
      dseStoreTrackedByteAt address byte aux (byteOf write.value sourceByte) : Fallible DSECtx Unit) ctx

/-- The first bytes, in order. -/
def storeBytes (aux : InsnAux) (write : DseMemWrite) (value : SymExpr) (count : ℕ) (bigEndian : Bool) :
    ℕ → Fallible DSECtx Unit
  | 0 => pure ()
  | offset + 1 => do
    storeBytes aux write value count bigEndian offset
    storeByte aux write value count bigEndian offset

/-- What an access was recorded as is in order: it is the only one, and it is where and as large as it
should be. -/
def writeRecorded (aux : InsnAux) (write : DseMemWrite) (count : ℕ) : Bool :=
  write.valueValid && write.addr == aux.memWriteAddr && write.size == count && aux.memWriteSize == count

/-- `dse_store_mem` -/
def dseStoreMem (aux : InsnAux) (value : SymExpr) (bigEndian : Bool) : Fallible DSECtx Unit :=
  match aux.memWrites with
  | [write] =>
    if aux.hasMemWrite = false ∨ aux.memWriteOverflow ∨ aux.memWriteRange.total ≠ 1 ∨
        writeRecorded aux write (accessBytes value.width) = false then do
      Fallible.modify DSECtx.memoryIncomplete
      Fallible.fail
    else storeBytes aux write value (accessBytes value.width) bigEndian (accessBytes value.width)
  | _ => do
    Fallible.modify DSECtx.memoryIncomplete
    Fallible.fail

/-! ### String instructions -/

/-- A byte of an element, as it was captured. -/
def loadCaptured (aux : InsnAux) (event byte : ℕ) : Fallible DSECtx SymExpr :=
  let summary := aux.stringSummary
  let capturedIndex := event * summary.elementSize + byte
  if summary.capacity = 0 ∨ capturedIndex ≥ summary.bytesCaptured then Fallible.fail
  else
    dseLoadTrackedByteAt (summary.source event byte) aux.seqId (summary.values.getD capturedIndex 0)
      (summary.valueTaint.getD capturedIndex false)

/-- Some bytes of an element are loaded. -/
def loadElement (aux : InsnAux) (event : ℕ) : List ℕ → Fallible DSECtx (List (ℕ × SymExpr))
  | [] => pure []
  | byte :: rest => do
    let value ← loadCaptured aux event byte
    let element ← loadElement aux event rest
    return (byte, value) :: element

/-- The bytes that were loaded are stored. -/
def storeElement (aux : InsnAux) (event : ℕ) : List (ℕ × SymExpr) → Fallible DSECtx Unit
  | [] => pure ()
  | (byte, value) :: rest => do
    let summary := aux.stringSummary
    dseStoreTrackedByteAt (summary.destination event byte) value aux
      (summary.values.getD (event * summary.elementSize + byte) 0)
    storeElement aux event rest

/-- The bytes of an element whose destinations are required. -/
def requiredBytes (ctx : DSECtx) (summary : DseStringSummary) (event : ℕ) : List ℕ :=
  (List.range summary.elementSize).filter fun byte =>
    dseMemoryWriteByteRequired ctx (summary.destination event byte)

/-- One element: all its bytes are loaded before any is stored. -/
def liftMovsElement (aux : InsnAux) (event : ℕ) : Fallible DSECtx Unit := do
  let ctx ← Fallible.read
  let element ← loadElement aux event (requiredBytes ctx aux.stringSummary event)
  storeElement aux event element

/-- The loop of `lift_exact_string` over the first elements of a `movs`. -/
def liftMovsElements (aux : InsnAux) : ℕ → Fallible DSECtx Unit
  | 0 => pure ()
  | event + 1 => do
    liftMovsElements aux event
    liftMovsElement aux event

/-- All elements. -/
def liftExactMovs (aux : InsnAux) : Fallible DSECtx Unit :=
  liftMovsElements aux aux.stringSummary.expectedIterations

end TaintForge
