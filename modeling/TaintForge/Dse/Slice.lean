import TaintForge.Lib.InPlace
import TaintForge.Dse.Frontier
import TaintForge.Dse.Relevance

/-!
# The backward slice

`dseBuildValueSlice` walks the trace back from a trigger and collects the instructions its target
depends on.  Two frontiers are kept: the data frontier for the value of the target, and the replay
frontier, which also follows the branches that have to be taken.  When the branches or the slice
get too many, the scan falls back to the data frontier alone.

The slice, a marker for the data dependencies and the replay plan are parallel arrays, filled
backwards, compacted in place by a fallback and reversed in place at the end.

* `dseKeepOnlyDataDependencies`, `dseReverseDependencies`: the loops over the arrays.
* `scanEntry`: one entry of the trace; `scanFrom`: the loop.
* `dseBuildValueSlice`: the whole slice.
-/

namespace TaintForge

/-- `MAX_SLICE` -/
def maxSlice : ℕ := 512

/-- `DSE_MAX_PATH_CONSTRAINTS` -/
def dseMaxPathConstraints : ℕ := 128

inductive DseSliceStatus where
  | ok | invalidInput | triggerMissing | metaMissing | auxMissing | truncated
  | unresolvedRegister | unresolvedMemory | symbolicAddress | memAccessUnmodeled
  deriving DecidableEq, Repr

structure DseSliceResult where
  status : DseSliceStatus
  len : ℕ
  metaMissing : ℕ
  auxMissing : ℕ
  unresolvedRegBytes : RegWorklist
  unresolvedMemBytes : BitVec 8
  boundaryRegBytes : RegWorklist
  boundaryMemBytes : BitVec 8
  addressRootRegBytes : RegWorklist
  boundaryFlags : BitVec 8
  pathConstraintsExpected : ℕ
  stringSummaries : ℕ
  boundaryMemByteCount : ℕ
  relevance : DseRelevanceStats
  dataComplete : Bool
  pathComplete : Bool
  complete : Bool

/-- `dseSliceResult`: a cleared result. -/
def dseSliceResult (status : DseSliceStatus) : DseSliceResult :=
  ⟨status, 0, 0, 0, fun _ => 0, 0, fun _ => 0, 0, fun _ => 0, 0, 0, 0, 0,
    ⟨0, 0, 0, 0, 0, 0, false, false⟩, false, false, false⟩

/-- What each instruction of the slice has to preserve.  The memory demands are pairs of a sequence
id and an address. -/
structure DseSlicePlan where
  seqId : ℕ → ℕ
  dataRegLiveAfter : ℕ → RegWorklist
  replayRegLiveAfter : ℕ → RegWorklist
  dataAllMemoryWrites : ℕ → Bool
  replayAllMemoryWrites : ℕ → Bool
  dataMemoryWrites : Finset (ℕ × ℕ)
  replayMemoryWrites : Finset (ℕ × ℕ)

/-- `dseSlicePlanInit` -/
def dseSlicePlanInit : DseSlicePlan :=
  ⟨fun _ => 0, fun _ _ => 0, fun _ _ => 0, fun _ => false, fun _ => false, ∅, ∅⟩

/-- The arrays that are filled in parallel; the caller may do without a plan. -/
structure DseSliceArrays where
  outSlice : ℕ → Option TraceRef
  dependencyIsData : ℕ → Bool
  plan : Option DseSlicePlan

/-! ### The arrays -/

/-- Exchange two rows of the plan. -/
def DseSlicePlan.swap (plan : DseSlicePlan) (i j : ℕ) : DseSlicePlan :=
  { plan with
    seqId := InPlace.swap plan.seqId i j
    dataRegLiveAfter := InPlace.swap plan.dataRegLiveAfter i j
    replayRegLiveAfter := InPlace.swap plan.replayRegLiveAfter i j
    dataAllMemoryWrites := InPlace.swap plan.dataAllMemoryWrites i j
    replayAllMemoryWrites := InPlace.swap plan.replayAllMemoryWrites i j }

/-- Copy one row of the plan over another. -/
def DseSlicePlan.copy (plan : DseSlicePlan) (write read : ℕ) : DseSlicePlan :=
  { plan with
    seqId := Function.update plan.seqId write (plan.seqId read)
    dataRegLiveAfter :=
      Function.update plan.dataRegLiveAfter write (plan.dataRegLiveAfter read)
    replayRegLiveAfter :=
      Function.update plan.replayRegLiveAfter write (plan.replayRegLiveAfter read)
    dataAllMemoryWrites :=
      Function.update plan.dataAllMemoryWrites write (plan.dataAllMemoryWrites read)
    replayAllMemoryWrites :=
      Function.update plan.replayAllMemoryWrites write (plan.replayAllMemoryWrites read) }

/-- Fill in a row of the plan. -/
def DseSlicePlan.setRow (plan : DseSlicePlan) (index seqId : ℕ)
    (dataRegLiveAfter replayRegLiveAfter : RegWorklist) : DseSlicePlan :=
  { plan with
    seqId := Function.update plan.seqId index seqId
    dataRegLiveAfter := Function.update plan.dataRegLiveAfter index dataRegLiveAfter
    replayRegLiveAfter := Function.update plan.replayRegLiveAfter index replayRegLiveAfter
    dataAllMemoryWrites := Function.update plan.dataAllMemoryWrites index false
    replayAllMemoryWrites := Function.update plan.replayAllMemoryWrites index false }

/-- One exchange of `dseReverseDependencies`; the marker of the data dependencies stays. -/
def DseSliceArrays.swap (arrays : DseSliceArrays) (i j : ℕ) : DseSliceArrays :=
  { arrays with
    outSlice := InPlace.swap arrays.outSlice i j
    plan := arrays.plan.map fun plan => plan.swap i j }

/-- `dseReverseDependencies` -/
def dseReverseDependencies (arrays : DseSliceArrays) (dependencyCount : ℕ) : DseSliceArrays :=
  (List.range (dependencyCount / 2)).foldl
    (fun arrays i => arrays.swap i (dependencyCount - 1 - i)) arrays

/-- One round of the first loop of `dseKeepOnlyDataDependencies`: the arrays and where to write. -/
def keepDataStep (s : DseSliceArrays × ℕ) (read : ℕ) : DseSliceArrays × ℕ :=
  let (arrays, write) := s
  if arrays.dependencyIsData read = false then s
  else
    ({ outSlice := Function.update arrays.outSlice write (arrays.outSlice read)
       dependencyIsData := Function.update arrays.dependencyIsData write true
       plan :=
         if write ≠ read then arrays.plan.map fun plan => plan.copy write read else arrays.plan },
      write + 1)

/-- One round of its second loop: clear a row. -/
def clearRow (arrays : DseSliceArrays) (index : ℕ) : DseSliceArrays :=
  { outSlice := Function.update arrays.outSlice index none
    dependencyIsData := Function.update arrays.dependencyIsData index false
    plan := arrays.plan.map fun plan => plan.setRow index 0 (fun _ => 0) (fun _ => 0) }

/-- `dseKeepOnlyDataDependencies`: the arrays and the new length. -/
def dseKeepOnlyDataDependencies (arrays : DseSliceArrays) (len : ℕ) : DseSliceArrays × ℕ :=
  let (arrays, write) := (List.range len).foldl keepDataStep (arrays, 0)
  ((List.range' write (len - write)).foldl clearRow arrays, write)

/-! ### The demands on memory -/

/-- `dseSlicePlanAddMemoryWrite`: whether the pair could be stored. -/
def dseSlicePlanAddMemoryWrite (seqId : ℕ) (s : Finset (ℕ × ℕ) × Heap) (address : ℕ) :
    Bool × Finset (ℕ × ℕ) × Heap :=
  if seqId = 0 then (false, s)
  else if (seqId, address) ∈ s.1 then (true, s)
  else
    let (granted, heap) := s.2.calloc 1 16
    if granted = false then (false, s.1, heap) else (true, insert (seqId, address) s.1, heap)

/-- Store the addresses of a list that are needed, until one cannot be stored. -/
def planAddNeeded (needed : Finset ℕ) (seqId : ℕ) :
    List ℕ → Finset (ℕ × ℕ) × Heap → Bool × Finset (ℕ × ℕ) × Heap
  | [], s => (true, s)
  | address :: addresses, s =>
    if address ∈ needed then
      match dseSlicePlanAddMemoryWrite seqId s address with
      | (true, s) => planAddNeeded needed seqId addresses s
      | (false, s) => (false, s)
    else planAddNeeded needed seqId addresses s

/-- The addresses of the writes, as far as they can be told. -/
def planAddWrites (needed : Finset ℕ) (seqId : ℕ) :
    List DseMemWrite → Finset (ℕ × ℕ) × Heap → Bool × Finset (ℕ × ℕ) × Heap
  | [], s => (true, s)
  | write :: writes, s =>
    if accessUnusable write.addr write.size = true then (false, s)
    else
      match planAddNeeded needed seqId ((List.range write.size).map (write.addr + ·)) s with
      | (true, s) => planAddWrites needed seqId writes s
      | (false, s) => (false, s)

/-- The destinations of a string instruction, in the order of its events. -/
def DseStringSummary.destinations (summary : DseStringSummary) : List ℕ :=
  (List.range summary.expectedIterations).flatMap fun event =>
    (List.range summary.elementSize).map (summary.destination event)

/-- The memory demands of one of the two frontiers. -/
def DseSlicePlan.memoryWrites (plan : DseSlicePlan) (replay : Bool) : Finset (ℕ × ℕ) :=
  if replay then plan.replayMemoryWrites else plan.dataMemoryWrites

def DseSlicePlan.setMemoryWrites (plan : DseSlicePlan) (replay : Bool)
    (memoryWrites : Finset (ℕ × ℕ)) : DseSlicePlan :=
  if replay then { plan with replayMemoryWrites := memoryWrites }
  else { plan with dataMemoryWrites := memoryWrites }

/-- Everything the instruction writes is demanded. -/
def DseSlicePlan.setAllMemoryWrites (plan : DseSlicePlan) (replay : Bool) (index : ℕ) :
    DseSlicePlan :=
  if replay then
    { plan with replayAllMemoryWrites := Function.update plan.replayAllMemoryWrites index true }
  else { plan with dataAllMemoryWrites := Function.update plan.dataAllMemoryWrites index true }

/-- `dseSlicePlanCaptureMemoryWrites` -/
def dseSlicePlanCaptureMemoryWrites (naturalWidth : ℕ) (plan : DseSlicePlan) (replay : Bool)
    (planIndex seqId : ℕ) (needed : Finset ℕ) (aux : InsnAux) (heap : Heap) :
    Bool × DseSlicePlan × Heap :=
  if planIndex ≥ maxSlice ∨ seqId = 0 then (false, plan, heap)
  else if aux.hasMemWrite = false ∨ needed = ∅ then (true, plan, heap)
  else if dseExactMovsRequiresFullReplay aux then
    (true, plan.setAllMemoryWrites replay planIndex, heap)
  else if dseAuxHasUsableExactString naturalWidth aux then
    let (stored, memoryWrites, heap) :=
      planAddNeeded needed seqId aux.stringSummary.destinations (plan.memoryWrites replay, heap)
    (stored, plan.setMemoryWrites replay memoryWrites, heap)
  else if aux.memWriteOverflow then (false, plan, heap)
  else
    let (stored, memoryWrites, heap) :=
      planAddWrites needed seqId aux.memWrites (plan.memoryWrites replay, heap)
    (stored, plan.setMemoryWrites replay memoryWrites, heap)

/-! ### The scan -/

/-- What the target of a slice is. -/
inductive DseSliceSeed where
  | register (targetReg : Option RegId)
  | memory (targetAddr targetSize : ℕ)
  deriving DecidableEq, Repr

/-- The memory target as a range; none for a register. -/
def DseSliceSeed.range : DseSliceSeed → ℕ × ℕ
  | .register _ => (0, 0)
  | .memory targetAddr targetSize => (targetAddr, targetSize)

/-- What a slice is built from. -/
structure SliceRequest where
  naturalWidth : ℕ
  metaLookupId : ℕ → Option InsnMeta
  tb : TraceBuffer
  ring : DseAuxRing
  triggerSeqId : ℕ
  seed : DseSliceSeed
  maxLen : ℕ
  relevance : Option DseRelevanceContext

def SliceRequest.naturalMask (req : SliceRequest) : BitVec 8 := dseNaturalRegMask req.naturalWidth

/-- The variables of the scan. -/
structure DseSliceScan where
  result : DseSliceResult
  arrays : DseSliceArrays
  dataFrontier : DseDependencyFrontier
  replayFrontier : DseDependencyFrontier
  dataAddressRoots : RegWorklist
  replayAddressRoots : RegWorklist
  pathBudgetExhausted : Bool
  pathTrackingActive : Bool
  heap : Heap

/-- What stays the same during the scan. -/
structure ScanEnv where
  req : SliceRequest
  trigger : TraceRef
  selection : Option DseRelevanceSelection

/-- Why an entry is relevant, for each frontier and for the path. -/
structure EntryRelevance where
  data : FrontierRelevance
  replay : FrontierRelevance
  path : Bool
  deriving DecidableEq, Repr

/-- The entry goes into the slice. -/
def EntryRelevance.selected (rel : EntryRelevance) : Bool := rel.replay.any || rel.path

/-- After a fallback an entry is relevant for the data or not at all. -/
def EntryRelevance.dataOnly (rel : EntryRelevance) : EntryRelevance := ⟨rel.data, rel.data, false⟩

/-- Give up with a status. -/
def DseSliceScan.fail (s : DseSliceScan) (status : DseSliceStatus) : DseSliceScan :=
  { s with result := { s.result with status := status } }

/-- Give up because a record is missing. -/
def DseSliceScan.failAux (s : DseSliceScan) : DseSliceScan :=
  { s with result :=
      { s.result with status := .auxMissing, auxMissing := s.result.auxMissing + 1 } }

/-- Give up because an instruction is not known. -/
def DseSliceScan.failMeta (s : DseSliceScan) : DseSliceScan :=
  { s with result :=
      { s.result with status := .metaMissing, metaMissing := s.result.metaMissing + 1 } }

/-- `dseFallbackToDataOnly`, and the two flags set with it. -/
def dseFallbackToDataOnly (s : DseSliceScan) : DseSliceScan :=
  let (arrays, len) := dseKeepOnlyDataDependencies s.arrays s.result.len
  { s with
    result := { s.result with len := len, pathConstraintsExpected := 0 }
    arrays := arrays
    replayFrontier := s.dataFrontier
    replayAddressRoots := s.dataAddressRoots
    pathBudgetExhausted := true
    pathTrackingActive := false }

/-- While memory is needed: the record of the entry, and whether it writes memory the data and the
replay frontier need. -/
def scanWriter (env : ScanEnv) (s : DseSliceScan) (ref : TraceRef) :
    Except DseSliceScan (Option InsnAux × Bool × Bool) :=
  if s.replayFrontier.memory = ∅ then .ok (none, false, false)
  else
    match dseAuxFor env.req.ring ref with
    | none => .error s.failAux
    | some aux =>
      if aux.executionComplete = false then .error s.failAux
      else if aux.hasMemWrite = true ∧ aux.memWriteOverflow = true ∧
          dseAuxHasUsableExactString env.req.naturalWidth aux = false ∧
          dseMemNeedRangeMayOverlap s.replayFrontier.memory aux = true then
        .error (s.fail .memAccessUnmodeled)
      else if aux.hasMemWrite then
        .ok (some aux,
          dseDependencyFrontierMemoryRelevant env.req.naturalWidth s.dataFrontier aux,
          dseDependencyFrontierMemoryRelevant env.req.naturalWidth s.replayFrontier aux)
      else .ok (some aux, false, false)

/-- Why an instruction is relevant for a frontier, given whether it writes needed memory. -/
def frontierRelevance (req : SliceRequest) (frontier : DseDependencyFrontier) (insn : InsnMeta)
    (memory : Bool) : FrontierRelevance where
  register := dseMetaWritesNeeded insn frontier.regs req.naturalMask
  memory := memory
  flag := insn.flagsWriteMask &&& frontier.flags != 0

/-- Whether the entry is a branch whose direction has to be followed. -/
def isPathBranch (env : ScanEnv) (s : DseSliceScan) (ref : TraceRef) (insn : InsnMeta) : Bool :=
  s.pathTrackingActive && !dseDependencyFrontierEmpty s.dataFrontier && insn.isConditionalBranch &&
    dseRelevanceSelectionGet env.selection ref.entry.seqId != .irrelevant

/-- A branch to follow is relevant for the path, or the scan falls back: the budget is spent. -/
def scanBranch (env : ScanEnv) (s : DseSliceScan) (ref : TraceRef) (insn : InsnMeta)
    (rel : EntryRelevance) : DseSliceScan × EntryRelevance :=
  if isPathBranch env s ref insn then
    if s.result.pathConstraintsExpected < dseMaxPathConstraints then (s, { rel with path := true })
    else (dseFallbackToDataOnly s, { rel with replay := rel.data })
  else (s, rel)

/-- Whether the slice has no room left while the path is still followed. -/
def isSliceFull (env : ScanEnv) (s : DseSliceScan) : Bool :=
  decide (s.result.len ≥ env.req.maxLen - 1) && s.pathTrackingActive

/-- Decide about an entry: `none` leaves it out. -/
def scanDecide (env : ScanEnv) (s : DseSliceScan) (ref : TraceRef) (insn : InsnMeta)
    (rel : EntryRelevance) : DseSliceScan × Option EntryRelevance :=
  let (s, rel) := scanBranch env s ref insn rel
  if rel.selected = false then (s, none)
  else if isSliceFull env s then
    (dseFallbackToDataOnly s, if rel.data.any then some rel.dataOnly else none)
  else (s, some rel)

/-- `dseAppendDependency` -/
def dseAppendDependency (s : DseSliceScan) (maxLen : ℕ) (ref : TraceRef) : Bool × DseSliceScan :=
  if s.result.len ≥ maxLen - 1 then (false, s.fail .truncated)
  else
    (true, { s with
      result := { s.result with len := s.result.len + 1 }
      arrays := { s.arrays with
        outSlice := Function.update s.arrays.outSlice s.result.len (some ref) } })

/-- Capture the memory demands of the frontiers for which the entry writes needed memory. -/
def planCapture (env : ScanEnv) (s : DseSliceScan) (plan : DseSlicePlan) (index : ℕ)
    (ref : TraceRef) (aux : InsnAux) (rel : EntryRelevance) : Bool × DseSlicePlan × Heap :=
  let (stored, plan, heap) :=
    if rel.data.memory then
      dseSlicePlanCaptureMemoryWrites env.req.naturalWidth plan false index ref.entry.seqId
        s.dataFrontier.memory aux s.heap
    else (true, plan, s.heap)
  if stored = false then (false, plan, heap)
  else if rel.replay.memory then
    dseSlicePlanCaptureMemoryWrites env.req.naturalWidth plan true index ref.entry.seqId
      s.replayFrontier.memory aux heap
  else (true, plan, heap)

/-- The row of the plan for an entry: the frontiers as they are, after the instruction. -/
def scanPlan (env : ScanEnv) (s : DseSliceScan) (index : ℕ) (ref : TraceRef) (aux : InsnAux)
    (rel : EntryRelevance) : Bool × DseSliceScan :=
  match s.arrays.plan with
  | none => (true, s)
  | some plan =>
    let (stored, plan, heap) :=
      planCapture env s (plan.setRow index ref.entry.seqId s.dataFrontier.regs
        s.replayFrontier.regs) index ref aux rel
    (stored, { s with arrays := { s.arrays with plan := some plan }, heap := heap })

/-- The address roots of an entry. -/
def scanRoots (env : ScanEnv) (s : DseSliceScan) (insn : InsnMeta) (aux : InsnAux)
    (rel : EntryRelevance) : DseSliceScan :=
  let observed := observedAddressMask insn aux
  let forced (frontier : DseDependencyFrontier) :=
    dseForcedAddressValueMask insn frontier.regs env.req.naturalMask
  { s with
    replayAddressRoots := dseAddAddressInputs (observed &&& ~~~forced s.replayFrontier) aux
      s.replayAddressRoots env.req.naturalMask
    dataAddressRoots :=
      if rel.data.any then
        dseAddAddressInputs (observed &&& ~~~forced s.dataFrontier) aux s.dataAddressRoots
          env.req.naturalMask
      else s.dataAddressRoots }

/-- Apply the entry to the data frontier, if it is a data dependency. -/
def scanApplyData (env : ScanEnv) (s : DseSliceScan) (insn : InsnMeta) (aux : InsnAux)
    (rel : EntryRelevance) : Bool × DseDependencyFrontier :=
  if rel.data.any then
    dseDependencyFrontierApply env.req.naturalWidth s.dataFrontier insn aux rel.data false
      env.req.naturalMask
  else (true, s.dataFrontier)

/-- Apply the entry to the frontiers. -/
def scanApply (env : ScanEnv) (s : DseSliceScan) (insn : InsnMeta) (aux : InsnAux)
    (rel : EntryRelevance) : Except DseSliceScan DseSliceScan :=
  let s := scanRoots env s insn aux rel
  let (applied, dataFrontier) := scanApplyData env s insn aux rel
  let s := { s with dataFrontier := dataFrontier }
  if applied = false then .error (s.fail .memAccessUnmodeled)
  else
    let (applied, replayFrontier) :=
      dseDependencyFrontierApply env.req.naturalWidth s.replayFrontier insn aux rel.replay rel.path
        env.req.naturalMask
    let s := { s with replayFrontier := replayFrontier }
    if applied = false then .error (s.fail .memAccessUnmodeled)
    else if rel.path = true ∧ s.result.pathConstraintsExpected ≠ uint32Max then
      .ok { s with result := { s.result with
        pathConstraintsExpected := s.result.pathConstraintsExpected + 1 } }
    else .ok s

/-- Put the entry into the slice and apply it. -/
def scanSelect (env : ScanEnv) (s : DseSliceScan) (ref : TraceRef) (insn : InsnMeta)
    (aux : InsnAux) (rel : EntryRelevance) : Except DseSliceScan DseSliceScan :=
  let index := s.result.len
  match dseAppendDependency s env.req.maxLen ref with
  | (false, s) => .error s
  | (true, s) =>
    let s := { s with arrays := { s.arrays with
      dependencyIsData := Function.update s.arrays.dependencyIsData index rel.data.any } }
    match scanPlan env s index ref aux rel with
    | (false, s) => .error (s.fail .invalidInput)
    | (true, s) => scanApply env s insn aux rel

/-- Whether the accesses of a dependency are not known well enough. -/
def isUnmodeled (env : ScanEnv) (aux : InsnAux) (rel : EntryRelevance) : Bool :=
  let exactString := dseAuxHasUsableExactString env.req.naturalWidth aux
  (aux.memReadOverflow && !(exactString && aux.stringSummary.kind == .movs)) ||
    (rel.replay.memory && !exactString && (aux.memWriteOverflow || aux.memWrites.length != 1))

/-- Take a selected entry, if its record is good enough. -/
def scanTake (env : ScanEnv) (s : DseSliceScan) (ref : TraceRef) (insn : InsnMeta)
    (aux : Option InsnAux) (rel : EntryRelevance) : Except DseSliceScan DseSliceScan :=
  match aux.or (dseAuxFor env.req.ring ref) with
  | none => .error s.failAux
  | some aux =>
    if aux.executionComplete = false then .error s.failAux
    else if isUnmodeled env aux rel then .error (s.fail .memAccessUnmodeled)
    else scanSelect env s ref insn aux rel

/-- One entry of the trigger's virtual processor. -/
def scanEntry (env : ScanEnv) (s : DseSliceScan) (ref : TraceRef) :
    Except DseSliceScan DseSliceScan :=
  match env.req.metaLookupId ref.entry.metaId with
  | none => .error s.failMeta
  | some insn =>
    match scanWriter env s ref with
    | .error s => .error s
    | .ok (aux, dataMemory, replayMemory) =>
      let rel : EntryRelevance :=
        { data := frontierRelevance env.req s.dataFrontier insn dataMemory
          replay := frontierRelevance env.req s.replayFrontier insn replayMemory
          path := false }
      match scanDecide env s ref insn rel with
      | (s, none) => .ok s
      | (s, some rel) => scanTake env s ref insn aux rel

/-- One round of the loop. -/
def scanStep (env : ScanEnv) (s : DseSliceScan) (i : ℕ) : Except DseSliceScan DseSliceScan :=
  match traceRefLast env.req.tb i with
  | none => .ok s
  | some ref =>
    if ref.entry.vcpuIndex ≠ env.trigger.entry.vcpuIndex then .ok s else scanEntry env s ref

/-- Nothing is left to look for. -/
def scanDone (s : DseSliceScan) : Bool :=
  if s.pathTrackingActive then dseDependencyFrontierEmpty s.replayFrontier
  else dseDependencyFrontierEmpty s.dataFrontier

/-- The loop: the next `n` entries, from the one `i` back. -/
def scanFrom (env : ScanEnv) : ℕ → ℕ → DseSliceScan → Except DseSliceScan DseSliceScan
  | 0, _, s => .ok s
  | n + 1, i, s =>
    if scanDone s then .ok s
    else
      match scanStep env s i with
      | .error s => .error s
      | .ok s => scanFrom env n (i + 1) s

/-! ### The whole slice -/

/-- `dseFindMemRead`: the read that covers a range, cut to the range. -/
def dseFindMemRead (aux : InsnAux) (address size : ℕ) : Option DseMemRead :=
  if size > 8 ∨ accessUnusable address size = true then none
  else
    match aux.memReads.find? fun read =>
        read.size != 0 && decide (address ≥ read.addr) &&
          decide (address - read.addr ≤ read.size) &&
          decide (size ≤ read.size - (address - read.addr)) with
    | some read =>
      let offset := address - read.addr
      some { read with
        addr := address
        size := size
        value := read.value >>> (8 * offset)
        taint := read.taint >>> offset }
    | none =>
      if aux.memReads = [] ∧ aux.hasMemRead = true ∧ address = aux.memReadAddr then
        some ⟨address, aux.memReadVal, aux.memReadTaint, 0, false, size⟩
      else none

/-- What the caller gets: the result and the arrays, and the registry if labels were joined. -/
structure SliceOutcome where
  result : DseSliceResult
  arrays : DseSliceArrays
  registry : Option ProvRegistry

/-- Whether the request makes sense. -/
def sliceRequestValid (req : SliceRequest) (plan : Option DseSlicePlan) : Bool :=
  decide (req.maxLen ≥ 2) && req.triggerSeqId != 0 && req.naturalMask != 0 &&
    (plan.isNone || decide (req.maxLen ≤ maxSlice)) &&
    match req.seed with
    | .register targetReg => targetReg.isSome
    | .memory targetAddr targetSize =>
      decide (targetSize ≤ maxRegBytes) && !accessUnusable targetAddr targetSize

/-- The frontier the scan starts from. -/
def sliceSeedFrontier (req : SliceRequest) (aux : InsnAux) : Option DseDependencyFrontier :=
  match req.seed with
  | .register none => none
  | .register (some targetReg) =>
    some { DseDependencyFrontier.init with
      regs := Function.update (fun _ => 0) targetReg (aux.regTaint targetReg &&& req.naturalMask) }
  | .memory targetAddr targetSize =>
    (dseFindMemRead aux targetAddr targetSize).map fun read =>
      { DseDependencyFrontier.init with
        memory := ((Finset.range targetSize).filter fun byte => read.taint.getLsbD byte).image
          (targetAddr + ·) }

/-- Before anything is scanned. -/
def sliceStart (arrays : DseSliceArrays) (relevance : DseRelevanceStats) (heap : Heap) :
    DseSliceScan where
  result := { dseSliceResult .invalidInput with relevance := relevance }
  arrays := arrays
  dataFrontier := .init
  replayFrontier := .init
  dataAddressRoots _ := 0
  replayAddressRoots _ := 0
  pathBudgetExhausted := false
  pathTrackingActive := true
  heap := heap

/-- The trigger: its record, and the frontiers it seeds. -/
def sliceSeed (req : SliceRequest) (trigger : TraceRef) (s : DseSliceScan) :
    Except DseSliceScan DseSliceScan :=
  match req.metaLookupId trigger.entry.metaId with
  | none => .error s.failMeta
  | some insn =>
    match dseAuxFor req.ring trigger with
    | none => .error s.failAux
    | some aux =>
      if aux.executionComplete = false then .error s.failAux
      else if aux.memReadOverflow = true ∨ aux.memWriteOverflow = true then
        .error (s.fail .memAccessUnmodeled)
      else
        let roots :=
          dseAddAddressInputs (observedAddressMask insn aux) aux (fun _ => 0) req.naturalMask
        let s := { s with dataAddressRoots := roots, replayAddressRoots := roots }
        match sliceSeedFrontier req aux with
        | none => .error (s.fail .memAccessUnmodeled)
        | some frontier => .ok { s with dataFrontier := frontier, replayFrontier := frontier }

/-- The number of exact string instructions among the first rows. -/
def countStringSummaries (req : SliceRequest) (arrays : DseSliceArrays) (len : ℕ) : ℕ :=
  (List.range len).countP fun i =>
    match (arrays.outSlice i).bind (dseAuxFor req.ring) with
    | none => false
    | some aux => dseAuxHasUsableExactString req.naturalWidth aux

/-- `dseAppendTrigger`, and the empty row of the plan for it. -/
def dseAppendTrigger (s : DseSliceScan) (maxLen : ℕ) (trigger : TraceRef) :
    Except DseSliceScan DseSliceScan :=
  if s.result.len ≥ maxLen then .error (s.fail .truncated)
  else
    .ok { s with
      result := { s.result with len := s.result.len + 1 }
      arrays := { s.arrays with
        outSlice := Function.update s.arrays.outSlice s.result.len (some trigger)
        plan := s.arrays.plan.map fun plan =>
          plan.setRow s.result.len trigger.entry.seqId (fun _ => 0) (fun _ => 0) } }

/-- After the loop: what is left at the boundary, the order of execution, the trigger. -/
def sliceFinish (req : SliceRequest) (trigger : TraceRef) (s : DseSliceScan) :
    Except DseSliceScan DseSliceScan :=
  let s := { s with
    result := { s.result with
      boundaryRegBytes := s.replayFrontier.regs
      boundaryFlags := s.replayFrontier.flags
      boundaryMemByteCount := s.replayFrontier.memory.card
      boundaryMemBytes :=
        dseMemNeedMaskForRange s.replayFrontier.memory req.seed.range.1 req.seed.range.2
      addressRootRegBytes := s.replayAddressRoots
      stringSummaries := countStringSummaries req s.arrays s.result.len }
    arrays := dseReverseDependencies s.arrays s.result.len }
  match dseAppendTrigger s req.maxLen trigger with
  | .error s => .error s
  | .ok s => .ok { s with result := { s.result with
      status := .ok
      dataComplete := true
      pathComplete := !s.pathBudgetExhausted
      complete := !s.pathBudgetExhausted } }

/-- A failure tells what was still needed. -/
def sliceCleanup (req : SliceRequest) (s : DseSliceScan) : DseSliceScan :=
  { s with result := { s.result with
      unresolvedMemBytes :=
        dseMemNeedMaskForRange s.replayFrontier.memory req.seed.range.1 req.seed.range.2
      unresolvedRegBytes := s.replayFrontier.regs
      addressRootRegBytes := s.replayAddressRoots } }

/-- From the trigger on. -/
def sliceRun (req : SliceRequest) (backIndex : ℕ) (trigger : TraceRef)
    (selection : Option DseRelevanceSelection) (s : DseSliceScan) :
    Except DseSliceScan DseSliceScan :=
  match sliceSeed req trigger s with
  | .error s => .error s
  | .ok s =>
    match scanFrom ⟨req, trigger, selection⟩ (req.tb.entries.count - (backIndex + 1))
        (backIndex + 1) s with
    | .error s => .error s
    | .ok s => sliceFinish req trigger s

/-- The selection of the branches, what is noted about it, the registry and the allocator after. -/
def sliceRelevance (req : SliceRequest) (heap : Heap) :
    Option DseRelevanceSelection × DseRelevanceStats × Option ProvRegistry × Heap :=
  let none := (dseSliceResult .invalidInput).relevance
  match req.relevance with
  | .none => (.none, none, .none, heap)
  | some relevance =>
    match dseRelevanceSelectionCreate req.metaLookupId req.tb req.triggerSeqId relevance heap with
    | (.none, registry) =>
      (.none, { none with applied := true, complete := false }, registry, heap.next)
    | (some selection, registry) => (some selection, selection.stats, registry, selection.heap)

/-- `dseBuildValueSlice` -/
def dseBuildValueSlice (req : SliceRequest) (outSlice : ℕ → Option TraceRef)
    (plan : Option DseSlicePlan) (heap : Heap) : SliceOutcome :=
  let arrays : DseSliceArrays := ⟨outSlice, fun _ => false, plan⟩
  let registry := req.relevance.bind DseRelevanceContext.registry
  let (granted, heap) := heap.calloc req.maxLen 1
  if sliceRequestValid req plan = false ∨ granted = false then
    ⟨dseSliceResult .invalidInput, arrays, registry⟩
  else
    match traceFindSeq req.tb req.triggerSeqId with
    | none => ⟨dseSliceResult .triggerMissing, arrays, registry⟩
    | some (backIndex, entry) =>
      let (selection, stats, registry, heap) := sliceRelevance req heap
      match sliceRun req backIndex ⟨req.tb.entries.slotOf backIndex, entry⟩ selection
          (sliceStart arrays stats heap) with
      | .error s => ⟨(sliceCleanup req s).result, s.arrays, registry⟩
      | .ok s => ⟨s.result, s.arrays, registry⟩

end TaintForge
