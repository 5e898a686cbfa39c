import TaintForge.Dcfg.Graph
import TaintForge.Dse.Trace

/-!
# Which branches matter for a target

`dseRelevanceSelectionCreate` closes a set of branches: starting from the label of the target, a
branch whose condition can influence the label accumulated so far is selected and its label joined
in, until a round selects nothing or the rounds run out.

* `dseClassifyBranchEvent`: can a branch influence a label?
* `relevanceVisit`, `relevanceRound`, `relevanceRounds`: one event, one round, all rounds.
* `dseRelevanceSelectionCreate`: the whole selection.
-/

namespace TaintForge

/-- `DSE_MAX_RELEVANCE_ITERATIONS` -/
def dseMaxRelevanceIterations : ℕ := 64

structure DseRelevanceStats where
  accumulatedLabel : ℕ
  eventsConsidered : ℕ
  eventsRelevant : ℕ
  eventsUnknown : ℕ
  eventsIrrelevant : ℕ
  iterations : ℕ
  applied : Bool
  complete : Bool
  deriving DecidableEq, Repr

/-- The classification by sequence id; `heap` answers the allocations of the keys. -/
structure DseRelevanceSelection where
  bySeqId : AList (fun _ : ℕ => DcfgRelevance)
  stats : DseRelevanceStats
  heap : Heap

/-- The three pointers of `DseRelevanceContext`, each of which may be null. -/
structure DseRelevanceContext where
  registry : Option ProvRegistry
  dcfg : Option DcfgGraph
  branchEvents : Option BranchEventBuffer

/-- A selection that is known to have missed something. -/
def DseRelevanceSelection.incomplete (selection : DseRelevanceSelection) : DseRelevanceSelection :=
  { selection with stats := { selection.stats with complete := false } }

def DseRelevanceSelection.setLabel (selection : DseRelevanceSelection) (label : ℕ) :
    DseRelevanceSelection :=
  { selection with stats := { selection.stats with accumulatedLabel := label } }

/-- `dseRelevanceStore`: whether the classification could be stored. -/
def dseRelevanceStore (selection : DseRelevanceSelection) (seqId : ℕ) (relevance : DcfgRelevance) :
    Bool × DseRelevanceSelection :=
  if seqId = 0 then (false, selection)
  else
    let (granted, heap) := selection.heap.calloc 1 8
    if granted = false then (false, { selection with heap := heap })
    else
      (true, { selection with bySeqId := selection.bySeqId.insert seqId relevance, heap := heap })

/-- `dseRelevanceLookup` -/
def dseRelevanceLookup (selection : DseRelevanceSelection) (seqId : ℕ) : Option DcfgRelevance :=
  if seqId = 0 then none else selection.bySeqId.lookup seqId

/-- Store, and note a failure. -/
def relevanceStoreOrIncomplete (selection : DseRelevanceSelection) (seqId : ℕ)
    (relevance : DcfgRelevance) : DseRelevanceSelection :=
  let (stored, selection) := dseRelevanceStore selection seqId relevance
  if stored then selection else selection.incomplete

def dseRelevanceCombine (edgeRelevance eventRelevance : DcfgRelevance) : DcfgRelevance :=
  match eventRelevance with
  | .relevant => if edgeRelevance = .irrelevant then .unknown else .relevant
  | .irrelevant => .irrelevant
  | .unknown => .unknown

/-- `dseClassifyBranchEvent`: can the branch influence the accumulated label? -/
def dseClassifyBranchEvent (registry : ProvRegistry) (dcfg : DcfgGraph) (event : BranchEvent)
    (accumulatedLabel : ℕ) : DcfgRelevance :=
  if event.branchSeqId = 0 ∨ provLabelIdValidLocked registry event.conditionLabel = false ∨
      provLabelIdValidLocked registry accumulatedLabel = false then .unknown
  else
    dseRelevanceCombine (dcfgEdgeDataRelevance registry dcfg event.dcfgEdgeId accumulatedLabel)
      (dcfgLabelsDataRelevance registry event.conditionLabel accumulatedLabel)

/-! ### The window -/

/-- Whether a branch lies in the window of the trigger, on its virtual processor. -/
def inRelevanceWindow (oldestSeqId triggerSeqId : ℕ) (trigger : TraceEntry) (event : BranchEvent) :
    Bool :=
  !(decide (event.branchSeqId < oldestSeqId) || decide (event.branchSeqId ≥ triggerSeqId) ||
    event.vcpuIndex != trigger.vcpuIndex)

/-- The id of the oldest entry of the trace, the trigger's if there is none. -/
def relevanceOldestSeqId (tb : TraceBuffer) (triggerSeqId : ℕ) : ℕ :=
  if tb.entries.count ≠ 0 then
    match traceGetLast tb (tb.entries.count - 1) with
    | some oldest => oldest.seqId
    | none => triggerSeqId
  else triggerSeqId

/-- The events the selection looks at, newest first. -/
def relevanceWindow (tb : TraceBuffer) (triggerSeqId : ℕ) (trigger : TraceEntry)
    (buffer : BranchEventBuffer) : List BranchEvent :=
  buffer.toList.filter
    (inRelevanceWindow (relevanceOldestSeqId tb triggerSeqId) triggerSeqId trigger)

/-! ### The rounds -/

/-- What the rounds change. -/
structure RelevanceState where
  selection : DseRelevanceSelection
  accumulatedLabel : ℕ
  registry : ProvRegistry
  changed : Bool

/-- The label the closure starts from, and whether it is the label of the target. -/
def relevanceTargetLabel (registry : ProvRegistry) (trigger : TraceEntry) : ℕ × Bool :=
  if trigger.controlTransferValid = true ∧
      provLabelIdValidLocked registry trigger.targetLabel = true then (trigger.targetLabel, true)
  else (registry.unknownLabel, false)

/-- Before the first round: every event of the window is stored as irrelevant. -/
def relevanceStart (registry : ProvRegistry) (trigger : TraceEntry) (events : List BranchEvent)
    (selection : DseRelevanceSelection) : RelevanceState :=
  let (label, known) := relevanceTargetLabel registry trigger
  let selection := selection.setLabel label
  let selection := if known then selection else selection.incomplete
  { selection := events.foldl
      (fun selection event =>
        relevanceStoreOrIncomplete selection event.branchSeqId .irrelevant) selection
    accumulatedLabel := label
    registry := registry
    changed := false }

/-- Add the label of a selected event. -/
def relevanceAccumulate (event : BranchEvent) (s : RelevanceState) : RelevanceState :=
  if provLabelIdValidLocked s.registry event.conditionLabel = true then
    let (joined, registry) :=
      provLabelJoinLocked s.registry s.accumulatedLabel event.conditionLabel
    if joined ≠ provLabelIdInvalid then
      { s with accumulatedLabel := joined, registry := registry }
    else { s with selection := s.selection.incomplete, registry := registry }
  else { s with selection := s.selection.incomplete }

/-- One event of a round: an event stored as irrelevant that no longer classifies so is selected. -/
def relevanceVisit (dcfg : DcfgGraph) (s : RelevanceState) (event : BranchEvent) :
    RelevanceState :=
  let current := (dseRelevanceLookup s.selection event.branchSeqId).getD .unknown
  let classified := dseClassifyBranchEvent s.registry dcfg event s.accumulatedLabel
  if current = .irrelevant ∧ classified ≠ .irrelevant then
    let (stored, selection) := dseRelevanceStore s.selection event.branchSeqId classified
    if stored = false then { s with selection := selection.incomplete }
    else relevanceAccumulate event { s with selection := selection, changed := true }
  else s

/-- One round over all events. -/
def relevanceRound (dcfg : DcfgGraph) (events : List BranchEvent) (iteration : ℕ)
    (s : RelevanceState) : RelevanceState :=
  let stats := { s.selection.stats with iterations := iteration + 1 }
  let s := events.foldl (relevanceVisit dcfg)
    { s with selection := { s.selection with stats := stats }, changed := false }
  { s with selection := s.selection.setLabel s.accumulatedLabel }

/-- The rounds, `fuel` of them at most, and whether the last one changed nothing. -/
def relevanceRounds (dcfg : DcfgGraph) (events : List BranchEvent) :
    ℕ → ℕ → RelevanceState → RelevanceState × Bool
  | 0, _, s => (s, events.length == 0)
  | fuel + 1, iteration, s =>
    let s := relevanceRound dcfg events iteration s
    if s.changed = false then (s, true) else relevanceRounds dcfg events fuel (iteration + 1) s

/-- The number of rounds there may be. -/
def relevanceMaximumIterations (events : List BranchEvent) : ℕ :=
  if events.length + 1 > dseMaxRelevanceIterations then dseMaxRelevanceIterations
  else events.length + 1

/-- Whether an event is stored as irrelevant. -/
def isStillIrrelevant (selection : DseRelevanceSelection) (event : BranchEvent) : Bool :=
  (dseRelevanceLookup selection event.branchSeqId).getD .unknown == .irrelevant

/-- The rounds ran out: what is still irrelevant becomes unknown. -/
def relevanceMarkUnresolved (events : List BranchEvent) (selection : DseRelevanceSelection) :
    DseRelevanceSelection :=
  events.foldl (fun selection event =>
    if isStillIrrelevant selection event then
      (relevanceStoreOrIncomplete selection event.branchSeqId .unknown).incomplete
    else selection) selection

/-- The closure of the window of a trigger. -/
def relevanceSelect (dcfg : DcfgGraph) (events : List BranchEvent) (s : RelevanceState) :
    RelevanceState :=
  let (s, converged) := relevanceRounds dcfg events (relevanceMaximumIterations events) 0 s
  if converged then s
  else { s with selection := relevanceMarkUnresolved events s.selection }

/-! ### The selection -/

/-- One older entry of the trace: a conditional branch without an event is unknown. -/
def relevanceMarkUnlisted (metaLookupId : ℕ → Option InsnMeta) (tb : TraceBuffer)
    (trigger : TraceEntry) (selection : DseRelevanceSelection) (i : ℕ) : DseRelevanceSelection :=
  match traceGetLast tb i with
  | none => selection
  | some entry =>
    if entry.vcpuIndex ≠ trigger.vcpuIndex then selection
    else if (dseRelevanceLookup selection entry.seqId).isSome then selection
    else
      match metaLookupId entry.metaId with
      | none => selection
      | some insn =>
        if insn.isConditionalBranch = false then selection
        else (dseRelevanceStore selection entry.seqId .unknown).2.incomplete

/-- `dseRelevanceCountStates` -/
def dseRelevanceCountStates (selection : DseRelevanceSelection) : DseRelevanceSelection :=
  let states := selection.bySeqId.entries.map Sigma.snd
  let unknown := states.count .unknown
  { selection with
    stats := { selection.stats with
      eventsConsidered := states.length
      eventsRelevant := states.count .relevant
      eventsIrrelevant := states.count .irrelevant
      eventsUnknown := unknown
      complete := if unknown = 0 then selection.stats.complete else false } }

/-- A selection before anything is known. -/
def relevanceEmpty (heap : Heap) : DseRelevanceSelection :=
  { bySeqId := ∅
    stats := ⟨provLabelIdInvalid, 0, 0, 0, 0, 0, true, true⟩
    heap := heap }

/-- The window and the closure, where the context is complete; otherwise only the label is set. -/
def relevanceCollect (tb : TraceBuffer) (triggerSeqId : ℕ) (trigger : Option TraceEntry)
    (relevance : DseRelevanceContext) (selection : DseRelevanceSelection) :
    DseRelevanceSelection × Option ProvRegistry :=
  match trigger, relevance.registry, relevance.dcfg, relevance.branchEvents with
  | some trigger, some registry, some dcfg, some buffer =>
    let events := relevanceWindow tb triggerSeqId trigger buffer
    let s := relevanceSelect dcfg events (relevanceStart registry trigger events selection)
    (s.selection, some s.registry)
  | _, some registry, _, _ => ((selection.setLabel registry.unknownLabel).incomplete, some registry)
  | _, none, _, _ => (selection, none)

/-- `dseRelevanceSelectionCreate`: the selection for a trigger, and the registry with the labels
that were joined on the way. -/
def dseRelevanceSelectionCreate (metaLookupId : ℕ → Option InsnMeta) (tb : TraceBuffer)
    (triggerSeqId : ℕ) (relevance : DseRelevanceContext) (heap : Heap) :
    Option DseRelevanceSelection × Option ProvRegistry :=
  let (granted, heap) := heap.calloc 1 48
  if granted = false then (none, relevance.registry)
  else
    let trigger := traceFindSeq tb triggerSeqId
    let (selection, registry) :=
      relevanceCollect tb triggerSeqId (trigger.map Prod.snd) relevance (relevanceEmpty heap)
    let selection :=
      match trigger with
      | none => selection
      | some (backIndex, entry) =>
        (List.range' (backIndex + 1) (tb.entries.count - (backIndex + 1))).foldl
          (relevanceMarkUnlisted metaLookupId tb entry) selection
    (some (dseRelevanceCountStates selection), registry)

/-- `dseRelevanceSelectionGet`: without a selection every branch is relevant. -/
def dseRelevanceSelectionGet (selection : Option DseRelevanceSelection) (seqId : ℕ) :
    DcfgRelevance :=
  match selection with
  | none => .relevant
  | some selection => (dseRelevanceLookup selection seqId).getD .unknown

end TaintForge
