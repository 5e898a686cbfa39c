import TaintForge.Prov.Registry
import Mathlib.Data.List.AList

/-!
# The dynamic control-flow graph

The graph of `dcfg.c`: nodes and edges in arrays, each found again through a hash table, and the
labels of all branches recorded on an edge joined into its summaries.

* `dcfgRecordBranch`: record one executed branch.
* `dcfgLabelsDataRelevance`, `dcfgEdgeDataRelevance`: can a condition influence a target?
-/

namespace TaintForge

/-- `DcfgEdgeKind` -/
inductive DcfgEdgeKind where
  | invalid | jccTaken | jccFallthrough | jccUnknown | directJmp | indirectJmp | call | ret
  deriving DecidableEq, Repr

/-- `DcfgRelevance` -/
inductive DcfgRelevance where
  | irrelevant | relevant | unknown
  deriving DecidableEq, Repr

structure DcfgNodeKey where
  startPc : BitVec 64
  codeGeneration : BitVec 32
  bytesHash : BitVec 64
  deriving DecidableEq, Repr

structure DcfgNodeView where
  nodeId : ℕ
  key : DcfgNodeKey
  deriving DecidableEq, Repr

structure DcfgEdgeKey where
  sourceNode : ℕ
  targetNode : ℕ
  kind : DcfgEdgeKind
  deriving DecidableEq, Repr

structure DcfgEdgeView where
  edgeId : ℕ
  sourceNode : ℕ
  targetNode : ℕ
  kind : DcfgEdgeKind
  occurrenceCount : ℕ
  firstSeqId : ℕ
  lastSeqId : ℕ
  firstVcpuIndex : ℕ
  lastVcpuIndex : ℕ
  conditionSummary : ℕ
  targetSummary : ℕ
  deriving DecidableEq, Repr

structure DcfgBranchObservation where
  source : DcfgNodeKey
  target : DcfgNodeKey
  kind : DcfgEdgeKind
  branchSeqId : ℕ
  vcpuIndex : ℕ
  conditionLabel : ℕ
  targetLabel : ℕ
  deriving DecidableEq, Repr

/-- The graph; `heap` answers the allocations of the keys of its hash tables. -/
structure DcfgGraph where
  nodesByKey : AList (fun _ : DcfgNodeKey => ℕ)
  edgesByKey : AList (fun _ : DcfgEdgeKey => ℕ)
  nodes : List DcfgNodeView
  edges : List DcfgEdgeView
  branchOccurrenceCount : ℕ
  heap : Heap

/-- `DCFG_NODE_ID_INVALID` -/
def dcfgNodeIdInvalid : ℕ := 0
/-- `DCFG_EDGE_ID_INVALID` -/
def dcfgEdgeIdInvalid : ℕ := 0

/-- `dcfgGraphCreate`, once the graph itself could be allocated. -/
def dcfgGraphCreate (heap : Heap) : DcfgGraph := ⟨∅, ∅, [], [], 0, heap⟩

/-! ### Recording a branch -/

def dcfgFindNodeLocked (graph : DcfgGraph) (key : DcfgNodeKey) : ℕ :=
  (graph.nodesByKey.lookup key).getD dcfgNodeIdInvalid

def dcfgFindEdgeLocked (graph : DcfgGraph) (sourceNode targetNode : ℕ) (kind : DcfgEdgeKind) : ℕ :=
  (graph.edgesByKey.lookup ⟨sourceNode, targetNode, kind⟩).getD dcfgEdgeIdInvalid

/-- The id of a node, appended when its key is new. -/
def dcfgInternNodeLocked (graph : DcfgGraph) (key : DcfgNodeKey) : ℕ × DcfgGraph :=
  let existing := dcfgFindNodeLocked graph key
  if existing ≠ dcfgNodeIdInvalid then (existing, graph)
  else if graph.nodes.length ≥ uint32Max - 1 then (dcfgNodeIdInvalid, graph)
  else
    let (granted, heap) := graph.heap.calloc 1 24
    if granted = false then (dcfgNodeIdInvalid, { graph with heap := heap })
    else
      let nodeId := graph.nodes.length + 1
      (nodeId,
        { graph with
          nodes := graph.nodes ++ [⟨nodeId, key⟩]
          nodesByKey := graph.nodesByKey.insert key nodeId
          heap := heap })

/-- An edge that has seen one more branch. -/
def DcfgEdgeView.observe (edge : DcfgEdgeView) (observation : DcfgBranchObservation)
    (conditionSummary targetSummary : ℕ) : DcfgEdgeView :=
  { edge with
    conditionSummary := conditionSummary
    targetSummary := targetSummary
    occurrenceCount := edge.occurrenceCount + 1
    lastSeqId := observation.branchSeqId
    lastVcpuIndex := observation.vcpuIndex }

/-- `dcfgUpdateEdgeLocked`: both joins are made before either result is looked at. -/
def dcfgUpdateEdgeLocked (registry : ProvRegistry) (graph : DcfgGraph) (index : ℕ)
    (edge : DcfgEdgeView) (observation : DcfgBranchObservation) :
    Bool × DcfgGraph × ProvRegistry :=
  if edge.occurrenceCount = uint64Max ∨ graph.branchOccurrenceCount = uint64Max then
    (false, graph, registry)
  else
    let (condition, registry) :=
      provLabelJoinLocked registry edge.conditionSummary observation.conditionLabel
    let (target, registry) :=
      provLabelJoinLocked registry edge.targetSummary observation.targetLabel
    if condition = provLabelIdInvalid ∨ target = provLabelIdInvalid then (false, graph, registry)
    else
      (true,
        { graph with
          edges := graph.edges.set index (edge.observe observation condition target)
          branchOccurrenceCount := graph.branchOccurrenceCount + 1 }, registry)

/-- The edge of a first branch. -/
def DcfgBranchObservation.newEdge (observation : DcfgBranchObservation)
    (edgeId sourceNode targetNode : ℕ) : DcfgEdgeView :=
  { edgeId := edgeId
    sourceNode := sourceNode
    targetNode := targetNode
    kind := observation.kind
    occurrenceCount := 1
    firstSeqId := observation.branchSeqId
    lastSeqId := observation.branchSeqId
    firstVcpuIndex := observation.vcpuIndex
    lastVcpuIndex := observation.vcpuIndex
    conditionSummary := observation.conditionLabel
    targetSummary := observation.targetLabel }

def dcfgInsertEdgeLocked (graph : DcfgGraph) (sourceNode targetNode : ℕ)
    (observation : DcfgBranchObservation) : ℕ × DcfgGraph :=
  if graph.edges.length ≥ uint32Max - 1 ∨ graph.branchOccurrenceCount = uint64Max then
    (dcfgEdgeIdInvalid, graph)
  else
    let (granted, heap) := graph.heap.calloc 1 12
    if granted = false then (dcfgEdgeIdInvalid, { graph with heap := heap })
    else
      let edgeId := graph.edges.length + 1
      (edgeId,
        { graph with
          edges := graph.edges ++ [observation.newEdge edgeId sourceNode targetNode]
          edgesByKey := graph.edgesByKey.insert ⟨sourceNode, targetNode, observation.kind⟩ edgeId
          branchOccurrenceCount := graph.branchOccurrenceCount + 1
          heap := heap })

/-- `dcfgRecordBranch`: whether the branch was recorded, and the id of its edge if it was. -/
def dcfgRecordBranch (registry : ProvRegistry) (graph : DcfgGraph)
    (observation : DcfgBranchObservation) : Bool × ℕ × DcfgGraph × ProvRegistry :=
  if observation.branchSeqId = 0 ∨ observation.kind = .invalid ∨
      provLabelIdValidLocked registry observation.conditionLabel = false ∨
      provLabelIdValidLocked registry observation.targetLabel = false then
    (false, dcfgEdgeIdInvalid, graph, registry)
  else
    let (sourceNode, graph) := dcfgInternNodeLocked graph observation.source
    let (targetNode, graph) := dcfgInternNodeLocked graph observation.target
    if sourceNode = dcfgNodeIdInvalid ∨ targetNode = dcfgNodeIdInvalid then
      (false, dcfgEdgeIdInvalid, graph, registry)
    else
      let edgeId := dcfgFindEdgeLocked graph sourceNode targetNode observation.kind
      match if edgeId = dcfgEdgeIdInvalid then none else graph.edges[edgeId - 1]? with
      | some edge =>
        let (success, graph, registry) :=
          dcfgUpdateEdgeLocked registry graph (edgeId - 1) edge observation
        (success, if success then edgeId else dcfgEdgeIdInvalid, graph, registry)
      | none =>
        let (edgeId, graph) := dcfgInsertEdgeLocked graph sourceNode targetNode observation
        (edgeId != dcfgEdgeIdInvalid, edgeId, graph, registry)

/-! ### Relevance -/

/-- `dcfgEdgeGet`: the edge behind an id. -/
def dcfgEdgeGet (graph : DcfgGraph) (edgeId : ℕ) : Option DcfgEdgeView :=
  if edgeId = dcfgEdgeIdInvalid then none else graph.edges[edgeId - 1]?

def dcfgLabelHasNoRoots (label : ProvLabelView) : Bool :=
  label.dataRoots == provRootSetEmpty && label.addressRoots == provRootSetEmpty

def dcfgLabelsHaveKnownIntersection (registry : ProvRegistry) (condition target : ProvLabelView) :
    Bool :=
  provRootSetsIntersect registry condition.dataRoots target.dataRoots ||
    provRootSetsIntersect registry condition.dataRoots target.addressRoots ||
    provRootSetsIntersect registry condition.addressRoots target.dataRoots ||
    provRootSetsIntersect registry condition.addressRoots target.addressRoots

/-- `dcfgLabelsDataRelevance`: whether the two labels can share a root. -/
def dcfgLabelsDataRelevance (registry : ProvRegistry) (conditionLabel targetLabel : ℕ) :
    DcfgRelevance :=
  match provLabelGet registry conditionLabel, provLabelGet registry targetLabel with
  | some condition, some target =>
    if dcfgLabelsHaveKnownIntersection registry condition target then .relevant
    else
      let conditionComplete := condition.completeMask &&& provCompleteAll == provCompleteAll
      let targetComplete := target.completeMask &&& provCompleteAll == provCompleteAll
      if (conditionComplete && dcfgLabelHasNoRoots condition) ||
          (targetComplete && dcfgLabelHasNoRoots target) ||
          (conditionComplete && targetComplete) then .irrelevant
      else .unknown
  | _, _ => .unknown

/-- `dcfgEdgeDataRelevance`: the same for the summary of a conditional edge. -/
def dcfgEdgeDataRelevance (registry : ProvRegistry) (graph : DcfgGraph) (edgeId targetLabel : ℕ) :
    DcfgRelevance :=
  match dcfgEdgeGet graph edgeId with
  | none => .unknown
  | some edge =>
    if edge.kind ≠ .jccTaken ∧ edge.kind ≠ .jccFallthrough ∧ edge.kind ≠ .jccUnknown then
      .irrelevant
    else dcfgLabelsDataRelevance registry edge.conditionSummary targetLabel

end TaintForge
