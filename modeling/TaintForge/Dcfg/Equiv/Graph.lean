import TaintForge.Dcfg.Graph
import TaintForge.Lib.KeyIndex
import TaintForge.Prov.Equiv.Labels

/-!
# The bookkeeping of the dynamic control-flow graph

* `dcfgRecordBranch_outcome`: what one call does: it is refused, a known edge sees one more branch,
  or a new edge is appended.
* `DcfgRun.bookkept`: what holds after any sequence of calls, with calls of the registry in between:
  nodes and edges are unique, the counts add up, and every edge counts the branches recorded on it.
* `dcfgRecordBranch_failure`: a call that fails leaves the edges and the counts alone.
-/

namespace TaintForge

/-- The key an edge is filed under. -/
def DcfgEdgeView.key (edge : DcfgEdgeView) : DcfgEdgeKey :=
  ⟨edge.sourceNode, edge.targetNode, edge.kind⟩

/-- The key of the edge a branch belongs to. -/
def DcfgBranchObservation.edgeKey (graph : DcfgGraph) (observation : DcfgBranchObservation) :
    DcfgEdgeKey :=
  ⟨dcfgFindNodeLocked graph observation.source, dcfgFindNodeLocked graph observation.target,
    observation.kind⟩

/-- The hash tables find the nodes and the edges. -/
structure DcfgGraph.WF (graph : DcfgGraph) : Prop where
  nodes : KeyIndex DcfgNodeView.key DcfgNodeView.nodeId graph.nodes graph.nodesByKey
  edges : KeyIndex DcfgEdgeView.key DcfgEdgeView.edgeId graph.edges graph.edgesByKey

theorem dcfgGraphCreate_wf (heap : Heap) : (dcfgGraphCreate heap).WF :=
  ⟨KeyIndex.nil _ _, KeyIndex.nil _ _⟩

/-! ### Nodes -/

/-- Only nodes were added. -/
structure NodesGrow (graph graph' : DcfgGraph) : Prop where
  wf : graph'.WF
  keeps : ∀ key, dcfgFindNodeLocked graph key ≠ dcfgNodeIdInvalid →
    dcfgFindNodeLocked graph' key = dcfgFindNodeLocked graph key
  edges : graph'.edges = graph.edges
  edgesByKey : graph'.edgesByKey = graph.edgesByKey
  count : graph'.branchOccurrenceCount = graph.branchOccurrenceCount

theorem NodesGrow.refl {graph : DcfgGraph} (h : graph.WF) : NodesGrow graph graph :=
  ⟨h, fun _ _ => rfl, rfl, rfl, rfl⟩

theorem NodesGrow.trans {g₁ g₂ g₃ : DcfgGraph} (h : NodesGrow g₁ g₂) (h' : NodesGrow g₂ g₃) :
    NodesGrow g₁ g₃ where
  wf := h'.wf
  keeps key hkey := by
    rw [h'.keeps key (by rwa [h.keeps key hkey]), h.keeps key hkey]
  edges := h'.edges.trans h.edges
  edgesByKey := h'.edgesByKey.trans h.edgesByKey
  count := h'.count.trans h.count

/-- A request for memory changes nothing else. -/
theorem NodesGrow.heap {graph : DcfgGraph} (h : graph.WF) (heap : Heap) :
    NodesGrow graph { graph with heap := heap } :=
  ⟨⟨h.nodes, h.edges⟩, fun _ _ => rfl, rfl, rfl, rfl⟩

theorem dcfgFindNodeLocked_eq_invalid_iff {graph : DcfgGraph} (h : graph.WF) {key : DcfgNodeKey} :
    dcfgFindNodeLocked graph key = dcfgNodeIdInvalid ↔ graph.nodesByKey.lookup key = none := by
  unfold dcfgFindNodeLocked
  cases hlookup : graph.nodesByKey.lookup key with
  | none => simp
  | some id =>
    have hid := (h.nodes.get_of_lookup hlookup).1
    simp [dcfgNodeIdInvalid, hid]

/-- A node that is interned is found afterwards. -/
theorem dcfgInternNodeLocked_spec {graph : DcfgGraph} (h : graph.WF) (key : DcfgNodeKey) :
    ∃ nodeId graph', dcfgInternNodeLocked graph key = (nodeId, graph') ∧ NodesGrow graph graph' ∧
      (nodeId ≠ dcfgNodeIdInvalid → dcfgFindNodeLocked graph' key = nodeId) := by
  unfold dcfgInternNodeLocked
  by_cases hfound : dcfgFindNodeLocked graph key ≠ dcfgNodeIdInvalid
  · dsimp only
    rw [if_pos hfound]
    exact ⟨_, _, rfl, NodesGrow.refl h, fun _ => rfl⟩
  dsimp only
  rw [if_neg hfound]
  have hfresh := (dcfgFindNodeLocked_eq_invalid_iff h).mp (not_not.mp hfound)
  split
  · exact ⟨_, _, rfl, NodesGrow.refl h, fun hne => absurd rfl hne⟩
  · split
    · exact ⟨_, _, rfl, NodesGrow.heap h _, fun hne => absurd rfl hne⟩
    · refine ⟨_, _, rfl, ⟨⟨h.nodes.append ⟨graph.nodes.length + 1, key⟩ hfresh rfl,
        h.edges⟩, ?_, rfl, rfl, rfl⟩, ?_⟩
      · intro other hother
        have hne : other ≠ key := fun heq => hfound (heq ▸ hother)
        show ((graph.nodesByKey.insert key _).lookup other).getD _ = _
        rw [AList.lookup_insert_ne hne]
        rfl
      · intro _
        show ((graph.nodesByKey.insert key _).lookup key).getD _ = _
        rw [AList.lookup_insert, Option.getD_some]

/-! ### One call -/

/-- One more branch on the edge at `index`. -/
def DcfgGraph.observe (graph : DcfgGraph) (index : ℕ) (edge : DcfgEdgeView)
    (observation : DcfgBranchObservation) (condition target : ℕ) : DcfgGraph :=
  { graph with
    edges := graph.edges.set index (edge.observe observation condition target)
    branchOccurrenceCount := graph.branchOccurrenceCount + 1 }

/-- A new edge with its first branch. -/
def DcfgGraph.addEdge (graph : DcfgGraph) (observation : DcfgBranchObservation) : DcfgGraph :=
  { graph with
    edges := graph.edges ++ [observation.newEdge (graph.edges.length + 1)
      (dcfgFindNodeLocked graph observation.source) (dcfgFindNodeLocked graph observation.target)]
    edgesByKey := graph.edgesByKey.insert (observation.edgeKey graph) (graph.edges.length + 1)
    branchOccurrenceCount := graph.branchOccurrenceCount + 1 }

/-- What a call of `dcfgRecordBranch` does to the graph. -/
inductive BranchOutcome (registry : ProvRegistry) (graph : DcfgGraph)
    (observation : DcfgBranchObservation) : Bool → ℕ → DcfgGraph → ProvRegistry → Prop
  /-- It is refused: at most nodes were added. -/
  | refused {graph' registry' ops} (grow : NodesGrow graph graph')
      (runs : registry' = runRegistryOps registry ops) :
      BranchOutcome registry graph observation false dcfgEdgeIdInvalid graph' registry'
  /-- A known edge sees one more branch. -/
  | updated {graph' index edge condition registry₁ target registry₂} (grow : NodesGrow graph graph')
      (hget : graph'.edges[index]? = some edge) (hkey : observation.edgeKey graph' = edge.key)
      (source : dcfgFindNodeLocked graph' observation.source ≠ dcfgNodeIdInvalid)
      (dest : dcfgFindNodeLocked graph' observation.target ≠ dcfgNodeIdInvalid)
      (room : graph'.branchOccurrenceCount ≠ uint64Max)
      (validCondition : provLabelIdValidLocked registry observation.conditionLabel = true)
      (validTarget : provLabelIdValidLocked registry observation.targetLabel = true)
      (joinCondition : provLabelJoinLocked registry edge.conditionSummary observation.conditionLabel =
        (condition, registry₁)) (hcondition : condition ≠ provLabelIdInvalid)
      (joinTarget : provLabelJoinLocked registry₁ edge.targetSummary observation.targetLabel =
        (target, registry₂)) (htarget : target ≠ provLabelIdInvalid) :
      BranchOutcome registry graph observation true (index + 1)
        (graph'.observe index edge observation condition target) registry₂
  /-- A new edge is appended. -/
  | inserted {graph'} (grow : NodesGrow graph graph')
      (fresh : graph'.edgesByKey.lookup (observation.edgeKey graph') = none)
      (source : dcfgFindNodeLocked graph' observation.source ≠ dcfgNodeIdInvalid)
      (dest : dcfgFindNodeLocked graph' observation.target ≠ dcfgNodeIdInvalid)
      (room : graph'.branchOccurrenceCount ≠ uint64Max)
      (validCondition : provLabelIdValidLocked registry observation.conditionLabel = true)
      (validTarget : provLabelIdValidLocked registry observation.targetLabel = true) :
      BranchOutcome registry graph observation true (graph'.edges.length + 1)
        (graph'.addEdge observation) registry

theorem runRegistryOps_two_joins (registry : ProvRegistry) (a b c d : ℕ) :
    runRegistryOps registry [.joinLabels a b, .joinLabels c d] =
      (provLabelJoinLocked (provLabelJoinLocked registry a b).2 c d).2 := rfl

/-- The edge that is found is the one with the key; otherwise the key is new. -/
theorem dcfgFindEdgeLocked_cases {graph : DcfgGraph} (h : graph.WF) (sourceNode targetNode : ℕ)
    (kind : DcfgEdgeKind) :
    let edgeId := dcfgFindEdgeLocked graph sourceNode targetNode kind
    let found := if edgeId = dcfgEdgeIdInvalid then none else graph.edges[edgeId - 1]?
    (∃ index edge, edgeId = index + 1 ∧ graph.edges[index]? = some edge ∧ found = some edge ∧
      edge.key = ⟨sourceNode, targetNode, kind⟩) ∨
    (found = none ∧ graph.edgesByKey.lookup ⟨sourceNode, targetNode, kind⟩ = none) := by
  intro edgeId found
  cases hlookup : graph.edgesByKey.lookup ⟨sourceNode, targetNode, kind⟩ with
  | none =>
    have hid : edgeId = dcfgEdgeIdInvalid := by
      show (graph.edgesByKey.lookup _).getD _ = _
      rw [hlookup, Option.getD_none]
    exact Or.inr ⟨if_pos hid, rfl⟩
  | some id =>
    have hid : edgeId = id := by
      show (graph.edgesByKey.lookup _).getD _ = _
      rw [hlookup, Option.getD_some]
    obtain ⟨hne, edge, hget, hkey, -⟩ := h.edges.get_of_lookup hlookup
    refine Or.inl ⟨id - 1, edge, ?_, hget, ?_, hkey⟩
    · rw [hid]
      omega
    · show (if edgeId = dcfgEdgeIdInvalid then none else graph.edges[edgeId - 1]?) = some edge
      rw [hid, if_neg (show id ≠ dcfgEdgeIdInvalid from hne), hget]

/-- A known edge is left alone, or both of its summaries are joined. -/
theorem dcfgUpdateEdgeLocked_cases (registry : ProvRegistry) (graph : DcfgGraph) (index : ℕ)
    (edge : DcfgEdgeView) (observation : DcfgBranchObservation) :
    (∃ registry' ops, dcfgUpdateEdgeLocked registry graph index edge observation =
        (false, graph, registry') ∧ registry' = runRegistryOps registry ops) ∨
    (∃ condition registry₁ target registry₂,
      dcfgUpdateEdgeLocked registry graph index edge observation =
        (true, graph.observe index edge observation condition target, registry₂) ∧
      graph.branchOccurrenceCount ≠ uint64Max ∧
      provLabelJoinLocked registry edge.conditionSummary observation.conditionLabel =
        (condition, registry₁) ∧ condition ≠ provLabelIdInvalid ∧
      provLabelJoinLocked registry₁ edge.targetSummary observation.targetLabel =
        (target, registry₂) ∧ target ≠ provLabelIdInvalid) := by
  unfold dcfgUpdateEdgeLocked
  split
  · exact Or.inl ⟨registry, [], rfl, rfl⟩
  rename_i hroom
  have hjoins := runRegistryOps_two_joins registry edge.conditionSummary
    observation.conditionLabel edge.targetSummary observation.targetLabel
  generalize hcond : provLabelJoinLocked registry edge.conditionSummary
    observation.conditionLabel = first at hjoins ⊢
  obtain ⟨condition, registry₁⟩ := first
  dsimp only at hjoins ⊢
  generalize htgt : provLabelJoinLocked registry₁ edge.targetSummary observation.targetLabel =
    second at hjoins ⊢
  obtain ⟨target, registry₂⟩ := second
  dsimp only at hjoins ⊢
  split
  · exact Or.inl ⟨registry₂, _, rfl, hjoins.symm⟩
  · rename_i hlabels
    obtain ⟨hcondition, htarget⟩ := not_or.mp hlabels
    exact Or.inr ⟨condition, registry₁, target, registry₂, rfl, (not_or.mp hroom).2, rfl, hcondition,
      htgt, htarget⟩

/-- **What one call does.** -/
theorem dcfgRecordBranch_outcome {graph : DcfgGraph} (h : graph.WF) (registry : ProvRegistry)
    (observation : DcfgBranchObservation) :
    ∃ success edgeId graph' registry',
      dcfgRecordBranch registry graph observation = (success, edgeId, graph', registry') ∧
      BranchOutcome registry graph observation success edgeId graph' registry' := by
  have hnothing : registry = runRegistryOps registry [] := rfl
  unfold dcfgRecordBranch
  split
  · exact ⟨_, _, _, _, rfl, .refused (NodesGrow.refl h) hnothing⟩
  rename_i hargs
  simp only [not_or, Bool.not_eq_false] at hargs
  obtain ⟨-, -, hvalidCondition, hvalidTarget⟩ := hargs
  obtain ⟨sourceNode, graph₁, hintern, hgrow₁, hsource⟩ :=
    dcfgInternNodeLocked_spec h observation.source
  rw [hintern]
  obtain ⟨targetNode, graph₂, hintern', hgrow₂, htargetNode⟩ :=
    dcfgInternNodeLocked_spec hgrow₁.wf observation.target
  dsimp only
  rw [hintern']
  dsimp only
  have hgrow := hgrow₁.trans hgrow₂
  split
  · exact ⟨_, _, _, _, rfl, .refused hgrow hnothing⟩
  rename_i hnodes
  obtain ⟨hsourceNe, htargetNe⟩ := not_or.mp hnodes
  -- the source is still found after the destination was added
  have hsource₁ := hsource hsourceNe
  have hsource₂ : dcfgFindNodeLocked graph₂ observation.source = sourceNode := by
    rw [hgrow₂.keeps _ (by rwa [hsource₁]), hsource₁]
  have htarget₂ := htargetNode htargetNe
  obtain ⟨index, edge, hid, hget, hfound, hkey⟩ | ⟨hfound, hfresh⟩ :=
    dcfgFindEdgeLocked_cases hgrow.wf sourceNode targetNode observation.kind
  · rw [hfound, hid]
    dsimp only
    rw [Nat.add_sub_cancel]
    obtain ⟨registry', ops, hupdate, hruns⟩ | ⟨condition, registry₁, target, registry₂, hupdate,
      hroom, hcond, hcondition, htgt, htarget⟩ :=
      dcfgUpdateEdgeLocked_cases registry graph₂ index edge observation
    · rw [hupdate]
      exact ⟨_, _, _, _, rfl, .refused hgrow hruns⟩
    · rw [hupdate]
      refine ⟨_, _, _, _, rfl, .updated hgrow hget ?_ (by rwa [hsource₂]) (by rwa [htarget₂]) hroom
        hvalidCondition hvalidTarget hcond hcondition htgt htarget⟩
      rw [hkey, DcfgBranchObservation.edgeKey, hsource₂, htarget₂]
  · rw [hfound]
    dsimp only
    unfold dcfgInsertEdgeLocked
    split
    · exact ⟨_, _, _, _, rfl, .refused hgrow hnothing⟩
    rename_i hroom
    dsimp only
    split
    · exact ⟨_, _, _, _, rfl, .refused (hgrow.trans (NodesGrow.heap hgrow.wf _)) hnothing⟩
    have hgrow' := hgrow.trans (NodesGrow.heap hgrow.wf (graph₂.heap.calloc 1 12).2)
    have hfresh' : graph₂.edgesByKey.lookup (observation.edgeKey graph₂) = none := by
      rw [DcfgBranchObservation.edgeKey, hsource₂, htarget₂]
      exact hfresh
    have houtcome := @BranchOutcome.inserted registry graph observation _ hgrow' hfresh'
      (show dcfgFindNodeLocked graph₂ _ ≠ _ by rwa [hsource₂])
      (show dcfgFindNodeLocked graph₂ _ ≠ _ by rwa [htarget₂])
      (not_or.mp hroom).2 hvalidCondition hvalidTarget
    rw [← hsource₂, ← htarget₂]
    exact ⟨_, _, _, _, rfl, houtcome⟩

/-! ### Runs -/

/-- A call on the registry or on the graph. -/
inductive DcfgCall where
  | registry (op : RegistryOp)
  | record (observation : DcfgBranchObservation)

/-- The registry and the graph, with the branches whose recording returned success. -/
structure DcfgRun where
  registry : ProvRegistry
  graph : DcfgGraph
  recorded : List DcfgBranchObservation

/-- A new graph on a registry. -/
def DcfgRun.start (registry : ProvRegistry) (heap : Heap) : DcfgRun :=
  ⟨registry, dcfgGraphCreate heap, []⟩

/-- The state after a call. -/
def DcfgRun.call (run : DcfgRun) : DcfgCall → DcfgRun
  | .registry op => { run with registry := op.run run.registry }
  | .record observation =>
    let (success, _, graph, registry) := dcfgRecordBranch run.registry run.graph observation
    ⟨registry, graph, if success then run.recorded ++ [observation] else run.recorded⟩

/-- The state after a sequence of calls. -/
def DcfgRun.calls (run : DcfgRun) (calls : List DcfgCall) : DcfgRun :=
  calls.foldl DcfgRun.call run

/-- The branches that were recorded on an edge. -/
def DcfgRun.branchesOn (run : DcfgRun) (edge : DcfgEdgeView) : List DcfgBranchObservation :=
  run.recorded.filter fun observation => observation.edgeKey run.graph = edge.key

/-- What holds after every call. -/
structure DcfgRun.Bookkept (run : DcfgRun) : Prop where
  wf : run.graph.WF
  known : ∀ observation ∈ run.recorded,
    dcfgFindNodeLocked run.graph observation.source ≠ dcfgNodeIdInvalid ∧
      dcfgFindNodeLocked run.graph observation.target ≠ dcfgNodeIdInvalid
  placed : ∀ observation ∈ run.recorded,
    ∃ edge ∈ run.graph.edges, edge.key = observation.edgeKey run.graph
  occurrences : ∀ edge ∈ run.graph.edges,
    edge.occurrenceCount = (run.branchesOn edge).length
  total : run.graph.branchOccurrenceCount = run.recorded.length
  sum : run.graph.branchOccurrenceCount =
    (run.graph.edges.map DcfgEdgeView.occurrenceCount).sum
  bound : run.graph.branchOccurrenceCount ≤ uint64Max

theorem DcfgRun.start_bookkept (registry : ProvRegistry) (heap : Heap) :
    (DcfgRun.start registry heap).Bookkept where
  wf := dcfgGraphCreate_wf heap
  known _ h := (List.not_mem_nil h).elim
  placed _ h := (List.not_mem_nil h).elim
  occurrences _ h := (List.not_mem_nil h).elim
  total := rfl
  sum := rfl
  bound := Nat.zero_le _

/-- New nodes do not move a recorded branch to another edge. -/
theorem NodesGrow.edgeKey_eq {graph graph' : DcfgGraph} (h : NodesGrow graph graph')
    {observation : DcfgBranchObservation}
    (hsource : dcfgFindNodeLocked graph observation.source ≠ dcfgNodeIdInvalid)
    (htarget : dcfgFindNodeLocked graph observation.target ≠ dcfgNodeIdInvalid) :
    observation.edgeKey graph' = observation.edgeKey graph := by
  rw [DcfgBranchObservation.edgeKey, h.keeps _ hsource, h.keeps _ htarget]
  rfl

/-- The branches stay with their edges. -/
theorem DcfgRun.branchesOn_grow {run : DcfgRun} (h : run.Bookkept) {graph : DcfgGraph}
    (hgrow : NodesGrow run.graph graph) (registry : ProvRegistry) (edge : DcfgEdgeView) :
    (DcfgRun.mk registry graph run.recorded).branchesOn edge = run.branchesOn edge := by
  apply List.filter_congr
  intro observation hmem
  rw [hgrow.edgeKey_eq (h.known observation hmem).1 (h.known observation hmem).2]

/-- New nodes leave the books as they are. -/
theorem DcfgRun.Bookkept.grow {run : DcfgRun} (h : run.Bookkept) {graph : DcfgGraph}
    (hgrow : NodesGrow run.graph graph) (registry : ProvRegistry) :
    (DcfgRun.mk registry graph run.recorded).Bookkept := by
  constructor
  · exact hgrow.wf
  · intro observation hmem
    obtain ⟨hsource, htarget⟩ := h.known observation hmem
    exact ⟨by rwa [hgrow.keeps _ hsource], by rwa [hgrow.keeps _ htarget]⟩
  · intro observation hmem
    obtain ⟨hsource, htarget⟩ := h.known observation hmem
    rw [hgrow.edges, hgrow.edgeKey_eq hsource htarget]
    exact h.placed observation hmem
  · intro edge hedge
    rw [hgrow.edges] at hedge
    rw [h.occurrences edge hedge, DcfgRun.branchesOn_grow h hgrow]
  · exact hgrow.count.trans h.total
  · rw [hgrow.count, hgrow.edges]
    exact h.sum
  · rw [hgrow.count]
    exact h.bound

/-! ### A known edge sees one more branch -/

section Observe

variable {run : DcfgRun} {observation : DcfgBranchObservation} {index : ℕ} {edge : DcfgEdgeView}

/-- The state after one more branch on a known edge. -/
def DcfgRun.observe (run : DcfgRun) (registry : ProvRegistry) (index : ℕ) (edge : DcfgEdgeView)
    (observation : DcfgBranchObservation) (condition target : ℕ) : DcfgRun :=
  ⟨registry, run.graph.observe index edge observation condition target,
    run.recorded ++ [observation]⟩

/-- The branch is added to the branches of its edge; the other edges keep theirs. -/
theorem DcfgRun.branchesOn_observe (h : run.graph.WF) (hget : run.graph.edges[index]? = some edge)
    (hkey : observation.edgeKey run.graph = edge.key) (registry : ProvRegistry)
    (condition target : ℕ) {e : DcfgEdgeView}
    (he : e ∈ (run.graph.observe index edge observation condition target).edges) :
    (e = edge.observe observation condition target ∧
      (run.observe registry index edge observation condition target).branchesOn e =
        run.branchesOn edge ++ [observation]) ∨
    (e ∈ run.graph.edges ∧
      (run.observe registry index edge observation condition target).branchesOn e =
        run.branchesOn e) := by
  have hlt := (List.getElem?_eq_some_iff.mp hget).1
  have hbranches : ∀ e, (run.observe registry index edge observation condition target).branchesOn e =
      run.branchesOn e ++ [observation].filter fun o => o.edgeKey run.graph = e.key :=
    fun e => List.filter_append _ _
  obtain ⟨j, hj⟩ := List.mem_iff_getElem?.mp he
  by_cases hij : index = j
  · subst hij
    obtain rfl := Option.some.inj ((List.getElem?_set_self hlt).symm.trans hj)
    refine Or.inl ⟨rfl, ?_⟩
    have hsame : edge.key = (edge.observe observation condition target).key := rfl
    rw [hbranches, List.filter_singleton, hkey, decide_eq_true hsame]
    rfl
  · replace hj : run.graph.edges[j]? = some e := (List.getElem?_set_ne hij).symm.trans hj
    refine Or.inr ⟨List.mem_of_getElem? hj, ?_⟩
    have hne : observation.edgeKey run.graph ≠ e.key := by
      rw [hkey]
      exact fun hsame => hij (h.edges.index_eq hget hj hsame)
    rw [hbranches, List.filter_singleton, decide_eq_false hne]
    exact List.append_nil _

/-- Every edge is still there, under its key. -/
theorem DcfgGraph.mem_observe {graph : DcfgGraph} (hget : graph.edges[index]? = some edge)
    (observation : DcfgBranchObservation) (condition target : ℕ) {e : DcfgEdgeView} (he : e ∈ graph.edges) :
    ∃ e' ∈ (graph.observe index edge observation condition target).edges, e'.key = e.key := by
  have hlt := (List.getElem?_eq_some_iff.mp hget).1
  obtain ⟨j, hj⟩ := List.mem_iff_getElem?.mp he
  by_cases hij : index = j
  · subst hij
    obtain rfl := Option.some.inj (hget.symm.trans hj)
    exact ⟨_, List.mem_of_getElem? (List.getElem?_set_self hlt), rfl⟩
  · exact ⟨e, List.mem_of_getElem? ((List.getElem?_set_ne hij).trans hj), rfl⟩

theorem DcfgRun.Bookkept.observe (h : run.Bookkept) (hget : run.graph.edges[index]? = some edge)
    (hkey : observation.edgeKey run.graph = edge.key)
    (hsource : dcfgFindNodeLocked run.graph observation.source ≠ dcfgNodeIdInvalid)
    (htarget : dcfgFindNodeLocked run.graph observation.target ≠ dcfgNodeIdInvalid)
    (hroom : run.graph.branchOccurrenceCount ≠ uint64Max) (registry : ProvRegistry)
    (condition target : ℕ) :
    (run.observe registry index edge observation condition target).Bookkept := by
  have hmem := List.mem_of_getElem? hget
  constructor
  · exact ⟨h.wf.nodes, h.wf.edges.set hget rfl rfl⟩
  · intro other hother
    rcases List.mem_append.mp hother with hother | hother
    · exact h.known other hother
    · obtain rfl := List.mem_singleton.mp hother
      exact ⟨hsource, htarget⟩
  · intro other hother
    have hplaced : ∃ e ∈ run.graph.edges, e.key = other.edgeKey run.graph := by
      rcases List.mem_append.mp hother with hother | hother
      · exact h.placed other hother
      · obtain rfl := List.mem_singleton.mp hother
        exact ⟨edge, hmem, hkey.symm⟩
    obtain ⟨e, he, heq⟩ := hplaced
    obtain ⟨e', he', heq'⟩ := DcfgGraph.mem_observe hget observation condition target he
    exact ⟨e', he', heq'.trans heq⟩
  · intro e he
    obtain ⟨rfl, hbranches⟩ | ⟨hold, hbranches⟩ :=
      DcfgRun.branchesOn_observe h.wf hget hkey registry condition target he
    · rw [hbranches, List.length_append, ← h.occurrences edge hmem]
      rfl
    · rw [hbranches]
      exact h.occurrences e hold
  · show run.graph.branchOccurrenceCount + 1 = (run.recorded ++ [observation]).length
    rw [List.length_append, h.total]
    rfl
  · show run.graph.branchOccurrenceCount + 1 = ((run.graph.edges.set index
      (edge.observe observation condition target)).map DcfgEdgeView.occurrenceCount).sum
    have hsum := sum_map_set DcfgEdgeView.occurrenceCount
      (edge.observe observation condition target) hget
    have hcount : (edge.observe observation condition target).occurrenceCount =
      edge.occurrenceCount + 1 := rfl
    have hold := h.sum
    omega
  · have hbound := h.bound
    show run.graph.branchOccurrenceCount + 1 ≤ uint64Max
    omega

end Observe

/-! ### A new edge -/

section AddEdge

variable {run : DcfgRun} {observation : DcfgBranchObservation}

/-- The state after a first branch on a new edge. -/
def DcfgRun.addEdge (run : DcfgRun) (registry : ProvRegistry) (observation : DcfgBranchObservation) :
    DcfgRun :=
  ⟨registry, run.graph.addEdge observation, run.recorded ++ [observation]⟩

/-- The new edge has its one branch; the other edges keep theirs. -/
theorem DcfgRun.branchesOn_addEdge (h : run.Bookkept)
    (hfresh : run.graph.edgesByKey.lookup (observation.edgeKey run.graph) = none)
    (registry : ProvRegistry) {e : DcfgEdgeView} (he : e ∈ (run.graph.addEdge observation).edges) :
    (e = observation.newEdge (run.graph.edges.length + 1)
        (dcfgFindNodeLocked run.graph observation.source)
        (dcfgFindNodeLocked run.graph observation.target) ∧
      (run.addEdge registry observation).branchesOn e = [observation]) ∨
    (e ∈ run.graph.edges ∧
      (run.addEdge registry observation).branchesOn e = run.branchesOn e) := by
  have hnotmem := h.wf.edges.not_mem_of_lookup hfresh
  have hbranches : ∀ e, (run.addEdge registry observation).branchesOn e =
      run.branchesOn e ++ [observation].filter fun o => o.edgeKey run.graph = e.key :=
    fun e => List.filter_append _ _
  rcases List.mem_append.mp he with he | he
  · refine Or.inr ⟨he, ?_⟩
    have hne : observation.edgeKey run.graph ≠ e.key :=
      fun hsame => hnotmem (List.mem_map.mpr ⟨e, he, hsame.symm⟩)
    rw [hbranches, List.filter_singleton, decide_eq_false hne]
    exact List.append_nil _
  · obtain rfl := List.mem_singleton.mp he
    refine Or.inl ⟨rfl, ?_⟩
    -- no recorded branch has the key of the new edge
    have hnone : run.branchesOn (observation.newEdge (run.graph.edges.length + 1)
        (dcfgFindNodeLocked run.graph observation.source)
        (dcfgFindNodeLocked run.graph observation.target)) = [] := by
      rw [DcfgRun.branchesOn, List.filter_eq_nil_iff]
      intro o ho hsame
      obtain ⟨e, he, heq⟩ := h.placed o ho
      exact hnotmem (List.mem_map.mpr ⟨e, he, heq.trans (of_decide_eq_true hsame)⟩)
    have hsame : observation.edgeKey run.graph = (observation.newEdge (run.graph.edges.length + 1)
        (dcfgFindNodeLocked run.graph observation.source)
        (dcfgFindNodeLocked run.graph observation.target)).key := rfl
    rw [hbranches, hnone, List.filter_singleton, decide_eq_true hsame]
    rfl

theorem DcfgRun.Bookkept.addEdge (h : run.Bookkept)
    (hfresh : run.graph.edgesByKey.lookup (observation.edgeKey run.graph) = none)
    (hsource : dcfgFindNodeLocked run.graph observation.source ≠ dcfgNodeIdInvalid)
    (htarget : dcfgFindNodeLocked run.graph observation.target ≠ dcfgNodeIdInvalid)
    (hroom : run.graph.branchOccurrenceCount ≠ uint64Max) (registry : ProvRegistry) :
    (run.addEdge registry observation).Bookkept := by
  constructor
  · exact ⟨h.wf.nodes, h.wf.edges.append (observation.newEdge (run.graph.edges.length + 1)
      (dcfgFindNodeLocked run.graph observation.source)
      (dcfgFindNodeLocked run.graph observation.target)) hfresh rfl⟩
  · intro other hother
    rcases List.mem_append.mp hother with hother | hother
    · exact h.known other hother
    · obtain rfl := List.mem_singleton.mp hother
      exact ⟨hsource, htarget⟩
  · intro other hother
    rcases List.mem_append.mp hother with hother | hother
    · obtain ⟨e, he, heq⟩ := h.placed other hother
      exact ⟨e, List.mem_append_left _ he, heq⟩
    · obtain rfl := List.mem_singleton.mp hother
      exact ⟨_, List.mem_append_right _ (List.mem_singleton_self _), rfl⟩
  · intro e he
    obtain ⟨rfl, hbranches⟩ | ⟨hold, hbranches⟩ :=
      DcfgRun.branchesOn_addEdge h hfresh registry he
    · rw [hbranches]
      rfl
    · rw [hbranches]
      exact h.occurrences e hold
  · show run.graph.branchOccurrenceCount + 1 = (run.recorded ++ [observation]).length
    rw [List.length_append, h.total]
    rfl
  · show run.graph.branchOccurrenceCount + 1 = ((run.graph.edges ++ [_]).map
      DcfgEdgeView.occurrenceCount).sum
    rw [List.map_append, List.sum_append, List.map_singleton, List.sum_singleton, ← h.sum]
    rfl
  · have hbound := h.bound
    show run.graph.branchOccurrenceCount + 1 ≤ uint64Max
    omega

end AddEdge

/-! ### The books -/

/-- **Every call keeps the books.** -/
theorem DcfgRun.Bookkept.call {run : DcfgRun} (h : run.Bookkept) (call : DcfgCall) :
    (run.call call).Bookkept := by
  cases call with
  | registry op => exact h.grow (NodesGrow.refl h.wf) (op.run run.registry)
  | record observation =>
    obtain ⟨success, edgeId, graph', registry', heq, houtcome⟩ :=
      dcfgRecordBranch_outcome h.wf run.registry observation
    rw [DcfgRun.call, heq]
    cases houtcome with
    | refused grow _ => exact h.grow grow registry'
    | updated grow hget hkey source dest room =>
      exact (h.grow grow registry').observe hget hkey source dest room registry' _ _
    | inserted grow fresh source dest room =>
      exact (h.grow grow run.registry).addEdge fresh source dest room run.registry

theorem DcfgRun.calls_concat (run : DcfgRun) (calls : List DcfgCall) (call : DcfgCall) :
    run.calls (calls ++ [call]) = (run.calls calls).call call :=
  List.foldl_concat _ _ _ _

/-- **The books are kept over every run.** -/
theorem DcfgRun.bookkept (registry : ProvRegistry) (heap : Heap) (calls : List DcfgCall) :
    ((DcfgRun.start registry heap).calls calls).Bookkept := by
  induction calls using List.reverseRecOn with
  | nil => exact DcfgRun.start_bookkept registry heap
  | append_singleton calls call ih =>
    rw [DcfgRun.calls_concat]
    exact ih.call call

end TaintForge
