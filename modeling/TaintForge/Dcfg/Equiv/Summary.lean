import TaintForge.Dcfg.Equiv.Graph
import TaintForge.Prov.Equiv.Canonical
import TaintForge.Prov.Equiv.Exhausted
import TaintForge.Prov.Equiv.Semilattice

/-!
# The label summaries of the edges

An edge carries one label for the conditions and one for the targets of its branches.  Each is the
join of the labels of all branches recorded on the edge, as long as the registry has an identifier
left for a root set: then a union that fails is not taken for a set.

* `IsJoin`: a label stands for the least upper bound of what some labels stand for.
* `DcfgRun.Summed.call`: a call keeps the summaries.
* `dcfgRun_bookkeeping`: the books and the summaries over every run.
-/

namespace TaintForge

variable {limit : ℕ} {registry : ProvRegistry}

/-! ### Joins of many labels -/

/-- `summary` stands for the join of what `labels` stand for. -/
def IsJoin (limit : ℕ) (registry : ProvRegistry) (summary : ℕ) (labels : List ℕ) : Prop :=
  ∃ a : LabelValue limit, Means registry summary a ∧
    IsLUB {v : LabelValue limit | ∃ label ∈ labels, Means registry label v} a

/-- The order of the labels and repetitions do not matter. -/
theorem IsJoin.congr {summary : ℕ} {labels labels' : List ℕ}
    (h : IsJoin limit registry summary labels) (hsame : ∀ label, label ∈ labels ↔ label ∈ labels') :
    IsJoin limit registry summary labels' := by
  obtain ⟨a, hmeans, hlub⟩ := h
  refine ⟨a, hmeans, ?_⟩
  simpa only [hsame] using hlub

theorem IsJoin.singleton (h : registry.WF) (hlimit : registry.maxRootsPerSet = limit) {label : ℕ}
    (hvalid : provLabelIdValidLocked registry label = true) :
    IsJoin limit registry label [label] := by
  obtain ⟨v, hv⟩ := h.exists_means hlimit hvalid
  refine ⟨v, hv, ?_⟩
  have hset : {w : LabelValue limit | ∃ l ∈ [label], Means registry l w} = {v} := by
    ext w
    simp only [List.mem_singleton, exists_eq_left, Set.mem_ofPred_eq, Set.mem_singleton_iff]
    exact ⟨fun hw => hw.unique hv, fun hw => hw ▸ hv⟩
  rw [hset]
  exact isLUB_singleton

/-- The meanings of labels of the registry stay the same. -/
theorem setOf_means_later {registry' : ProvRegistry} (h : registry.WF)
    (hlimit : registry.maxRootsPerSet = limit) (hlater : Later registry registry') {labels : List ℕ}
    (hvalid : ∀ label ∈ labels, provLabelIdValidLocked registry label = true) :
    {v : LabelValue limit | ∃ label ∈ labels, Means registry' label v} =
      {v | ∃ label ∈ labels, Means registry label v} := by
  ext v
  constructor
  · rintro ⟨label, hmem, hmeans⟩
    obtain ⟨w, hw⟩ := h.exists_means hlimit (hvalid label hmem)
    obtain rfl := hmeans.unique (hw.later h hlater)
    exact ⟨label, hmem, hw⟩
  · rintro ⟨label, hmem, hmeans⟩
    exact ⟨label, hmem, hmeans.later h hlater⟩

theorem IsJoin.later {registry' : ProvRegistry} (h : registry.WF)
    (hlimit : registry.maxRootsPerSet = limit) (hlater : Later registry registry') {summary : ℕ}
    {labels : List ℕ} (hvalid : ∀ label ∈ labels, provLabelIdValidLocked registry label = true)
    (hjoin : IsJoin limit registry summary labels) : IsJoin limit registry' summary labels := by
  obtain ⟨a, hmeans, hlub⟩ := hjoin
  refine ⟨a, hmeans.later h hlater, ?_⟩
  rw [setOf_means_later h hlimit hlater hvalid]
  exact hlub

/-- A successful join adds one label. -/
theorem IsJoin.join (h : registry.WF) (hlimit : registry.maxRootsPerSet = limit) {summary label : ℕ}
    {labels : List ℕ} (hvalid : ∀ label ∈ labels, provLabelIdValidLocked registry label = true)
    (hjoin : IsJoin limit registry summary labels)
    (hids : IdsLeft (provLabelJoinLocked registry summary label)) :
    IsJoin limit (provLabelJoinLocked registry summary label).2
      (provLabelJoinLocked registry summary label).1 (labels ++ [label]) := by
  obtain ⟨a, hmeans, hlub⟩ := hjoin
  obtain ⟨-, hlabel, -⟩ := hids.joinSucceeds h
  obtain ⟨v, hv⟩ := h.exists_means hlimit hlabel
  have hlater := provLabelJoinLocked_later h summary label
  refine ⟨a ⊔ v, hids.means h hlimit hmeans hv, ?_⟩
  have hall : ∀ l ∈ labels ++ [label], provLabelIdValidLocked registry l = true := by
    intro l hl
    rcases List.mem_append.mp hl with hl | hl
    · exact hvalid l hl
    · rwa [List.mem_singleton.mp hl]
  rw [setOf_means_later h hlimit hlater hall]
  have hset : {w : LabelValue limit | ∃ l ∈ labels ++ [label], Means registry l w} =
      insert v {w | ∃ l ∈ labels, Means registry l w} := by
    ext w
    simp only [List.mem_append, List.mem_singleton, or_and_right, exists_or, exists_eq_left,
      Set.mem_ofPred_eq, Set.mem_insert_iff]
    rw [or_comm]
    exact or_congr_left ⟨fun hw => hw.unique hv, fun hw => hw ▸ hv⟩
  rw [hset, sup_comm]
  exact hlub.insert v

/-- The labels of the recorded branches are labels of the registry. -/
structure DcfgRun.Labelled (limit : ℕ) (run : DcfgRun) : Prop where
  reachable : RegistryReachable run.registry
  limit_eq : run.registry.maxRootsPerSet = limit
  valid : ∀ observation ∈ run.recorded,
    provLabelIdValidLocked run.registry observation.conditionLabel = true ∧
      provLabelIdValidLocked run.registry observation.targetLabel = true

/-- The summaries of an edge are the joins of the labels of the branches recorded on it. -/
def DcfgRun.Summed (limit : ℕ) (run : DcfgRun) : Prop :=
  ∀ edge ∈ run.graph.edges,
    IsJoin limit run.registry edge.conditionSummary
      ((run.branchesOn edge).map DcfgBranchObservation.conditionLabel) ∧
    IsJoin limit run.registry edge.targetSummary
      ((run.branchesOn edge).map DcfgBranchObservation.targetLabel)

/-- After recording a branch the registry still has an identifier left for a root set, so no union
of the call that failed was taken for a set. -/
def DcfgRun.Fits (run : DcfgRun) (call : DcfgCall) : Prop :=
  ∀ observation, call = .record observation →
    (run.call call).registry.rootSets.records.length < uint32Max

/-- A valid label stays valid. -/
theorem provLabelIdValidLocked_later {registry' : ProvRegistry} (hlater : Later registry registry')
    {label : ℕ} (hvalid : provLabelIdValidLocked registry label = true) :
    provLabelIdValidLocked registry' label = true := by
  obtain ⟨hne, hlt⟩ := provLabelIdValidLocked_iff.mp hvalid
  exact provLabelIdValidLocked_iff.mpr ⟨hne, hlt.trans_le hlater.keeps.labels.length_le⟩

/-- The registry after a call can be built from the one before. -/
theorem DcfgRun.call_registry {run : DcfgRun} (h : run.graph.WF) (call : DcfgCall) :
    ∃ ops, (run.call call).registry = runRegistryOps run.registry ops := by
  cases call with
  | registry op => exact ⟨[op], rfl⟩
  | record observation =>
    obtain ⟨success, edgeId, graph', registry', heq, houtcome⟩ :=
      dcfgRecordBranch_outcome h run.registry observation
    rw [DcfgRun.call, heq]
    cases houtcome with
    | refused _ runs => exact ⟨_, runs⟩
    | @updated _ _ edge _ _ _ _ _ _ _ _ _ _ _ _ joinCondition _ joinTarget =>
      have hjoins := runRegistryOps_two_joins run.registry edge.conditionSummary
        observation.conditionLabel edge.targetSummary observation.targetLabel
      rw [joinCondition, joinTarget] at hjoins
      exact ⟨_, hjoins.symm⟩
    | inserted => exact ⟨[], rfl⟩

theorem DcfgRun.Labelled.call {run : DcfgRun} (h : run.Labelled limit) (hwf : run.graph.WF)
    (call : DcfgCall) : (run.call call).Labelled limit := by
  obtain ⟨ops, hops⟩ := DcfgRun.call_registry hwf call
  have hlater := runRegistryOps_later ops h.reachable.wf
  rw [← hops] at hlater
  constructor
  · rw [hops]
    exact h.reachable.ops ops
  · exact hlater.keeps.limit.trans h.limit_eq
  · -- a branch is recorded with labels of the registry
    have hrecorded : ∀ o ∈ (run.call call).recorded, o ∈ run.recorded ∨
        provLabelIdValidLocked run.registry o.conditionLabel = true ∧
          provLabelIdValidLocked run.registry o.targetLabel = true := by
      intro o ho
      cases call with
      | registry op => exact Or.inl ho
      | record observation =>
        obtain ⟨success, edgeId, graph', registry', heq, houtcome⟩ :=
          dcfgRecordBranch_outcome hwf run.registry observation
        rw [DcfgRun.call, heq] at ho
        cases houtcome with
        | refused => exact Or.inl ho
        | updated _ _ _ _ _ _ validCondition validTarget =>
          rcases List.mem_append.mp ho with ho | ho
          · exact Or.inl ho
          · obtain rfl := List.mem_singleton.mp ho
            exact Or.inr ⟨validCondition, validTarget⟩
        | inserted _ _ _ _ _ validCondition validTarget =>
          rcases List.mem_append.mp ho with ho | ho
          · exact Or.inl ho
          · obtain rfl := List.mem_singleton.mp ho
            exact Or.inr ⟨validCondition, validTarget⟩
    intro o ho
    have hvalid : provLabelIdValidLocked run.registry o.conditionLabel = true ∧
        provLabelIdValidLocked run.registry o.targetLabel = true := by
      rcases hrecorded o ho with ho | ho
      · exact h.valid o ho
      · exact ho
    exact ⟨provLabelIdValidLocked_later hlater hvalid.1,
      provLabelIdValidLocked_later hlater hvalid.2⟩

/-- The labels of the branches on an edge are labels of the registry. -/
theorem DcfgRun.Labelled.valid_on {run : DcfgRun} (h : run.Labelled limit) (edge : DcfgEdgeView) :
    (∀ label ∈ (run.branchesOn edge).map DcfgBranchObservation.conditionLabel,
      provLabelIdValidLocked run.registry label = true) ∧
    ∀ label ∈ (run.branchesOn edge).map DcfgBranchObservation.targetLabel,
      provLabelIdValidLocked run.registry label = true := by
  constructor
  · intro label hmem
    obtain ⟨o, ho, rfl⟩ := List.mem_map.mp hmem
    exact (h.valid o (List.mem_filter.mp ho).1).1
  · intro label hmem
    obtain ⟨o, ho, rfl⟩ := List.mem_map.mp hmem
    exact (h.valid o (List.mem_filter.mp ho).1).2

/-- New nodes and other calls on the registry leave the summaries as they are. -/
theorem DcfgRun.Summed.grow {run : DcfgRun} (h : run.Summed limit) (hlabels : run.Labelled limit)
    (hbooks : run.Bookkept) {graph : DcfgGraph} (hgrow : NodesGrow run.graph graph)
    {registry : ProvRegistry} (hlater : Later run.registry registry) :
    (DcfgRun.mk registry graph run.recorded).Summed limit := by
  intro edge hedge
  rw [DcfgRun.branchesOn_grow hbooks hgrow]
  obtain ⟨hcondition, htarget⟩ := h edge (by rwa [← hgrow.edges])
  obtain ⟨hvalid, hvalid'⟩ := hlabels.valid_on edge
  have hwf := hlabels.reachable.wf
  exact ⟨hcondition.later hwf hlabels.limit_eq hlater hvalid,
    htarget.later hwf hlabels.limit_eq hlater hvalid'⟩

/-- One more branch on a known edge: both of its labels are joined to the summaries. -/
theorem DcfgRun.Summed.observe {run : DcfgRun} (h : run.Summed limit)
    (hlabels : run.Labelled limit) (hwf : run.graph.WF) {observation : DcfgBranchObservation}
    {index : ℕ} {edge : DcfgEdgeView} (hget : run.graph.edges[index]? = some edge)
    (hkey : observation.edgeKey run.graph = edge.key) {condition target : ℕ}
    {registry₁ registry₂ : ProvRegistry}
    (hcondition : provLabelJoinLocked run.registry edge.conditionSummary
      observation.conditionLabel = (condition, registry₁)) (hne : condition ≠ provLabelIdInvalid)
    (htarget : provLabelJoinLocked registry₁ edge.targetSummary observation.targetLabel =
      (target, registry₂)) (hne' : target ≠ provLabelIdInvalid)
    (hfits : registry₂.rootSets.records.length < uint32Max) :
    (run.observe registry₂ index edge observation condition target).Summed limit := by
  have hreg := hlabels.reachable.wf
  have hlater₁ := provLabelJoinLocked_later hreg edge.conditionSummary observation.conditionLabel
  rw [hcondition] at hlater₁
  have hlater₂ := provLabelJoinLocked_later hlater₁.wf edge.targetSummary observation.targetLabel
  rw [htarget] at hlater₂
  have hlater := hlater₁.trans hlater₂
  -- identifiers left after the second join were left after the first
  have hids : IdsLeft (provLabelJoinLocked run.registry edge.conditionSummary
      observation.conditionLabel) := by
    rw [hcondition]
    exact ⟨hne, hlater₂.keeps.length_le.trans_lt hfits⟩
  have hids' : IdsLeft (provLabelJoinLocked registry₁ edge.targetSummary
      observation.targetLabel) := by
    rw [htarget]
    exact ⟨hne', hfits⟩
  obtain ⟨hvalid, hvalid'⟩ := hlabels.valid_on edge
  obtain ⟨hold, hold'⟩ := h edge (List.mem_of_getElem? hget)
  have hfirst := hold.join hreg hlabels.limit_eq hvalid hids
  rw [hcondition] at hfirst
  have hsecond := (hold'.later hreg hlabels.limit_eq hlater₁ hvalid').join hlater₁.wf
    (hlater₁.keeps.limit.trans hlabels.limit_eq)
    (fun label hmem => provLabelIdValidLocked_later hlater₁ (hvalid' label hmem)) hids'
  rw [htarget] at hsecond
  have hfirst' : ∀ label ∈ (run.branchesOn edge).map DcfgBranchObservation.conditionLabel ++
      [observation.conditionLabel], provLabelIdValidLocked registry₁ label = true := by
    obtain ⟨-, hlabel, -⟩ := hids.joinSucceeds hreg
    intro label hmem
    rcases List.mem_append.mp hmem with hmem | hmem
    · exact provLabelIdValidLocked_later hlater₁ (hvalid label hmem)
    · rw [List.mem_singleton.mp hmem]
      exact provLabelIdValidLocked_later hlater₁ hlabel
  intro e he
  obtain ⟨rfl, hbranches⟩ | ⟨he, hbranches⟩ :=
    DcfgRun.branchesOn_observe hwf hget hkey registry₂ condition target he
  · rw [hbranches, List.map_append, List.map_append]
    exact ⟨hfirst.later hlater₁.wf (hlater₁.keeps.limit.trans hlabels.limit_eq) hlater₂ hfirst',
      hsecond⟩
  · rw [hbranches]
    obtain ⟨hother, hother'⟩ := h e he
    obtain ⟨hvalid, hvalid'⟩ := hlabels.valid_on e
    exact ⟨hother.later hreg hlabels.limit_eq hlater hvalid,
      hother'.later hreg hlabels.limit_eq hlater hvalid'⟩

/-- A new edge carries the labels of its first branch. -/
theorem DcfgRun.Summed.addEdge {run : DcfgRun} (h : run.Summed limit)
    (hlabels : run.Labelled limit) (hbooks : run.Bookkept) {observation : DcfgBranchObservation}
    (hfresh : run.graph.edgesByKey.lookup (observation.edgeKey run.graph) = none)
    (hvalid : provLabelIdValidLocked run.registry observation.conditionLabel = true)
    (hvalid' : provLabelIdValidLocked run.registry observation.targetLabel = true) :
    (run.addEdge run.registry observation).Summed limit := by
  have hreg := hlabels.reachable.wf
  intro e he
  obtain ⟨rfl, hbranches⟩ | ⟨he, hbranches⟩ :=
    DcfgRun.branchesOn_addEdge hbooks hfresh run.registry he
  · rw [hbranches]
    exact ⟨IsJoin.singleton hreg hlabels.limit_eq hvalid,
      IsJoin.singleton hreg hlabels.limit_eq hvalid'⟩
  · rw [hbranches]
    exact h e he

/-- A call that leaves identifiers for root sets keeps the summaries. -/
theorem DcfgRun.Summed.call {run : DcfgRun} (h : run.Summed limit) (hlabels : run.Labelled limit)
    (hbooks : run.Bookkept) {call : DcfgCall} (hfits : run.Fits call) :
    (run.call call).Summed limit := by
  have hreg := hlabels.reachable.wf
  cases call with
  | registry op =>
    exact h.grow hlabels hbooks (NodesGrow.refl hbooks.wf) (op.run_later hreg)
  | record observation =>
    have hfits := hfits observation rfl
    obtain ⟨success, edgeId, graph', registry', heq, houtcome⟩ :=
      dcfgRecordBranch_outcome hbooks.wf run.registry observation
    rw [DcfgRun.call, heq] at hfits ⊢
    cases houtcome with
    | @refused _ _ ops grow runs =>
      have hlater := runRegistryOps_later ops hreg
      rw [← runs] at hlater
      exact h.grow hlabels hbooks grow hlater
    | updated grow hget hkey _ _ _ _ _ joinCondition hcondition joinTarget htarget =>
      exact (h.grow hlabels hbooks grow (Later.refl hreg)).observe
        ⟨hlabels.reachable, hlabels.limit_eq, hlabels.valid⟩ grow.wf hget hkey joinCondition
        hcondition joinTarget htarget hfits
    | inserted grow fresh _ _ _ validCondition validTarget =>
      exact (h.grow hlabels hbooks grow (Later.refl hreg)).addEdge
        ⟨hlabels.reachable, hlabels.limit_eq, hlabels.valid⟩ (hbooks.grow grow run.registry) fresh
        validCondition validTarget

theorem DcfgRun.labelled (h : RegistryReachable registry) (heap : Heap) (calls : List DcfgCall) :
    ((DcfgRun.start registry heap).calls calls).Labelled registry.maxRootsPerSet := by
  induction calls using List.reverseRecOn with
  | nil => exact ⟨h, rfl, fun _ hmem => (List.not_mem_nil hmem).elim⟩
  | append_singleton calls call ih =>
    rw [DcfgRun.calls_concat]
    exact ih.call (DcfgRun.bookkept registry heap calls).wf call

end TaintForge
