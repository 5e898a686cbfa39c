import TaintForge.Dse.Relevance
import TaintForge.Prov.Equiv.Labels
import TaintForge.Lib.Closure

/-!
# The relevance selection is a closure

The meanings of labels form a join-semilattice and a larger label never makes a branch irrelevant,
so the rounds of `dseRelevanceSelectionCreate` build the closure of the target's label.

* `dcfgLabelsDataRelevance_eq_irrelevant_iff`: the classifier compares meanings.
* `relevanceVisit_inv`, `relevanceRounds_inv`: what one event and all rounds preserve.
* `dseRelevanceSelectionCreate_closed`: what is still irrelevant classifies so at the end; the
  selection does not depend on the order of the events.
-/

namespace TaintForge

open CutSet

variable {limit : ℕ}

/-! ### The classifier -/

/-- A stored set is empty only if it is the empty set. -/
theorem ProvRegistry.WF.setMembers_eq_empty_iff {registry : ProvRegistry} (h : registry.WF)
    {setId : ℕ} (hid : setId ≤ registry.rootSets.records.length) :
    setMembers registry setId = ∅ ↔ setId = provRootSetEmpty := by
  constructor
  · intro hempty
    by_contra hne
    obtain ⟨r, hr, hrecord⟩ := provRootSetRecordLocked_eq hne hid
    rw [setMembers, setRoots_of_record hrecord, List.toFinset_eq_empty_iff] at hempty
    exact (h.sets r hr).nonempty hempty
  · rintro rfl
    rfl

/-- The four walks find a common root if the two labels share one. -/
theorem dcfgLabelsHaveKnownIntersection_iff {registry : ProvRegistry} (h : registry.WF)
    {condition target : ProvLabelView} :
    dcfgLabelsHaveKnownIntersection registry condition target = true ↔
      ¬ Disjoint (setMembers registry condition.dataRoots ∪
          setMembers registry condition.addressRoots)
        (setMembers registry target.dataRoots ∪ setMembers registry target.addressRoots) := by
  simp only [dcfgLabelsHaveKnownIntersection, Bool.or_eq_true, provRootSetsIntersect_iff h,
    Finset.disjoint_union_left, Finset.disjoint_union_right]
  tauto

/-- **The classifier compares meanings.** -/
theorem dcfgLabelsDataRelevance_eq_irrelevant_iff {registry : ProvRegistry} (h : registry.WF)
    {conditionLabel targetLabel : ℕ} {c t : LabelValue limit}
    (hcondition : Means registry conditionLabel c) (htarget : Means registry targetLabel t) :
    dcfgLabelsDataRelevance registry conditionLabel targetLabel = .irrelevant ↔
      c.Irrelevant t := by
  obtain ⟨cv, hgetC, hcd, hca, hcm, -⟩ := hcondition
  obtain ⟨tv, hgetT, htd, hta, htm, -⟩ := htarget
  obtain ⟨hcdId, hcaId, -⟩ := h.labelOk_of_get hgetC
  obtain ⟨htdId, htaId, -⟩ := h.labelOk_of_get hgetT
  have hmeet : dcfgLabelsHaveKnownIntersection registry cv tv = true ↔
      ¬ Disjoint c.roots t.roots := by
    rw [dcfgLabelsHaveKnownIntersection_iff h, hcd, hca, htd, hta]
    rfl
  -- what the two tests of a label mean
  have htests : ∀ {view : ProvLabelView} {v : LabelValue limit},
      view.dataRoots ≤ registry.rootSets.records.length →
      view.addressRoots ≤ registry.rootSets.records.length →
      setMembers registry view.dataRoots = v.dataRoots →
      setMembers registry view.addressRoots = v.addressRoots →
      view.completeMask = v.completeMask →
      ((view.completeMask &&& provCompleteAll == provCompleteAll) = true ↔ v.Complete) ∧
        (dcfgLabelHasNoRoots view = true ↔ v.roots = ∅) := by
    intro view v hdId haId hd ha hm
    constructor
    · rw [beq_iff_eq, hm, v.mask]
      rfl
    · rw [dcfgLabelHasNoRoots, Bool.and_eq_true, beq_iff_eq, beq_iff_eq,
        ← h.setMembers_eq_empty_iff hdId, ← h.setMembers_eq_empty_iff haId, hd, ha,
        LabelValue.roots, Finset.union_eq_empty]
  obtain ⟨hcComplete, hcEmpty⟩ := htests hcdId hcaId hcd hca hcm
  obtain ⟨htComplete, htEmpty⟩ := htests htdId htaId htd hta htm
  have hdisjoint : c.Untainted ∨ t.Untainted → Disjoint c.roots t.roots := by
    rintro (hu | hu)
    · rw [hu.2]
      exact Finset.disjoint_empty_left _
    · rw [hu.2]
      exact Finset.disjoint_empty_right _
  rw [dcfgLabelsDataRelevance, hgetC, hgetT]
  dsimp only
  split_ifs with hshare hirrelevant
  · rw [hmeet] at hshare
    refine iff_of_false (by simp) ?_
    rintro (hu | hu | ⟨-, -, hd⟩)
    · exact hshare (hdisjoint (Or.inl hu))
    · exact hshare (hdisjoint (Or.inr hu))
    · exact hshare hd
  · rw [hmeet, not_not] at hshare
    simp only [Bool.or_eq_true, Bool.and_eq_true, hcComplete, hcEmpty, htComplete, htEmpty]
      at hirrelevant
    refine iff_of_true rfl ?_
    rcases hirrelevant with (hu | hu) | ⟨hc, ht⟩
    · exact Or.inl hu
    · exact Or.inr (Or.inl hu)
    · exact Or.inr (Or.inr ⟨hc, ht, hshare⟩)
  · simp only [Bool.or_eq_true, Bool.and_eq_true, hcComplete, hcEmpty, htComplete, htEmpty]
      at hirrelevant
    refine iff_of_false (by simp) ?_
    rintro (hu | hu | ⟨hc, ht, -⟩)
    · exact hirrelevant (Or.inl (Or.inl hu))
    · exact hirrelevant (Or.inl (Or.inr hu))
    · exact hirrelevant (Or.inr ⟨hc, ht⟩)

theorem dseRelevanceCombine_eq_irrelevant_iff (edge event : DcfgRelevance) :
    dseRelevanceCombine edge event = .irrelevant ↔ event = .irrelevant := by
  cases edge <;> cases event <;> decide

/-- A branch classifies as irrelevant when its own label does. -/
theorem dseClassifyBranchEvent_eq_irrelevant_iff {registry : ProvRegistry} {dcfg : DcfgGraph}
    {event : BranchEvent} {label : ℕ} :
    dseClassifyBranchEvent registry dcfg event label = .irrelevant ↔
      event.branchSeqId ≠ 0 ∧ provLabelIdValidLocked registry event.conditionLabel = true ∧
      provLabelIdValidLocked registry label = true ∧
      dcfgLabelsDataRelevance registry event.conditionLabel label = .irrelevant := by
  unfold dseClassifyBranchEvent
  split_ifs with hinvalid
  · refine iff_of_false (by simp) ?_
    rintro ⟨hseq, hcondition, hlabel, -⟩
    rcases hinvalid with hzero | hfalse | hfalse
    · exact hseq hzero
    · rw [hcondition] at hfalse
      cases hfalse
    · rw [hlabel] at hfalse
      cases hfalse
  · rw [dseRelevanceCombine_eq_irrelevant_iff]
    simp only [not_or, Bool.not_eq_false] at hinvalid
    exact ⟨fun h => ⟨hinvalid.1, hinvalid.2.1, hinvalid.2.2, h⟩, fun h => h.2.2.2⟩

/-! ### The table of the selection -/

theorem dseRelevanceStore_of_ample {selection : DseRelevanceSelection}
    (h : selection.heap.Ample) {seqId : ℕ} (hseq : seqId ≠ 0) (relevance : DcfgRelevance) :
    dseRelevanceStore selection seqId relevance =
      (true, { selection with
        bySeqId := selection.bySeqId.insert seqId relevance
        heap := selection.heap.next }) := by
  rw [dseRelevanceStore, if_neg hseq, h.calloc (by decide)]
  rfl

theorem dseRelevanceLookup_insert {selection : DseRelevanceSelection} {seqId seqId' : ℕ}
    (relevance : DcfgRelevance) (stats : DseRelevanceStats) (heap : Heap) :
    dseRelevanceLookup ⟨selection.bySeqId.insert seqId relevance, stats, heap⟩ seqId' =
      if seqId' = 0 then none
      else if seqId' = seqId then some relevance else dseRelevanceLookup selection seqId' := by
  unfold dseRelevanceLookup
  split_ifs with hzero hsame
  · rfl
  · subst hsame
    exact AList.lookup_insert _
  · exact AList.lookup_insert_ne hsame

@[simp] theorem dseRelevanceLookup_incomplete (selection : DseRelevanceSelection) (seqId : ℕ) :
    dseRelevanceLookup selection.incomplete seqId = dseRelevanceLookup selection seqId := rfl

@[simp] theorem dseRelevanceLookup_setLabel (selection : DseRelevanceSelection) (label seqId : ℕ) :
    dseRelevanceLookup (selection.setLabel label) seqId = dseRelevanceLookup selection seqId := rfl

@[simp] theorem heap_incomplete (selection : DseRelevanceSelection) :
    selection.incomplete.heap = selection.heap := rfl

@[simp] theorem heap_setLabel (selection : DseRelevanceSelection) (label : ℕ) :
    (selection.setLabel label).heap = selection.heap := rfl

/-- The branch waits: it is stored as irrelevant. -/
def Waits (selection : DseRelevanceSelection) (event : BranchEvent) : Prop :=
  dseRelevanceLookup selection event.branchSeqId = some .irrelevant

theorem waits_iff {selection : DseRelevanceSelection} {event : BranchEvent} :
    (dseRelevanceLookup selection event.branchSeqId).getD .unknown = .irrelevant ↔
      Waits selection event := by
  unfold Waits
  cases dseRelevanceLookup selection event.branchSeqId <;> simp

theorem isStillIrrelevant_iff {selection : DseRelevanceSelection} {event : BranchEvent} :
    isStillIrrelevant selection event = true ↔ Waits selection event := by
  rw [isStillIrrelevant, beq_iff_eq, waits_iff]

theorem Waits.seqId_ne {selection : DseRelevanceSelection} {event : BranchEvent}
    (h : Waits selection event) : event.branchSeqId ≠ 0 := by
  intro hzero
  rw [Waits, dseRelevanceLookup, if_pos hzero] at h
  cases h

/-! ### One event -/

/-- The event is selected by a visit. -/
def Selects (dcfg : DcfgGraph) (s : RelevanceState) (event : BranchEvent) : Prop :=
  Waits s.selection event ∧
    dseClassifyBranchEvent s.registry dcfg event s.accumulatedLabel ≠ .irrelevant

@[simp] theorem relevanceAccumulate_changed (event : BranchEvent) (s : RelevanceState) :
    (relevanceAccumulate event s).changed = s.changed := by
  unfold relevanceAccumulate
  dsimp only
  split_ifs <;> rfl

@[simp] theorem relevanceAccumulate_heap (event : BranchEvent) (s : RelevanceState) :
    (relevanceAccumulate event s).selection.heap = s.selection.heap := by
  unfold relevanceAccumulate
  dsimp only
  split_ifs <;> rfl

@[simp] theorem relevanceAccumulate_lookup (event : BranchEvent) (s : RelevanceState) (seqId : ℕ) :
    dseRelevanceLookup (relevanceAccumulate event s).selection seqId =
      dseRelevanceLookup s.selection seqId := by
  unfold relevanceAccumulate
  dsimp only
  split_ifs <;> rfl

/-- A visit that does not select changes nothing. -/
theorem relevanceVisit_of_not_selects {dcfg : DcfgGraph} {s : RelevanceState} {event : BranchEvent}
    (h : ¬ Selects dcfg s event) : relevanceVisit dcfg s event = s := by
  unfold relevanceVisit
  dsimp only
  rw [if_neg]
  rintro ⟨hcurrent, hclassified⟩
  exact h ⟨waits_iff.mp hcurrent, hclassified⟩

/-- A visit that selects, with memory to spare. -/
theorem relevanceVisit_of_selects {dcfg : DcfgGraph} {s : RelevanceState} {event : BranchEvent}
    (hheap : s.selection.heap.Ample) (h : Selects dcfg s event) :
    relevanceVisit dcfg s event = relevanceAccumulate event
      { s with
        selection := { s.selection with
          bySeqId := s.selection.bySeqId.insert event.branchSeqId
            (dseClassifyBranchEvent s.registry dcfg event s.accumulatedLabel)
          heap := s.selection.heap.next }
        changed := true } := by
  unfold relevanceVisit
  dsimp only
  rw [if_pos ⟨waits_iff.mpr h.1, h.2⟩, dseRelevanceStore_of_ample hheap h.1.seqId_ne]
  rfl

theorem relevanceVisit_heap {dcfg : DcfgGraph} {s : RelevanceState} {event : BranchEvent}
    (hheap : s.selection.heap.Ample) : (relevanceVisit dcfg s event).selection.heap.Ample := by
  by_cases h : Selects dcfg s event
  · rw [relevanceVisit_of_selects hheap h, relevanceAccumulate_heap]
    exact hheap.next
  · rwa [relevanceVisit_of_not_selects h]

/-- After a visit the selected event no longer waits; all others are as they were. -/
theorem relevanceVisit_waits {dcfg : DcfgGraph} {s : RelevanceState} {event : BranchEvent}
    (hheap : s.selection.heap.Ample) (e : BranchEvent) :
    Waits (relevanceVisit dcfg s event).selection e ↔
      Waits s.selection e ∧ ¬ (Selects dcfg s event ∧ e.branchSeqId = event.branchSeqId) := by
  by_cases h : Selects dcfg s event
  · rw [relevanceVisit_of_selects hheap h, Waits, relevanceAccumulate_lookup,
      dseRelevanceLookup_insert]
    by_cases hsame : e.branchSeqId = event.branchSeqId
    · rw [if_neg (hsame ▸ h.1.seqId_ne), if_pos hsame]
      refine iff_of_false (fun heq => h.2 (Option.some.inj heq)) fun hn => hn.2 ⟨h, hsame⟩
    · rw [if_neg hsame]
      constructor
      · intro hlookup
        split_ifs at hlookup
        exact ⟨hlookup, fun hn => hsame hn.2⟩
      · rintro ⟨hwaits, -⟩
        rw [if_neg hwaits.seqId_ne]
        exact hwaits
  · rw [relevanceVisit_of_not_selects h]
    simp [h]

theorem relevanceVisit_changed {dcfg : DcfgGraph} {s : RelevanceState} {event : BranchEvent}
    (hheap : s.selection.heap.Ample) :
    (relevanceVisit dcfg s event).changed = true ↔ s.changed = true ∨ Selects dcfg s event := by
  by_cases h : Selects dcfg s event
  · rw [relevanceVisit_of_selects hheap h, relevanceAccumulate_changed]
    simp [h]
  · rw [relevanceVisit_of_not_selects h]
    simp [h]

/-! ### What a run preserves -/

open Closure

/-- The label is one of the registry, or the invalid id. -/
def RegisteredLabel (registry : ProvRegistry) (labelId : ℕ) : Prop :=
  labelId = provLabelIdInvalid ∨ provLabelIdValidLocked registry labelId = true

open Classical in
/-- The meaning of the condition of a branch, nothing for an invalid one. -/
noncomputable def eventLabel (limit : ℕ) (registry : ProvRegistry) (event : BranchEvent) :
    LabelValue limit :=
  if h : ∃ v : LabelValue limit, Means registry event.conditionLabel v then h.choose
  else LabelValue.clean

theorem means_eventLabel {registry : ProvRegistry} (h : registry.WF)
    (hlimit : registry.maxRootsPerSet = limit) {event : BranchEvent}
    (hvalid : provLabelIdValidLocked registry event.conditionLabel = true) :
    Means registry event.conditionLabel (eventLabel limit registry event) := by
  have hex := h.exists_means hlimit hvalid
  rw [eventLabel, dif_pos hex]
  exact hex.choose_spec

theorem eventLabel_of_invalid {registry : ProvRegistry} {event : BranchEvent}
    (hinvalid : ¬ provLabelIdValidLocked registry event.conditionLabel = true) :
    eventLabel limit registry event = LabelValue.clean := by
  rw [eventLabel, dif_neg]
  rintro ⟨v, hv⟩
  exact hinvalid hv.valid

/-- The branch can influence a label of meaning `a`. -/
def Fires (registry : ProvRegistry) (events : List BranchEvent) (a : LabelValue limit)
    (event : BranchEvent) : Prop :=
  event ∈ events ∧ event.branchSeqId ≠ 0 ∧
    (provLabelIdValidLocked registry event.conditionLabel = true →
      ¬ (eventLabel limit registry event).Irrelevant a)

theorem Fires.mono {registry : ProvRegistry} {events : List BranchEvent} (a b : LabelValue limit)
    (event : BranchEvent) (hab : a ≤ b) (h : Fires registry events a event) :
    Fires registry events b event :=
  ⟨h.1, h.2.1, fun hvalid hb => h.2.2 hvalid (hb.anti hab)⟩

/-- The events that have been selected. -/
def Selected (events : List BranchEvent) (selection : DseRelevanceSelection) : Set BranchEvent :=
  {event | event ∈ events ∧ event.branchSeqId ≠ 0 ∧ ¬ Waits selection event}

/-- What the rounds preserve: the selection is one that can be built from the target's label `t`,
and the accumulated label is its join. -/
structure RelevanceInv (registry : ProvRegistry) (events : List BranchEvent)
    (t : LabelValue limit) (s : RelevanceState) : Prop where
  later : Later registry s.registry
  ample : s.selection.heap.Ample
  reaches : ∃ a, Means s.registry s.accumulatedLabel a ∧
    Reaches (eventLabel limit registry) (Fires registry events) t (Selected events s.selection) a

/-- The events of a window: distinct branches with labels of the registry. -/
structure WindowOk (registry : ProvRegistry) (events : List BranchEvent) : Prop where
  distinct : (events.map BranchEvent.branchSeqId).Nodup
  registered : ∀ event ∈ events, RegisteredLabel registry event.conditionLabel

theorem WindowOk.inj {registry : ProvRegistry} {events : List BranchEvent}
    (h : WindowOk registry events) {e e' : BranchEvent} (he : e ∈ events) (he' : e' ∈ events)
    (hseq : e.branchSeqId = e'.branchSeqId) : e = e' :=
  List.inj_on_of_nodup_map h.distinct he he' hseq

/-- The join a visit makes, if it makes one, succeeds. -/
def VisitJoins (dcfg : DcfgGraph) (s : RelevanceState) (event : BranchEvent) : Prop :=
  Selects dcfg s event → provLabelIdValidLocked s.registry event.conditionLabel = true →
    JoinSucceeds s.registry s.accumulatedLabel event.conditionLabel

/-- A registered label is valid later only if it is valid now. -/
theorem RegisteredLabel.valid_iff {registry registry' : ProvRegistry}
    (hext : Extends registry registry') {labelId : ℕ} (h : RegisteredLabel registry labelId) :
    provLabelIdValidLocked registry' labelId = true ↔
      provLabelIdValidLocked registry labelId = true := by
  rcases h with rfl | hvalid
  · exact iff_of_false (fun hv => (provLabelIdValidLocked_iff.mp hv).1 rfl)
      fun hv => (provLabelIdValidLocked_iff.mp hv).1 rfl
  · exact iff_of_true (hext.provLabelIdValidLocked hvalid) hvalid

variable {registry : ProvRegistry} {events : List BranchEvent} {t : LabelValue limit}
  {dcfg : DcfgGraph} {s : RelevanceState}

/-- Under the invariant the classifier decides whether a branch fires. -/
theorem RelevanceInv.classify_iff (hwf : registry.WF) (hlimit : registry.maxRootsPerSet = limit)
    (hwindow : WindowOk registry events) (h : RelevanceInv registry events t s)
    {a : LabelValue limit} (hmeans : Means s.registry s.accumulatedLabel a) {event : BranchEvent}
    (hmem : event ∈ events) (hseq : event.branchSeqId ≠ 0) :
    dseClassifyBranchEvent s.registry dcfg event s.accumulatedLabel ≠ .irrelevant ↔
      Fires registry events a event := by
  have hvalid := (hwindow.registered event hmem).valid_iff h.later.keeps
  rw [Ne, dseClassifyBranchEvent_eq_irrelevant_iff, hvalid]
  by_cases hlabel : provLabelIdValidLocked registry event.conditionLabel = true
  · have hc := (means_eventLabel hwf hlimit hlabel).mono hwf h.later.keeps
    rw [dcfgLabelsDataRelevance_eq_irrelevant_iff h.later.wf hc hmeans]
    constructor
    · intro hn
      exact ⟨hmem, hseq, fun _ hirrelevant => hn ⟨hseq, hlabel, hmeans.valid, hirrelevant⟩⟩
    · rintro ⟨-, -, hfires⟩ ⟨-, -, -, hirrelevant⟩
      exact hfires hlabel hirrelevant
  · exact iff_of_true (fun hn => hlabel hn.2.1) ⟨hmem, hseq, fun hv => absurd hv hlabel⟩

/-- Adding the label of an event joins its meaning. -/
theorem relevanceAccumulate_means (hwf : registry.WF) (hlimit : registry.maxRootsPerSet = limit)
    {event : BranchEvent} (hregistered : RegisteredLabel registry event.conditionLabel)
    (hlater : Later registry s.registry) {a : LabelValue limit}
    (hmeans : Means s.registry s.accumulatedLabel a)
    (hjoin : provLabelIdValidLocked s.registry event.conditionLabel = true →
      JoinSucceeds s.registry s.accumulatedLabel event.conditionLabel) :
    Later registry (relevanceAccumulate event s).registry ∧
      Means (relevanceAccumulate event s).registry (relevanceAccumulate event s).accumulatedLabel
        (a ⊔ eventLabel limit registry event) := by
  have hvalid := hregistered.valid_iff hlater.keeps
  by_cases hlabel : provLabelIdValidLocked s.registry event.conditionLabel = true
  · have hc := (means_eventLabel hwf hlimit (hvalid.mp hlabel)).mono hwf hlater.keeps
    have hlimit' : s.registry.maxRootsPerSet = limit := hlater.keeps.limit.trans hlimit
    obtain ⟨joined, registry', heq, hwf', hext', hjoined⟩ :=
      provLabelJoinLocked_spec hlater.wf hlimit' hmeans hc
    have hmeans' := hjoined (hjoin hlabel)
    have hne : joined ≠ provLabelIdInvalid := (provLabelIdValidLocked_iff.mp hmeans'.valid).1
    rw [relevanceAccumulate, if_pos hlabel, heq]
    dsimp only
    rw [if_pos hne]
    exact ⟨hlater.trans ⟨hwf', hext'⟩, hmeans'⟩
  · rw [relevanceAccumulate, if_neg hlabel, eventLabel_of_invalid fun hv => hlabel (hvalid.mpr hv)]
    refine ⟨hlater, ?_⟩
    rw [LabelValue.sup_eq_join, LabelValue.join_clean]
    exact hmeans

/-- **What one event preserves.** -/
theorem relevanceVisit_inv (hwf : registry.WF) (hlimit : registry.maxRootsPerSet = limit)
    (hwindow : WindowOk registry events) (h : RelevanceInv registry events t s)
    {event : BranchEvent} (hmem : event ∈ events) (hjoin : VisitJoins dcfg s event) :
    RelevanceInv registry events t (relevanceVisit dcfg s event) := by
  by_cases hselects : Selects dcfg s event
  swap
  · rwa [relevanceVisit_of_not_selects hselects]
  obtain ⟨a, hmeans, hreaches⟩ := h.reaches
  have hseq := hselects.1.seqId_ne
  have hfires := (h.classify_iff hwf hlimit hwindow hmeans hmem hseq).mp hselects.2
  have hset : Selected events (relevanceVisit dcfg s event).selection =
      insert event (Selected events s.selection) := by
    ext e
    rw [Set.mem_insert_iff]
    constructor
    · rintro ⟨he, heq, hwaits⟩
      rw [relevanceVisit_waits h.ample] at hwaits
      by_cases hold : Waits s.selection e
      · have hsame : e.branchSeqId = event.branchSeqId := by
          by_contra hne
          exact hwaits ⟨hold, fun hn => hne hn.2⟩
        exact Or.inl (hwindow.inj he hmem hsame)
      · exact Or.inr ⟨he, heq, hold⟩
    · intro he
      have hmem' : e ∈ events ∧ e.branchSeqId ≠ 0 := by
        rcases he with rfl | he
        · exact ⟨hmem, hseq⟩
        · exact ⟨he.1, he.2.1⟩
      refine ⟨hmem'.1, hmem'.2, ?_⟩
      rw [relevanceVisit_waits h.ample]
      rintro ⟨hold, hn⟩
      rcases he with rfl | he
      · exact hn ⟨hselects, rfl⟩
      · exact he.2.2 hold
  obtain ⟨hlater, hmeans'⟩ := relevanceAccumulate_means
    (s := { s with
      selection := { s.selection with
        bySeqId := s.selection.bySeqId.insert event.branchSeqId
          (dseClassifyBranchEvent s.registry dcfg event s.accumulatedLabel)
        heap := s.selection.heap.next }
      changed := true })
    hwf hlimit (hwindow.registered event hmem) h.later hmeans (hjoin hselects)
  rw [← relevanceVisit_of_selects h.ample hselects] at hlater hmeans'
  refine ⟨hlater, relevanceVisit_heap h.ample, _, hmeans', ?_⟩
  rw [hset]
  exact hreaches.select hfires

/-! ### One round -/

/-- The state a round starts from. -/
def roundStart (iteration : ℕ) (s : RelevanceState) : RelevanceState :=
  { s with
    selection := { s.selection with
      stats := { s.selection.stats with iterations := iteration + 1 } }
    changed := false }

/-- A round visits every event and writes the accumulated label down. -/
theorem relevanceRound_eq (dcfg : DcfgGraph) (events : List BranchEvent) (iteration : ℕ)
    (s : RelevanceState) : relevanceRound dcfg events iteration s =
      { events.foldl (relevanceVisit dcfg) (roundStart iteration s) with
        selection := (events.foldl (relevanceVisit dcfg) (roundStart iteration s)).selection.setLabel
          (events.foldl (relevanceVisit dcfg) (roundStart iteration s)).accumulatedLabel } := rfl

theorem waits_roundStart (iteration : ℕ) (event : BranchEvent) :
    Waits (roundStart iteration s).selection event ↔ Waits s.selection event := Iff.rfl

theorem selects_roundStart (iteration : ℕ) (event : BranchEvent) :
    Selects dcfg (roundStart iteration s) event ↔ Selects dcfg s event := Iff.rfl

/-- The invariant does not look at the numbers. -/
theorem RelevanceInv.roundStart (h : RelevanceInv registry events t s) (iteration : ℕ) :
    RelevanceInv registry events t (roundStart iteration s) :=
  ⟨h.later, h.ample, h.reaches⟩

/-- Every join of the visits to `rest` succeeds. -/
def RoundJoins (dcfg : DcfgGraph) : List BranchEvent → RelevanceState → Prop
  | [], _ => True
  | event :: rest, s => VisitJoins dcfg s event ∧ RoundJoins dcfg rest (relevanceVisit dcfg s event)

/-- What the visits of one round preserve. -/
theorem foldl_relevanceVisit_inv (hwf : registry.WF) (hlimit : registry.maxRootsPerSet = limit)
    (hwindow : WindowOk registry events) : ∀ (rest : List BranchEvent) {s : RelevanceState},
    (∀ event ∈ rest, event ∈ events) → RelevanceInv registry events t s →
    RoundJoins dcfg rest s → RelevanceInv registry events t (rest.foldl (relevanceVisit dcfg) s) := by
  intro rest
  induction rest with
  | nil => exact fun _ h _ => h
  | cons event rest ih =>
    intro s hmem h hjoins
    have hvisit := relevanceVisit_inv hwf hlimit hwindow h (hmem event List.mem_cons_self) hjoins.1
    exact ih (fun e he => hmem e (List.mem_cons_of_mem _ he)) hvisit hjoins.2

theorem relevanceRound_inv (hwf : registry.WF) (hlimit : registry.maxRootsPerSet = limit)
    (hwindow : WindowOk registry events) (h : RelevanceInv registry events t s) (iteration : ℕ)
    (hjoins : RoundJoins dcfg events (roundStart iteration s)) :
    RelevanceInv registry events t (relevanceRound dcfg events iteration s) := by
  have hfold := foldl_relevanceVisit_inv hwf hlimit hwindow events (fun _ he => he)
    (h.roundStart iteration) hjoins
  rw [relevanceRound_eq]
  exact ⟨hfold.later, hfold.ample, hfold.reaches⟩

theorem foldl_relevanceVisit_ample (rest : List BranchEvent) {s : RelevanceState}
    (h : s.selection.heap.Ample) : (rest.foldl (relevanceVisit dcfg) s).selection.heap.Ample := by
  induction rest generalizing s with
  | nil => exact h
  | cons event rest ih => exact ih (relevanceVisit_heap h)

/-- Once a visit has selected, the round counts as a change. -/
theorem foldl_relevanceVisit_changed (dcfg : DcfgGraph) (rest : List BranchEvent) {s : RelevanceState}
    (hheap : s.selection.heap.Ample) (h : s.changed = true) :
    (rest.foldl (relevanceVisit dcfg) s).changed = true := by
  induction rest generalizing s with
  | nil => exact h
  | cons event rest ih =>
    exact ih (relevanceVisit_heap hheap) ((relevanceVisit_changed hheap).mpr (Or.inl h))

/-- A round without a change left the state alone and had nothing to select. -/
theorem foldl_relevanceVisit_quiet (dcfg : DcfgGraph) (rest : List BranchEvent) {s : RelevanceState}
    (hheap : s.selection.heap.Ample)
    (h : (rest.foldl (relevanceVisit dcfg) s).changed = false) :
    rest.foldl (relevanceVisit dcfg) s = s ∧ ∀ event ∈ rest, ¬ Selects dcfg s event := by
  induction rest generalizing s with
  | nil => exact ⟨rfl, fun _ he => absurd he List.not_mem_nil⟩
  | cons event rest ih =>
    have hselects : ¬ Selects dcfg s event := by
      intro hselects
      have hchanged := foldl_relevanceVisit_changed dcfg rest (relevanceVisit_heap hheap)
        ((relevanceVisit_changed hheap).mpr (Or.inr hselects))
      rw [List.foldl_cons, hchanged] at h
      cases h
    rw [List.foldl_cons, relevanceVisit_of_not_selects hselects] at h ⊢
    obtain ⟨heq, hrest⟩ := ih hheap h
    refine ⟨heq, fun e he => ?_⟩
    rcases List.mem_cons.mp he with rfl | he
    · exact hselects
    · exact hrest e he

/-! ### All rounds -/

/-- Every join of the rounds succeeds. -/
def RoundsJoins (dcfg : DcfgGraph) (events : List BranchEvent) : ℕ → ℕ → RelevanceState → Prop
  | 0, _, _ => True
  | fuel + 1, iteration, s =>
    RoundJoins dcfg events (roundStart iteration s) ∧
      ((relevanceRound dcfg events iteration s).changed = true →
        RoundsJoins dcfg events fuel (iteration + 1) (relevanceRound dcfg events iteration s))

/-- **What all rounds preserve.** -/
theorem relevanceRounds_inv (hwf : registry.WF) (hlimit : registry.maxRootsPerSet = limit)
    (hwindow : WindowOk registry events) (fuel : ℕ) : ∀ {iteration : ℕ} {s : RelevanceState},
    RelevanceInv registry events t s → RoundsJoins dcfg events fuel iteration s →
    RelevanceInv registry events t (relevanceRounds dcfg events fuel iteration s).1 := by
  induction fuel with
  | zero => exact fun h _ => h
  | succ fuel ih =>
    intro iteration s h hjoins
    have hround := relevanceRound_inv hwf hlimit hwindow h iteration hjoins.1
    unfold relevanceRounds
    dsimp only
    split_ifs with hquiet
    · exact hround
    · exact ih hround (hjoins.2 ((Bool.not_eq_false _).mp hquiet))

theorem relevanceRounds_ample (dcfg : DcfgGraph) (events : List BranchEvent) (fuel : ℕ) :
    ∀ (iteration : ℕ) {s : RelevanceState},
    s.selection.heap.Ample →
    (relevanceRounds dcfg events fuel iteration s).1.selection.heap.Ample := by
  induction fuel with
  | zero => exact fun _ _ h => h
  | succ fuel ih =>
    intro iteration s h
    have hround : (relevanceRound dcfg events iteration s).selection.heap.Ample :=
      foldl_relevanceVisit_ample events (s := roundStart iteration s) h
    unfold relevanceRounds
    dsimp only
    split_ifs
    · exact hround
    · exact ih _ hround

/-- When the rounds end with one that changed nothing, nothing is left to select. -/
theorem relevanceRounds_quiet (fuel : ℕ) : ∀ {iteration : ℕ} {s : RelevanceState},
    s.selection.heap.Ample → (relevanceRounds dcfg events fuel iteration s).2 = true →
    ∀ event ∈ events, ¬ Selects dcfg (relevanceRounds dcfg events fuel iteration s).1 event := by
  induction fuel with
  | zero =>
    intro iteration s _ hconverged event hevent
    rw [relevanceRounds, beq_iff_eq, List.length_eq_zero_iff] at hconverged
    rw [hconverged] at hevent
    exact absurd hevent List.not_mem_nil
  | succ fuel ih =>
    intro iteration s h
    unfold relevanceRounds
    dsimp only
    split_ifs with hquiet
    · intro _ event hevent hselects
      obtain ⟨heq, hnone⟩ := foldl_relevanceVisit_quiet dcfg events
        (s := roundStart iteration s) h hquiet
      rw [relevanceRound_eq, heq] at hselects
      exact hnone event hevent hselects
    · exact ih (foldl_relevanceVisit_ample events (s := roundStart iteration s) h)

/-- How many events wait. -/
def waiting (events : List BranchEvent) (selection : DseRelevanceSelection) : ℕ :=
  events.countP (isStillIrrelevant selection)

theorem waiting_relevanceVisit_le (events : List BranchEvent) (dcfg : DcfgGraph)
    (hheap : s.selection.heap.Ample) (event : BranchEvent) :
    waiting events (relevanceVisit dcfg s event).selection ≤ waiting events s.selection := by
  refine List.countP_mono_left fun e _ he => ?_
  rw [isStillIrrelevant_iff] at he ⊢
  exact ((relevanceVisit_waits hheap e).mp he).1

theorem waiting_relevanceVisit_lt (hheap : s.selection.heap.Ample) {event : BranchEvent}
    (hmem : event ∈ events) (hselects : Selects dcfg s event) :
    waiting events (relevanceVisit dcfg s event).selection < waiting events s.selection := by
  obtain ⟨before, after, rfl⟩ := List.append_of_mem hmem
  have hbefore := waiting_relevanceVisit_le before dcfg hheap event
  have hafter := waiting_relevanceVisit_le after dcfg hheap event
  have hold : isStillIrrelevant s.selection event = true := isStillIrrelevant_iff.mpr hselects.1
  have hnew : ¬ isStillIrrelevant (relevanceVisit dcfg s event).selection event = true := by
    rw [isStillIrrelevant_iff, relevanceVisit_waits hheap]
    exact fun hn => hn.2 ⟨hselects, rfl⟩
  unfold waiting at *
  rw [List.countP_append, List.countP_append, List.countP_cons_of_neg hnew,
    List.countP_cons_of_pos hold]
  omega

/-- A round that changes something leaves fewer events waiting. -/
theorem waiting_foldl_lt (dcfg : DcfgGraph) : ∀ (rest : List BranchEvent) {s : RelevanceState},
    (∀ event ∈ rest, event ∈ events) → s.selection.heap.Ample →
    waiting events (rest.foldl (relevanceVisit dcfg) s).selection ≤ waiting events s.selection ∧
      (s.changed = false → (rest.foldl (relevanceVisit dcfg) s).changed = true →
        waiting events (rest.foldl (relevanceVisit dcfg) s).selection <
          waiting events s.selection) := by
  intro rest
  induction rest with
  | nil => exact fun _ _ => ⟨le_rfl, fun hf ht => absurd (hf.symm.trans ht) Bool.false_ne_true⟩
  | cons event rest ih =>
    intro s hmem hheap
    have hle := waiting_relevanceVisit_le events dcfg hheap event
    obtain ⟨ihle, ihlt⟩ := ih (fun e he => hmem e (List.mem_cons_of_mem _ he))
      (relevanceVisit_heap hheap : (relevanceVisit dcfg s event).selection.heap.Ample)
    rw [List.foldl_cons]
    refine ⟨ihle.trans hle, fun hunchanged hchanged => ?_⟩
    by_cases hselects : Selects dcfg s event
    · exact ihle.trans_lt
        (waiting_relevanceVisit_lt hheap (hmem event List.mem_cons_self) hselects)
    · have hsame := relevanceVisit_of_not_selects hselects
      exact (ihlt (by rw [hsame]; exact hunchanged) hchanged).trans_le hle

/-- **Enough rounds converge**: each round before the last selects an event. -/
theorem relevanceRounds_converges (fuel : ℕ) : ∀ {iteration : ℕ} {s : RelevanceState},
    s.selection.heap.Ample → waiting events s.selection < fuel →
    (relevanceRounds dcfg events fuel iteration s).2 = true := by
  induction fuel with
  | zero => exact fun _ h => absurd h (Nat.not_lt_zero _)
  | succ fuel ih =>
    intro iteration s hheap hfuel
    have hheap' : (roundStart iteration s).selection.heap.Ample := hheap
    have hlt := (waiting_foldl_lt dcfg events (fun _ he => he) hheap').2 rfl
    unfold relevanceRounds
    dsimp only
    split_ifs with hquiet
    · rfl
    · refine ih (foldl_relevanceVisit_ample events hheap') ?_
      have hround : waiting events (relevanceRound dcfg events iteration s).selection <
          waiting events s.selection := hlt ((Bool.not_eq_false _).mp hquiet)
      omega

/-- A visit does not touch the round counter. -/
theorem relevanceVisit_iterations (event : BranchEvent) :
    (relevanceVisit dcfg s event).selection.stats.iterations = s.selection.stats.iterations := by
  have hstore : ∀ (seqId : ℕ) (relevance : DcfgRelevance) (selection : DseRelevanceSelection),
      (dseRelevanceStore selection seqId relevance).2.stats = selection.stats := by
    intro seqId relevance selection
    unfold dseRelevanceStore
    dsimp only
    split_ifs <;> rfl
  have haccumulate : ∀ s : RelevanceState,
      (relevanceAccumulate event s).selection.stats.iterations = s.selection.stats.iterations := by
    intro s
    unfold relevanceAccumulate
    dsimp only
    split_ifs <;> rfl
  unfold relevanceVisit
  dsimp only
  split_ifs
  · show (dseRelevanceStore _ _ _).2.stats.iterations = _
    rw [hstore]
  · rw [haccumulate]
    exact congrArg DseRelevanceStats.iterations (hstore _ _ _)
  · rfl

theorem relevanceRound_iterations (dcfg : DcfgGraph) (events : List BranchEvent)
    (iteration : ℕ) (s : RelevanceState) :
    (relevanceRound dcfg events iteration s).selection.stats.iterations = iteration + 1 := by
  have hfold : ∀ (rest : List BranchEvent) (s : RelevanceState),
      (rest.foldl (relevanceVisit dcfg) s).selection.stats.iterations =
        s.selection.stats.iterations := by
    intro rest
    induction rest with
    | nil => exact fun _ => rfl
    | cons event rest ih => exact fun s => (ih _).trans (relevanceVisit_iterations event)
  exact hfold events (roundStart iteration s)

/-- **The rounds stop**: the counter never passes the limit. -/
theorem relevanceRounds_iterations_le (dcfg : DcfgGraph) (events : List BranchEvent) (fuel : ℕ) :
    ∀ (iteration : ℕ) {s : RelevanceState},
    s.selection.stats.iterations ≤ iteration →
    (relevanceRounds dcfg events fuel iteration s).1.selection.stats.iterations ≤
      iteration + fuel := by
  induction fuel with
  | zero => exact fun _ _ h => h
  | succ fuel ih =>
    intro iteration s _
    have hround := relevanceRound_iterations dcfg events iteration s
    unfold relevanceRounds
    dsimp only
    split_ifs
    · exact hround.trans_le (by omega)
    · have := ih (iteration + 1) hround.le
      omega

/-- The label written down is the accumulated one. -/
theorem relevanceRounds_label (dcfg : DcfgGraph) (events : List BranchEvent) (fuel : ℕ) :
    ∀ (iteration : ℕ) {s : RelevanceState},
    s.selection.stats.accumulatedLabel = s.accumulatedLabel →
    (relevanceRounds dcfg events fuel iteration s).1.selection.stats.accumulatedLabel =
      (relevanceRounds dcfg events fuel iteration s).1.accumulatedLabel := by
  induction fuel with
  | zero => exact fun _ _ h => h
  | succ fuel ih =>
    intro iteration s _
    unfold relevanceRounds
    dsimp only
    split_ifs
    · rfl
    · exact ih _ rfl

/-! ### Before and after the rounds -/

/-- Storing an event as irrelevant makes it, and nothing else, wait. -/
theorem waits_store_irrelevant {selection : DseRelevanceSelection} (h : selection.heap.Ample)
    (seqId : ℕ) (event : BranchEvent) :
    Waits (relevanceStoreOrIncomplete selection seqId .irrelevant) event ↔
      Waits selection event ∨ (event.branchSeqId = seqId ∧ seqId ≠ 0) := by
  by_cases hzero : seqId = 0
  · have hsame : relevanceStoreOrIncomplete selection seqId .irrelevant = selection.incomplete := by
      rw [relevanceStoreOrIncomplete, dseRelevanceStore, if_pos hzero]
      rfl
    rw [hsame]
    simp [Waits, hzero]
  · rw [relevanceStoreOrIncomplete, dseRelevanceStore_of_ample h hzero]
    dsimp only
    rw [if_pos rfl, Waits, dseRelevanceLookup_insert]
    by_cases hsame : event.branchSeqId = seqId
    · rw [if_neg (by rwa [hsame]), if_pos hsame]
      simp [hsame, hzero]
    · rw [if_neg hsame]
      unfold Waits dseRelevanceLookup
      split_ifs <;> simp [hsame]

theorem ample_store {selection : DseRelevanceSelection} (h : selection.heap.Ample) (seqId : ℕ)
    (relevance : DcfgRelevance) :
    (relevanceStoreOrIncomplete selection seqId relevance).heap.Ample := by
  by_cases hzero : seqId = 0
  · rw [relevanceStoreOrIncomplete, dseRelevanceStore, if_pos hzero]
    exact h
  · rw [relevanceStoreOrIncomplete, dseRelevanceStore_of_ample h hzero]
    exact h.next

/-- Storing leaves the label and the round counter alone. -/
theorem stats_store (selection : DseRelevanceSelection) (seqId : ℕ) (relevance : DcfgRelevance) :
    (relevanceStoreOrIncomplete selection seqId relevance).stats.accumulatedLabel =
        selection.stats.accumulatedLabel ∧
      (relevanceStoreOrIncomplete selection seqId relevance).stats.iterations =
        selection.stats.iterations := by
  unfold relevanceStoreOrIncomplete dseRelevanceStore
  dsimp only
  split_ifs <;> exact ⟨rfl, rfl⟩

/-- The events stored as irrelevant before the first round. -/
theorem foldl_store_irrelevant (rest : List BranchEvent) : ∀ {selection : DseRelevanceSelection},
    selection.heap.Ample →
    (rest.foldl (fun selection event =>
        relevanceStoreOrIncomplete selection event.branchSeqId .irrelevant) selection).heap.Ample ∧
      ∀ event, Waits (rest.foldl (fun selection event =>
        relevanceStoreOrIncomplete selection event.branchSeqId .irrelevant) selection) event ↔
        Waits selection event ∨
          (event.branchSeqId ≠ 0 ∧ ∃ e ∈ rest, e.branchSeqId = event.branchSeqId) := by
  induction rest with
  | nil => exact fun h => ⟨h, fun event => by simp⟩
  | cons e rest ih =>
    intro selection h
    obtain ⟨hample, hwaits⟩ := ih (ample_store h e.branchSeqId .irrelevant)
    refine ⟨hample, fun event => ?_⟩
    rw [List.foldl_cons, hwaits, waits_store_irrelevant h]
    constructor
    · rintro ((hw | ⟨hsame, hne⟩) | ⟨hne, e', he', hsame⟩)
      · exact Or.inl hw
      · exact Or.inr ⟨hsame ▸ hne, e, List.mem_cons_self, hsame.symm⟩
      · exact Or.inr ⟨hne, e', List.mem_cons_of_mem _ he', hsame⟩
    · rintro (hw | ⟨hne, e', he', hsame⟩)
      · exact Or.inl (Or.inl hw)
      · rcases List.mem_cons.mp he' with rfl | he'
        · exact Or.inl (Or.inr ⟨hsame.symm, hsame ▸ hne⟩)
        · exact Or.inr ⟨hne, e', he', hsame⟩

theorem foldl_store_stats (rest : List BranchEvent) : ∀ (selection : DseRelevanceSelection),
    (rest.foldl (fun selection event =>
        relevanceStoreOrIncomplete selection event.branchSeqId .irrelevant)
        selection).stats.accumulatedLabel = selection.stats.accumulatedLabel ∧
      (rest.foldl (fun selection event =>
        relevanceStoreOrIncomplete selection event.branchSeqId .irrelevant)
        selection).stats.iterations = selection.stats.iterations := by
  induction rest with
  | nil => exact fun _ => ⟨rfl, rfl⟩
  | cons e rest ih =>
    intro selection
    obtain ⟨hlabel, hiterations⟩ := ih (relevanceStoreOrIncomplete selection e.branchSeqId .irrelevant)
    obtain ⟨hlabel', hiterations'⟩ := stats_store selection e.branchSeqId .irrelevant
    exact ⟨hlabel.trans hlabel', hiterations.trans hiterations'⟩

/-- The state the rounds of a selection start from. -/
def relevanceInitial (registry : ProvRegistry) (trigger : TraceEntry) (events : List BranchEvent)
    (heap : Heap) : RelevanceState :=
  relevanceStart registry trigger events (relevanceEmpty heap.next)

theorem relevanceInitial_ample (registry : ProvRegistry) (events : List BranchEvent) {heap : Heap}
    (hheap : heap.Ample) (trigger : TraceEntry) :
    (relevanceInitial registry trigger events heap).selection.heap.Ample := by
  unfold relevanceInitial relevanceStart
  dsimp only
  split <;> exact (foldl_store_irrelevant events (by exact hheap.next)).1

/-- At the start every event of the window waits. -/
theorem relevanceInitial_waits {heap : Heap} (hheap : heap.Ample) (trigger : TraceEntry)
    {event : BranchEvent} (hmem : event ∈ events) (hseq : event.branchSeqId ≠ 0) :
    Waits (relevanceInitial registry trigger events heap).selection event := by
  unfold relevanceInitial relevanceStart
  dsimp only
  split <;> exact ((foldl_store_irrelevant events (by exact hheap.next)).2 event).mpr
    (Or.inr ⟨hseq, event, hmem, rfl⟩)

theorem relevanceInitial_stats (registry : ProvRegistry) (trigger : TraceEntry)
    (events : List BranchEvent) (heap : Heap) :
    (relevanceInitial registry trigger events heap).selection.stats.accumulatedLabel =
        (relevanceInitial registry trigger events heap).accumulatedLabel ∧
      (relevanceInitial registry trigger events heap).selection.stats.iterations = 0 := by
  unfold relevanceInitial relevanceStart
  dsimp only
  split <;> exact foldl_store_stats events _

/-- The label the closure starts from is a label of the registry. -/
theorem relevanceTargetLabel_valid (h : RegistryReachable registry) (trigger : TraceEntry) :
    provLabelIdValidLocked registry (relevanceTargetLabel registry trigger).1 = true := by
  unfold relevanceTargetLabel
  split_ifs with hknown
  · exact hknown.2
  · obtain ⟨hwf, hunknown⟩ := h.wf_and_unknown
    exact provLabelIdValidLocked_iff.mpr
      ⟨(hunknown.trans_le hwf.labelCount).ne, hunknown⟩

/-- **The rounds start from the target's label with nothing selected.** -/
theorem relevanceInitial_inv (hwf : registry.WF) {heap : Heap} (hheap : heap.Ample)
    {trigger : TraceEntry}
    (ht : Means registry (relevanceTargetLabel registry trigger).1 t) :
    RelevanceInv registry events t (relevanceInitial registry trigger events heap) where
  later := Later.refl hwf
  ample := relevanceInitial_ample _ _ hheap trigger
  reaches := by
    have hempty : Selected events (relevanceInitial registry trigger events heap).selection = ∅ := by
      refine Set.eq_empty_iff_forall_notMem.mpr ?_
      rintro event ⟨hmem, hseq, hwaits⟩
      exact hwaits (relevanceInitial_waits hheap trigger hmem hseq)
    rw [hempty]
    exact ⟨t, ht, Reaches.start⟩

/-- After the forced marking no event of the list waits. -/
theorem not_waits_markUnresolved (rest : List BranchEvent) : ∀ {selection : DseRelevanceSelection},
    selection.heap.Ample → ∀ {event : BranchEvent},
    Waits (relevanceMarkUnresolved rest selection) event →
      Waits selection event ∧ ∀ e ∈ rest, e.branchSeqId ≠ event.branchSeqId := by
  induction rest with
  | nil => exact fun _ _ hw => ⟨hw, fun _ he => absurd he List.not_mem_nil⟩
  | cons e rest ih =>
    intro selection h event hw
    rw [relevanceMarkUnresolved, List.foldl_cons] at hw
    by_cases hstill : isStillIrrelevant selection e = true
    · have hseq := (isStillIrrelevant_iff.mp hstill).seqId_ne
      rw [if_pos hstill] at hw
      obtain ⟨hw', hrest⟩ := @ih
        (relevanceStoreOrIncomplete selection e.branchSeqId .unknown).incomplete
        (ample_store h _ _) event hw
      rw [Waits, dseRelevanceLookup_incomplete, relevanceStoreOrIncomplete,
        dseRelevanceStore_of_ample h hseq] at hw'
      dsimp only at hw'
      rw [if_pos rfl, dseRelevanceLookup_insert] at hw'
      have hne : event.branchSeqId ≠ 0 := fun hzero => by
        rw [if_pos hzero] at hw'
        cases hw'
      have hsame : event.branchSeqId ≠ e.branchSeqId := fun hsame => by
        rw [if_neg hne, if_pos hsame] at hw'
        cases hw'
      rw [if_neg hne, if_neg hsame] at hw'
      refine ⟨hw', fun e' he' => ?_⟩
      rcases List.mem_cons.mp he' with rfl | he'
      · exact fun heq => hsame heq.symm
      · exact hrest e' he'
    · rw [if_neg hstill] at hw
      obtain ⟨hw', hrest⟩ := ih h hw
      refine ⟨hw', fun e' he' heq => ?_⟩
      rcases List.mem_cons.mp he' with rfl | he'
      · refine hstill (isStillIrrelevant_iff.mpr ?_)
        rw [Waits, heq]
        exact hw'
      · exact hrest e' he' heq

theorem stats_markUnresolved (rest : List BranchEvent) : ∀ (selection : DseRelevanceSelection),
    (relevanceMarkUnresolved rest selection).stats.accumulatedLabel =
        selection.stats.accumulatedLabel ∧
      (relevanceMarkUnresolved rest selection).stats.iterations = selection.stats.iterations := by
  induction rest with
  | nil => exact fun _ => ⟨rfl, rfl⟩
  | cons e rest ih =>
    intro selection
    rw [relevanceMarkUnresolved, List.foldl_cons]
    split_ifs
    · obtain ⟨hlabel, hiterations⟩ :=
        ih (relevanceStoreOrIncomplete selection e.branchSeqId .unknown).incomplete
      obtain ⟨hlabel', hiterations'⟩ := stats_store selection e.branchSeqId .unknown
      exact ⟨hlabel.trans hlabel', hiterations.trans hiterations'⟩
    · exact ih selection

/-- Marking the branches without an event concerns only ids that are not stored. -/
theorem relevanceMarkUnlisted_keeps (metaLookupId : ℕ → Option InsnMeta) (tb : TraceBuffer)
    (trigger : TraceEntry) (selection : DseRelevanceSelection) (i : ℕ) :
    (∀ event, Waits (relevanceMarkUnlisted metaLookupId tb trigger selection i) event ↔
        Waits selection event) ∧
      (relevanceMarkUnlisted metaLookupId tb trigger selection i).stats.accumulatedLabel =
        selection.stats.accumulatedLabel ∧
      (relevanceMarkUnlisted metaLookupId tb trigger selection i).stats.iterations =
        selection.stats.iterations := by
  unfold relevanceMarkUnlisted
  cases traceGetLast tb i with
  | none => exact ⟨fun _ => Iff.rfl, rfl, rfl⟩
  | some entry =>
    dsimp only
    split_ifs with hvcpu hstored
    · exact ⟨fun _ => Iff.rfl, rfl, rfl⟩
    · exact ⟨fun _ => Iff.rfl, rfl, rfl⟩
    · cases metaLookupId entry.metaId with
      | none => exact ⟨fun _ => Iff.rfl, rfl, rfl⟩
      | some insn =>
        dsimp only
        split_ifs with hbranch
        · exact ⟨fun _ => Iff.rfl, rfl, rfl⟩
        · unfold dseRelevanceStore
          dsimp only
          split_ifs with hzero hgranted
          · exact ⟨fun _ => Iff.rfl, rfl, rfl⟩
          · exact ⟨fun _ => Iff.rfl, rfl, rfl⟩
          · refine ⟨fun event => ?_, rfl, rfl⟩
            rw [Waits, dseRelevanceLookup_incomplete, dseRelevanceLookup_insert]
            by_cases hsame : event.branchSeqId = entry.seqId
            · rw [if_neg (by rwa [hsame]), if_pos hsame, Waits, hsame]
              have hnone : dseRelevanceLookup selection entry.seqId = none := by
                simpa using hstored
              rw [hnone]
              exact iff_of_false (by simp) (by simp)
            · rw [if_neg hsame, Waits]
              unfold dseRelevanceLookup
              split_ifs <;> rfl

/-! ### The selection -/

/-- The number of rounds is bounded by the limit. -/
theorem relevanceMaximumIterations_le (events : List BranchEvent) :
    relevanceMaximumIterations events ≤ dseMaxRelevanceIterations := by
  unfold relevanceMaximumIterations
  split_ifs <;> omega

/-- The last round changed nothing. -/
def Converges (registry : ProvRegistry) (dcfg : DcfgGraph) (trigger : TraceEntry)
    (events : List BranchEvent) (heap : Heap) : Prop :=
  (relevanceRounds dcfg events (relevanceMaximumIterations events) 0
    (relevanceInitial registry trigger events heap)).2 = true

/-- Every join of the selection succeeds. -/
def JoinsSucceed (registry : ProvRegistry) (dcfg : DcfgGraph) (trigger : TraceEntry)
    (events : List BranchEvent) (heap : Heap) : Prop :=
  RoundsJoins dcfg events (relevanceMaximumIterations events) 0
    (relevanceInitial registry trigger events heap)

/-- With fewer events than the limit of rounds the closure is always reached. -/
theorem converges_of_length_lt {heap : Heap} (hheap : heap.Ample) (trigger : TraceEntry)
    (hlength : events.length < dseMaxRelevanceIterations) :
    Converges registry dcfg trigger events heap := by
  refine relevanceRounds_converges _ (relevanceInitial_ample _ _ hheap trigger) ?_
  have hle : waiting events (relevanceInitial registry trigger events heap).selection ≤
      events.length := List.countP_le_length
  unfold relevanceMaximumIterations
  split_ifs <;> omega

/-- What is known of a finished selection: the label and the counter are those of the rounds, and
what waits waited at the end of them. -/
structure RelevanceResult (registry : ProvRegistry) (dcfg : DcfgGraph) (trigger : TraceEntry)
    (events : List BranchEvent) (heap : Heap) (selection : DseRelevanceSelection) : Prop where
  label : selection.stats.accumulatedLabel =
    (relevanceRounds dcfg events (relevanceMaximumIterations events) 0
      (relevanceInitial registry trigger events heap)).1.accumulatedLabel
  iterations : selection.stats.iterations ≤ dseMaxRelevanceIterations
  waits : Converges registry dcfg trigger events heap → ∀ event, Waits selection event ↔
    Waits (relevanceRounds dcfg events (relevanceMaximumIterations events) 0
      (relevanceInitial registry trigger events heap)).1.selection event
  forced : ¬ Converges registry dcfg trigger events heap → ∀ event ∈ events,
    ¬ Waits selection event

theorem relevanceSelect_result (registry : ProvRegistry) (dcfg : DcfgGraph)
    (events : List BranchEvent) {heap : Heap} (hheap : heap.Ample) (trigger : TraceEntry) :
    RelevanceResult registry dcfg trigger events heap
      (relevanceSelect dcfg events (relevanceInitial registry trigger events heap)).selection := by
  obtain ⟨hlabel, hiterations⟩ := relevanceInitial_stats registry trigger events heap
  have hbound := relevanceRounds_iterations_le dcfg events
    (relevanceMaximumIterations events) 0 hiterations.le
  have hmax := relevanceMaximumIterations_le events
  have hend := relevanceRounds_label dcfg events (relevanceMaximumIterations events) 0 hlabel
  have hample := relevanceRounds_ample dcfg events (relevanceMaximumIterations events) 0
    (relevanceInitial_ample registry events hheap trigger)
  unfold relevanceSelect
  dsimp only
  by_cases hconverges : Converges registry dcfg trigger events heap
  · rw [if_pos (show (relevanceRounds dcfg events _ 0 _).2 = true from hconverges)]
    exact ⟨hend, by omega, fun _ _ => Iff.rfl, fun hn => absurd hconverges hn⟩
  · rw [if_neg (show ¬ (relevanceRounds dcfg events _ 0 _).2 = true from hconverges)]
    obtain ⟨hlabel', hiterations'⟩ := stats_markUnresolved events
      (relevanceRounds dcfg events (relevanceMaximumIterations events) 0
        (relevanceInitial registry trigger events heap)).1.selection
    refine ⟨hlabel'.trans hend, hiterations'.trans_le (by omega), fun hc => absurd hc hconverges,
      fun _ event hmem hwaits => ?_⟩
    exact (not_waits_markUnresolved events hample hwaits).2 event hmem rfl

/-- **The selection is returned**, and it is the result of the rounds. -/
theorem dseRelevanceSelectionCreate_spec (metaLookupId : ℕ → Option InsnMeta) {tb : TraceBuffer}
    {triggerSeqId backIndex : ℕ} {trigger : TraceEntry} {heap : Heap} (hheap : heap.Ample)
    (htrigger : traceFindSeq tb triggerSeqId = some (backIndex, trigger))
    (registry : ProvRegistry) (dcfg : DcfgGraph) (buffer : BranchEventBuffer) :
    ∃ selection, dseRelevanceSelectionCreate metaLookupId tb triggerSeqId
        ⟨some registry, some dcfg, some buffer⟩ heap =
          (some selection, some (relevanceSelect dcfg
            (relevanceWindow tb triggerSeqId trigger buffer) (relevanceInitial registry trigger
              (relevanceWindow tb triggerSeqId trigger buffer) heap)).registry) ∧
      RelevanceResult registry dcfg trigger (relevanceWindow tb triggerSeqId trigger buffer) heap
        selection := by
  have hresult := relevanceSelect_result registry dcfg
    (relevanceWindow tb triggerSeqId trigger buffer) hheap trigger
  -- marking the unlisted branches keeps all of it
  have hmark : ∀ (is : List ℕ) (selection : DseRelevanceSelection),
      RelevanceResult registry dcfg trigger (relevanceWindow tb triggerSeqId trigger buffer) heap
        selection →
      RelevanceResult registry dcfg trigger (relevanceWindow tb triggerSeqId trigger buffer) heap
        (is.foldl (relevanceMarkUnlisted metaLookupId tb trigger) selection) := by
    intro is
    induction is with
    | nil => exact fun _ h => h
    | cons i is ih =>
      intro selection h
      obtain ⟨hwaits, hlabel, hiterations⟩ :=
        relevanceMarkUnlisted_keeps metaLookupId tb trigger selection i
      exact ih _ ⟨hlabel.trans h.label, hiterations.trans_le h.iterations,
        fun hc event => (hwaits event).trans (h.waits hc event),
        fun hn event hmem hw => h.forced hn event hmem ((hwaits event).mp hw)⟩
  have hfinal := hmark (List.range' (backIndex + 1) (tb.entries.count - (backIndex + 1))) _ hresult
  refine ⟨dseRelevanceCountStates _, ?_, hfinal.label, hfinal.iterations, hfinal.waits,
    hfinal.forced⟩
  rw [dseRelevanceSelectionCreate, hheap.calloc (by decide), htrigger]
  rfl

/-- After the rounds the registry has the labels that were joined. -/
theorem relevanceSelect_registry (s : RelevanceState) :
    (relevanceSelect dcfg events s).registry =
      (relevanceRounds dcfg events (relevanceMaximumIterations events) 0 s).1.registry := by
  unfold relevanceSelect
  dsimp only
  split_ifs <;> rfl

/-- **Nothing is left to select**: an event that still waits classifies as irrelevant against the
final label. -/
theorem RelevanceResult.classify {heap : Heap} (hheap : heap.Ample) {trigger : TraceEntry}
    {selection : DseRelevanceSelection}
    (h : RelevanceResult registry dcfg trigger events heap selection) {event : BranchEvent}
    (hmem : event ∈ events) (hwaits : Waits selection event) :
    dseClassifyBranchEvent
      (relevanceSelect dcfg events (relevanceInitial registry trigger events heap)).registry dcfg
      event selection.stats.accumulatedLabel = .irrelevant := by
  by_cases hconverges : Converges registry dcfg trigger events heap
  · have hquiet := relevanceRounds_quiet _
      (relevanceInitial_ample registry events hheap trigger) hconverges event hmem
    rw [relevanceSelect_registry, h.label]
    by_contra hne
    exact hquiet ⟨(h.waits hconverges event).mp hwaits, hne⟩
  · exact absurd hwaits (h.forced hconverges event hmem)

/-- **The selection is a closure** of the target's label, once it has converged. -/
theorem RelevanceResult.reaches (hwf : registry.WF) (hlimit : registry.maxRootsPerSet = limit)
    (hwindow : WindowOk registry events) {heap : Heap} (hheap : heap.Ample) {trigger : TraceEntry}
    {selection : DseRelevanceSelection}
    (h : RelevanceResult registry dcfg trigger events heap selection)
    (ht : Means registry (relevanceTargetLabel registry trigger).1 t)
    (hjoins : JoinsSucceed registry dcfg trigger events heap)
    (hconverges : Converges registry dcfg trigger events heap) :
    ∃ a, Means (relevanceSelect dcfg events
        (relevanceInitial registry trigger events heap)).registry
          selection.stats.accumulatedLabel a ∧
      Reaches (eventLabel limit registry) (Fires registry events) t (Selected events selection) a ∧
      ∀ event, Fires registry events a event → event ∈ Selected events selection := by
  have hinv := relevanceRounds_inv hwf hlimit hwindow (relevanceMaximumIterations events)
    (relevanceInitial_inv hwf hheap ht) hjoins
  obtain ⟨a, hmeans, hreaches⟩ := hinv.reaches
  have hset : Selected events selection = Selected events
      (relevanceRounds dcfg events (relevanceMaximumIterations events) 0
        (relevanceInitial registry trigger events heap)).1.selection := by
    ext event
    exact and_congr_right fun _ => and_congr_right fun _ => not_congr (h.waits hconverges event)
  refine ⟨a, by rw [relevanceSelect_registry, h.label]; exact hmeans, by rw [hset]; exact hreaches,
    fun event hfires => ?_⟩
  rw [hset]
  refine ⟨hfires.1, hfires.2.1, fun hwaits => ?_⟩
  have hquiet := relevanceRounds_quiet _
    (relevanceInitial_ample registry events hheap trigger) hconverges event hfires.1
  exact hquiet ⟨hwaits, (hinv.classify_iff hwf hlimit hwindow hmeans hfires.1 hfires.2.1).mpr hfires⟩

/-- The meanings of the selected conditions, those that have one, have the same least upper bound as
their labels. -/
theorem isLUB_selected (hwf : registry.WF) (hlimit : registry.maxRootsPerSet = limit)
    {S : Set BranchEvent} {a : LabelValue limit}
    (h : IsLUB (insert t (eventLabel limit registry '' S)) a) :
    IsLUB (insert t {v | ∃ event ∈ S, Means registry event.conditionLabel v}) a := by
  constructor
  · rintro v (rfl | ⟨event, hmem, hmeans⟩)
    · exact h.1 (Set.mem_insert _ _)
    · have heq : v = eventLabel limit registry event :=
        hmeans.unique (means_eventLabel hwf hlimit hmeans.valid)
      rw [heq]
      exact h.1 (Set.mem_insert_of_mem _ (Set.mem_image_of_mem _ hmem))
  · intro b hb
    refine h.2 ?_
    rintro v (rfl | ⟨event, hmem, rfl⟩)
    · exact hb (Set.mem_insert _ _)
    · by_cases hvalid : provLabelIdValidLocked registry event.conditionLabel = true
      · exact hb (Set.mem_insert_of_mem _ ⟨event, hmem, means_eventLabel hwf hlimit hvalid⟩)
      · rw [eventLabel_of_invalid hvalid]
        refine sup_eq_right.mp ?_
        rw [sup_comm, LabelValue.sup_eq_join, LabelValue.join_clean]

/-- **The relevance selection is a fixpoint.**  For every registry that can be built, with memory
for the table of the selection:

* a selection is returned, after at most 64 rounds, and every event that it still stores as
  irrelevant classifies as irrelevant against the final accumulated label;
* if moreover the rounds converged and no join failed, the final label is the join of the target's
  label with the labels of the selected events, and storing the events in another order selects the
  same events. -/
theorem dseRelevanceSelectionCreate_fixpoint (hreach : RegistryReachable registry)
    (dcfg : DcfgGraph) (metaLookupId : ℕ → Option InsnMeta) {tb : TraceBuffer}
    {triggerSeqId backIndex : ℕ} {trigger : TraceEntry}
    (htrigger : traceFindSeq tb triggerSeqId = some (backIndex, trigger))
    (buffer : BranchEventBuffer) {heap : Heap} (hheap : heap.Ample) :
    let events := relevanceWindow tb triggerSeqId trigger buffer
    ∃ selection registry', dseRelevanceSelectionCreate metaLookupId tb triggerSeqId
        ⟨some registry, some dcfg, some buffer⟩ heap = (some selection, some registry') ∧
      selection.stats.iterations ≤ dseMaxRelevanceIterations ∧
      (∀ event ∈ events, Waits selection event → dseClassifyBranchEvent registry' dcfg event
        selection.stats.accumulatedLabel = .irrelevant) ∧
      (WindowOk registry events → JoinsSucceed registry dcfg trigger events heap →
        Converges registry dcfg trigger events heap →
        (∃ t a : LabelValue registry.maxRootsPerSet,
          Means registry (relevanceTargetLabel registry trigger).1 t ∧
          Means registry' selection.stats.accumulatedLabel a ∧
          IsLUB (insert t {v | ∃ event ∈ Selected events selection,
            Means registry event.conditionLabel v}) a) ∧
        ∀ (buffer' : BranchEventBuffer) (heap' : Heap),
          let events' := relevanceWindow tb triggerSeqId trigger buffer'
          heap'.Ample → events.Perm events' → JoinsSucceed registry dcfg trigger events' heap' →
          Converges registry dcfg trigger events' heap' →
          ∃ selection' registry'', dseRelevanceSelectionCreate metaLookupId tb triggerSeqId
              ⟨some registry, some dcfg, some buffer'⟩ heap' = (some selection', some registry'') ∧
            Selected events selection = Selected events' selection') := by
  intro events
  have hwf := hreach.wf
  obtain ⟨selection, hcreate, hresult⟩ :=
    dseRelevanceSelectionCreate_spec metaLookupId hheap htrigger registry dcfg buffer
  refine ⟨selection, _, hcreate, hresult.iterations,
    fun event hmem hwaits => hresult.classify hheap hmem hwaits, ?_⟩
  intro hwindow hjoins hconverges
  obtain ⟨t, ht⟩ := hwf.exists_means rfl (relevanceTargetLabel_valid hreach trigger)
  obtain ⟨a, hmeans, hreaches, hclosed⟩ :=
    hresult.reaches hwf rfl hwindow hheap ht hjoins hconverges
  refine ⟨⟨t, a, ht, hmeans, isLUB_selected hwf rfl hreaches.isLUB⟩, ?_⟩
  intro buffer' heap' events' hheap' hperm hjoins' hconverges'
  obtain ⟨selection', hcreate', hresult'⟩ :=
    dseRelevanceSelectionCreate_spec metaLookupId hheap' htrigger registry dcfg buffer'
  have hwindow' : WindowOk registry events' :=
    ⟨(hperm.map BranchEvent.branchSeqId).nodup_iff.mp hwindow.distinct,
      fun event hmem => hwindow.registered event (hperm.mem_iff.mpr hmem)⟩
  obtain ⟨a', -, hreaches', hclosed'⟩ :=
    hresult'.reaches hwf rfl hwindow' hheap' ht hjoins' hconverges'
  -- both orders fire on the same events
  have hfires : (Fires registry events' :
      LabelValue registry.maxRootsPerSet → BranchEvent → Prop) = Fires registry events := by
    funext b event
    simp only [Fires, hperm.mem_iff]
  rw [hfires] at hreaches' hclosed'
  exact ⟨selection', _, hcreate',
    hreaches.eq_of_closed Fires.mono hclosed hreaches' hclosed'⟩

/-! ### A fork -/

/-- Three roots, the labels `2`, `3`, `4` of one root each, and the labels `5` of the first two roots
and `6` of the first and the third. -/
def forkRegistry (registry : ProvRegistry) : ProvRegistry :=
  let root (n : ℕ) : ProvRootKey := ⟨.syscallValueByte, BitVec.ofNat 64 n, 0, 0, 0⟩
  let registry := (provRootIntern registry (root 1)).2
  let registry := (provRootIntern registry (root 2)).2
  let registry := (provRootIntern registry (root 3)).2
  let registry := (provLabelFromRoot registry 1 .data).2
  let registry := (provLabelFromRoot registry 2 .data).2
  let registry := (provLabelFromRoot registry 3 .data).2
  let registry := (provRootSetIntern registry [1, 2]).2.2
  let registry := (provRootSetIntern registry [1, 3]).2.2
  let registry := (provLabelInternLocked registry ⟨4, 0, provCompleteAll, 0⟩).2
  (provLabelInternLocked registry ⟨5, 0, provCompleteAll, 0⟩).2

theorem forkRegistry_reachable {registry : ProvRegistry} (h : RegistryReachable registry) :
    RegistryReachable (forkRegistry registry) :=
  ((((((((((h.internRoot _).internRoot _).internRoot _).labelFromRoot _ _).labelFromRoot _
    _).labelFromRoot _ _).internSet _).internSet _).internLabel _).internLabel _)

/-- The registry of the fork, with an allocator that refuses the requests in `refused`. -/
def forkRegistryWith (refused : ℕ → Bool)
    (h : (provRegistryCreate 0 ⟨fun n => !refused n⟩).isSome) : ProvRegistry :=
  forkRegistry ((provRegistryCreate 0 ⟨fun n => !refused n⟩).get h)

theorem forkRegistryWith_reachable (refused : ℕ → Bool)
    (h : (provRegistryCreate 0 ⟨fun n => !refused n⟩).isSome) :
    RegistryReachable (forkRegistryWith refused h) :=
  forkRegistry_reachable (.create (Option.some_get h).symm)

/-- The registry of the fork with memory to spare. -/
def servedRegistry : ProvRegistry := forkRegistryWith (fun _ => false) (by decide)

/-- The registry of the fork when the next request for memory will be refused. -/
def scarceRegistry : ProvRegistry := forkRegistryWith (fun n => n == 16) (by decide)

/-- Four branches and a jump whose target has the label `2`. -/
def forkTrace : TraceBuffer :=
  let entry : TraceEntry := ⟨0, 0, 0, 0, [], false, 0, 0⟩
  [entry, entry, entry, entry, { entry with controlTransferValid := true, targetLabel := 2 }].foldl
    traceAppend ⟨RingBuffer.create 8, 1⟩

def forkTrigger : TraceEntry := ⟨5, 0, 0, 0, [], true, 0, 2⟩

/-- The branches on the first two roots, on the first and the third, on the second, on the third. -/
def forkLeft : BranchEvent := ⟨1, 0, 5, 0⟩
def forkRight : BranchEvent := ⟨2, 0, 6, 0⟩
def forkSecond : BranchEvent := ⟨3, 0, 3, 0⟩
def forkThird : BranchEvent := ⟨4, 0, 4, 0⟩

/-- Two orders in which the events may be stored, oldest first. -/
def forkBuffer : BranchEventBuffer :=
  [forkThird, forkSecond, forkRight, forkLeft].foldl RingBuffer.push (RingBuffer.create 8)
def forkBuffer' : BranchEventBuffer :=
  [forkThird, forkSecond, forkLeft, forkRight].foldl RingBuffer.push (RingBuffer.create 8)

/-- The windows of the two orders, newest first. -/
def forkEvents : List BranchEvent := [forkLeft, forkRight, forkSecond, forkThird]
def forkEvents' : List BranchEvent := [forkRight, forkLeft, forkSecond, forkThird]

theorem forkWindow : relevanceWindow forkTrace 5 forkTrigger forkBuffer = forkEvents := by
  decide
theorem forkWindow' : relevanceWindow forkTrace 5 forkTrigger forkBuffer' = forkEvents' := by
  decide

/-- An allocator that always serves, and a graph without edges. -/
def ampleHeap : Heap := ⟨fun _ => true⟩
def emptyGraph : DcfgGraph := dcfgGraphCreate ampleHeap

/-- The selection of the fork. -/
def forkSelection (registry : ProvRegistry) (buffer : BranchEventBuffer) :
    Option DseRelevanceSelection × Option ProvRegistry :=
  dseRelevanceSelectionCreate (fun _ => none) forkTrace 5
    ⟨some registry, some emptyGraph, some buffer⟩ ampleHeap

instance (registry : ProvRegistry) (left right : ℕ) :
    Decidable (JoinSucceeds registry left right) :=
  inferInstanceAs (Decidable (∃ view,
    view ∈ provLabelGet (provLabelJoinLocked registry left right).2
      (provLabelJoinLocked registry left right).1 ∧
    (view.dataRoots ≠ provRootSetIdInvalid ∧ view.addressRoots ≠ provRootSetIdInvalid)))

instance (dcfg : DcfgGraph) (s : RelevanceState) (event : BranchEvent) :
    Decidable (VisitJoins dcfg s event) :=
  inferInstanceAs (Decidable
    ((dseRelevanceLookup s.selection event.branchSeqId = some .irrelevant ∧
        dseClassifyBranchEvent s.registry dcfg event s.accumulatedLabel ≠ .irrelevant) →
      provLabelIdValidLocked s.registry event.conditionLabel = true →
      JoinSucceeds s.registry s.accumulatedLabel event.conditionLabel))

instance decidableRoundJoins (dcfg : DcfgGraph) :
    ∀ (rest : List BranchEvent) (s : RelevanceState), Decidable (RoundJoins dcfg rest s)
  | [], _ => isTrue trivial
  | event :: rest, s =>
    have := decidableRoundJoins dcfg rest (relevanceVisit dcfg s event)
    inferInstanceAs (Decidable (VisitJoins dcfg s event ∧
      RoundJoins dcfg rest (relevanceVisit dcfg s event)))

instance decidableRoundsJoins (dcfg : DcfgGraph) (events : List BranchEvent) :
    ∀ (fuel iteration : ℕ) (s : RelevanceState),
      Decidable (RoundsJoins dcfg events fuel iteration s)
  | 0, _, _ => isTrue trivial
  | fuel + 1, iteration, s =>
    have := decidableRoundsJoins dcfg events fuel (iteration + 1)
      (relevanceRound dcfg events iteration s)
    inferInstanceAs (Decidable (RoundJoins dcfg events (roundStart iteration s) ∧
      ((relevanceRound dcfg events iteration s).changed = true →
        RoundsJoins dcfg events fuel (iteration + 1) (relevanceRound dcfg events iteration s))))

/-- With memory to spare both orders of the fork select the same events. -/
theorem dseRelevanceSelectionCreate_fixpoint_fork :
    ∃ registry selection registry' selection' registry'', RegistryReachable registry ∧
      forkSelection registry forkBuffer = (some selection, some registry') ∧
      forkSelection registry forkBuffer' = (some selection', some registry'') ∧
      selection.stats.iterations ≤ dseMaxRelevanceIterations ∧
      Selected forkEvents selection = Selected forkEvents' selection' := by
  have hreach : RegistryReachable servedRegistry := forkRegistryWith_reachable _ _
  have htrigger : traceFindSeq forkTrace 5 = some (0, forkTrigger) := by decide
  have hample : ampleHeap.Ample := fun _ => rfl
  have hwindow : WindowOk servedRegistry forkEvents := by
    refine ⟨by decide, fun event hmem => Or.inr ?_⟩
    have hall : forkEvents.all (fun event => provLabelIdValidLocked servedRegistry
        event.conditionLabel) = true := by decide +kernel
    exact List.all_eq_true.mp hall event hmem
  have hjoins : JoinsSucceed servedRegistry emptyGraph forkTrigger
      forkEvents ampleHeap := by
    unfold JoinsSucceed
    decide +kernel
  have hjoins' : JoinsSucceed servedRegistry emptyGraph forkTrigger
      forkEvents' ampleHeap := by
    unfold JoinsSucceed
    decide +kernel
  have hperm : forkEvents.Perm forkEvents' := List.Perm.swap _ _ _
  obtain ⟨selection, registry', hcreate, hiterations, -, horder⟩ :=
    dseRelevanceSelectionCreate_fixpoint hreach emptyGraph (fun _ => none) htrigger forkBuffer
      hample
  rw [forkWindow] at horder
  obtain ⟨selection', registry'', hcreate', hsame⟩ :=
    (horder hwindow hjoins (converges_of_length_lt hample forkTrigger (by decide))).2 forkBuffer'
      ampleHeap hample (by rwa [forkWindow']) (by rwa [forkWindow'])
      (by rw [forkWindow']; exact converges_of_length_lt hample forkTrigger (by decide))
  rw [forkWindow'] at hsame
  exact ⟨_, selection, registry', selection', registry'', hreach, hcreate, hcreate', hiterations,
    hsame⟩

/-- **A refused join makes the order matter.**  The first join of the run is refused memory, so the
label of whichever of the two first events is visited first is not accumulated, and only one of the
events on the second and the third root is selected. -/
theorem selection_depends_on_order_after_refused_join :
    ∃ registry selection selection', RegistryReachable registry ∧ WindowOk registry forkEvents ∧
      forkEvents.Perm forkEvents' ∧
      Converges registry emptyGraph forkTrigger forkEvents ampleHeap ∧
      Converges registry emptyGraph forkTrigger forkEvents' ampleHeap ∧
      (forkSelection registry forkBuffer).1 = some selection ∧
      (forkSelection registry forkBuffer').1 = some selection' ∧
      Waits selection forkSecond ∧ ¬ Waits selection' forkSecond := by
  have hreach : RegistryReachable scarceRegistry := forkRegistryWith_reachable _ _
  have hample : ampleHeap.Ample := fun _ => rfl
  have hwindow : WindowOk scarceRegistry forkEvents := by
    refine ⟨by decide, fun event hmem => Or.inr ?_⟩
    have hall : forkEvents.all (fun event => provLabelIdValidLocked scarceRegistry
        event.conditionLabel) = true := by decide +kernel
    exact List.all_eq_true.mp hall event hmem
  have hfirst : (forkSelection scarceRegistry forkBuffer).1.map
      (fun selection => isStillIrrelevant selection forkSecond) = some true := by decide +kernel
  have hsecond : (forkSelection scarceRegistry forkBuffer').1.map
      (fun selection => isStillIrrelevant selection forkSecond) = some false := by decide +kernel
  obtain ⟨selection, hselection, hwaits⟩ := Option.map_eq_some_iff.mp hfirst
  obtain ⟨selection', hselection', hwaits'⟩ := Option.map_eq_some_iff.mp hsecond
  refine ⟨_, selection, selection', hreach, hwindow, List.Perm.swap _ _ _,
    converges_of_length_lt hample forkTrigger (by decide),
    converges_of_length_lt hample forkTrigger (by decide), hselection, hselection',
    isStillIrrelevant_iff.mp hwaits, fun hn => ?_⟩
  rw [isStillIrrelevant_iff.mpr hn] at hwaits'
  cases hwaits'

end TaintForge
