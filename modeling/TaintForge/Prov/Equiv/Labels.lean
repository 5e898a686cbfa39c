import TaintForge.Prov.Equiv.RootSets

/-!
# The labels of the registry

Under the invariant of the registry a label id has one meaning, which later registrations never
change, and the join of two labels is the join of their meanings.

* `provLabelInternLocked_spec`: the id of a label stands for the label, normalised.
* `Means`: the meaning of a label id.
* `provLabelJoinLocked_spec`: the join of two labels means the join of their meanings.
* `RegistryReachable.wf`: the invariant holds of every registry that can be built.
-/

namespace TaintForge

open CutSet

/-! ### Interning a label -/

theorem provLabelNormalize_eq {view : ProvLabelView}
    (h : view.incompleteReasons = 0#64 ↔ view.completeMask &&& provCompleteAll = provCompleteAll) :
    provLabelNormalize view =
      { view with completeMask := view.completeMask &&& provCompleteAll } := by
  unfold provLabelNormalize
  dsimp only
  split_ifs with hall hreasons
  · rw [h.mpr hall]
    rfl
  · exact absurd (h.mp hreasons) hall
  · rfl

/-- A normalised label has the marks of a meaning. -/
theorem provLabelNormalize_marks (view : ProvLabelView) :
    (provLabelNormalize view).completeMask &&& provCompleteAll =
        (provLabelNormalize view).completeMask ∧
      ((provLabelNormalize view).incompleteReasons = 0#64 ↔
        (provLabelNormalize view).completeMask = provCompleteAll) := by
  unfold provLabelNormalize
  dsimp only
  split_ifs with hall hreasons
  · exact ⟨by rw [BitVec.and_assoc, BitVec.and_self], by simp [hall]⟩
  · refine ⟨by rw [BitVec.and_assoc, BitVec.and_self], ?_⟩
    simp only [hall, iff_false]
    decide
  · refine ⟨by rw [BitVec.and_assoc, BitVec.and_self], ?_⟩
    simp only [hall, iff_false]
    exact hreasons

theorem provLabelNormalize_idem (view : ProvLabelView) :
    provLabelNormalize (provLabelNormalize view) = provLabelNormalize view := by
  obtain ⟨hmask, hreasons⟩ := provLabelNormalize_marks view
  rw [provLabelNormalize_eq (by rw [hmask]; exact hreasons), hmask]

theorem provLabelNormalize_sets (view : ProvLabelView) :
    (provLabelNormalize view).dataRoots = view.dataRoots ∧
      (provLabelNormalize view).addressRoots = view.addressRoots := by
  unfold provLabelNormalize
  dsimp only
  split_ifs <;> exact ⟨rfl, rfl⟩

theorem provLabelIdValidLocked_iff {registry : ProvRegistry} {labelId : ℕ} :
    provLabelIdValidLocked registry labelId = true ↔
      labelId ≠ provLabelIdInvalid ∧ labelId < registry.labels.records.length := by
  simp [provLabelIdValidLocked]

theorem provLabelGet_eq_some_iff {registry : ProvRegistry} {labelId : ℕ} {view : ProvLabelView} :
    provLabelGet registry labelId = some view ↔ labelId ≠ provLabelIdInvalid ∧
      ∃ r, registry.labels.records[labelId]? = some r ∧ r.view = view := by
  unfold provLabelGet
  by_cases hvalid : provLabelIdValidLocked registry labelId = false
  · rw [if_pos hvalid]
    refine iff_of_false (nofun) ?_
    rintro ⟨hne, r, hr, -⟩
    have htrue := provLabelIdValidLocked_iff.mpr ⟨hne, (List.getElem?_eq_some_iff.mp hr).1⟩
    rw [hvalid] at htrue
    cases htrue
  · rw [if_neg hvalid, Option.map_eq_some_iff]
    have hne := (provLabelIdValidLocked_iff.mp ((Bool.not_eq_false _).mp hvalid)).1
    exact ⟨fun h => ⟨hne, h⟩, And.right⟩

/-- A label id keeps its label. -/
theorem Extends.provLabelGet_eq {registry registry' : ProvRegistry} (h : Extends registry registry')
    {labelId : ℕ} {view : ProvLabelView} (hget : provLabelGet registry labelId = some view) :
    provLabelGet registry' labelId = some view := by
  obtain ⟨hne, r, hr, hview⟩ := provLabelGet_eq_some_iff.mp hget
  obtain ⟨rest, hrest⟩ := h.labels
  refine provLabelGet_eq_some_iff.mpr ⟨hne, r, ?_, hview⟩
  rw [← hrest, List.getElem?_append_left (List.getElem?_eq_some_iff.mp hr).1, hr]

theorem Extends.provLabelIdValidLocked {registry registry' : ProvRegistry}
    (h : Extends registry registry') {labelId : ℕ}
    (hid : provLabelIdValidLocked registry labelId = true) :
    provLabelIdValidLocked registry' labelId = true := by
  obtain ⟨hne, hlt⟩ := provLabelIdValidLocked_iff.mp hid
  exact provLabelIdValidLocked_iff.mpr ⟨hne, hlt.trans_le h.labels.length_le⟩

theorem ProvRegistry.WF.labelOk_of_get {registry : ProvRegistry} (h : registry.WF) {labelId : ℕ}
    {view : ProvLabelView} (hget : provLabelGet registry labelId = some view) :
    view.dataRoots ≤ registry.rootSets.records.length ∧
      view.addressRoots ≤ registry.rootSets.records.length ∧ provLabelNormalize view = view := by
  obtain ⟨-, r, hr, rfl⟩ := provLabelGet_eq_some_iff.mp hget
  obtain ⟨hdata, haddress, hnormal, -⟩ := h.views r (List.mem_of_getElem? hr)
  exact ⟨hdata, haddress, hnormal⟩

/-- A table of labels that keeps the labels and finds them too. -/
theorem ProvRegistry.WF.setLabels {registry : ProvRegistry} (h : registry.WF)
    (labels : ProvTable ProvLabelRecord) (heap : Heap) (hwf : labels.WF id fun r => r.hash.toNat)
    (hgrown : registry.labels.records <+: labels.records)
    (hviews : ∀ r ∈ labels.records, LabelOk registry.rootSets.records.length r)
    (hcount : labels.records.length ≤ uint32Max) :
    ProvRegistry.WF { registry with labels := labels, heap := heap } ∧
      Extends registry { registry with labels := labels, heap := heap } := by
  have hext : Extends registry { registry with labels := labels, heap := heap } :=
    ⟨List.prefix_rfl, hgrown, rfl, rfl⟩
  exact ⟨⟨h.limit_pos, h.rootSets, h.sets, h.setCount, hwf, hviews, hcount,
    fun entry hentry => (h.cache entry hentry).mono hext⟩, hext⟩

theorem provLabelInternLocked_spec {registry : ProvRegistry} (h : registry.WF)
    (input : ProvLabelView) :
    ∃ labelId registry', provLabelInternLocked registry input = (labelId, registry') ∧
      registry'.WF ∧ Extends registry registry' ∧
      (labelId ≠ provLabelIdInvalid →
        provLabelGet registry' labelId = some (provLabelNormalize input)) := by
  unfold provLabelInternLocked
  by_cases hvalid : provRootSetIdValidLocked registry input.dataRoots = false ∨
      provRootSetIdValidLocked registry input.addressRoots = false
  · rw [if_pos hvalid]
    exact ⟨_, _, rfl, h, Extends.refl _, fun hne => absurd rfl hne⟩
  rw [if_neg hvalid]
  simp only [not_or, Bool.not_eq_false, provRootSetIdValidLocked_iff] at hvalid
  dsimp only
  cases hlookup : registry.labels.toInternTable.lookup id (fun r => r.hash.toNat)
      ⟨provLabelNormalize input, provLabelHash (provLabelNormalize input)⟩ with
  | some index =>
    obtain ⟨r, hr, hkey⟩ := h.labels.index.lookup_eq_some_iff.mp hlookup
    refine ⟨_, _, rfl, h, Extends.refl _, fun hne => ?_⟩
    exact provLabelGet_eq_some_iff.mpr ⟨hne, r, hr, congrArg ProvLabelRecord.view hkey⟩
  | none =>
    have hfresh := h.labels.index.lookup_eq_none_iff.mp hlookup
    dsimp only
    by_cases hfull : registry.labels.records.length ≥ uint32Max
    · rw [if_pos hfull]
      exact ⟨_, _, rfl, h, Extends.refl _, fun hne => absurd rfl hne⟩
    rw [if_neg hfull]
    obtain ⟨room, labels, heap, hreserve, hwf, hrecords, hspare, -⟩ :=
      provTableReserve_spec h.labels 32 (by omega) (by omega) registry.heap
    rw [hreserve]
    cases room with
    | false =>
      obtain ⟨hwf', hext⟩ := h.setLabels _ heap hwf (hrecords ▸ List.prefix_rfl)
        (hrecords ▸ h.views) (hrecords ▸ h.labelCount)
      exact ⟨_, _, rfl, hwf', hext, fun hne => absurd rfl hne⟩
    | true =>
      simp only [Bool.true_eq_false, if_false]
      obtain ⟨hdata, haddress⟩ := provLabelNormalize_sets input
      obtain ⟨hwf', hext⟩ := h.setLabels
        (labels.push id (fun r => r.hash.toNat)
          ⟨provLabelNormalize input, provLabelHash (provLabelNormalize input)⟩) heap
        (hwf.push (by rw [hrecords]; exact hfresh) (hspare rfl))
        ⟨[_], by rw [← hrecords]; rfl⟩
        (by
          intro r hr
          rcases List.mem_append.mp hr with hr | hr
          · exact h.views r (hrecords ▸ hr)
          · obtain rfl := List.mem_singleton.mp hr
            exact ⟨hdata ▸ hvalid.1, haddress ▸ hvalid.2, provLabelNormalize_idem input, rfl⟩)
        (by
          show (labels.records ++ [_]).length ≤ uint32Max
          rw [List.length_append, List.length_singleton, hrecords]
          omega)
      refine ⟨_, _, rfl, hwf', hext, fun hne => ?_⟩
      exact provLabelGet_eq_some_iff.mpr ⟨hne, _, List.getElem?_concat_length, rfl⟩

/-! ### Meanings -/

/-- The label behind an id means `v`. -/
def Means {limit : ℕ} (registry : ProvRegistry) (labelId : ℕ) (v : LabelValue limit) : Prop :=
  ∃ view, provLabelGet registry labelId = some view ∧
    setMembers registry view.dataRoots = v.dataRoots ∧
    setMembers registry view.addressRoots = v.addressRoots ∧
    view.completeMask = v.completeMask ∧ view.incompleteReasons = v.incompleteReasons

variable {limit : ℕ}

/-- A valid label has one meaning. -/
theorem ProvRegistry.WF.exists_means {registry : ProvRegistry} (h : registry.WF)
    (hlimit : registry.maxRootsPerSet = limit) {labelId : ℕ}
    (hid : provLabelIdValidLocked registry labelId = true) :
    ∃ v : LabelValue limit, Means registry labelId v := by
  obtain ⟨hne, hlt⟩ := provLabelIdValidLocked_iff.mp hid
  have hget : provLabelGet registry labelId =
      some (registry.labels.records[labelId]).view :=
    provLabelGet_eq_some_iff.mpr ⟨hne, _, List.getElem?_eq_getElem hlt, rfl⟩
  generalize (registry.labels.records[labelId]).view = view at hget
  obtain ⟨-, -, hnormal⟩ := h.labelOk_of_get hget
  have hmarks := provLabelNormalize_marks view
  rw [hnormal] at hmarks
  exact ⟨⟨setMembers registry view.dataRoots, setMembers registry view.addressRoots,
    view.completeMask, view.incompleteReasons, hlimit ▸ h.card_le _, hlimit ▸ h.card_le _,
    hmarks.1, hmarks.2⟩, view, hget, rfl, rfl, rfl, rfl⟩

theorem Means.unique {registry : ProvRegistry} {labelId : ℕ} {v v' : LabelValue limit}
    (h : Means registry labelId v) (h' : Means registry labelId v') : v = v' := by
  obtain ⟨view, hget, hdata, haddress, hmask, hreasons⟩ := h
  obtain ⟨view', hget', hdata', haddress', hmask', hreasons'⟩ := h'
  obtain rfl := Option.some.inj (hget.symm.trans hget')
  exact LabelValue.ext (hdata.symm.trans hdata') (haddress.symm.trans haddress')
    (hmask.symm.trans hmask') (hreasons.symm.trans hreasons')

theorem Means.valid {registry : ProvRegistry} {labelId : ℕ} {v : LabelValue limit}
    (h : Means registry labelId v) : provLabelIdValidLocked registry labelId = true := by
  obtain ⟨view, hget, -⟩ := h
  obtain ⟨hne, r, hr, -⟩ := provLabelGet_eq_some_iff.mp hget
  exact provLabelIdValidLocked_iff.mpr ⟨hne, (List.getElem?_eq_some_iff.mp hr).1⟩

/-- A label id keeps its meaning. -/
theorem Means.mono {registry registry' : ProvRegistry} (h : registry.WF)
    (hext : Extends registry registry') {labelId : ℕ} {v : LabelValue limit}
    (hmeans : Means registry labelId v) : Means registry' labelId v := by
  obtain ⟨view, hget, hdata, haddress, hmask, hreasons⟩ := hmeans
  obtain ⟨hdataId, haddressId, -⟩ := h.labelOk_of_get hget
  exact ⟨view, hext.provLabelGet_eq hget, by rw [hext.setMembers_eq hdataId, hdata],
    by rw [hext.setMembers_eq haddressId, haddress], hmask, hreasons⟩

/-! ### The join of two labels -/

/-- The join returns a label whose sets have identifiers: neither a union nor the interning of the
label was refused. -/
def JoinSucceeds (registry : ProvRegistry) (left right : ℕ) : Prop :=
  ∃ view, provLabelGet (provLabelJoinLocked registry left right).2
      (provLabelJoinLocked registry left right).1 = some view ∧
    view.dataRoots ≠ provRootSetIdInvalid ∧ view.addressRoots ≠ provRootSetIdInvalid

/-- The view a join interns, normalised, has the marks of the joined meanings. -/
theorem provLabelNormalize_joined {a b : ProvLabelView} {va vb : LabelValue limit}
    (hamask : a.completeMask = va.completeMask) (hbmask : b.completeMask = vb.completeMask)
    (hareasons : a.incompleteReasons = va.incompleteReasons)
    (hbreasons : b.incompleteReasons = vb.incompleteReasons) (dataRoots addressRoots : ℕ) :
    provLabelNormalize (provLabelJoined a b dataRoots addressRoots
        (LabelValue.overflows limit va.dataRoots vb.dataRoots)
        (LabelValue.overflows limit va.addressRoots vb.addressRoots)) =
      ⟨dataRoots, addressRoots, (va.join vb).completeMask, (va.join vb).incompleteReasons⟩ := by
  have hreasonsJoin := (va.join vb).reasons
  simp only [LabelValue.join] at hreasonsJoin ⊢
  generalize LabelValue.overflows limit va.dataRoots vb.dataRoots = d at *
  generalize LabelValue.overflows limit va.addressRoots vb.addressRoots = e at *
  have hmask : (provLabelJoined a b dataRoots addressRoots d e).completeMask &&& provCompleteAll =
      va.completeMask &&& vb.completeMask &&& LabelValue.keepMask d e := by
    rw [← hamask, ← hbmask]
    have ha : a.completeMask &&& provCompleteAll = a.completeMask := by rw [hamask, va.mask]
    conv_rhs => rw [← ha]
    cases d <;> cases e <;> simp only [provLabelJoined, LabelValue.keepMask, Bool.false_eq_true,
      if_false, if_true, BitVec.and_self] <;> ac_rfl
  have hreasons : (provLabelJoined a b dataRoots addressRoots d e).incompleteReasons =
      va.incompleteReasons ||| vb.incompleteReasons ||| LabelValue.cutReason (d || e) := by
    rw [← hareasons, ← hbreasons]
    cases d <;> cases e <;> simp only [provLabelJoined, LabelValue.cutReason, Bool.false_eq_true,
      Bool.or_true, Bool.or_false, if_false, if_true, BitVec.or_zero]
    rw [BitVec.or_assoc, BitVec.or_self]
  have hsets : (provLabelJoined a b dataRoots addressRoots d e).dataRoots = dataRoots ∧
      (provLabelJoined a b dataRoots addressRoots d e).addressRoots = addressRoots := by
    cases d <;> cases e <;> exact ⟨rfl, rfl⟩
  rw [provLabelNormalize_eq (by rw [hmask, hreasons]; exact hreasonsJoin), hmask, hreasons, hsets.1,
    hsets.2]

/-- **The join of two labels means the join of their meanings**, whenever it succeeds; in any case
the registry stays well formed and keeps every label it had. -/
theorem provLabelJoinLocked_spec {registry : ProvRegistry} (h : registry.WF)
    (hlimit : registry.maxRootsPerSet = limit) {left right : ℕ} {va vb : LabelValue limit}
    (hleft : Means registry left va) (hright : Means registry right vb) :
    ∃ labelId registry', provLabelJoinLocked registry left right = (labelId, registry') ∧
      registry'.WF ∧ Extends registry registry' ∧
      (JoinSucceeds registry left right → Means registry' labelId (va ⊔ vb)) := by
  unfold JoinSucceeds
  unfold provLabelJoinLocked
  rw [if_neg (by simp [hleft.valid, hright.valid])]
  by_cases hsame : left = right
  · rw [if_pos hsame]
    subst hsame
    obtain rfl := hleft.unique hright
    exact ⟨_, _, rfl, h, Extends.refl _, fun _ => by rwa [sup_idem]⟩
  rw [if_neg hsame]
  obtain ⟨a, hgetLeft, hda, haa, hma, hra⟩ := hleft
  obtain ⟨b, hgetRight, hdb, hab, hmb, hrb⟩ := hright
  obtain ⟨-, l, hl, rfl⟩ := provLabelGet_eq_some_iff.mp hgetLeft
  obtain ⟨-, r, hr, rfl⟩ := provLabelGet_eq_some_iff.mp hgetRight
  rw [hl, hr]
  dsimp only
  obtain ⟨dataRoots, dataTruncated, registry₁, hunion₁, hwf₁, hext₁, hdata⟩ :=
    provRootSetUnionLocked_spec h l.view.dataRoots r.view.dataRoots
  rw [hunion₁]
  dsimp only
  obtain ⟨addressRoots, addressTruncated, registry₂, hunion₂, hwf₂, hext₂, haddress⟩ :=
    provRootSetUnionLocked_spec hwf₁ l.view.addressRoots r.view.addressRoots
  rw [hunion₂]
  dsimp only
  obtain ⟨labelId, registry₃, hintern, hwf₃, hext₃, hlabel⟩ := provLabelInternLocked_spec hwf₂
    (provLabelJoined l.view r.view dataRoots addressRoots dataTruncated addressTruncated)
  rw [hintern]
  refine ⟨labelId, registry₃, rfl, hwf₃, (hext₁.trans hext₂).trans hext₃, ?_⟩
  rintro ⟨view, hget, hdataId, haddressId⟩
  have hview := hget.symm.trans (hlabel (provLabelGet_eq_some_iff.mp hget).1)
  obtain rfl := Option.some.inj hview
  have hsets := provLabelNormalize_sets
    (provLabelJoined l.view r.view dataRoots addressRoots dataTruncated addressTruncated)
  have hjoined : (provLabelJoined l.view r.view dataRoots addressRoots dataTruncated
      addressTruncated).dataRoots = dataRoots ∧ (provLabelJoined l.view r.view dataRoots
      addressRoots dataTruncated addressTruncated).addressRoots = addressRoots := by
    cases dataTruncated <;> cases addressTruncated <;> exact ⟨rfl, rfl⟩
  rw [hsets.1, hjoined.1] at hdataId
  rw [hsets.2, hjoined.2] at haddressId
  obtain ⟨hla, hlb, -⟩ := h.labelOk_of_get hgetLeft
  obtain ⟨hra', hrb', -⟩ := h.labelOk_of_get hgetRight
  -- both unions were served, so they are the cut unions of the meanings
  have hdata' := (hdata hdataId).mono (hext₂.trans hext₃)
  have haddress' := (haddress haddressId).mono hext₃
  rw [hda, hdb] at hdata'
  rw [hext₁.setMembers_eq hlb, hext₁.setMembers_eq hrb', haa, hab] at haddress'
  have hlimit₃ : registry₃.maxRootsPerSet = limit := by
    rw [((hext₁.trans hext₂).trans hext₃).limit, hlimit]
  obtain ⟨-, hmembers, hcut⟩ := hdata'
  obtain ⟨-, hmembers', hcut'⟩ := haddress'
  rw [hlimit₃] at hmembers hcut hmembers' hcut'
  subst hcut hcut'
  rw [provLabelNormalize_joined hma hmb hra hrb] at hget
  exact ⟨_, hget, hmembers, hmembers', rfl, rfl⟩

/-! ### Registries that can be built -/

/-- A later registry: well formed, with all that `registry` had. -/
structure Later (registry registry' : ProvRegistry) : Prop where
  wf : registry'.WF
  keeps : Extends registry registry'

theorem Later.refl {registry : ProvRegistry} (h : registry.WF) : Later registry registry :=
  ⟨h, Extends.refl registry⟩

theorem Later.trans {r₁ r₂ r₃ : ProvRegistry} (h : Later r₁ r₂) (h' : Later r₂ r₃) :
    Later r₁ r₃ :=
  ⟨h'.wf, h.keeps.trans h'.keeps⟩

/-- A registration of a resource or a root does not touch sets and labels. -/
theorem ProvRegistry.WF.setResources {registry : ProvRegistry} (h : registry.WF)
    (resources : ProvTable ProvResourceRecord) (roots : ProvTable ProvRootKey) (heap : Heap) :
    Later registry { registry with resources := resources, roots := roots, heap := heap } :=
  ⟨⟨h.limit_pos, h.rootSets, h.sets, h.setCount, h.labels, h.views, h.labelCount, h.cache⟩,
    ⟨List.prefix_rfl, List.prefix_rfl, rfl, rfl⟩⟩

theorem provResourceIntern_later {registry : ProvRegistry} (h : registry.WF)
    (key : ProvResourceKey) (displayName : Option (List UInt8)) (roles : BitVec 32) :
    Later registry (provResourceIntern registry key displayName roles).2 := by
  unfold provResourceIntern
  split
  · exact Later.refl h
  · split
    · exact h.setResources _ _ _
    · split
      · exact Later.refl h
      · dsimp only
        split_ifs <;> exact h.setResources _ _ _

theorem provRootIntern_later {registry : ProvRegistry} (h : registry.WF) (key : ProvRootKey) :
    Later registry (provRootIntern registry key).2 := by
  unfold provRootIntern
  split
  · exact Later.refl h
  · split
    · exact Later.refl h
    · split
      · exact Later.refl h
      · split
        · exact Later.refl h
        · dsimp only
          split_ifs <;> exact h.setResources _ _ _

/-- A set of one root is ascending and within every budget. -/
theorem provRootSetInternSortedLocked_singleton_later {registry : ProvRegistry}
    (h : registry.WF) (rootId : ℕ) :
    Later registry (provRootSetInternSortedLocked registry [rootId]).2 := by
  obtain ⟨setId, registry', heq, hwf, hext, -⟩ := provRootSetInternSortedLocked_spec h
    (List.pairwise_singleton _ rootId) (show [rootId].length ≤ _ from h.limit_pos)
  rw [heq]
  exact ⟨hwf, hext⟩

theorem provRootSetSingleton_later {registry : ProvRegistry} (h : registry.WF) (rootId : ℕ) :
    Later registry (provRootSetSingleton registry rootId).2 := by
  unfold provRootSetSingleton
  split_ifs
  · exact Later.refl h
  · exact provRootSetInternSortedLocked_singleton_later h rootId

theorem ascending_of_isChain_ne : ∀ {l : List ℕ}, l.Pairwise (· ≤ ·) → l.IsChain (· ≠ ·) →
    l.IsChain (· < ·)
  | [], _, _ => List.IsChain.nil
  | [a], _, _ => List.IsChain.singleton a
  | a :: b :: l, hle, hne => by
    obtain ⟨hab, hrest⟩ := List.isChain_cons_cons.mp hne
    have hle' := List.rel_of_pairwise_cons hle List.mem_cons_self
    exact List.isChain_cons_cons.mpr
      ⟨lt_of_le_of_ne hle' hab, ascending_of_isChain_ne hle.of_cons hrest⟩

/-- Sorting and dropping repetitions gives an ascending list. -/
theorem destutter_insertionSort_ascending (roots : List ℕ) :
    ((roots.insertionSort (· ≤ ·)).destutter (· ≠ ·)).Pairwise (· < ·) := by
  have hsorted : (roots.insertionSort (· ≤ ·)).Pairwise (· ≤ ·) := List.pairwise_insertionSort _ _
  exact List.isChain_iff_pairwise.mp (ascending_of_isChain_ne
    (hsorted.sublist (List.destutter_sublist _ _)) (List.isChain_destutter _ _))

theorem provRootSetIntern_later {registry : ProvRegistry} (h : registry.WF) (roots : List ℕ) :
    Later registry (provRootSetIntern registry roots).2.2 := by
  have hheap := h.setResources registry.resources registry.roots
    (registry.heap.calloc roots.length 4).2
  unfold provRootSetIntern
  dsimp only
  split_ifs
  · exact Later.refl h
  · exact hheap
  · exact hheap
  · obtain ⟨setId, registry', heq, hwf, hext, -⟩ := provRootSetInternSortedLocked_spec hheap.wf
      ((destutter_insertionSort_ascending roots).sublist
        (List.take_sublist registry.maxRootsPerSet _)) (List.length_take_le _ _)
    rw [heq]
    exact hheap.trans ⟨hwf, hext⟩

theorem provRootSetUnionLocked_later {registry : ProvRegistry} (h : registry.WF)
    (left right : ℕ) : Later registry (provRootSetUnionLocked registry left right).2.2 := by
  obtain ⟨setId, truncated, registry', heq, hwf, hext, -⟩ :=
    provRootSetUnionLocked_spec h left right
  rw [heq]
  exact ⟨hwf, hext⟩

theorem provLabelInternLocked_later {registry : ProvRegistry} (h : registry.WF)
    (input : ProvLabelView) : Later registry (provLabelInternLocked registry input).2 := by
  obtain ⟨labelId, registry', heq, hwf, hext, -⟩ := provLabelInternLocked_spec h input
  rw [heq]
  exact ⟨hwf, hext⟩

theorem provLabelFromRoot_later {registry : ProvRegistry} (h : registry.WF) (rootId : ℕ)
    (channel : ProvChannel) : Later registry (provLabelFromRoot registry rootId channel).2 := by
  have hset := provRootSetInternSortedLocked_singleton_later h rootId
  unfold provLabelFromRoot
  split
  · exact Later.refl h
  · dsimp only
    split
    · exact hset
    · exact hset.trans (provLabelInternLocked_later hset.wf _)

theorem provLabelJoinLocked_later {registry : ProvRegistry} (h : registry.WF) (left right : ℕ) :
    Later registry (provLabelJoinLocked registry left right).2 := by
  unfold provLabelJoinLocked
  split
  · exact Later.refl h
  · split
    · exact Later.refl h
    · split
      · rename_i a b _ _
        have hdata := provRootSetUnionLocked_later h a.view.dataRoots b.view.dataRoots
        have haddress := provRootSetUnionLocked_later hdata.wf a.view.addressRoots
          b.view.addressRoots
        exact (hdata.trans haddress).trans (provLabelInternLocked_later haddress.wf _)
      · exact Later.refl h

theorem joinManyFrom_later (labels : List ℕ) : ∀ {registry : ProvRegistry}, registry.WF →
    ∀ result, Later registry (joinManyFrom registry result labels).2 := by
  induction labels with
  | nil => exact fun h _ => Later.refl h
  | cons label labels ih =>
    intro registry h result
    have hjoin := provLabelJoinLocked_later h result label
    unfold joinManyFrom
    dsimp only
    split
    · exact hjoin
    · exact hjoin.trans (ih hjoin.wf _)

theorem provLabelAsAddressDependency_later {registry : ProvRegistry} (h : registry.WF)
    (labelId : ℕ) : Later registry (provLabelAsAddressDependency registry labelId).2 := by
  unfold provLabelAsAddressDependency
  split
  · exact Later.refl h
  · rename_i source _
    have hunion := provRootSetUnionLocked_later h source.dataRoots source.addressRoots
    dsimp only
    split
    · exact hunion
    · exact hunion.trans (provLabelInternLocked_later hunion.wf _)

theorem provLabelMarkIncomplete_later {registry : ProvRegistry} (h : registry.WF) (labelId : ℕ)
    (channels : BitVec 8) (reasons : BitVec 64) :
    Later registry (provLabelMarkIncomplete registry labelId channels reasons).2 := by
  unfold provLabelMarkIncomplete
  dsimp only
  split
  · exact Later.refl h
  · split
    · exact Later.refl h
    · exact provLabelInternLocked_later h _

/-- A registry as the interface of `provenance.c` can build it. -/
inductive RegistryReachable : ProvRegistry → Prop where
  | create {maxRoots heap registry} (h : provRegistryCreate maxRoots heap = some registry) :
      RegistryReachable registry
  | internResource {registry} (h : RegistryReachable registry) (key displayName roles) :
      RegistryReachable (provResourceIntern registry key displayName roles).2
  | internRoot {registry} (h : RegistryReachable registry) (key) :
      RegistryReachable (provRootIntern registry key).2
  | singleton {registry} (h : RegistryReachable registry) (rootId) :
      RegistryReachable (provRootSetSingleton registry rootId).2
  | internSet {registry} (h : RegistryReachable registry) (roots) :
      RegistryReachable (provRootSetIntern registry roots).2.2
  | unionSets {registry} (h : RegistryReachable registry) (left right) :
      RegistryReachable (provRootSetUnionLocked registry left right).2.2
  | internLabel {registry} (h : RegistryReachable registry) (input) :
      RegistryReachable (provLabelInternLocked registry input).2
  | labelFromRoot {registry} (h : RegistryReachable registry) (rootId channel) :
      RegistryReachable (provLabelFromRoot registry rootId channel).2
  | joinLabels {registry} (h : RegistryReachable registry) (left right) :
      RegistryReachable (provLabelJoinLocked registry left right).2
  | joinMany {registry} (h : RegistryReachable registry) (labels) :
      RegistryReachable (provLabelJoinMany registry labels).2
  | asAddressDependency {registry} (h : RegistryReachable registry) (labelId) :
      RegistryReachable (provLabelAsAddressDependency registry labelId).2
  | markIncomplete {registry} (h : RegistryReachable registry) (labelId channels reasons) :
      RegistryReachable (provLabelMarkIncomplete registry labelId channels reasons).2

/-- The tables before the two labels are there. -/
theorem ProvRegistry.WF.empty {limit : ℕ} (hpos : 0 < limit) (heap : Heap) : ProvRegistry.WF
    { maxRootsPerSet := limit
      resources := ProvTable.initial
      roots := ProvTable.initial
      rootSets := ProvTable.initial
      labels := ProvTable.initial
      unionCache := List.replicate provInitialBucketCount none
      unionCacheCount := 0
      unknownLabel := 0
      heap := heap } where
  limit_pos := hpos
  rootSets := ProvTable.WF.initial
  sets _ hr := (List.not_mem_nil hr).elim
  setCount := Nat.zero_le _
  labels := ProvTable.WF.initial
  views _ hr := (List.not_mem_nil hr).elim
  labelCount := Nat.zero_le _
  cache _ hentry := by cases List.eq_of_mem_replicate hentry

/-- A new registry is well formed, its clean label is clean, its unknown label is unknown. -/
theorem provRegistryCreate_spec {maxRoots : ℕ} {heap : Heap} {registry : ProvRegistry}
    (h : provRegistryCreate maxRoots heap = some registry) :
    registry.WF ∧ provLabelGet registry provLabelClean = some ⟨0, 0, provCompleteAll, 0⟩ ∧
      provLabelGet registry registry.unknownLabel = some ⟨0, 0, 0, provIncompleteUnknown⟩ := by
  unfold provRegistryCreate at h
  dsimp only at h
  have hpos : 0 < if maxRoots = 0 then provDefaultMaxRootsPerSet else maxRoots := by
    split_ifs with hzero
    · decide
    · exact Nat.pos_of_ne_zero hzero
  generalize (if maxRoots = 0 then provDefaultMaxRootsPerSet else maxRoots) = limit at h hpos
  split_ifs at h with hlimit hheap hclean hunknown
  obtain rfl := Option.some.inj h
  have hempty := ProvRegistry.WF.empty hpos ⟨fun n => heap.grants (n + 6)⟩
  obtain ⟨clean, r₁, hintern₁, hwf₁, hext₁, hget₁⟩ :=
    provLabelInternLocked_spec hempty ⟨0, 0, provCompleteAll, 0⟩
  rw [hintern₁] at hclean hunknown ⊢
  obtain ⟨unknown, r₂, hintern₂, hwf₂, hext₂, hget₂⟩ :=
    provLabelInternLocked_spec hwf₁ ⟨0, 0, 0, provIncompleteUnknown⟩
  rw [hintern₂] at hunknown ⊢
  obtain rfl : clean = provLabelClean := not_not.mp hclean
  obtain rfl : unknown = provLabelUnknown := not_not.mp hunknown
  have hgetClean := hext₂.provLabelGet_eq (hget₁ (by decide))
  exact ⟨⟨hwf₂.limit_pos, hwf₂.rootSets, hwf₂.sets, hwf₂.setCount, hwf₂.labels, hwf₂.views,
    hwf₂.labelCount, hwf₂.cache⟩, hgetClean, hget₂ (by decide)⟩

/-- One call of the interface. -/
inductive RegistryOp where
  | internResource (key : ProvResourceKey) (displayName : Option (List UInt8)) (roles : BitVec 32)
  | internRoot (key : ProvRootKey)
  | singleton (rootId : ℕ)
  | internSet (roots : List ℕ)
  | unionSets (left right : ℕ)
  | internLabel (input : ProvLabelView)
  | labelFromRoot (rootId : ℕ) (channel : ProvChannel)
  | joinLabels (left right : ℕ)
  | joinMany (labels : List ℕ)
  | asAddressDependency (labelId : ℕ)
  | markIncomplete (labelId : ℕ) (channels : BitVec 8) (reasons : BitVec 64)

/-- The registry after a call. -/
def RegistryOp.run (registry : ProvRegistry) : RegistryOp → ProvRegistry
  | internResource key displayName roles => (provResourceIntern registry key displayName roles).2
  | internRoot key => (provRootIntern registry key).2
  | singleton rootId => (provRootSetSingleton registry rootId).2
  | internSet roots => (provRootSetIntern registry roots).2.2
  | unionSets left right => (provRootSetUnionLocked registry left right).2.2
  | internLabel input => (provLabelInternLocked registry input).2
  | labelFromRoot rootId channel => (provLabelFromRoot registry rootId channel).2
  | joinLabels left right => (provLabelJoinLocked registry left right).2
  | joinMany labels => (provLabelJoinMany registry labels).2
  | asAddressDependency labelId => (provLabelAsAddressDependency registry labelId).2
  | markIncomplete labelId channels reasons =>
    (provLabelMarkIncomplete registry labelId channels reasons).2

/-- The registry after a sequence of calls. -/
def runRegistryOps (registry : ProvRegistry) (ops : List RegistryOp) : ProvRegistry :=
  ops.foldl RegistryOp.run registry

theorem RegistryOp.run_later {registry : ProvRegistry} (h : registry.WF) (op : RegistryOp) :
    Later registry (op.run registry) := by
  cases op with
  | internResource key name roles => exact provResourceIntern_later h key name roles
  | internRoot key => exact provRootIntern_later h key
  | singleton rootId => exact provRootSetSingleton_later h rootId
  | internSet roots => exact provRootSetIntern_later h roots
  | unionSets left right => exact provRootSetUnionLocked_later h left right
  | internLabel input => exact provLabelInternLocked_later h input
  | labelFromRoot rootId channel => exact provLabelFromRoot_later h rootId channel
  | joinLabels left right => exact provLabelJoinLocked_later h left right
  | joinMany labels => exact joinManyFrom_later labels h provLabelClean
  | asAddressDependency labelId => exact provLabelAsAddressDependency_later h labelId
  | markIncomplete labelId channels reasons =>
    exact provLabelMarkIncomplete_later h labelId channels reasons

theorem runRegistryOps_later (ops : List RegistryOp) : ∀ {registry : ProvRegistry}, registry.WF →
    Later registry (runRegistryOps registry ops) := by
  induction ops with
  | nil => exact fun h => Later.refl h
  | cons op ops ih => exact fun h => (op.run_later h).trans (ih (op.run_later h).wf)

/-- A call builds a registry from one that can be built. -/
theorem RegistryReachable.op {registry : ProvRegistry} (h : RegistryReachable registry) (op : RegistryOp) :
    RegistryReachable (op.run registry) := by
  cases op with
  | internResource key name roles => exact h.internResource key name roles
  | internRoot key => exact h.internRoot key
  | singleton rootId => exact h.singleton rootId
  | internSet roots => exact h.internSet roots
  | unionSets left right => exact h.unionSets left right
  | internLabel input => exact h.internLabel input
  | labelFromRoot rootId channel => exact h.labelFromRoot rootId channel
  | joinLabels left right => exact h.joinLabels left right
  | joinMany labels => exact h.joinMany labels
  | asAddressDependency labelId => exact h.asAddressDependency labelId
  | markIncomplete labelId channels reasons => exact h.markIncomplete labelId channels reasons

theorem RegistryReachable.ops (ops : List RegistryOp) : ∀ {registry : ProvRegistry},
    RegistryReachable registry → RegistryReachable (runRegistryOps registry ops) := by
  induction ops with
  | nil => exact fun h => h
  | cons op ops ih => exact fun h => ih (h.op op)

/-- What can be built is built by a sequence of calls. -/
theorem RegistryReachable.exists_ops {registry : ProvRegistry} (h : RegistryReachable registry) :
    ∃ maxRoots heap created ops, provRegistryCreate maxRoots heap = some created ∧
      registry = runRegistryOps created ops := by
  have happend : ∀ {registry : ProvRegistry} (op : RegistryOp),
      (∃ maxRoots heap created ops, provRegistryCreate maxRoots heap = some created ∧
        registry = runRegistryOps created ops) →
      ∃ maxRoots heap created ops, provRegistryCreate maxRoots heap = some created ∧
        op.run registry = runRegistryOps created ops := by
    rintro _ op ⟨maxRoots, heap, created, ops, hcreate, rfl⟩
    exact ⟨maxRoots, heap, created, ops ++ [op], hcreate,
      (List.foldl_concat RegistryOp.run created op ops).symm⟩
  induction h with
  | create h => exact ⟨_, _, _, [], h, rfl⟩
  | internResource _ key name roles ih => exact happend (.internResource key name roles) ih
  | internRoot _ key ih => exact happend (.internRoot key) ih
  | singleton _ rootId ih => exact happend (.singleton rootId) ih
  | internSet _ roots ih => exact happend (.internSet roots) ih
  | unionSets _ left right ih => exact happend (.unionSets left right) ih
  | internLabel _ input ih => exact happend (.internLabel input) ih
  | labelFromRoot _ rootId channel ih => exact happend (.labelFromRoot rootId channel) ih
  | joinLabels _ left right ih => exact happend (.joinLabels left right) ih
  | joinMany _ labels ih => exact happend (.joinMany labels) ih
  | asAddressDependency _ labelId ih => exact happend (.asAddressDependency labelId) ih
  | markIncomplete _ labelId channels reasons ih =>
    exact happend (.markIncomplete labelId channels reasons) ih

/-- A registry that can be built is a later state of a new one. -/
theorem RegistryReachable.later_created {registry : ProvRegistry} (h : RegistryReachable registry) :
    ∃ maxRoots heap created, provRegistryCreate maxRoots heap = some created ∧
      Later created registry := by
  obtain ⟨maxRoots, heap, created, ops, hcreate, rfl⟩ := h.exists_ops
  exact ⟨maxRoots, heap, created, hcreate,
    runRegistryOps_later ops (provRegistryCreate_spec hcreate).1⟩

/-- The unknown label stays unknown. -/
theorem RegistryReachable.get_unknown {registry : ProvRegistry} (h : RegistryReachable registry) :
    provLabelGet registry registry.unknownLabel = some ⟨0, 0, 0, provIncompleteUnknown⟩ := by
  obtain ⟨maxRoots, heap, created, hcreate, hlater⟩ := h.later_created
  rw [hlater.keeps.unknown]
  exact hlater.keeps.provLabelGet_eq (provRegistryCreate_spec hcreate).2.2

/-- What every registration keeps holds of every registry that can be built. -/
theorem RegistryReachable.wf_and_unknown {registry : ProvRegistry} (h : RegistryReachable registry) :
    registry.WF ∧ registry.unknownLabel < registry.labels.records.length := by
  refine ⟨?_, ?_⟩
  · obtain ⟨maxRoots, heap, created, -, hlater⟩ := h.later_created
    exact hlater.wf
  · obtain ⟨-, r, hr, -⟩ := provLabelGet_eq_some_iff.mp h.get_unknown
    exact (List.getElem?_eq_some_iff.mp hr).1

/-- The clean label stays clean. -/
theorem RegistryReachable.get_clean {registry : ProvRegistry} (h : RegistryReachable registry) :
    provLabelGet registry provLabelClean = some ⟨0, 0, provCompleteAll, 0⟩ := by
  obtain ⟨maxRoots, heap, created, hcreate, hlater⟩ := h.later_created
  exact hlater.keeps.provLabelGet_eq (provRegistryCreate_spec hcreate).2.1

/-- **The invariant holds of every registry that can be built.** -/
theorem RegistryReachable.wf {registry : ProvRegistry} (h : RegistryReachable registry) :
    registry.WF :=
  h.wf_and_unknown.1

end TaintForge
