import TaintForge.Prov.Equiv.Canonical

/-!
# The join of labels as a semilattice of ids

Label ids are canonical and a join means the join of the meanings, so the laws of the meanings are
laws of the ids: `provLabelJoinLocked_comm`, `_self` and `_clean` hold of one call, the associative
law and the order of `provLabelJoinMany` across any later calls, cut sets and cached unions
included.
-/

namespace TaintForge

variable {registry : ProvRegistry} {limit : ℕ}

instance : OrderBot (LabelValue limit) where
  bot := LabelValue.clean
  bot_le a := sup_eq_right.mp ((LabelValue.join_comm _ _).trans (LabelValue.join_clean a))

/-! ### One call -/

theorem provRootSetUnionLocked_comm (h : registry.WF) (left right : ℕ) :
    provRootSetUnionLocked registry left right = provRootSetUnionLocked registry right left := by
  unfold provRootSetUnionLocked
  by_cases hvalid : provRootSetIdValidLocked registry left = false ∨
      provRootSetIdValidLocked registry right = false
  · rw [if_pos hvalid, if_pos hvalid.symm]
  have hvalid' : ¬ (provRootSetIdValidLocked registry right = false ∨
      provRootSetIdValidLocked registry left = false) := fun hswap => hvalid hswap.symm
  rw [if_neg hvalid, if_neg hvalid']
  by_cases hl : left = provRootSetEmpty
  · rw [if_pos hl]
    by_cases hr : right = provRootSetEmpty
    · rw [if_pos hr, hl, hr]
    · rw [if_neg hr, if_pos (Or.inl hl)]
  rw [if_neg hl]
  by_cases hr : right = provRootSetEmpty
  · rw [if_pos (Or.inl hr), if_pos hr]
  rw [if_neg hr]
  by_cases hsame : left = right
  · rw [if_pos (Or.inr hsame), if_pos (Or.inr hsame.symm), hsame]
  rw [if_neg (not_or.mpr ⟨hr, hsame⟩), if_neg (not_or.mpr ⟨hl, Ne.symm hsame⟩)]
  -- the cache key orders the two ids
  have hfirst : (if left < right then left else right) = if right < left then right else left := by
    split_ifs <;> omega
  have hsecond : (if left < right then right else left) = if right < left then left else right := by
    split_ifs <;> omega
  dsimp only
  rw [hfirst, hsecond]
  cases provUnionCacheLookupLocked registry _ with
  | some cached => rfl
  | none =>
    cases hleft : provRootSetRecordLocked registry left with
    | none => cases provRootSetRecordLocked registry right <;> rfl
    | some leftRecord =>
      cases hright : provRootSetRecordLocked registry right with
      | none => rfl
      | some rightRecord =>
        dsimp only
        rw [mergeRoots_comm (h.sets leftRecord (mem_of_provRootSetRecordLocked hleft)).ascending
          (h.sets rightRecord (mem_of_provRootSetRecordLocked hright)).ascending]

/-- The empty set adds nothing to a set. -/
theorem provRootSetUnionLocked_empty {setId : ℕ}
    (hid : provRootSetIdValidLocked registry setId = true) :
    provRootSetUnionLocked registry setId provRootSetEmpty = (setId, false, registry) := by
  unfold provRootSetUnionLocked
  rw [if_neg (by rw [hid]; simp [provRootSetIdValidLocked])]
  by_cases hempty : setId = provRootSetEmpty
  · rw [if_pos hempty, hempty]
  · rw [if_neg hempty, if_pos (Or.inl rfl)]

theorem provLabelJoined_comm (a b : ProvLabelView) (dataRoots addressRoots : ℕ) (d e : Bool) :
    provLabelJoined a b dataRoots addressRoots d e =
      provLabelJoined b a dataRoots addressRoots d e := by
  unfold provLabelJoined
  rw [BitVec.and_comm a.completeMask, BitVec.or_comm a.incompleteReasons]

/-- A join does not depend on the order of the labels, not even in what it does to the registry. -/
theorem provLabelJoinLocked_comm (h : registry.WF) (left right : ℕ) :
    provLabelJoinLocked registry left right = provLabelJoinLocked registry right left := by
  unfold provLabelJoinLocked
  by_cases hvalid : provLabelIdValidLocked registry left = false ∨
      provLabelIdValidLocked registry right = false
  · rw [if_pos hvalid, if_pos hvalid.symm]
  have hvalid' : ¬ (provLabelIdValidLocked registry right = false ∨
      provLabelIdValidLocked registry left = false) := fun hswap => hvalid hswap.symm
  rw [if_neg hvalid, if_neg hvalid']
  by_cases hsame : left = right
  · rw [hsame]
  rw [if_neg hsame, if_neg (Ne.symm hsame)]
  cases registry.labels.records[left]? with
  | none => cases registry.labels.records[right]? <;> rfl
  | some a =>
    cases registry.labels.records[right]? with
    | none => rfl
    | some b =>
      dsimp only
      have hdata := provRootSetUnionLocked_later h b.view.dataRoots a.view.dataRoots
      rw [provRootSetUnionLocked_comm h a.view.dataRoots,
        provRootSetUnionLocked_comm hdata.wf a.view.addressRoots, provLabelJoined_comm]

theorem provLabelJoinLocked_self {labelId : ℕ}
    (hid : provLabelIdValidLocked registry labelId = true) :
    provLabelJoinLocked registry labelId labelId = (labelId, registry) := by
  rw [provLabelJoinLocked, if_neg (by simp [hid]), if_pos rfl]

/-- Joining with the clean label does nothing. -/
theorem provLabelJoinLocked_clean (h : RegistryReachable registry) {labelId : ℕ}
    (hid : provLabelIdValidLocked registry labelId = true) :
    provLabelJoinLocked registry labelId provLabelClean = (labelId, registry) := by
  by_cases hclean : labelId = provLabelClean
  · rw [hclean] at hid ⊢
    exact provLabelJoinLocked_self hid
  obtain ⟨hne, clean, hcleanGet, hcleanView⟩ := provLabelGet_eq_some_iff.mp h.get_clean
  have hcleanValid : provLabelIdValidLocked registry provLabelClean = true :=
    provLabelIdValidLocked_iff.mpr ⟨hne, (List.getElem?_eq_some_iff.mp hcleanGet).1⟩
  obtain ⟨hlabel, hlt⟩ := provLabelIdValidLocked_iff.mp hid
  have hget : registry.labels.records[labelId]? = some registry.labels.records[labelId] :=
    List.getElem?_eq_getElem hlt
  generalize registry.labels.records[labelId] = r at hget
  have hview : provLabelGet registry labelId = some r.view :=
    provLabelGet_eq_some_iff.mpr ⟨hlabel, r, hget, rfl⟩
  obtain ⟨hdata, haddress, hnormal⟩ := h.wf.labelOk_of_get hview
  have hmask := provLabelNormalize_marks r.view
  rw [hnormal] at hmask
  -- nothing is added to either channel, so the label is the one that is stored
  have hjoined : provLabelJoined r.view clean.view r.view.dataRoots r.view.addressRoots false false =
      r.view := by
    rw [hcleanView]
    show ProvLabelView.mk r.view.dataRoots r.view.addressRoots (r.view.completeMask &&& provCompleteAll)
      (r.view.incompleteReasons ||| 0) = r.view
    rw [hmask.1]
    exact congrArg (ProvLabelView.mk _ _ _) BitVec.or_zero
  have hsets : clean.view.dataRoots = provRootSetEmpty ∧
      clean.view.addressRoots = provRootSetEmpty := by
    rw [hcleanView]
    exact ⟨rfl, rfl⟩
  rw [provLabelJoinLocked, if_neg (by simp [hid, hcleanValid]), if_neg hclean, hget, hcleanGet]
  dsimp only
  rw [hsets.1, hsets.2, provRootSetUnionLocked_empty (provRootSetIdValidLocked_iff.mpr hdata)]
  dsimp only
  rw [provRootSetUnionLocked_empty (provRootSetIdValidLocked_iff.mpr haddress)]
  dsimp only
  rw [hjoined]
  exact h.wf.intern_label hview

/-! ### Successful joins -/

/-- The call returned a label: no allocation failed and neither kind of id has run out. -/
def IdsLeft (result : ℕ × ProvRegistry) : Prop :=
  result.1 ≠ provLabelIdInvalid ∧ result.2.rootSets.records.length < uint32Max

instance (result : ℕ × ProvRegistry) : Decidable (IdsLeft result) :=
  inferInstanceAs (Decidable (_ ∧ _))

/-- A join that returned a label joined two labels and returned one whose sets have ids. -/
theorem IdsLeft.joinSucceeds (h : registry.WF) {left right : ℕ}
    (hids : IdsLeft (provLabelJoinLocked registry left right)) :
    provLabelIdValidLocked registry left = true ∧ provLabelIdValidLocked registry right = true ∧
      JoinSucceeds registry left right := by
  obtain ⟨hresult, hcount⟩ := hids
  have hvalid : provLabelIdValidLocked registry left = true ∧
      provLabelIdValidLocked registry right = true := by
    rw [← Bool.not_eq_false, ← Bool.not_eq_false, ← not_or]
    intro hinvalid
    apply hresult
    rw [provLabelJoinLocked, if_pos hinvalid]
  refine ⟨hvalid.1, hvalid.2, ?_⟩
  have hlater := provLabelJoinLocked_later h left right
  have hlabel : ∃ view, provLabelGet (provLabelJoinLocked registry left right).2
      (provLabelJoinLocked registry left right).1 = some view := by
    unfold provLabelJoinLocked at hresult ⊢
    rw [if_neg (by simp [hvalid])] at hresult ⊢
    split
    · obtain ⟨hne, hlt⟩ := provLabelIdValidLocked_iff.mp hvalid.1
      exact ⟨_, provLabelGet_eq_some_iff.mpr ⟨hne, _, List.getElem?_eq_getElem hlt, rfl⟩⟩
    · rename_i hsame
      rw [if_neg hsame] at hresult
      split
      · rename_i a b ha hb
        rw [ha, hb] at hresult
        dsimp only at hresult ⊢
        have hdata := provRootSetUnionLocked_later h a.view.dataRoots b.view.dataRoots
        have haddress := provRootSetUnionLocked_later hdata.wf a.view.addressRoots
          b.view.addressRoots
        obtain ⟨labelId, registry', hintern, -, -, hget⟩ := provLabelInternLocked_spec haddress.wf
          (provLabelJoined a.view b.view
            (provRootSetUnionLocked registry a.view.dataRoots b.view.dataRoots).1
            (provRootSetUnionLocked
              (provRootSetUnionLocked registry a.view.dataRoots b.view.dataRoots).2.2
              a.view.addressRoots b.view.addressRoots).1
            (provRootSetUnionLocked registry a.view.dataRoots b.view.dataRoots).2.1
            (provRootSetUnionLocked
              (provRootSetUnionLocked registry a.view.dataRoots b.view.dataRoots).2.2
              a.view.addressRoots b.view.addressRoots).2.1)
        rw [hintern] at hresult ⊢
        exact ⟨_, hget hresult⟩
      · rename_i hnone
        exfalso
        apply hresult
        split
        · rename_i a b ha hb
          exact (hnone a b ha hb).elim
        · rfl
  obtain ⟨view, hview⟩ := hlabel
  obtain ⟨hdata, haddress, -⟩ := hlater.wf.labelOk_of_get hview
  exact ⟨view, hview, Nat.ne_of_lt (hdata.trans_lt hcount), Nat.ne_of_lt (haddress.trans_lt hcount)⟩

/-- A successful join means the join of the meanings. -/
theorem IdsLeft.means (h : registry.WF) (hlimit : registry.maxRootsPerSet = limit)
    {left right : ℕ} {va vb : LabelValue limit} (hleft : Means registry left va)
    (hright : Means registry right vb) (hids : IdsLeft (provLabelJoinLocked registry left right)) :
    Means (provLabelJoinLocked registry left right).2 (provLabelJoinLocked registry left right).1
      (va ⊔ vb) := by
  obtain ⟨labelId, registry', hjoin, -, -, hmeans⟩ := provLabelJoinLocked_spec h hlimit hleft hright
  rw [hjoin]
  exact hmeans (hids.joinSucceeds h).2.2

/-- A meaning has one id. -/
theorem Means.id_eq (h : registry.WF) {left right : ℕ} {v : LabelValue limit}
    (hleft : Means registry left v) (hright : Means registry right v) : left = right := by
  obtain ⟨a, hgetLeft, hda, haa, hma, hra⟩ := hleft
  obtain ⟨b, hgetRight, hdb, hab, hmb, hrb⟩ := hright
  obtain ⟨hda', haa', -⟩ := h.labelOk_of_get hgetLeft
  obtain ⟨hdb', hab', -⟩ := h.labelOk_of_get hgetRight
  have hview : a = b := by
    cases a
    cases b
    exact ProvLabelView.mk.injEq .. ▸
      ⟨h.setId_eq_of_members hda' hdb' (hda.trans hdb.symm),
        h.setId_eq_of_members haa' hab' (haa.trans hab.symm), hma.trans hmb.symm,
        hra.trans hrb.symm⟩
  exact h.labelId_eq hgetLeft (hview ▸ hgetRight)

/-- The meaning of a label in a later registry. -/
theorem Means.later {registry' : ProvRegistry} (h : registry.WF) (hlater : Later registry registry')
    {labelId : ℕ} {v : LabelValue limit} (hmeans : Means registry labelId v) :
    Means registry' labelId v :=
  hmeans.mono h hlater.keeps

/-- **The commutative law**, with any calls between the two orders. -/
theorem provLabelJoinLocked_comm_later (h : registry.WF) {a b : ℕ} {ops : List RegistryOp}
    (hids : IdsLeft (provLabelJoinLocked registry a b))
    (hids' : IdsLeft (provLabelJoinLocked
      (runRegistryOps (provLabelJoinLocked registry a b).2 ops) b a)) :
    (provLabelJoinLocked registry a b).1 =
      (provLabelJoinLocked (runRegistryOps (provLabelJoinLocked registry a b).2 ops) b a).1 := by
  obtain ⟨ha, hb, -⟩ := hids.joinSucceeds h
  obtain ⟨va, hva⟩ := h.exists_means rfl ha
  obtain ⟨vb, hvb⟩ := h.exists_means rfl hb
  have hlater := provLabelJoinLocked_later h a b
  have hrun := runRegistryOps_later ops hlater.wf
  have hbetween := hlater.trans hrun
  have hfirst := hids.means h rfl hva hvb
  have hsecond := hids'.means hbetween.wf hbetween.keeps.limit (hvb.later h hbetween)
    (hva.later h hbetween)
  have hlater' := provLabelJoinLocked_later hbetween.wf b a
  rw [sup_comm] at hsecond
  exact Means.id_eq hlater'.wf (hfirst.later hlater.wf (hrun.trans hlater')) hsecond

/-- **The associative law**, with any calls between the two groupings. -/
theorem provLabelJoinLocked_assoc (h : registry.WF) {a b c : ℕ} {ops : List RegistryOp}
    {bc ab x y : ℕ} {r₁ r₂ r₃ r₄ : ProvRegistry}
    (hbc : provLabelJoinLocked registry b c = (bc, r₁)) (hbcIds : IdsLeft (bc, r₁))
    (hx : provLabelJoinLocked r₁ a bc = (x, r₂)) (hxIds : IdsLeft (x, r₂))
    (ha : provLabelIdValidLocked registry a = true)
    (hab : provLabelJoinLocked (runRegistryOps r₂ ops) a b = (ab, r₃)) (habIds : IdsLeft (ab, r₃))
    (hy : provLabelJoinLocked r₃ ab c = (y, r₄)) (hyIds : IdsLeft (y, r₄)) : x = y := by
  rw [← hbc] at hbcIds
  rw [← hx] at hxIds
  rw [← hab] at habIds
  rw [← hy] at hyIds
  obtain ⟨hb, hc, -⟩ := hbcIds.joinSucceeds h
  obtain ⟨va, hva⟩ := h.exists_means rfl ha
  obtain ⟨vb, hvb⟩ := h.exists_means rfl hb
  obtain ⟨vc, hvc⟩ := h.exists_means rfl hc
  -- the first grouping
  have hl₁ := provLabelJoinLocked_later h b c
  have hmbc := hbcIds.means h rfl hvb hvc
  rw [hbc] at hl₁ hmbc
  have hl₂ := provLabelJoinLocked_later hl₁.wf a bc
  have hmx := hxIds.means hl₁.wf hl₁.keeps.limit (hva.later h hl₁) hmbc
  rw [hx] at hl₂ hmx
  -- what happens in between
  have hrun := runRegistryOps_later ops hl₂.wf
  have hl₂' := (hl₁.trans hl₂).trans hrun
  -- the second grouping
  have hl₃ := provLabelJoinLocked_later hl₂'.wf a b
  have hmab := habIds.means hl₂'.wf hl₂'.keeps.limit (hva.later h hl₂') (hvb.later h hl₂')
  rw [hab] at hl₃ hmab
  have hl₃' := hl₂'.trans hl₃
  have hl₄ := provLabelJoinLocked_later hl₃.wf ab c
  have hmy := hyIds.means hl₃.wf hl₃'.keeps.limit hmab (hvc.later h hl₃')
  rw [hy] at hl₄ hmy
  rw [sup_assoc] at hmy
  exact Means.id_eq hl₄.wf (hmx.later hl₂.wf ((hrun.trans hl₃).trans hl₄)) hmy

/-! ### Many labels -/

/-- A successful join of many labels means the join of all their meanings. -/
theorem joinManyFrom_means (val : ℕ → LabelValue limit) (labels : List ℕ) :
    ∀ {registry : ProvRegistry} {result : ℕ} {v : LabelValue limit}, registry.WF →
      registry.maxRootsPerSet = limit → Means registry result v →
      (∀ label ∈ labels, Means registry label (val label)) →
      IdsLeft (joinManyFrom registry result labels) →
      Means (joinManyFrom registry result labels).2 (joinManyFrom registry result labels).1
        (v ⊔ labels.toFinset.sup val) := by
  induction labels with
  | nil =>
    intro registry result v _ _ hresult _ _
    rw [List.toFinset_nil, Finset.sup_empty, sup_bot_eq]
    exact hresult
  | cons label labels ih =>
    intro registry result v h hlimit hresult hlabels hids
    have hlater := provLabelJoinLocked_later h result label
    have hstep : joinManyFrom registry result (label :: labels) =
        if (provLabelJoinLocked registry result label).1 = provLabelIdInvalid then
          provLabelJoinLocked registry result label
        else joinManyFrom (provLabelJoinLocked registry result label).2
          (provLabelJoinLocked registry result label).1 labels := rfl
    by_cases hinvalid : (provLabelJoinLocked registry result label).1 = provLabelIdInvalid
    · -- a failure would have been returned
      rw [hstep, if_pos hinvalid] at hids
      exact absurd hinvalid hids.1
    rw [hstep, if_neg hinvalid] at hids ⊢
    -- the later joins only add sets
    have hcount : (provLabelJoinLocked registry result label).2.rootSets.records.length <
        uint32Max :=
      (joinManyFrom_later labels hlater.wf _).keeps.length_le.trans_lt hids.2
    have hjoin : IdsLeft (provLabelJoinLocked registry result label) := ⟨hinvalid, hcount⟩
    have hmeans := hjoin.means h hlimit hresult (hlabels label List.mem_cons_self)
    have hrest := ih hlater.wf (hlater.keeps.limit.trans hlimit) hmeans
      (fun other hother => (hlabels other (List.mem_cons_of_mem _ hother)).later h hlater) hids
    rw [List.toFinset_cons, Finset.sup_insert, ← sup_assoc]
    exact hrest

/-- The clean label means the least label. -/
theorem RegistryReachable.means_clean (h : RegistryReachable registry) :
    Means registry provLabelClean (⊥ : LabelValue limit) :=
  ⟨_, h.get_clean, rfl, rfl, rfl, rfl⟩

/-- Two lists with the same labels are joined to the same id, with any calls in between. -/
theorem provLabelJoinMany_congr (h : RegistryReachable registry) {labels labels' : List ℕ}
    (hvalid : ∀ label ∈ labels, provLabelIdValidLocked registry label = true)
    (hsame : ∀ label, label ∈ labels ↔ label ∈ labels') {ops : List RegistryOp}
    (hids : IdsLeft (provLabelJoinMany registry labels))
    (hids' : IdsLeft (provLabelJoinMany
      (runRegistryOps (provLabelJoinMany registry labels).2 ops) labels')) :
    (provLabelJoinMany registry labels).1 =
      (provLabelJoinMany (runRegistryOps (provLabelJoinMany registry labels).2 ops) labels').1 := by
  have hwf := h.wf
  have hval : ∀ label, ∃ v : LabelValue registry.maxRootsPerSet, label ∈ labels →
      Means registry label v := by
    intro label
    by_cases hmem : label ∈ labels
    · obtain ⟨v, hv⟩ := hwf.exists_means rfl (hvalid label hmem)
      exact ⟨v, fun _ => hv⟩
    · exact ⟨⊥, fun hmem' => absurd hmem' hmem⟩
  choose val hval using hval
  have hfirst := joinManyFrom_means val labels hwf rfl h.means_clean hval hids
  have hlater := joinManyFrom_later labels hwf provLabelClean
  have hrun := runRegistryOps_later ops hlater.wf
  have hbetween := hlater.trans hrun
  have hsecond := joinManyFrom_means val labels' hbetween.wf hbetween.keeps.limit
    (h.means_clean.later hwf hbetween)
    (fun label hlabel => (hval label ((hsame label).mpr hlabel)).later hwf hbetween) hids'
  have hlater' := joinManyFrom_later labels' hbetween.wf provLabelClean
  have hset : labels.toFinset = labels'.toFinset := by
    ext label
    rw [List.mem_toFinset, List.mem_toFinset]
    exact hsame label
  rw [← hset] at hsecond
  exact Means.id_eq hlater'.wf (hfirst.later hlater.wf (hrun.trans hlater')) hsecond

/-! ### The laws -/

/-- **The join of labels is a semilattice of ids** with the clean label as its least element: the
order and the grouping of the labels do not matter, nor do repetitions.  Where a law needs several
calls, none of them may fail; other calls may come in between. -/
theorem provLabelJoin_semilattice (h : RegistryReachable registry) {a b c : ℕ}
    (ha : provLabelIdValidLocked registry a = true) :
    provLabelJoinLocked registry a b = provLabelJoinLocked registry b a ∧
    (∀ ops, IdsLeft (provLabelJoinLocked registry a b) →
      IdsLeft (provLabelJoinLocked (runRegistryOps (provLabelJoinLocked registry a b).2 ops) b a) →
      (provLabelJoinLocked registry a b).1 =
        (provLabelJoinLocked (runRegistryOps (provLabelJoinLocked registry a b).2 ops) b a).1) ∧
    (∀ ops bc ab x y r₁ r₂ r₃ r₄,
      provLabelJoinLocked registry b c = (bc, r₁) → IdsLeft (bc, r₁) →
      provLabelJoinLocked r₁ a bc = (x, r₂) → IdsLeft (x, r₂) →
      provLabelJoinLocked (runRegistryOps r₂ ops) a b = (ab, r₃) → IdsLeft (ab, r₃) →
      provLabelJoinLocked r₃ ab c = (y, r₄) → IdsLeft (y, r₄) → x = y) ∧
    provLabelJoinLocked registry a a = (a, registry) ∧
    provLabelJoinLocked registry a provLabelClean = (a, registry) ∧
    (∀ labels labels' ops, (∀ label ∈ labels, provLabelIdValidLocked registry label = true) →
      (∀ label, label ∈ labels ↔ label ∈ labels') →
      IdsLeft (provLabelJoinMany registry labels) →
      IdsLeft (provLabelJoinMany (runRegistryOps (provLabelJoinMany registry labels).2 ops)
        labels') →
      (provLabelJoinMany registry labels).1 =
        (provLabelJoinMany (runRegistryOps (provLabelJoinMany registry labels).2 ops)
          labels').1) :=
  ⟨provLabelJoinLocked_comm h.wf a b, fun _ => provLabelJoinLocked_comm_later h.wf,
    fun _ _ _ _ _ _ _ _ _ hbc hbcIds hx hxIds hab habIds hy hyIds =>
      provLabelJoinLocked_assoc h.wf hbc hbcIds hx hxIds ha hab habIds hy hyIds,
    provLabelJoinLocked_self ha, provLabelJoinLocked_clean h ha,
    fun _ _ _ hvalid hsame hids hids' => provLabelJoinMany_congr h hvalid hsame hids hids'⟩

/-! Three labels of one root each, joined in both groupings; a set holds two roots. -/

/-- The join of the last two labels. -/
def threeRootLater : ℕ × ProvRegistry := provLabelJoinLocked threeRootRegistry 3 4

/-- The first label joined to that. -/
def threeRootRight : ℕ × ProvRegistry := provLabelJoinLocked threeRootLater.2 2 threeRootLater.1

/-- The join of the first two labels, made after it. -/
def threeRootEarlier : ℕ × ProvRegistry := provLabelJoinLocked threeRootRight.2 2 3

/-- That joined to the last label. -/
def threeRootLeft : ℕ × ProvRegistry :=
  provLabelJoinLocked threeRootEarlier.2 threeRootEarlier.1 4

/-- Three roots do not fit in two places: both groupings are cut, and give one incomplete label. -/
theorem threeRootRegistry_semilattice :
    threeRootRight.1 = threeRootLeft.1 ∧
    (provLabelGet threeRootRight.2 threeRootRight.1).map ProvLabelView.incompleteReasons =
      some provIncompleteRootSetBudget := by
  have hvalid : provLabelIdValidLocked threeRootRegistry 2 = true := by decide +kernel
  have hlater : IdsLeft threeRootLater := by decide +kernel
  have hright : IdsLeft threeRootRight := by decide +kernel
  have hearlier : IdsLeft threeRootEarlier := by decide +kernel
  have hleft : IdsLeft threeRootLeft := by decide +kernel
  have hassoc : ∀ r₁ r₂ r₃ r₄ : ℕ × ProvRegistry,
      provLabelJoinLocked threeRootRegistry 3 4 = r₁ → IdsLeft r₁ →
      provLabelJoinLocked r₁.2 2 r₁.1 = r₂ → IdsLeft r₂ →
      provLabelJoinLocked r₂.2 2 3 = r₃ → IdsLeft r₃ →
      provLabelJoinLocked r₃.2 r₃.1 4 = r₄ → IdsLeft r₄ → r₂.1 = r₄.1 := by
    intro r₁ r₂ r₃ r₄ h₁ hids₁ h₂ hids₂ h₃ hids₃ h₄ hids₄
    exact (provLabelJoin_semilattice threeRootRegistry_reachable hvalid).2.2.1 [] r₁.1 r₃.1 r₂.1 r₄.1
      r₁.2 r₂.2 r₃.2 r₄.2 h₁ hids₁ h₂ hids₂ h₃ hids₃ h₄ hids₄
  constructor
  · exact hassoc threeRootLater threeRootRight threeRootEarlier threeRootLeft threeRootLater.eq_1.symm
      hlater threeRootRight.eq_1.symm hright threeRootEarlier.eq_1.symm hearlier
      threeRootLeft.eq_1.symm hleft
  · decide +kernel

end TaintForge
