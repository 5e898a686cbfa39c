import TaintForge.Prov.Equiv.Labels

/-!
# Identifiers are canonical

Under the invariant of the registry equal ids are equal contents: two root sets with the same
members have one id (`ProvRegistry.WF.setId_eq`), two labels with the same fields have one id
(`ProvRegistry.WF.labelId_eq`), and what is stored is found again by its own lookup, whatever was
stored after it and however often the index was rebuilt.
-/

namespace TaintForge

variable {registry : ProvRegistry}

/-- A stored root set is found by its lookup. -/
theorem ProvRegistry.WF.intern_stored (h : registry.WF) {setId : ℕ}
    (hid : setId ≤ registry.rootSets.records.length) :
    provRootSetInternSortedLocked registry (setRoots registry setId) = (setId, registry) := by
  cases setId with
  | zero => rfl
  | succ index =>
    have hget : registry.rootSets.records[index]? = some registry.rootSets.records[index] :=
      List.getElem?_eq_getElem hid
    generalize registry.rootSets.records[index] = r at hget
    have hok := h.sets r (List.mem_of_getElem? hget)
    have hroots : setRoots registry (index + 1) = r.roots := by
      rw [setRoots_succ, hget]
      rfl
    have hrecord : (⟨r.roots, provRootSetHash r.roots⟩ : ProvRootSetRecord) = r := by
      rw [← hok.hash_eq]
    have hlookup : registry.rootSets.toInternTable.lookup id (fun r => r.hash.toNat) r =
        some index := h.rootSets.index.lookup_eq_some_iff.mpr ⟨r, hget, rfl⟩
    rw [hroots, provRootSetInternSortedLocked,
      if_neg (Nat.pos_iff_ne_zero.mp (List.length_pos_of_ne_nil hok.nonempty))]
    dsimp only
    rw [hrecord, hlookup]

/-- A stored label is found by its lookup. -/
theorem ProvRegistry.WF.intern_label (h : registry.WF) {labelId : ℕ} {view : ProvLabelView}
    (hget : provLabelGet registry labelId = some view) :
    provLabelInternLocked registry view = (labelId, registry) := by
  obtain ⟨hdata, haddress, hnormal⟩ := h.labelOk_of_get hget
  obtain ⟨-, r, hr, rfl⟩ := provLabelGet_eq_some_iff.mp hget
  have hok := h.views r (List.mem_of_getElem? hr)
  have hlookup : registry.labels.toInternTable.lookup id (fun r => r.hash.toNat) r =
      some labelId := h.labels.index.lookup_eq_some_iff.mpr ⟨r, hr, rfl⟩
  have hvalid : ¬ (provRootSetIdValidLocked registry r.view.dataRoots = false ∨
      provRootSetIdValidLocked registry r.view.addressRoots = false) := by
    rw [not_or, Bool.not_eq_false, Bool.not_eq_false]
    exact ⟨provRootSetIdValidLocked_iff.mpr hdata, provRootSetIdValidLocked_iff.mpr haddress⟩
  rw [provLabelInternLocked, if_neg hvalid]
  dsimp only
  rw [hnormal, ← hok.hash_eq, hlookup]

/-- Two sets with the same roots have one id. -/
theorem ProvRegistry.WF.setId_eq (h : registry.WF) {left right : ℕ}
    (hleft : left ≤ registry.rootSets.records.length)
    (hright : right ≤ registry.rootSets.records.length)
    (heq : setRoots registry left = setRoots registry right) : left = right := by
  have hfound := h.intern_stored hleft
  rw [heq, h.intern_stored hright] at hfound
  exact (Prod.mk.inj hfound).1.symm

/-- The same, for sets given by their members: the order is canonical too. -/
theorem ProvRegistry.WF.setId_eq_of_members (h : registry.WF) {left right : ℕ}
    (hleft : left ≤ registry.rootSets.records.length)
    (hright : right ≤ registry.rootSets.records.length)
    (heq : setMembers registry left = setMembers registry right) : left = right := by
  exact h.setId_eq hleft hright
    (eq_of_ascending_of_toFinset_eq (h.ascending left) (h.ascending right) heq)

/-- Two labels with the same fields have one id. -/
theorem ProvRegistry.WF.labelId_eq (h : registry.WF) {left right : ℕ} {view : ProvLabelView}
    (hleft : provLabelGet registry left = some view)
    (hright : provLabelGet registry right = some view) : left = right := by
  have hfound := h.intern_label hleft
  rw [h.intern_label hright] at hfound
  exact (Prod.mk.inj hfound).1.symm

/-- **Hash-consing is canonical**: in every registry that can be built, ids are equal exactly when
the contents are, stored sets are ascending and within the budget, and every set and label is found
by its own lookup, which changes nothing. -/
theorem registry_hash_consing_canonical (h : RegistryReachable registry) :
    (∀ left right, provRootSetIdValidLocked registry left = true →
      provRootSetIdValidLocked registry right = true →
      (left = right ↔ setMembers registry left = setMembers registry right)) ∧
    (∀ left right a b, provLabelGet registry left = some a → provLabelGet registry right = some b →
      (left = right ↔ a = b)) ∧
    (∀ setId, provRootSetIdValidLocked registry setId = true →
      (setRoots registry setId).Pairwise (· < ·) ∧
        (setRoots registry setId).length ≤ registry.maxRootsPerSet) ∧
    (∀ setId, provRootSetIdValidLocked registry setId = true →
      provRootSetInternSortedLocked registry (setRoots registry setId) = (setId, registry)) ∧
    (∀ labelId view, provLabelGet registry labelId = some view →
      provLabelInternLocked registry view = (labelId, registry)) := by
  have hwf := h.wf
  refine ⟨fun left right hleft hright => ?_, fun left right a b hleft hright => ?_,
    fun setId _ => ⟨hwf.ascending setId, hwf.length_le setId⟩, fun setId hid => ?_,
    fun labelId view hget => hwf.intern_label hget⟩
  · rw [provRootSetIdValidLocked_iff] at hleft hright
    exact ⟨congrArg (setMembers registry), hwf.setId_eq_of_members hleft hright⟩
  · constructor
    · rintro rfl
      exact Option.some.inj (hleft.symm.trans hright)
    · rintro rfl
      exact hwf.labelId_eq hleft hright
  · exact hwf.intern_stored (provRootSetIdValidLocked_iff.mp hid)

/-- A registry with room for two roots in a set, three roots and a label for each of them. -/
def threeRootRegistry : ProvRegistry :=
  let root (n : ℕ) : ProvRootKey := ⟨.syscallValueByte, BitVec.ofNat 64 n, 0, 0, 0⟩
  let registry := (provRegistryCreate 2 ⟨fun _ => true⟩).get (by decide)
  let registry := (provRootIntern registry (root 1)).2
  let registry := (provRootIntern registry (root 2)).2
  let registry := (provRootIntern registry (root 3)).2
  let registry := (provLabelFromRoot registry 1 .data).2
  let registry := (provLabelFromRoot registry 2 .data).2
  (provLabelFromRoot registry 3 .data).2

theorem threeRootRegistry_reachable : RegistryReachable threeRootRegistry :=
  ((((((RegistryReachable.create (Option.some_get _).symm).internRoot _).internRoot _).internRoot
    _).labelFromRoot _ _).labelFromRoot _ _).labelFromRoot _ _

/-- The three labels and their sets are told apart. -/
theorem threeRootRegistry_canonical :
    (2 = 3 ↔ setMembers threeRootRegistry 2 = setMembers threeRootRegistry 3) ∧
      provRootSetInternSortedLocked threeRootRegistry (setRoots threeRootRegistry 2) =
        (2, threeRootRegistry) :=
  have h := registry_hash_consing_canonical threeRootRegistry_reachable
  ⟨h.1 2 3 (by decide) (by decide), h.2.2.2.1 2 (by decide)⟩

end TaintForge
