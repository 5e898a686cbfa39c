import TaintForge.Prov.Equiv.Exhausted
import TaintForge.Prov.Equiv.Sentinels

/-!
# What a registration may lack

A registration of the right things fails only when memory or the identifiers have run out.

* `ProvRegistry.Wider`: the tables do not shrink, and memory does not run out by itself.
* `ProvRegistry.Lacks`: there is no memory, or a table is full.
* `provRootIntern_lacks`, `provLabelFromRoot_lacks`, `provLabelMarkIncomplete_lacks`: who gets the
  sentinel lacks something.
-/

namespace TaintForge

open OpenAddr

/-! ### Tables -/

/-- The table does not shrink. -/
structure ProvTable.Wider {ρ : Type} (t t' : ProvTable ρ) : Prop where
  records : t.records.length ≤ t'.records.length
  buckets : t.buckets.length ≤ t'.buckets.length

/-- The last identifier has been reached, or the index with its successor does not fit in `size_t`. -/
def ProvTable.Full {ρ : Type} (t : ProvTable ρ) : Prop :=
  uint32Max ≤ t.records.length + 1 ∨ sizeMax < t.buckets.length * 8

namespace ProvTable

variable {ρ κ : Type} {key : ρ → κ} {hash : κ → ℕ} {t t' t'' : ProvTable ρ}

theorem Wider.refl (t : ProvTable ρ) : Wider t t := ⟨le_rfl, le_rfl⟩

theorem Wider.trans (h : Wider t t') (h' : Wider t' t'') : Wider t t'' :=
  ⟨h.records.trans h'.records, h.buckets.trans h'.buckets⟩

theorem Full.mono (hfull : t.Full) (h : Wider t t') : t'.Full := by
  have hrecords := h.records
  have hbuckets := h.buckets
  unfold Full at hfull ⊢
  omega

theorem reserve_wider (key : ρ → κ) (hash : κ → ℕ) (recordSize : ℕ) (t : ProvTable ρ) (heap : Heap) :
    Wider t (provTableReserve key hash recordSize t heap).2.1 := by
  unfold provTableReserve
  dsimp only
  split
  · exact .refl t
  · rename_i hgrow
    split
    · exact .refl t
    · refine ⟨?_, ?_⟩
      · show t.records.length ≤ (if _ then _ else t : ProvTable ρ).records.length
        split <;> exact le_rfl
      · show t.buckets.length ≤ (if _ then _ else t : ProvTable ρ).buckets.length
        split
        · rename_i hshould
          show t.buckets.length ≤ (t.toInternTable.rehash key hash _).buckets.length
          rw [InternTable.length_rehash]
          exact Nat.not_lt.mp fun hlt => hgrow ⟨hshould, hlt⟩
        · exact le_rfl

theorem push_wider (key : ρ → κ) (hash : κ → ℕ) (t : ProvTable ρ) (r : ρ) :
    Wider t (t.push key hash r) := by
  refine ⟨?_, ?_⟩
  · show t.records.length ≤ (t.records ++ [r]).length
    rw [List.length_append]
    omega
  · show t.buckets.length ≤ (InternTable.place t.buckets _ _).length
    rw [InternTable.length_place]

/-- A table that has no room for one more record is full, or there is no memory. -/
theorem WF.reserve_lacks (h : t.WF key hash) {recordSize : ℕ} (hpos : 0 < recordSize)
    (hsize : recordSize ≤ 64) {heap : Heap}
    (hroom : (provTableReserve key hash recordSize t heap).1 = false) : ¬heap.Ample ∨ t.Full := by
  obtain ⟨room, t', heap', hreserve, -, -, -, hroomy⟩ := provTableReserve_spec h recordSize hpos hsize heap
  rw [hreserve] at hroom
  by_contra hno
  rw [not_or, not_not] at hno
  obtain ⟨hample, hfull⟩ := hno
  unfold Full at hfull
  have hgranted := (hroomy ⟨hample, by omega, by omega⟩).1
  rw [hgranted] at hroom
  cases hroom

end ProvTable

/-! ### The registry -/

/-- The tables do not shrink, and memory does not run out by itself. -/
structure ProvRegistry.Wider (registry registry' : ProvRegistry) : Prop where
  ample : registry.heap.Ample → registry'.heap.Ample
  roots : registry.roots.Wider registry'.roots
  rootSets : registry.rootSets.Wider registry'.rootSets
  labels : registry.labels.Wider registry'.labels

/-- A table of the registry is full. -/
def ProvRegistry.Full (registry : ProvRegistry) : Prop :=
  registry.roots.Full ∨ registry.rootSets.Full ∨ registry.labels.Full

/-- Between two states of a registry memory or identifiers have run out. -/
def ProvRegistry.Lacks (registry registry' : ProvRegistry) : Prop :=
  ¬registry.heap.Ample ∨ registry'.Full

namespace ProvRegistry

variable {registry r₁ r₂ r₃ : ProvRegistry}

theorem Wider.refl (registry : ProvRegistry) : Wider registry registry :=
  ⟨id, .refl _, .refl _, .refl _⟩

theorem Wider.trans (h : Wider r₁ r₂) (h' : Wider r₂ r₃) : Wider r₁ r₃ :=
  ⟨h'.ample ∘ h.ample, h.roots.trans h'.roots, h.rootSets.trans h'.rootSets, h.labels.trans h'.labels⟩

theorem Full.mono (hfull : r₁.Full) (h : Wider r₁ r₂) : r₂.Full :=
  hfull.imp (·.mono h.roots) (.imp (·.mono h.rootSets) (·.mono h.labels))

theorem Lacks.later (hlacks : Lacks r₁ r₂) (h : Wider r₂ r₃) : Lacks r₁ r₃ := hlacks.imp_right (·.mono h)

theorem Lacks.earlier (h : Wider r₁ r₂) (hlacks : Lacks r₂ r₃) : Lacks r₁ r₃ :=
  hlacks.imp_left fun hno hample => hno (h.ample hample)

end ProvRegistry

open ProvRegistry

variable {registry : ProvRegistry}

theorem provRootIntern_wider (registry : ProvRegistry) (key : ProvRootKey) :
    Wider registry (provRootIntern registry key).2 := by
  have hreserve := ProvTable.reserve_wider id rootHash 40 registry.roots registry.heap
  have hample := fun h : registry.heap.Ample => provTableReserve_ample id rootHash 40 registry.roots h
  unfold provRootIntern
  dsimp only
  split
  · exact .refl registry
  split
  · exact .refl registry
  split
  · exact .refl registry
  split
  · exact .refl registry
  split
  · exact ⟨hample, hreserve, .refl _, .refl _⟩
  · exact ⟨hample, hreserve.trans (ProvTable.push_wider id rootHash _ key), .refl _, .refl _⟩

theorem provRootSetInternSortedLocked_wider (registry : ProvRegistry) (roots : List ℕ) :
    Wider registry (provRootSetInternSortedLocked registry roots).2 := by
  have hreserve := ProvTable.reserve_wider id (fun r : ProvRootSetRecord => r.hash.toNat) 24
    registry.rootSets registry.heap
  have hample := fun h : registry.heap.Ample =>
    provTableReserve_ample id (fun r : ProvRootSetRecord => r.hash.toNat) 24 registry.rootSets h
  unfold provRootSetInternSortedLocked
  dsimp only
  split
  · exact .refl registry
  split
  · exact .refl registry
  split
  · exact .refl registry
  split
  · exact ⟨hample, .refl _, hreserve, .refl _⟩
  split
  · exact ⟨fun h => (hample h).next, .refl _, hreserve, .refl _⟩
  · exact ⟨fun h => (hample h).next, .refl _, hreserve.trans (ProvTable.push_wider id _ _ _), .refl _⟩

theorem provLabelInternLocked_wider (registry : ProvRegistry) (input : ProvLabelView) :
    Wider registry (provLabelInternLocked registry input).2 := by
  have hreserve := ProvTable.reserve_wider id (fun r : ProvLabelRecord => r.hash.toNat) 32
    registry.labels registry.heap
  have hample := fun h : registry.heap.Ample =>
    provTableReserve_ample id (fun r : ProvLabelRecord => r.hash.toNat) 32 registry.labels h
  unfold provLabelInternLocked
  dsimp only
  split
  · exact .refl registry
  split
  · exact .refl registry
  split
  · exact .refl registry
  split
  · exact ⟨hample, .refl _, .refl _, hreserve⟩
  · exact ⟨hample, .refl _, .refl _, hreserve.trans (ProvTable.push_wider id _ _ _)⟩

theorem provLabelFromRoot_wider (registry : ProvRegistry) (rootId : ℕ) (channel : ProvChannel) :
    Wider registry (provLabelFromRoot registry rootId channel).2 := by
  have hset := provRootSetInternSortedLocked_wider registry [rootId]
  unfold provLabelFromRoot
  dsimp only
  split
  · exact .refl registry
  split
  · exact hset
  · exact hset.trans (provLabelInternLocked_wider _ _)

theorem provLabelMarkIncomplete_wider (registry : ProvRegistry) (labelId : ℕ) (channels : BitVec 8)
    (reasons : BitVec 64) : Wider registry (provLabelMarkIncomplete registry labelId channels reasons).2 := by
  unfold provLabelMarkIncomplete
  dsimp only
  split
  · exact .refl registry
  split
  · exact .refl registry
  · exact provLabelInternLocked_wider registry _

/-! ### Sentinels -/

theorem provRootIntern_lacks (h : KeysWF registry) {key : ProvRootKey} (haccepts : AcceptsRoot registry key)
    (hid : (provRootIntern registry key).1 = provRootIdInvalid) :
    Lacks registry (provRootIntern registry key).2 := by
  refine Lacks.later (?_ : Lacks registry registry) (provRootIntern_wider registry key)
  unfold provRootIntern at hid
  rw [if_neg haccepts.1, if_neg haccepts.2] at hid
  dsimp only at hid
  split at hid
  · cases hid
  split at hid
  · rename_i hfull
    exact Or.inr (.inl (.inl (hfull.trans (Nat.le_succ _))))
  split at hid
  · rename_i hroom
    exact (h.roots.reserve_lacks (by decide) (by decide) hroom).imp_right .inl
  · cases hid

theorem provRootSetInternSortedLocked_lacks (h : registry.WF) {rootId : ℕ}
    (hid : (provRootSetInternSortedLocked registry [rootId]).1 = provRootSetIdInvalid) :
    Lacks registry (provRootSetInternSortedLocked registry [rootId]).2 := by
  refine Lacks.later (?_ : Lacks registry registry) (provRootSetInternSortedLocked_wider registry [rootId])
  have hfull : provRootSetIdInvalid ≤ registry.rootSets.records.length + 1 → Lacks registry registry :=
    fun hle => Or.inr (.inr (.inl (.inl hle)))
  unfold provRootSetInternSortedLocked at hid
  rw [if_neg (show [rootId].length ≠ 0 from Nat.succ_ne_zero 0)] at hid
  dsimp only at hid
  split at hid
  · -- the last identifier is the sentinel
    rename_i index hlookup
    obtain ⟨record, hrecord, -⟩ := h.rootSets.index.lookup_eq_some_iff.mp hlookup
    have hlt := (List.getElem?_eq_some_iff.mp hrecord).1
    apply hfull
    omega
  split at hid
  · rename_i hlength
    exact hfull (hlength.trans (Nat.le_succ _))
  have hample := fun h : registry.heap.Ample =>
    provTableReserve_ample id (fun r : ProvRootSetRecord => r.hash.toNat) 24 registry.rootSets h
  obtain ⟨room, table, heap, hreserve, -, hrecords, -, -⟩ :=
    provTableReserve_spec h.rootSets 24 (by omega) (by omega) registry.heap
  rw [hreserve] at hid hample
  dsimp only at hid hample
  split at hid
  · rename_i hroom
    refine (h.rootSets.reserve_lacks (show 0 < 24 by decide) (by decide) ?_).imp_right fun h => .inr (.inl h)
    rw [hreserve]
    exact hroom
  split at hid
  · rename_i hgranted
    refine Or.inl fun h => ?_
    rw [List.length_singleton, (hample h).calloc (by decide)] at hgranted
    cases hgranted
  · dsimp only at hid
    rw [hrecords] at hid
    exact hfull hid.ge

theorem provLabelInternLocked_lacks (h : registry.WF) {input : ProvLabelView}
    (hdata : provRootSetIdValidLocked registry input.dataRoots = true)
    (haddress : provRootSetIdValidLocked registry input.addressRoots = true)
    (hid : (provLabelInternLocked registry input).1 = provLabelIdInvalid) :
    Lacks registry (provLabelInternLocked registry input).2 := by
  refine Lacks.later (?_ : Lacks registry registry) (provLabelInternLocked_wider registry input)
  have hfull : provLabelIdInvalid ≤ registry.labels.records.length + 1 → Lacks registry registry :=
    fun hle => Or.inr (.inr (.inr (.inl hle)))
  unfold provLabelInternLocked at hid
  rw [if_neg (by rw [hdata, haddress]; decide)] at hid
  dsimp only at hid
  split at hid
  · rename_i index hlookup
    obtain ⟨record, hrecord, -⟩ := h.labels.index.lookup_eq_some_iff.mp hlookup
    have hlt := (List.getElem?_eq_some_iff.mp hrecord).1
    apply hfull
    omega
  split at hid
  · rename_i hlength
    exact hfull (hlength.trans (Nat.le_succ _))
  obtain ⟨room, table, heap, hreserve, -, hrecords, -, -⟩ :=
    provTableReserve_spec h.labels 32 (by omega) (by omega) registry.heap
  rw [hreserve] at hid
  dsimp only at hid
  split at hid
  · rename_i hroom
    refine (h.labels.reserve_lacks (show 0 < 32 by decide) (by decide) ?_).imp_right fun h => .inr (.inr h)
    rw [hreserve]
    exact hroom
  · dsimp only at hid
    rw [hrecords] at hid
    exact hfull (hid.ge.trans (Nat.le_succ _))

/-- A root that is registered gets a label, unless something has run out. -/
theorem provLabelFromRoot_lacks (h : registry.WF) {rootId : ℕ} {key : ProvRootKey}
    (hroot : provRootGet registry rootId = some key) {channel : ProvChannel}
    (hid : (provLabelFromRoot registry rootId channel).1 = provLabelIdInvalid) :
    Lacks registry (provLabelFromRoot registry rootId channel).2 := by
  obtain ⟨index, rfl, hindex⟩ := provRootGet_eq_some hroot
  have hlt := (List.getElem?_eq_some_iff.mp hindex).1
  have hlacks := @provRootSetInternSortedLocked_lacks registry h (index + 1)
  obtain ⟨setId, registry', heq, hwf', hext, hset⟩ := provRootSetInternSortedLocked_spec h
    (List.pairwise_singleton _ (index + 1)) (show [index + 1].length ≤ _ from h.limit_pos)
  have hwider := provRootSetInternSortedLocked_wider registry [index + 1]
  unfold provLabelFromRoot at hid ⊢
  rw [if_neg (show ¬(index + 1 = provRootIdInvalid ∨ index + 1 > registry.roots.records.length) by
    rw [provRootIdInvalid]; omega)] at hid ⊢
  rw [heq] at hid hlacks hwider ⊢
  dsimp only at hid hlacks hwider ⊢
  split
  · rename_i hinvalid
    exact hlacks hinvalid
  · rename_i hvalid
    rw [if_neg hvalid] at hid
    have hsetId := provRootSetIdValidLocked_iff.mpr (hset hvalid).1
    refine Lacks.earlier hwider (provLabelInternLocked_lacks hwf' ?_ ?_ hid)
    · dsimp only
      split
      · exact hsetId
      · rfl
    · dsimp only
      split
      · exact hsetId
      · rfl

theorem provLabelMarkIncomplete_lacks (h : registry.WF) {labelId : ℕ} {view : ProvLabelView}
    (hlabel : provLabelGet registry labelId = some view) {channels : BitVec 8} {reasons : BitVec 64}
    (hid : (provLabelMarkIncomplete registry labelId channels reasons).1 = provLabelIdInvalid) :
    Lacks registry (provLabelMarkIncomplete registry labelId channels reasons).2 := by
  obtain ⟨hdata, haddress, -⟩ := h.labelOk_of_get hlabel
  obtain ⟨hne, -⟩ := provLabelGet_eq_some_iff.mp hlabel
  unfold provLabelMarkIncomplete at hid ⊢
  dsimp only at hid ⊢
  split
  · rename_i hnone
    rw [if_pos hnone] at hid
    exact absurd hid hne
  · rename_i hsome
    rw [if_neg hsome] at hid
    rw [hlabel] at hid ⊢
    exact provLabelInternLocked_lacks h (provRootSetIdValidLocked_iff.mpr hdata)
      (provRootSetIdValidLocked_iff.mpr haddress) hid

end TaintForge
