import TaintForge.Prov.Registry

/-!
# The interning tables of the registry

* `ProvTable.WF`: the index of a table finds every record.
* `provTableReserve_spec`: making room keeps a table well formed; without memory nothing is lost.
* `provResourceIntern_spec`: interning returns the one id of a key, and ids keep their keys.
-/

namespace TaintForge

open OpenAddr

/-- The index of the table finds every record, and its buckets fit in `size_t`. -/
structure ProvTable.WF {ρ κ : Type} (key : ρ → κ) (hash : κ → ℕ) (t : ProvTable ρ) : Prop where
  index : InternTable.WF key hash t.toInternTable
  alloc : t.buckets.length * 4 ≤ sizeMax

/-- There is memory, and an identifier, for one more record. -/
structure ProvTable.Roomy {ρ : Type} (t : ProvTable ρ) (heap : Heap) : Prop where
  ample : heap.Ample
  buckets : t.buckets.length * 8 ≤ sizeMax
  records : t.records.length < uint32Max

variable {ρ κ : Type} {key : ρ → κ} {hash : κ → ℕ}

theorem ProvTable.WF.initial : ProvTable.WF key hash (.initial : ProvTable ρ) :=
  ⟨InternTable.wf_empty key hash 4, by
    change (List.replicate provInitialBucketCount 0).length * 4 ≤ sizeMax
    rw [List.length_replicate]
    decide⟩

theorem two_pow_le_of_mul_four {k : ℕ} (h : 2 ^ k * 4 ≤ sizeMax) : 2 ^ k ≤ 2 ^ 61 := by
  have hlt : 2 ^ k < 2 ^ 62 := by
    simp only [sizeMax] at h
    omega
  have hk : k < 62 := (Nat.pow_lt_pow_iff_right (by omega)).mp hlt
  exact Nat.pow_le_pow_right (by omega) (by omega)

/-- Making room for one record. -/
theorem provTableReserve_spec {t : ProvTable ρ} (h : t.WF key hash) (recordSize : ℕ)
    (hpos : 0 < recordSize) (hsize : recordSize ≤ 64) (heap : Heap) :
    ∃ room t' heap', provTableReserve key hash recordSize t heap = (room, t', heap') ∧
      t'.WF key hash ∧ t'.records = t.records ∧
      (room = true → t'.records.length + 1 < t'.buckets.length) ∧
      (t.Roomy heap → room = true ∧ heap'.Ample) := by
  obtain ⟨k, hk⟩ := h.index.indexed
  have hlen : t.buckets.length = 2 ^ k := hk.size
  have hroom : t.records.length < t.buckets.length := h.index.room
  have hsmall : 2 ^ k ≤ 2 ^ 61 := two_pow_le_of_mul_four (hlen ▸ h.alloc)
  have hcap : provNextCapacity (2 ^ k) = 2 ^ (k + 1) :=
    provNextCapacity_pow (by simp only [sizeMax]; omega)
  have hlt : 2 ^ k < 2 ^ (k + 1) := Nat.pow_lt_pow_right (by omega) (by omega)
  -- the second step, whatever table the first one left
  have hstep : ∀ (t₁ : ProvTable ρ) (heap₁ : Heap), t₁.WF key hash → t₁.records = t.records →
      t.records.length + 1 < t₁.buckets.length → (t.Roomy heap → heap₁.Ample) →
      ∃ room capacity heap', provGrowArray heap₁ recordSize t₁.capacity (t₁.records.length + 1) =
          (room, capacity, heap') ∧
        ({ t₁ with capacity := capacity } : ProvTable ρ).WF key hash ∧
        (t.Roomy heap → room = true ∧ heap'.Ample) := by
    intro t₁ heap₁ h₁ hrecords hspare hample
    cases hga : provGrowArray heap₁ recordSize t₁.capacity (t₁.records.length + 1) with | mk room rest
    obtain ⟨capacity, heap'⟩ := rest
    refine ⟨room, capacity, heap', rfl, ⟨h₁.index, h₁.alloc⟩, fun hr => ?_⟩
    have hrequired : t₁.records.length + 1 ≤ 2 ^ 32 := by
      have := hr.records
      simp only [uint32Max] at this
      rw [hrecords]
      omega
    obtain ⟨_, _, hgranted, hample'⟩ :=
      (hample hr).growArray recordSize t₁.capacity hrequired hpos hsize
    rw [hga] at hgranted
    simp only [Prod.mk.injEq] at hgranted
    exact ⟨hgranted.1, hgranted.2.2 ▸ hample'⟩
  unfold provTableReserve
  dsimp only
  rw [hlen, hcap]
  cases hgrow : provShouldGrow (t.records.length + 1) (2 ^ k) with
  | false =>
    simp only [Bool.false_eq_true, false_and, if_false]
    have hspare := lt_of_not_provShouldGrow (by simp only [sizeMax]; omega) hgrow
    obtain ⟨room, capacity, heap', hga, hwf, hroomy⟩ :=
      hstep t heap h rfl (hlen ▸ hspare) fun hr => hr.ample
    rw [hga]
    exact ⟨room, _, heap', rfl, hwf, rfl, fun _ => hlen ▸ hspare, hroomy⟩
  | true =>
    simp only [true_and, Nat.not_lt.mpr hlt.le, if_false, if_true]
    cases hcalloc : heap.calloc (2 ^ (k + 1)) 4 with | mk granted heap₁
    cases granted with
    | false =>
      refine ⟨false, t, heap₁, rfl, h, rfl, Bool.noConfusion, fun hr => ?_⟩
      have hfit : 2 ^ (k + 1) * 4 ≤ sizeMax := by
        have := hr.buckets
        rw [hlen] at this
        omega
      rw [hr.ample.calloc hfit] at hcalloc
      cases hcalloc
    | true =>
      have hfit : 2 ^ (k + 1) * 4 ≤ sizeMax :=
        Heap.calloc_le (show (heap.calloc _ _).1 = true by rw [hcalloc])
      simp only [Bool.true_eq_false, if_false]
      have hnew := InternTable.length_rehash key hash t.toInternTable (2 ^ (k + 1))
      obtain ⟨room, capacity, heap', hga, hwf, hroomy⟩ := hstep
        { t with toInternTable := t.toInternTable.rehash key hash (2 ^ (k + 1)) } heap₁
        ⟨h.index.rehash (by omega), by rw [hnew]; exact hfit⟩ rfl (by rw [hnew]; omega)
        fun hr => by
          rw [hr.ample.calloc hfit] at hcalloc
          exact (Prod.mk.inj hcalloc).2 ▸ hr.ample.next
      rw [hga]
      refine ⟨room, _, heap', rfl, hwf, rfl, fun _ => ?_, hroomy⟩
      show t.records.length + 1 < _
      rw [hnew]
      omega

/-- Appending a record with a new key, when there is room. -/
theorem ProvTable.WF.push {t : ProvTable ρ} (h : t.WF key hash) {r : ρ}
    (hfresh : ∀ r' ∈ t.records, key r' ≠ key r)
    (hroom : t.records.length + 1 < t.buckets.length) : (t.push key hash r).WF key hash := by
  refine ⟨h.index.insert hfresh hroom, ?_⟩
  change (InternTable.place t.buckets _ _).length * 4 ≤ sizeMax
  rw [InternTable.length_place]
  exact h.alloc

/-! ### Resources -/

/-- The resources of a registry are found by their keys. -/
def ResourcesWF (registry : ProvRegistry) : Prop :=
  registry.resources.WF ProvResourceRecord.key resourceHash

/-- The key a resource id stands for. -/
def resourceKey (registry : ProvRegistry) (resourceId : ℕ) : Option ProvResourceKey :=
  (provResourceGet registry resourceId).map ProvResourceRecord.key

theorem resourceKey_succ (registry : ProvRegistry) (index : ℕ) :
    resourceKey registry (index + 1) =
      (registry.resources.records.map ProvResourceRecord.key)[index]? := by
  rw [resourceKey, provResourceGet, if_neg (by simp [provResourceIdInvalid]), List.getElem?_map]
  rfl

/-- What interning a resource achieves: ids that were given out keep their keys, the id returned is
the id of the key, and with memory to spare there is one. -/
structure ResourceInterned (registry : ProvRegistry) (k : ProvResourceKey)
    (displayName : Option (List UInt8)) (id : ℕ) (registry' : ProvRegistry) : Prop where
  wf : ResourcesWF registry'
  keeps : ∀ i x, resourceKey registry i = some x → resourceKey registry' i = some x
  names : id ≠ provResourceIdInvalid → resourceKey registry' id = some k
  same : ∀ i, resourceKey registry i = some k → k.kind ≠ .invalid → id = i
  succeeds : registry.resources.Roomy registry.heap → k.kind ≠ .invalid →
    (∀ name ∈ displayName, name.length < sizeMax) → id ≠ provResourceIdInvalid

/-- A failure that left the records alone. -/
theorem ResourceInterned.refused {registry registry' : ProvRegistry} {k : ProvResourceKey}
    {displayName : Option (List UInt8)} (hwf : ResourcesWF registry')
    (hrecords : registry'.resources.records = registry.resources.records)
    (hnew : ∀ i, resourceKey registry i = some k → k.kind ≠ .invalid → False)
    (hroomy : registry.resources.Roomy registry.heap → k.kind ≠ .invalid →
      (∀ name ∈ displayName, name.length < sizeMax) → False) :
    ResourceInterned registry k displayName provResourceIdInvalid registry' where
  wf := hwf
  keeps i x hx := by
    rw [resourceKey, provResourceGet] at hx ⊢
    rwa [hrecords]
  names h := absurd rfl h
  same i hi hk := (hnew i hi hk).elim
  succeeds hr hk hn := (hroomy hr hk hn).elim

theorem provResourceIntern_spec {registry : ProvRegistry} (h : ResourcesWF registry)
    (k : ProvResourceKey) (displayName : Option (List UInt8)) (roles : BitVec 32) :
    ∃ id registry', provResourceIntern registry k displayName roles = (id, registry') ∧
      ResourceInterned registry k displayName id registry' := by
  unfold provResourceIntern
  by_cases hkind : k.kind = .invalid
  · rw [if_pos hkind]
    exact ⟨_, _, rfl, .refused h rfl (fun _ _ hk => hk hkind) fun _ hk _ => hk hkind⟩
  rw [if_neg hkind]
  cases hlookup : registry.resources.toInternTable.lookup ProvResourceRecord.key resourceHash k with
  | some index =>
    obtain ⟨r, hr, hkey⟩ := h.index.lookup_eq_some_iff.mp hlookup
    -- refreshing a record leaves the keys as they are
    have hkeys : (registry.resources.records.modify index
        (refreshResource displayName roles)).map ProvResourceRecord.key =
          registry.resources.records.map ProvResourceRecord.key := by
      refine List.ext_getElem? fun i => ?_
      rw [List.getElem?_map, List.getElem?_map, List.getElem?_modify]
      cases registry.resources.records[i]? with
      | none => rfl
      | some x => split_ifs <;> simp [refreshResource]
    refine ⟨index + 1, _, rfl, ?_⟩
    have hkeep : ∀ registry', registry'.resources.records.map ProvResourceRecord.key =
        registry.resources.records.map ProvResourceRecord.key →
        ∀ i, resourceKey registry' i = resourceKey registry i := by
      intro registry' heq i
      cases i with
      | zero => rfl
      | succ i => rw [resourceKey_succ, resourceKey_succ, heq]
    have hown : resourceKey registry (index + 1) = some k := by
      rw [resourceKey_succ, List.getElem?_map, hr, Option.map_some, hkey]
    constructor
    · exact ⟨h.index.congr_keys hkeys, h.alloc⟩
    · exact fun i x hx => (hkeep _ hkeys i).trans hx
    · exact fun _ => (hkeep _ hkeys _).trans hown
    · intro i hi _
      cases i with
      | zero => simp [resourceKey, provResourceGet, provResourceIdInvalid] at hi
      | succ i =>
        rw [resourceKey_succ, List.getElem?_map] at hi
        obtain ⟨r', hr', hkey'⟩ := Option.map_eq_some_iff.mp hi
        have hsame := h.index.lookup_eq_some_iff.mpr ⟨r', hr', hkey'⟩
        rw [hlookup] at hsame
        rw [Option.some.inj hsame]
    · exact fun _ _ _ => Nat.succ_ne_zero index
  | none =>
    have hfresh := h.index.lookup_eq_none_iff.mp hlookup
    have hnew : ∀ i, resourceKey registry i = some k → k.kind ≠ .invalid → False := by
      intro i hi _
      cases i with
      | zero => simp [resourceKey, provResourceGet, provResourceIdInvalid] at hi
      | succ i =>
        rw [resourceKey_succ, List.getElem?_map] at hi
        obtain ⟨r', hr', hkey'⟩ := Option.map_eq_some_iff.mp hi
        exact hfresh r' (List.mem_of_getElem? hr') hkey'
    dsimp only
    by_cases hfull : registry.resources.records.length ≥ uint32Max
    · rw [if_pos hfull]
      exact ⟨_, _, rfl, .refused h rfl hnew fun hr _ _ =>
        absurd hr.records (Nat.not_lt.mpr hfull)⟩
    rw [if_neg hfull]
    obtain ⟨room, resources, heap, hreserve, hwf, hrecords, hspare, hroomy⟩ :=
      provTableReserve_spec h 48 (by omega) (by omega) registry.heap
    rw [hreserve]
    cases room with
    | false =>
      exact ⟨_, _, rfl, .refused hwf hrecords hnew fun hr _ _ => by cases (hroomy hr).1⟩
    | true =>
      simp only [Bool.true_eq_false, if_false]
      cases hdup : provStrdup heap displayName with | mk granted heap'
      have hgranted : heap.Ample → (∀ name ∈ displayName, name.length < sizeMax) →
          granted = true := by
        intro hample hlen
        have hfst : granted = (provStrdup heap displayName).1 := by rw [hdup]
        cases displayName with
        | none => exact hfst
        | some name =>
          have := hlen name rfl
          have hfit : (name.length + 1) * 1 ≤ sizeMax := by omega
          exact hfst.trans (congrArg Prod.fst (hample.calloc hfit))
      cases granted with
      | false =>
        exact ⟨_, _, rfl, .refused hwf hrecords hnew fun hr _ hn => by
          cases hgranted (hroomy hr).2 hn⟩
      | true =>
        simp only [Bool.true_eq_false, if_false]
        refine ⟨_, _, rfl, ?_⟩
        have hkeys : ∀ i, resourceKey { registry with
              resources := resources.push ProvResourceRecord.key resourceHash
                ⟨k, roles, displayName⟩, heap := heap' } (i + 1) =
            ((registry.resources.records.map ProvResourceRecord.key) ++ [k])[i]? := by
          intro i
          rw [resourceKey_succ]
          change ((resources.records ++ [_]).map ProvResourceRecord.key)[i]? = _
          rw [hrecords, List.map_append, List.map_singleton]
        constructor
        · exact hwf.push (by rw [hrecords]; exact hfresh) (hspare rfl)
        · intro i x hx
          cases i with
          | zero => simp [resourceKey, provResourceGet, provResourceIdInvalid] at hx
          | succ i =>
            rw [resourceKey_succ] at hx
            rw [hkeys, List.getElem?_append_left (List.getElem?_eq_some_iff.mp hx).1, hx]
        · intro _
          rw [hkeys, hrecords, List.getElem?_append_right (by rw [List.length_map]), List.length_map,
            Nat.sub_self, List.getElem?_cons_zero]
        · exact fun i hi hk => (hnew i hi hk).elim
        · exact fun _ _ _ => Nat.succ_ne_zero _

/-- Interning a label leaves the resources alone. -/
@[simp] theorem provLabelInternLocked_resources (registry : ProvRegistry) (input : ProvLabelView) :
    (provLabelInternLocked registry input).2.resources = registry.resources := by
  unfold provLabelInternLocked
  dsimp only
  split_ifs
  · rfl
  all_goals split <;> rfl

theorem provRegistryCreate_resourcesWF {maxRoots : ℕ} {heap : Heap} {registry : ProvRegistry}
    (h : provRegistryCreate maxRoots heap = some registry) : ResourcesWF registry := by
  have hresources : registry.resources = .initial := by
    unfold provRegistryCreate at h
    dsimp only at h
    generalize (if maxRoots = 0 then provDefaultMaxRootsPerSet else maxRoots) = limit at h
    split_ifs at h
    obtain rfl := Option.some.inj h
    simp only [provLabelInternLocked_resources]
  rw [ResourcesWF, hresources]
  exact .initial

end TaintForge
