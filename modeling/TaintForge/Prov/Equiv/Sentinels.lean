import TaintForge.Prov.Equiv.Canonical
import TaintForge.Prov.Equiv.Exhausted

/-!
# Identifiers and the values that stand for a failure

Each kind of identifier has a value that is the answer of a call that failed.  Resources, roots and labels
are never given that value.  The last root set is, so the call that registers it looks like a failure
although the set is there.

* `KeysWF`: the tables of resources and roots find their keys, as those of sets and labels do.
* `Registration`: what a registration should do, whether it succeeds or fails.
* `TakesSentinel`: the root set is or becomes the one with the identifier `2 ^ 32 - 1`.
* `registrations_sound`: every registration does what it should, except for that set.
-/

namespace TaintForge

/-! ### The tables of keys -/

/-- The resources and the roots of a registry are found by their keys. -/
structure KeysWF (registry : ProvRegistry) : Prop where
  resources : ResourcesWF registry
  roots : registry.roots.WF id rootHash

/-- A call does not touch resources and roots. -/
structure SameKeyTables (registry registry' : ProvRegistry) : Prop where
  resources : registry'.resources = registry.resources
  roots : registry'.roots = registry.roots

theorem SameKeyTables.refl (registry : ProvRegistry) : SameKeyTables registry registry := ⟨rfl, rfl⟩

theorem SameKeyTables.trans {r₁ r₂ r₃ : ProvRegistry} (h : SameKeyTables r₁ r₂)
    (h' : SameKeyTables r₂ r₃) : SameKeyTables r₁ r₃ :=
  ⟨h'.resources.trans h.resources, h'.roots.trans h.roots⟩

theorem SameKeyTables.wf {registry registry' : ProvRegistry} (h : SameKeyTables registry registry')
    (hwf : KeysWF registry) : KeysWF registry' := by
  refine ⟨?_, h.roots ▸ hwf.roots⟩
  rw [ResourcesWF, h.resources]
  exact hwf.resources

theorem provRootSetInternSortedLocked_keys (registry : ProvRegistry) (roots : List ℕ) :
    SameKeyTables registry (provRootSetInternSortedLocked registry roots).2 := by
  unfold provRootSetInternSortedLocked
  dsimp only
  split_ifs
  · exact .refl registry
  all_goals split <;> exact ⟨rfl, rfl⟩

theorem provLabelInternLocked_keys (registry : ProvRegistry) (input : ProvLabelView) :
    SameKeyTables registry (provLabelInternLocked registry input).2 := by
  unfold provLabelInternLocked
  dsimp only
  split_ifs
  · exact .refl registry
  all_goals split <;> exact ⟨rfl, rfl⟩

theorem provUnionCacheInsertLocked_keys (registry : ProvRegistry) (entry : ProvUnionCacheEntry) :
    SameKeyTables registry (provUnionCacheInsertLocked registry entry) := by
  unfold provUnionCacheInsertLocked
  dsimp only
  split_ifs <;> exact ⟨rfl, rfl⟩

/-- Memory is not a table. -/
theorem SameKeyTables.heap (registry : ProvRegistry) (heap : Heap) :
    SameKeyTables registry { registry with heap := heap } := ⟨rfl, rfl⟩

theorem provRootSetUnionLocked_keys (registry : ProvRegistry) (left right : ℕ) :
    SameKeyTables registry (provRootSetUnionLocked registry left right).2.2 := by
  unfold provRootSetUnionLocked
  split
  · exact .refl registry
  split
  · exact .refl registry
  split
  · exact .refl registry
  dsimp only
  split
  · exact .refl registry
  split
  · rename_i leftRecord rightRecord _ _
    have hheap := SameKeyTables.heap registry (registry.heap.calloc registry.maxRootsPerSet 4).2
    split
    · exact hheap
    · have hintern := hheap.trans (provRootSetInternSortedLocked_keys _
        ((mergeRoots leftRecord.roots rightRecord.roots).take registry.maxRootsPerSet))
      split
      · exact hintern.trans (provUnionCacheInsertLocked_keys _ _)
      · exact hintern
  · exact .refl registry

theorem provLabelJoinLocked_keys (registry : ProvRegistry) (left right : ℕ) :
    SameKeyTables registry (provLabelJoinLocked registry left right).2 := by
  unfold provLabelJoinLocked
  split
  · exact .refl registry
  split
  · exact .refl registry
  split
  · exact ((provRootSetUnionLocked_keys _ _ _).trans (provRootSetUnionLocked_keys _ _ _)).trans
      (provLabelInternLocked_keys _ _)
  · exact .refl registry

theorem joinManyFrom_keys (labels : List ℕ) : ∀ (registry : ProvRegistry) (result : ℕ),
    SameKeyTables registry (joinManyFrom registry result labels).2 := by
  induction labels with
  | nil => exact fun registry _ => .refl registry
  | cons label labels ih =>
    intro registry result
    have hjoin := provLabelJoinLocked_keys registry result label
    rw [joinManyFrom]
    dsimp only
    split
    · exact hjoin
    · exact hjoin.trans (ih _ _)

/-- The calls that register neither a resource nor a root leave their tables alone. -/
theorem RegistryOp.run_keys (registry : ProvRegistry) (op : RegistryOp)
    (hresource : ∀ key name roles, op ≠ .internResource key name roles)
    (hroot : ∀ key, op ≠ .internRoot key) : SameKeyTables registry (op.run registry) := by
  cases op with
  | internResource key name roles => exact absurd rfl (hresource key name roles)
  | internRoot key => exact absurd rfl (hroot key)
  | singleton rootId =>
    show SameKeyTables registry (provRootSetSingleton registry rootId).2
    unfold provRootSetSingleton
    split
    · exact .refl registry
    · exact provRootSetInternSortedLocked_keys _ _
  | internSet roots =>
    show SameKeyTables registry (provRootSetIntern registry roots).2.2
    unfold provRootSetIntern
    split
    · exact .refl registry
    · dsimp only
      split
      · exact .heap registry _
      · split
        · exact .heap registry _
        · exact (SameKeyTables.heap registry _).trans (provRootSetInternSortedLocked_keys _ _)
  | unionSets left right => exact provRootSetUnionLocked_keys registry left right
  | internLabel input => exact provLabelInternLocked_keys registry input
  | labelFromRoot rootId channel =>
    show SameKeyTables registry (provLabelFromRoot registry rootId channel).2
    unfold provLabelFromRoot
    split
    · exact .refl registry
    · have hset := provRootSetInternSortedLocked_keys registry [rootId]
      dsimp only
      split
      · exact hset
      · exact hset.trans (provLabelInternLocked_keys _ _)
  | joinLabels left right => exact provLabelJoinLocked_keys registry left right
  | joinMany labels => exact joinManyFrom_keys labels registry provLabelClean
  | asAddressDependency labelId =>
    show SameKeyTables registry (provLabelAsAddressDependency registry labelId).2
    unfold provLabelAsAddressDependency
    split
    · exact .refl registry
    · rename_i source _
      have hunion := provRootSetUnionLocked_keys registry source.dataRoots source.addressRoots
      dsimp only
      split
      · exact hunion
      · exact hunion.trans (provLabelInternLocked_keys _ _)
  | markIncomplete labelId channels reasons =>
    show SameKeyTables registry (provLabelMarkIncomplete registry labelId channels reasons).2
    unfold provLabelMarkIncomplete
    dsimp only
    split
    · exact .refl registry
    · split
      · exact .refl registry
      · exact provLabelInternLocked_keys _ _

/-! ### What a registration does -/

/-- A table has the same records, and finds them in the same places. -/
structure ProvTable.Same {ρ κ : Type} [DecidableEq κ] (key : ρ → κ) (hash : κ → ℕ) (t t' : ProvTable ρ) :
    Prop where
  records : t'.records = t.records
  lookup : ∀ k, t'.toInternTable.lookup key hash k = t.toInternTable.lookup key hash k

theorem ProvTable.Same.refl {ρ κ : Type} [DecidableEq κ] {key : ρ → κ} {hash : κ → ℕ} (t : ProvTable ρ) :
    t.Same key hash t := ⟨rfl, fun _ => rfl⟩

/-- Another index of the same records finds the same. -/
theorem ProvTable.WF.same {ρ κ : Type} [DecidableEq κ] {key : ρ → κ} {hash : κ → ℕ} {t t' : ProvTable ρ}
    (h : t.WF key hash) (h' : t'.WF key hash) (hrecords : t'.records = t.records) : t.Same key hash t' := by
  refine ⟨hrecords, fun k => Option.ext fun j => ?_⟩
  rw [h'.index.lookup_eq_some_iff, h.index.lookup_eq_some_iff, hrecords]

/-- The tables, the cache and the counts are as before; only the index of a table may have been built
anew. -/
structure Unchanged (registry registry' : ProvRegistry) : Prop where
  resources : registry.resources.Same ProvResourceRecord.key resourceHash registry'.resources
  roots : registry.roots.Same id rootHash registry'.roots
  rootSets : registry.rootSets.Same id (fun r => r.hash.toNat) registry'.rootSets
  labels : registry.labels.Same id (fun r => r.hash.toNat) registry'.labels
  cache : registry'.unionCache = registry.unionCache
  cacheCount : registry'.unionCacheCount = registry.unionCacheCount
  limit : registry'.maxRootsPerSet = registry.maxRootsPerSet
  unknown : registry'.unknownLabel = registry.unknownLabel

theorem Unchanged.refl (registry : ProvRegistry) : Unchanged registry registry :=
  ⟨.refl _, .refl _, .refl _, .refl _, rfl, rfl, rfl, rfl⟩

/-- The identifiers that were given out still stand for what they stood for. -/
structure KeepsIds (registry registry' : ProvRegistry) : Prop where
  resources : ∀ i key, resourceKey registry i = some key → resourceKey registry' i = some key
  roots : ∀ i key, provRootGet registry i = some key → provRootGet registry' i = some key
  sets : ∀ i ≤ registry.rootSets.records.length,
    i ≤ registry'.rootSets.records.length ∧ setRoots registry' i = setRoots registry i
  labels : ∀ i view, provLabelGet registry i = some view → provLabelGet registry' i = some view

theorem KeepsIds.refl (registry : ProvRegistry) : KeepsIds registry registry :=
  ⟨fun _ _ h => h, fun _ _ h => h, fun _ h => ⟨h, rfl⟩, fun _ _ h => h⟩

theorem KeepsIds.trans {r₁ r₂ r₃ : ProvRegistry} (h : KeepsIds r₁ r₂) (h' : KeepsIds r₂ r₃) :
    KeepsIds r₁ r₃ where
  resources i key hkey := h'.resources i key (h.resources i key hkey)
  roots i key hkey := h'.roots i key (h.roots i key hkey)
  sets i hi := by
    obtain ⟨hle, hsame⟩ := h.sets i hi
    obtain ⟨hle', hsame'⟩ := h'.sets i hle
    exact ⟨hle', hsame'.trans hsame⟩
  labels i view hview := h'.labels i view (h.labels i view hview)

/-- What registers neither a resource nor a root keeps the identifiers. -/
theorem SameKeyTables.keepsIds {registry registry' : ProvRegistry} (h : SameKeyTables registry registry')
    (hext : Extends registry registry') : KeepsIds registry registry' := by
  refine ⟨fun i key hkey => ?_, fun i key hkey => ?_, fun i hi => ?_, fun i view hview => ?_⟩
  · rwa [resourceKey, provResourceGet, h.resources]
  · rwa [provRootGet, h.roots]
  · exact ⟨hi.trans hext.length_le, hext.setRoots_eq hi⟩
  · exact hext.provLabelGet_eq hview

theorem Unchanged.keepsIds {registry registry' : ProvRegistry} (h : Unchanged registry registry') :
    KeepsIds registry registry' := by
  have hext : Extends registry registry' := by
    refine ⟨?_, ?_, h.limit, h.unknown⟩
    · rw [h.rootSets.records]
    · rw [h.labels.records]
  refine ⟨fun i key hkey => ?_, fun i key hkey => ?_, fun i hi => ?_, fun i view hview => ?_⟩
  · rwa [resourceKey, provResourceGet, h.resources.records]
  · rwa [provRootGet, h.roots.records]
  · exact ⟨hi.trans hext.length_le, hext.setRoots_eq hi⟩
  · exact hext.provLabelGet_eq hview

/-- What a registration should do.  An identifier that is not the sentinel names what was registered; the
sentinel means that nothing has changed and that, for arguments that are accepted, nothing has the name. -/
structure Registration (names : ProvRegistry → ℕ → Prop) (accepted : Prop) (sentinel : ℕ)
    (registry : ProvRegistry) (result : ℕ × ProvRegistry) : Prop where
  named : result.1 ≠ sentinel → names result.2 result.1
  keeps : KeepsIds registry result.2
  refused : result.1 = sentinel → Unchanged registry result.2 ∧ (accepted → ∀ i, ¬names registry i)

/-- A registration that is refused. -/
theorem Registration.of_unchanged {names : ProvRegistry → ℕ → Prop} {accepted : Prop} {sentinel : ℕ}
    {registry registry' : ProvRegistry} (h : Unchanged registry registry')
    (hnew : accepted → ∀ i, ¬names registry i) :
    Registration names accepted sentinel registry (sentinel, registry') :=
  ⟨fun hne => absurd rfl hne, h.keepsIds, fun _ => ⟨h, hnew⟩⟩

/-- A registration that succeeds. -/
theorem Registration.of_named {names : ProvRegistry → ℕ → Prop} {accepted : Prop} {sentinel i : ℕ}
    {registry registry' : ProvRegistry} (hi : i ≠ sentinel) (h : names registry' i)
    (hkeeps : KeepsIds registry registry') :
    Registration names accepted sentinel registry (i, registry') :=
  ⟨fun _ => h, hkeeps, fun heq => absurd heq hi⟩

/-! ### Resources and roots -/

theorem provRootGet_succ (registry : ProvRegistry) (index : ℕ) :
    provRootGet registry (index + 1) = registry.roots.records[index]? := rfl

theorem provRootGet_eq_some {registry : ProvRegistry} {i : ℕ} {key : ProvRootKey}
    (h : provRootGet registry i = some key) : ∃ index, i = index + 1 ∧
      registry.roots.records[index]? = some key := by
  cases i with
  | zero => exact absurd h (by nofun)
  | succ index => exact ⟨index, rfl, h⟩

/-- A key that is accepted has a root of its own. -/
def AcceptsRoot (registry : ProvRegistry) (key : ProvRootKey) : Prop :=
  key.kind ≠ .invalid ∧ ¬(key.kind = .resourceByte ∧
    (key.sourceId = 0 ∨ key.sourceId.toNat > registry.resources.records.length))

/-- **Roots are registered** under identifiers other than `0`. -/
theorem provRootIntern_registered {registry : ProvRegistry} (h : KeysWF registry) (key : ProvRootKey) :
    Registration (fun registry i => provRootGet registry i = some key) (AcceptsRoot registry key)
      provRootIdInvalid registry (provRootIntern registry key) := by
  unfold provRootIntern
  split
  · rename_i hkind
    exact .of_unchanged (.refl registry) fun haccepts => absurd hkind haccepts.1
  split
  · rename_i hsource
    exact .of_unchanged (.refl registry) fun haccepts => absurd hsource haccepts.2
  split
  · rename_i index hlookup
    obtain ⟨found, hfound, hkey⟩ := h.roots.index.lookup_eq_some_iff.mp hlookup
    refine .of_named (Nat.succ_ne_zero index) ?_ (Unchanged.refl registry).keepsIds
    rw [provRootGet_succ, hfound]
    exact congrArg some hkey
  · rename_i hlookup
    have hnew : ∀ i, ¬provRootGet registry i = some key := by
      intro i hget
      obtain ⟨index, -, hindex⟩ := provRootGet_eq_some hget
      have hmem := List.mem_of_getElem? hindex
      exact h.roots.index.lookup_eq_none_iff.mp hlookup key hmem rfl
    split
    · exact .of_unchanged (.refl registry) fun _ => hnew
    obtain ⟨room, table, heap, hreserve, hwf, hrecords, -, -⟩ :=
      provTableReserve_spec h.roots 40 (by omega) (by omega) registry.heap
    rw [hreserve]
    have hgrown : Unchanged registry { registry with roots := table, heap := heap } :=
      ⟨.refl _, h.roots.same hwf hrecords, .refl _, .refl _, rfl, rfl, rfl, rfl⟩
    dsimp only
    split
    · exact .of_unchanged hgrown fun _ => hnew
    · refine .of_named (Nat.succ_ne_zero _) ?_ ⟨hgrown.keepsIds.resources, ?_, hgrown.keepsIds.sets,
        hgrown.keepsIds.labels⟩
      · rw [provRootGet_succ]
        exact List.getElem?_concat_length
      · intro i other hother
        obtain ⟨index, rfl, hindex⟩ := provRootGet_eq_some hother
        rw [provRootGet_succ]
        show (table.records ++ [key])[index]? = some other
        rw [hrecords, List.getElem?_append_left (List.getElem?_eq_some_iff.mp hindex).1, hindex]

/-- A resource that is refused leaves everything as it was. -/
theorem provResourceIntern_refused {registry : ProvRegistry} (h : ResourcesWF registry)
    (key : ProvResourceKey) (displayName : Option (List UInt8)) (roles : BitVec 32)
    (hrefused : (provResourceIntern registry key displayName roles).1 = provResourceIdInvalid) :
    Unchanged registry (provResourceIntern registry key displayName roles).2 := by
  unfold provResourceIntern at hrefused ⊢
  split
  · exact .refl registry
  rename_i hkind
  rw [if_neg hkind] at hrefused
  split
  · rename_i index hlookup
    rw [hlookup] at hrefused
    exact absurd hrefused (Nat.succ_ne_zero index)
  split
  · exact .refl registry
  obtain ⟨room, table, heap, hreserve, hwf, hrecords, -, -⟩ :=
    provTableReserve_spec h 48 (by omega) (by omega) registry.heap
  rename_i hlookup hfull
  rw [hlookup, if_neg hfull, hreserve] at hrefused
  rw [hreserve]
  have hgrown : ∀ heap, Unchanged registry { registry with resources := table, heap := heap } :=
    fun heap => ⟨ProvTable.WF.same h hwf hrecords, .refl _, .refl _, .refl _, rfl, rfl, rfl, rfl⟩
  dsimp only at hrefused ⊢
  split
  · exact hgrown heap
  rename_i hroom
  rw [if_neg hroom] at hrefused
  split
  · exact hgrown _
  · rename_i hgranted
    rw [if_neg hgranted] at hrefused
    exact absurd hrefused (Nat.succ_ne_zero _)

/-- A resource is registered without a change to the roots. -/
theorem provResourceIntern_roots (registry : ProvRegistry) (key : ProvResourceKey)
    (displayName : Option (List UInt8)) (roles : BitVec 32) :
    (provResourceIntern registry key displayName roles).2.roots = registry.roots := by
  unfold provResourceIntern
  dsimp only
  split_ifs
  · rfl
  all_goals split <;> rfl

/-- **Resources are registered** under identifiers other than `0`. -/
theorem provResourceIntern_registered {registry : ProvRegistry} (h : registry.WF)
    (hkeys : KeysWF registry) (key : ProvResourceKey) (displayName : Option (List UInt8))
    (roles : BitVec 32) :
    Registration (fun registry i => resourceKey registry i = some key) (key.kind ≠ .invalid)
      provResourceIdInvalid registry (provResourceIntern registry key displayName roles) := by
  have hrefused := provResourceIntern_refused hkeys.resources key displayName roles
  have hlater := provResourceIntern_later h key displayName roles
  have hroots := provResourceIntern_roots registry key displayName roles
  obtain ⟨id, registry', heq, hinterned⟩ :=
    provResourceIntern_spec hkeys.resources key displayName roles
  rw [heq] at hrefused hlater hroots ⊢
  refine ⟨hinterned.names, ⟨hinterned.keeps, ?_, ?_, ?_⟩, fun hid => ⟨hrefused hid, ?_⟩⟩
  · intro i other hother
    rwa [provRootGet, hroots]
  · intro i hi
    exact ⟨hi.trans hlater.keeps.length_le, hlater.keeps.setRoots_eq hi⟩
  · intro i view hview
    exact hlater.keeps.provLabelGet_eq hview
  · intro hkind i hi
    -- The identifier of a resource that is there is returned.
    have hsame := hinterned.same i hi hkind
    rw [← hsame, show id = provResourceIdInvalid from hid] at hi
    exact absurd hi (by nofun)

/-! ### The tables of a registry that can be built -/

theorem provRootIntern_keysWF {registry : ProvRegistry} (h : KeysWF registry) (key : ProvRootKey) :
    KeysWF (provRootIntern registry key).2 := by
  unfold provRootIntern
  split
  · exact h
  split
  · exact h
  split
  · exact h
  rename_i hlookup
  split
  · exact h
  obtain ⟨room, table, heap, hreserve, hwf, hrecords, hspare, -⟩ :=
    provTableReserve_spec h.roots 40 (by omega) (by omega) registry.heap
  rw [hreserve]
  dsimp only
  split
  · exact ⟨h.resources, hwf⟩
  · rename_i hroom
    refine ⟨h.resources, hwf.push ?_ (hspare (Bool.eq_true_of_not_eq_false hroom))⟩
    rw [hrecords]
    exact h.roots.index.lookup_eq_none_iff.mp hlookup

theorem RegistryOp.run_keysWF {registry : ProvRegistry} (h : KeysWF registry) (op : RegistryOp) :
    KeysWF (op.run registry) := by
  by_cases hresource : ∃ key name roles, op = .internResource key name roles
  · obtain ⟨key, name, roles, rfl⟩ := hresource
    obtain ⟨id, registry', heq, hinterned⟩ := provResourceIntern_spec h.resources key name roles
    have hroots := provResourceIntern_roots registry key name roles
    show KeysWF (provResourceIntern registry key name roles).2
    rw [heq] at hroots ⊢
    exact ⟨hinterned.wf, hroots ▸ h.roots⟩
  by_cases hroot : ∃ key, op = .internRoot key
  · obtain ⟨key, rfl⟩ := hroot
    exact provRootIntern_keysWF h key
  · refine (op.run_keys registry ?_ ?_).wf h
    · exact fun key name roles heq => hresource ⟨key, name, roles, heq⟩
    · exact fun key heq => hroot ⟨key, heq⟩

theorem provRegistryCreate_keysWF {maxRoots : ℕ} {heap : Heap} {registry : ProvRegistry}
    (h : provRegistryCreate maxRoots heap = some registry) : KeysWF registry := by
  have hroots : registry.roots = .initial := by
    unfold provRegistryCreate at h
    dsimp only at h
    split_ifs at h
    all_goals
      obtain rfl := Option.some.inj h
      exact ((provLabelInternLocked_keys _ _).trans (provLabelInternLocked_keys _ _)).roots
  refine ⟨provRegistryCreate_resourcesWF h, ?_⟩
  rw [hroots]
  exact .initial

/-- **All tables of a registry that can be built find their keys.** -/
theorem RegistryReachable.keysWF {registry : ProvRegistry} (h : RegistryReachable registry) :
    KeysWF registry := by
  obtain ⟨maxRoots, heap, created, ops, hcreate, rfl⟩ := h.exists_ops
  have hrun : ∀ (ops : List RegistryOp) (registry : ProvRegistry), KeysWF registry →
      KeysWF (runRegistryOps registry ops) := by
    intro ops
    induction ops with
    | nil => exact fun registry h => h
    | cons op ops ih => exact fun registry h => ih _ (op.run_keysWF h)
  exact hrun ops created (provRegistryCreate_keysWF hcreate)

/-! ### Labels -/

/-- **Labels are registered** under identifiers below `2 ^ 32 - 1`. -/
theorem provLabelInternLocked_registered {registry : ProvRegistry} (h : registry.WF)
    (input : ProvLabelView) :
    Registration (fun registry i => provLabelGet registry i = some (provLabelNormalize input))
      (provRootSetIdValidLocked registry input.dataRoots = true ∧
        provRootSetIdValidLocked registry input.addressRoots = true)
      provLabelIdInvalid registry (provLabelInternLocked registry input) := by
  obtain ⟨labelId, registry', heq, hwf', hext, hnamed⟩ := provLabelInternLocked_spec h input
  have hkeys := provLabelInternLocked_keys registry input
  have hkeeps : KeepsIds registry registry' := by
    rw [heq] at hkeys
    exact hkeys.keepsIds hext
  rw [heq]
  refine ⟨hnamed, hkeeps, fun hid => ?_⟩
  have hresult : (provLabelInternLocked registry input).1 = provLabelIdInvalid := by rw [heq, ← hid]
  have hregistry : registry' = (provLabelInternLocked registry input).2 := by rw [heq]
  rw [hregistry]
  clear heq hnamed hkeeps hregistry hwf' hext hkeys hid
  unfold provLabelInternLocked at hresult ⊢
  split
  · rename_i hvalid
    refine ⟨.refl registry, fun haccepts => ?_⟩
    rw [haccepts.1, haccepts.2] at hvalid
    exact absurd hvalid (by decide)
  rename_i hvalid
  rw [if_neg hvalid] at hresult
  dsimp only at hresult ⊢
  split
  · rename_i index hlookup
    rw [hlookup] at hresult
    obtain ⟨record, hrecord, -⟩ := h.labels.index.lookup_eq_some_iff.mp hlookup
    have hlt := (List.getElem?_eq_some_iff.mp hrecord).1.trans_le h.labelCount
    exact absurd hresult (Nat.ne_of_lt hlt)
  rename_i hlookup
  rw [hlookup] at hresult
  have hnew : ∀ i, ¬provLabelGet registry i = some (provLabelNormalize input) := by
    intro i hget
    obtain ⟨-, record, hrecord, hview⟩ := provLabelGet_eq_some_iff.mp hget
    have hmem := List.mem_of_getElem? hrecord
    refine h.labels.index.lookup_eq_none_iff.mp hlookup record hmem ?_
    cases record
    subst hview
    rw [id, ProvLabelRecord.mk.injEq]
    exact ⟨rfl, (h.views _ hmem).hash_eq⟩
  split
  · exact ⟨.refl registry, fun _ => hnew⟩
  rename_i hfull
  rw [if_neg hfull] at hresult
  obtain ⟨room, table, heap, hreserve, hwf, hrecords, -, -⟩ :=
    provTableReserve_spec h.labels 32 (by omega) (by omega) registry.heap
  rw [hreserve] at hresult ⊢
  dsimp only at hresult ⊢
  split
  · exact ⟨⟨.refl _, .refl _, .refl _, h.labels.same hwf hrecords, rfl, rfl, rfl, rfl⟩, fun _ => hnew⟩
  · rename_i hroom
    rw [if_neg hroom] at hresult
    dsimp only at hresult
    rw [hrecords] at hresult
    exact absurd hresult (Nat.ne_of_lt (Nat.not_le.mp hfull))

/-! ### Root sets -/

/-- The memory for a new root set is granted: for the index and the records, and for the set. -/
def SetGranted (registry : ProvRegistry) (roots : List ℕ) : Prop :=
  let reserved := provTableReserve id (fun r : ProvRootSetRecord => r.hash.toNat) 24 registry.rootSets
    registry.heap
  reserved.1 = true ∧ (reserved.2.2.calloc roots.length 4).1 = true

/-- The set is the one with the last identifier, or it becomes that one. -/
def TakesSentinel (registry : ProvRegistry) (roots : List ℕ) : Prop :=
  roots ≠ [] ∧ (setRoots registry uint32Max = roots ∨
    registry.rootSets.records.length + 1 = uint32Max ∧
      (∀ i ≤ registry.rootSets.records.length, setRoots registry i ≠ roots) ∧
      SetGranted registry roots)

/-- The set has the identifier. -/
def NamesSet (roots : List ℕ) (registry : ProvRegistry) (i : ℕ) : Prop :=
  i ≤ registry.rootSets.records.length ∧ setRoots registry i = roots

/-- A set is stored exactly where its record is found. -/
theorem ProvRegistry.WF.setRoots_eq_iff {registry : ProvRegistry} (h : registry.WF) {roots : List ℕ}
    (hne : roots ≠ []) ⦃i : ℕ⦄ :
    setRoots registry i = roots ↔ ∃ index, i = index + 1 ∧
      registry.rootSets.toInternTable.lookup id (fun r => r.hash.toNat)
        ⟨roots, provRootSetHash roots⟩ = some index := by
  cases i with
  | zero =>
    refine iff_of_false (fun heq => hne heq.symm) ?_
    rintro ⟨index, hindex, -⟩
    exact absurd hindex (by omega)
  | succ i =>
    rw [setRoots_succ]
    constructor
    · intro heq
      cases hget : registry.rootSets.records[i]? with
      | none =>
        rw [hget] at heq
        exact absurd heq.symm hne
      | some record =>
        rw [hget] at heq
        refine ⟨i, rfl, h.rootSets.index.lookup_eq_some_iff.mpr ⟨record, hget, ?_⟩⟩
        have hhash := (h.sets record (List.mem_of_getElem? hget)).hash_eq
        cases record
        subst heq
        rw [id, ProvRootSetRecord.mk.injEq]
        exact ⟨rfl, hhash⟩
    · rintro ⟨index, hindex, hlookup⟩
      obtain rfl := Nat.succ.inj hindex
      obtain ⟨record, hget, hkey⟩ := h.rootSets.index.lookup_eq_some_iff.mp hlookup
      rw [hget]
      exact congrArg ProvRootSetRecord.roots hkey

/-- **A root set is registered as it should be** unless it is the last one. -/
theorem provRootSetInternSortedLocked_registered_iff {registry : ProvRegistry} (h : registry.WF)
    (roots : List ℕ) :
    Registration (NamesSet roots) True provRootSetIdInvalid registry
      (provRootSetInternSortedLocked registry roots) ↔ ¬TakesSentinel registry roots := by
  unfold provRootSetInternSortedLocked
  split
  · rename_i hnil
    have hroots := List.eq_nil_of_length_eq_zero hnil
    refine iff_of_true (.of_named (by decide) ⟨Nat.zero_le _, ?_⟩ (Unchanged.refl registry).keepsIds)
      fun htakes => htakes.1 hroots
    rw [hroots]
    rfl
  rename_i hlength
  have hne : roots ≠ [] := fun heq => hlength (congrArg List.length heq)
  have hiff := h.setRoots_eq_iff hne
  dsimp only
  cases hlookup : registry.rootSets.toInternTable.lookup id (fun r => r.hash.toNat)
      ⟨roots, provRootSetHash roots⟩ with
  | some index =>
    have hstored : NamesSet roots registry (index + 1) := by
      obtain ⟨record, hget, -⟩ := h.rootSets.index.lookup_eq_some_iff.mp hlookup
      exact ⟨(List.getElem?_eq_some_iff.mp hget).1, hiff.mpr ⟨index, rfl, hlookup⟩⟩
    by_cases hlast : index + 1 = uint32Max
    · refine iff_of_false (fun hregistered => ?_) (not_not.mpr ⟨hne, Or.inl ?_⟩)
      · exact (hregistered.refused hlast).2 trivial _ hstored
      · rw [← hlast]
        exact hstored.2
    · refine iff_of_true (.of_named hlast hstored (Unchanged.refl registry).keepsIds) ?_
      rintro ⟨-, hsentinel | ⟨-, hnew, -⟩⟩
      · obtain ⟨other, hother, hfound⟩ := hiff.mp hsentinel
        rw [hlookup, Option.some.injEq] at hfound
        exact hlast (hfound ▸ hother.symm)
      · exact hnew _ hstored.1 hstored.2
  | none =>
    have hnew : ∀ i, setRoots registry i ≠ roots := by
      intro i heq
      obtain ⟨index, -, hfound⟩ := hiff.mp heq
      rw [hlookup] at hfound
      cases hfound
    have hunnamed : True → ∀ i, ¬NamesSet roots registry i := fun _ i hnamed => hnew i hnamed.2
    dsimp only
    split
    · rename_i hfull
      refine iff_of_true (.of_unchanged (.refl registry) hunnamed) ?_
      rintro ⟨-, hsentinel | ⟨hcount, -⟩⟩
      · exact hnew _ hsentinel
      · omega
    rename_i hfull
    obtain ⟨room, table, heap, hreserve, hwf, hrecords, hspare, -⟩ :=
      provTableReserve_spec h.rootSets 24 (by omega) (by omega) registry.heap
    have hgrown : ∀ heap, Unchanged registry { registry with rootSets := table, heap := heap } :=
      fun heap => ⟨.refl _, .refl _, h.rootSets.same hwf hrecords, .refl _, rfl, rfl, rfl, rfl⟩
    have hgranted : SetGranted registry roots ↔
        room = true ∧ (heap.calloc roots.length 4).1 = true := by
      rw [SetGranted, hreserve]
    rw [hreserve]
    dsimp only
    split
    · rename_i hroom
      refine iff_of_true (.of_unchanged (hgrown heap) hunnamed) ?_
      rintro ⟨-, hsentinel | ⟨-, -, hmemory⟩⟩
      · exact hnew _ hsentinel
      · rw [(hgranted.mp hmemory).1] at hroom
        exact absurd hroom (by decide)
    rename_i hroom
    split
    · rename_i hrefused
      refine iff_of_true (.of_unchanged (hgrown _) hunnamed) ?_
      rintro ⟨-, hsentinel | ⟨-, -, hmemory⟩⟩
      · exact hnew _ hsentinel
      · rw [(hgranted.mp hmemory).2] at hrefused
        exact absurd hrefused (by decide)
    rename_i hserved
    have hmemory := hgranted.mpr ⟨Bool.eq_true_of_not_eq_false hroom, Bool.eq_true_of_not_eq_false hserved⟩
    by_cases hlast : registry.rootSets.records.length + 1 = uint32Max
    · refine iff_of_false (fun hregistered => ?_) (not_not.mpr ⟨hne, Or.inr ⟨hlast, ?_, hmemory⟩⟩)
      · have hsame := (hregistered.refused (by rw [hrecords]; exact hlast)).1.rootSets.records
        change table.records ++ [(⟨roots, provRootSetHash roots⟩ : ProvRootSetRecord)] = _ at hsame
        have hlonger := congrArg List.length hsame
        rw [hrecords, List.length_append, List.length_singleton] at hlonger
        omega
      · exact fun i _ => hnew i
    · refine iff_of_true (.of_named (by rw [hrecords]; exact hlast) ⟨?_, ?_⟩ ?_) ?_
      · show table.records.length + 1 ≤ (table.records ++ [_]).length
        rw [List.length_append]
        exact le_rfl
      · rw [setRoots_succ]
        show (((table.records ++ [_])[table.records.length]?).map _).getD [] = roots
        rw [List.getElem?_concat_length]
        rfl
      · refine ⟨(hgrown heap).keepsIds.resources, (hgrown heap).keepsIds.roots, fun i hi => ?_,
          (hgrown heap).keepsIds.labels⟩
        have hle : registry.rootSets.records.length ≤ (table.records ++ [(⟨roots, provRootSetHash roots⟩ :
            ProvRootSetRecord)]).length := by
          rw [List.length_append, hrecords]
          exact Nat.le_add_right _ _
        refine ⟨hi.trans hle, ?_⟩
        cases i with
        | zero => rfl
        | succ i =>
          rw [setRoots_succ, setRoots_succ]
          show (((table.records ++ [_])[i]?).map _).getD [] = _
          rw [hrecords, List.getElem?_append_left hi]
      · rintro ⟨-, hsentinel | ⟨hcount, -⟩⟩
        · exact hnew _ hsentinel
        · exact hlast hcount

/-- **Every registration does what it should**, except for the last root set.  An identifier that is
returned for a success is not the value that stands for a failure, and a failure changes nothing. -/
theorem registrations_sound {registry : ProvRegistry} (h : RegistryReachable registry) :
    (∀ key displayName roles, Registration (fun registry i => resourceKey registry i = some key)
      (key.kind ≠ .invalid) provResourceIdInvalid registry
      (provResourceIntern registry key displayName roles)) ∧
    (∀ key, Registration (fun registry i => provRootGet registry i = some key) (AcceptsRoot registry key)
      provRootIdInvalid registry (provRootIntern registry key)) ∧
    (∀ input, Registration
      (fun registry i => provLabelGet registry i = some (provLabelNormalize input))
      (provRootSetIdValidLocked registry input.dataRoots = true ∧
        provRootSetIdValidLocked registry input.addressRoots = true)
      provLabelIdInvalid registry (provLabelInternLocked registry input)) ∧
    ∀ roots, Registration (NamesSet roots) True provRootSetIdInvalid registry
      (provRootSetInternSortedLocked registry roots) ↔ ¬TakesSentinel registry roots :=
  ⟨provResourceIntern_registered h.wf h.keysWF, provRootIntern_registered h.keysWF,
    provLabelInternLocked_registered h.wf, provRootSetInternSortedLocked_registered_iff h.wf⟩

/-- A new set of a small registry gets an identifier that names it. -/
theorem threeRootRegistry_registers :
    (provRootSetInternSortedLocked threeRootRegistry [1, 3]).1 ≠ provRootSetIdInvalid ∧
    NamesSet [1, 3] (provRootSetInternSortedLocked threeRootRegistry [1, 3]).2
      (provRootSetInternSortedLocked threeRootRegistry [1, 3]).1 := by
  have hnot : ¬TakesSentinel threeRootRegistry [1, 3] := by
    rintro ⟨-, hsentinel | ⟨hcount, -⟩⟩
    · exact absurd hsentinel (by decide)
    · exact absurd hcount (by decide)
  have hid : (provRootSetInternSortedLocked threeRootRegistry [1, 3]).1 ≠ provRootSetIdInvalid := by
    decide
  have hregistered := ((registrations_sound threeRootRegistry_reachable).2.2.2 [1, 3]).mpr hnot
  exact ⟨hid, hregistered.named hid⟩

/-- With one identifier left, the next set gets it. -/
theorem Filled.gets_sentinel {registry : ProvRegistry} {n : ℕ}
    (h : Filled 33 exhaustionStart registry (exhaustionSets n)) (hn : n + 3 = uint32Max) :
    (provRootSetInternSortedLocked registry [1, 2]).1 = provRootSetIdInvalid ∧
    (provRootSetInternSortedLocked registry [1, 2]).2.rootSets.records.length =
      registry.rootSets.records.length + 1 := by
  have hlength := length_exhaustionSets n
  obtain ⟨table, heap, hintern, -, hstored, -⟩ := provRootSetInternSortedLocked_append
    h.reachable.wf h.ample h.stored h.buckets (by decide : [1, 2] ≠ []) (not_mem_exhaustionSets n)
    (by decide) (by omega)
  have hold := congrArg List.length h.stored
  have hnew := congrArg List.length hstored
  rw [List.length_map] at hold hnew
  rw [List.length_append] at hnew
  rw [hintern]
  refine ⟨?_, ?_⟩
  · show (exhaustionSets n).length + 1 = uint32Max
    omega
  · rw [hold]
    exact hnew

/-- **The last root set looks like a failure.**  The set is stored, and the answer is the value that stands
for a failure. -/
theorem rootSet_gets_sentinel : ∃ registry, RegistryReachable registry ∧
    (provRootSetInternSortedLocked registry [1, 2]).1 = provRootSetIdInvalid ∧
    (provRootSetInternSortedLocked registry [1, 2]).2.rootSets.records.length =
      registry.rootSets.records.length + 1 := by
  obtain ⟨n, hle, hn⟩ : ∃ n ≤ 2 ^ 32 - 3, n + 3 = uint32Max :=
    ⟨2 ^ 32 - 4, by omega, by simp only [uint32Max]; omega⟩
  have hfilled := exhaustionRegistry_filled n hle
  exact ⟨_, hfilled.reachable, hfilled.gets_sentinel hn⟩

end TaintForge
