import TaintForge.Prov.Equiv.Registry
import TaintForge.Prov.LabelValue
import Mathlib.Data.List.Infix

/-!
# The root sets of the registry

Every stored root set is strictly ascending and within the budget, every label refers to stored
sets, and the union cache tells the truth.

* `ProvRegistry.WF`: the invariant.
* `Extends`: what a later registry keeps of an earlier one.
* `provRootSetInternSortedLocked_spec`: the id of an ascending list stands for that list.
* `provRootSetUnionLocked_spec`: the union of two sets, cut at the budget.
* `provRootSetsIntersect_iff`: the walk over two sets finds a common root if there is one.
-/

namespace TaintForge

open OpenAddr CutSet

/-! ### The merge of two ascending lists -/

theorem mem_mergeFrom {a x : ℕ} {left : List ℕ} {merge : List ℕ → List ℕ}
    (hmerge : ∀ r, x ∈ merge r ↔ x ∈ left ∨ x ∈ r) :
    ∀ right, x ∈ mergeFrom a left merge right ↔ x ∈ a :: left ∨ x ∈ right
  | [] => by simp [mergeFrom]
  | b :: right => by
    have ih := mem_mergeFrom (a := a) hmerge right
    unfold mergeFrom
    split_ifs with hab hba
    · simp only [List.mem_cons, hmerge]
      tauto
    · simp only [List.mem_cons] at ih ⊢
      tauto
    · obtain rfl : a = b := by omega
      simp only [List.mem_cons, hmerge]
      tauto

theorem mem_mergeRoots {x : ℕ} :
    ∀ left right, x ∈ mergeRoots left right ↔ x ∈ left ∨ x ∈ right
  | [], right => by simp [mergeRoots]
  | a :: left, right => mem_mergeFrom (mem_mergeRoots left) right

theorem mergeFrom_ascending {a : ℕ} {left : List ℕ} (hleft : (a :: left).Pairwise (· < ·))
    (hmerge : ∀ r, r.Pairwise (· < ·) → (mergeRoots left r).Pairwise (· < ·)) :
    ∀ right, right.Pairwise (· < ·) →
      (mergeFrom a left (mergeRoots left) right).Pairwise (· < ·)
  | [], _ => hleft
  | b :: right, hright => by
    have ih := mergeFrom_ascending hleft hmerge right hright.of_cons
    have hal : ∀ x ∈ left, a < x := fun x hx => List.rel_of_pairwise_cons hleft hx
    have hbr : ∀ x ∈ right, b < x := fun x hx => List.rel_of_pairwise_cons hright hx
    unfold mergeFrom
    split_ifs with hab hba
    · refine List.pairwise_cons.mpr ⟨fun x hx => ?_, hmerge _ hright⟩
      rcases (mem_mergeRoots _ _).mp hx with hx | hx
      · exact hal x hx
      · rcases List.mem_cons.mp hx with rfl | hx
        · exact hab
        · exact hab.trans (hbr x hx)
    · refine List.pairwise_cons.mpr ⟨fun x hx => ?_, ih⟩
      rcases (mem_mergeFrom (mem_mergeRoots left) _).mp hx with hx | hx
      · rcases List.mem_cons.mp hx with rfl | hx
        · exact hba
        · exact hba.trans (hal x hx)
      · exact hbr x hx
    · obtain rfl : a = b := by omega
      refine List.pairwise_cons.mpr ⟨fun x hx => ?_, hmerge _ hright.of_cons⟩
      rcases (mem_mergeRoots _ _).mp hx with hx | hx
      · exact hal x hx
      · exact hbr x hx

theorem mergeRoots_ascending : ∀ {left right : List ℕ}, left.Pairwise (· < ·) →
    right.Pairwise (· < ·) → (mergeRoots left right).Pairwise (· < ·)
  | [], _, _, hright => hright
  | _ :: _, right, hleft, hright =>
    mergeFrom_ascending hleft (fun _ hr => mergeRoots_ascending hleft.of_cons hr) right hright

theorem toFinset_mergeRoots (left right : List ℕ) :
    (mergeRoots left right).toFinset = left.toFinset ∪ right.toFinset := by
  ext x
  simp [mem_mergeRoots]

/-- Ascending lists with the same members are the same. -/
theorem eq_of_ascending_of_toFinset_eq {left right : List ℕ} (hleft : left.Pairwise (· < ·))
    (hright : right.Pairwise (· < ·)) (h : left.toFinset = right.toFinset) : left = right :=
  (List.perm_of_nodup_nodup_toFinset_eq (hleft.imp Nat.ne_of_lt) (hright.imp Nat.ne_of_lt)
    h).eq_of_pairwise (fun _ _ _ _ hab hba => absurd hab (Nat.lt_asymm hba)) hleft hright

theorem mergeRoots_comm {left right : List ℕ} (hleft : left.Pairwise (· < ·))
    (hright : right.Pairwise (· < ·)) : mergeRoots left right = mergeRoots right left := by
  apply eq_of_ascending_of_toFinset_eq (mergeRoots_ascending hleft hright)
    (mergeRoots_ascending hright hleft)
  rw [toFinset_mergeRoots, toFinset_mergeRoots, Finset.union_comm]

/-- The merge is as long as the union is large. -/
theorem length_mergeRoots {left right : List ℕ} (hleft : left.Pairwise (· < ·))
    (hright : right.Pairwise (· < ·)) :
    (mergeRoots left right).length = (left.toFinset ∪ right.toFinset).card := by
  rw [← toFinset_mergeRoots, List.toFinset_card_of_nodup]
  exact (mergeRoots_ascending hleft hright).imp Nat.ne_of_lt

/-- The walk over two ascending lists finds a common element if there is one. -/
theorem meetFrom_eq_true_iff {a : ℕ} {left : List ℕ} (hleft : (a :: left).Pairwise (· < ·))
    (hmeet : ∀ r, r.Pairwise (· < ·) → (meetRoots left r = true ↔ ∃ x ∈ left, x ∈ r)) :
    ∀ right, right.Pairwise (· < ·) →
      (meetFrom a (meetRoots left) right = true ↔ ∃ x ∈ a :: left, x ∈ right)
  | [], _ => by simp [meetFrom]
  | b :: right, hright => by
    have ih := meetFrom_eq_true_iff hleft hmeet right hright.of_cons
    have hal : ∀ x ∈ left, a < x := fun x hx => List.rel_of_pairwise_cons hleft hx
    have hbr : ∀ x ∈ right, b < x := fun x hx => List.rel_of_pairwise_cons hright hx
    unfold meetFrom
    split_ifs with hab hba
    · -- `a` is below the whole right side
      rw [hmeet _ hright]
      have ha : a ∉ b :: right := by
        intro hmem
        rcases List.mem_cons.mp hmem with rfl | hmem
        · exact lt_irrefl _ hab
        · exact lt_asymm hab (hbr a hmem)
      constructor
      · rintro ⟨x, hx, hxr⟩
        exact ⟨x, List.mem_cons_of_mem a hx, hxr⟩
      · rintro ⟨x, hx, hxr⟩
        rcases List.mem_cons.mp hx with rfl | hx
        · exact (ha hxr).elim
        · exact ⟨x, hx, hxr⟩
    · -- `b` is below the whole left side
      rw [ih]
      have hb : b ∉ a :: left := by
        intro hmem
        rcases List.mem_cons.mp hmem with rfl | hmem
        · exact lt_irrefl _ hba
        · exact lt_asymm hba (hal b hmem)
      constructor
      · rintro ⟨x, hx, hxr⟩
        exact ⟨x, hx, List.mem_cons_of_mem b hxr⟩
      · rintro ⟨x, hx, hxr⟩
        rcases List.mem_cons.mp hxr with rfl | hxr
        · exact (hb hx).elim
        · exact ⟨x, hx, hxr⟩
    · obtain rfl : a = b := by omega
      simp

theorem meetRoots_eq_true_iff : ∀ {left right : List ℕ}, left.Pairwise (· < ·) →
    right.Pairwise (· < ·) → (meetRoots left right = true ↔ ∃ x ∈ left, x ∈ right)
  | [], _, _, _ => by simp [meetRoots]
  | _ :: _, right, hleft, hright =>
    meetFrom_eq_true_iff hleft (fun _ hr => meetRoots_eq_true_iff hleft.of_cons hr) right hright

/-! ### The invariant -/

/-- A stored root set. -/
structure RootSetOk (limit : ℕ) (r : ProvRootSetRecord) : Prop where
  ascending : r.roots.Pairwise (· < ·)
  nonempty : r.roots ≠ []
  length_le : r.roots.length ≤ limit
  hash_eq : r.hash = provRootSetHash r.roots

/-- A stored label, in a registry with `sets` root sets. -/
structure LabelOk (sets : ℕ) (r : ProvLabelRecord) : Prop where
  data : r.view.dataRoots ≤ sets
  address : r.view.addressRoots ≤ sets
  normal : provLabelNormalize r.view = r.view
  hash_eq : r.hash = provLabelHash r.view

/-- The roots in a set, none for the empty set. -/
def setRoots (registry : ProvRegistry) (setId : ℕ) : List ℕ :=
  ((provRootSetRecordLocked registry setId).map ProvRootSetRecord.roots).getD []

/-- The roots in a set as a finite set. -/
def setMembers (registry : ProvRegistry) (setId : ℕ) : Finset ℕ :=
  (setRoots registry setId).toFinset

/-- The key two sets are filed under in the union cache. -/
def unionKey (first second : ℕ) : BitVec 64 :=
  (BitVec.ofNat 64 first <<< 32) ||| BitVec.ofNat 64 second

/-- The set and the mark a union has to return: the union cut to the budget. -/
def UnionResult (registry : ProvRegistry) (left right : Finset ℕ) (result : ℕ) (truncated : Bool) :
    Prop :=
  result ≤ registry.rootSets.records.length ∧
  setMembers registry result = cut registry.maxRootsPerSet (left ∪ right) ∧
  truncated = LabelValue.overflows registry.maxRootsPerSet left right

/-- A cached union is the union of the two sets of its key. -/
def UnionOk (registry : ProvRegistry) (entry : ProvUnionCacheEntry) : Prop :=
  ∃ first second, first ≤ registry.rootSets.records.length ∧
    second ≤ registry.rootSets.records.length ∧ entry.key = unionKey first second ∧
    UnionResult registry (setMembers registry first) (setMembers registry second)
      entry.result entry.truncated

/-- The invariant of the registry that root sets and labels rest on. -/
structure ProvRegistry.WF (registry : ProvRegistry) : Prop where
  limit_pos : 0 < registry.maxRootsPerSet
  rootSets : registry.rootSets.WF id fun r => r.hash.toNat
  sets : ∀ r ∈ registry.rootSets.records, RootSetOk registry.maxRootsPerSet r
  setCount : registry.rootSets.records.length ≤ uint32Max
  labels : registry.labels.WF id fun r => r.hash.toNat
  views : ∀ r ∈ registry.labels.records, LabelOk registry.rootSets.records.length r
  labelCount : registry.labels.records.length ≤ uint32Max
  cache : ∀ entry, some entry ∈ registry.unionCache → UnionOk registry entry

/-- What a registration leaves as it was: the sets, the labels, the budget. -/
structure Extends (registry registry' : ProvRegistry) : Prop where
  rootSets : registry.rootSets.records <+: registry'.rootSets.records
  labels : registry.labels.records <+: registry'.labels.records
  limit : registry'.maxRootsPerSet = registry.maxRootsPerSet
  unknown : registry'.unknownLabel = registry.unknownLabel

theorem Extends.refl (registry : ProvRegistry) : Extends registry registry :=
  ⟨List.prefix_rfl, List.prefix_rfl, rfl, rfl⟩

theorem Extends.trans {r₁ r₂ r₃ : ProvRegistry} (h : Extends r₁ r₂) (h' : Extends r₂ r₃) :
    Extends r₁ r₃ :=
  ⟨h.rootSets.trans h'.rootSets, h.labels.trans h'.labels, h'.limit.trans h.limit,
    h'.unknown.trans h.unknown⟩

/-! ### Sets by their ids -/

@[simp] theorem setRoots_empty (registry : ProvRegistry) :
    setRoots registry provRootSetEmpty = [] := rfl

theorem setRoots_succ (registry : ProvRegistry) (index : ℕ) : setRoots registry (index + 1) =
    ((registry.rootSets.records[index]?).map ProvRootSetRecord.roots).getD [] := by
  rw [setRoots, provRootSetRecordLocked, if_neg (by simp [provRootSetEmpty]), Nat.add_sub_cancel]

theorem provRootSetIdValidLocked_iff {registry : ProvRegistry} {setId : ℕ} :
    provRootSetIdValidLocked registry setId = true ↔
      setId ≤ registry.rootSets.records.length := by
  simp only [provRootSetIdValidLocked, Bool.or_eq_true, beq_iff_eq, decide_eq_true_eq,
    provRootSetEmpty]
  omega

/-- A set id keeps its roots. -/
theorem Extends.setRoots_eq {registry registry' : ProvRegistry} (h : Extends registry registry')
    {setId : ℕ} (hid : setId ≤ registry.rootSets.records.length) :
    setRoots registry' setId = setRoots registry setId := by
  cases setId with
  | zero => rfl
  | succ index =>
    obtain ⟨rest, hrest⟩ := h.rootSets
    rw [setRoots_succ, setRoots_succ, ← hrest, List.getElem?_append_left hid]

theorem Extends.setMembers_eq {registry registry' : ProvRegistry}
    (h : Extends registry registry') {setId : ℕ}
    (hid : setId ≤ registry.rootSets.records.length) :
    setMembers registry' setId = setMembers registry setId := by
  rw [setMembers, h.setRoots_eq hid, setMembers]

theorem Extends.length_le {registry registry' : ProvRegistry} (h : Extends registry registry') :
    registry.rootSets.records.length ≤ registry'.rootSets.records.length :=
  h.rootSets.length_le

/-- The record behind a set id that is not the empty set. -/
theorem provRootSetRecordLocked_eq {registry : ProvRegistry} {setId : ℕ} (hpos : setId ≠ 0)
    (hid : setId ≤ registry.rootSets.records.length) :
    ∃ r ∈ registry.rootSets.records, provRootSetRecordLocked registry setId = some r := by
  have hlt : setId - 1 < registry.rootSets.records.length := by omega
  refine ⟨registry.rootSets.records[setId - 1], List.getElem_mem hlt, ?_⟩
  rw [provRootSetRecordLocked, if_neg (show ¬ setId = provRootSetEmpty from hpos),
    List.getElem?_eq_getElem hlt]

theorem setRoots_of_record {registry : ProvRegistry} {setId : ℕ} {r : ProvRootSetRecord}
    (h : provRootSetRecordLocked registry setId = some r) : setRoots registry setId = r.roots := by
  rw [setRoots, h]
  rfl

theorem mem_of_provRootSetRecordLocked {registry : ProvRegistry} {setId : ℕ}
    {r : ProvRootSetRecord} (h : provRootSetRecordLocked registry setId = some r) :
    r ∈ registry.rootSets.records := by
  unfold provRootSetRecordLocked at h
  split_ifs at h
  exact List.mem_of_getElem? h

namespace ProvRegistry.WF

variable {registry : ProvRegistry}

/-- What holds of the empty set and of every stored set holds of every set id. -/
theorem forall_setRoots {P : List ℕ → Prop} (hnil : P [])
    (hstored : ∀ r ∈ registry.rootSets.records, P r.roots) (setId : ℕ) :
    P (setRoots registry setId) := by
  cases hr : provRootSetRecordLocked registry setId with
  | none =>
    rw [setRoots, hr]
    exact hnil
  | some r =>
    rw [setRoots_of_record hr]
    exact hstored r (mem_of_provRootSetRecordLocked hr)

theorem ascending (h : registry.WF) (setId : ℕ) : (setRoots registry setId).Pairwise (· < ·) :=
  forall_setRoots List.Pairwise.nil (fun r hr => (h.sets r hr).ascending) setId

theorem length_le (h : registry.WF) (setId : ℕ) :
    (setRoots registry setId).length ≤ registry.maxRootsPerSet :=
  forall_setRoots (P := fun l => l.length ≤ registry.maxRootsPerSet) (Nat.zero_le _)
    (fun r hr => (h.sets r hr).length_le) setId

theorem card_le (h : registry.WF) (setId : ℕ) :
    (setMembers registry setId).card ≤ registry.maxRootsPerSet :=
  (List.toFinset_card_le _).trans (h.length_le setId)

end ProvRegistry.WF

/-! ### Interning a set -/

/-- A change of the allocator alone. -/
theorem ProvRegistry.WF.setHeap {registry : ProvRegistry} (h : registry.WF) (heap : Heap) :
    ProvRegistry.WF { registry with heap := heap } :=
  ⟨h.limit_pos, h.rootSets, h.sets, h.setCount, h.labels, h.views, h.labelCount, h.cache⟩

theorem UnionResult.mono {registry registry' : ProvRegistry} (hext : Extends registry registry')
    {left right : Finset ℕ} {result : ℕ} {truncated : Bool}
    (h : UnionResult registry left right result truncated) :
    UnionResult registry' left right result truncated := by
  obtain ⟨hresult, hmembers, htruncated⟩ := h
  refine ⟨hresult.trans hext.length_le, ?_, ?_⟩
  · rw [hext.setMembers_eq hresult, hext.limit, hmembers]
  · rw [hext.limit, htruncated]

theorem UnionOk.mono {registry registry' : ProvRegistry} (hext : Extends registry registry')
    {entry : ProvUnionCacheEntry} (h : UnionOk registry entry) : UnionOk registry' entry := by
  obtain ⟨first, second, hfirst, hsecond, hkey, hresult⟩ := h
  have hle := hext.length_le
  refine ⟨first, second, hfirst.trans hle, hsecond.trans hle, hkey, ?_⟩
  rw [hext.setMembers_eq hfirst, hext.setMembers_eq hsecond]
  exact hresult.mono hext

theorem LabelOk.mono {sets sets' : ℕ} (hle : sets ≤ sets') {r : ProvLabelRecord}
    (h : LabelOk sets r) : LabelOk sets' r :=
  ⟨h.data.trans hle, h.address.trans hle, h.normal, h.hash_eq⟩

/-- A table of root sets that keeps the sets and finds them too. -/
theorem ProvRegistry.WF.setRootSets {registry : ProvRegistry} (h : registry.WF)
    (rootSets : ProvTable ProvRootSetRecord) (heap : Heap)
    (hwf : rootSets.WF id fun r => r.hash.toNat)
    (hgrown : registry.rootSets.records <+: rootSets.records)
    (hsets : ∀ r ∈ rootSets.records, RootSetOk registry.maxRootsPerSet r)
    (hcount : rootSets.records.length ≤ uint32Max) :
    ProvRegistry.WF { registry with rootSets := rootSets, heap := heap } ∧
      Extends registry { registry with rootSets := rootSets, heap := heap } := by
  have hext : Extends registry { registry with rootSets := rootSets, heap := heap } :=
    ⟨hgrown, List.prefix_rfl, rfl, rfl⟩
  exact ⟨⟨h.limit_pos, hwf, hsets, hcount, h.labels,
    fun r hr => (h.views r hr).mono hgrown.length_le, h.labelCount,
    fun entry hentry => (h.cache entry hentry).mono hext⟩, hext⟩

/-- Interning an ascending list within the budget. -/
theorem provRootSetInternSortedLocked_spec {registry : ProvRegistry} (h : registry.WF)
    {roots : List ℕ} (hroots : roots.Pairwise (· < ·))
    (hlength : roots.length ≤ registry.maxRootsPerSet) :
    ∃ setId registry', provRootSetInternSortedLocked registry roots = (setId, registry') ∧
      registry'.WF ∧ Extends registry registry' ∧
      (setId ≠ provRootSetIdInvalid → setId ≤ registry'.rootSets.records.length ∧
        setRoots registry' setId = roots) := by
  unfold provRootSetInternSortedLocked
  by_cases hnil : roots.length = 0
  · rw [if_pos hnil]
    refine ⟨_, _, rfl, h, Extends.refl _, fun _ => ⟨Nat.zero_le _, ?_⟩⟩
    rw [setRoots_empty, List.eq_nil_of_length_eq_zero hnil]
  rw [if_neg hnil]
  dsimp only
  cases hlookup : registry.rootSets.toInternTable.lookup id (fun r => r.hash.toNat)
      ⟨roots, provRootSetHash roots⟩ with
  | some index =>
    obtain ⟨r, hr, hkey⟩ := h.rootSets.index.lookup_eq_some_iff.mp hlookup
    refine ⟨_, _, rfl, h, Extends.refl _, fun _ => ⟨(List.getElem?_eq_some_iff.mp hr).1, ?_⟩⟩
    rw [setRoots_succ, hr]
    exact congrArg ProvRootSetRecord.roots hkey
  | none =>
    have hfresh := h.rootSets.index.lookup_eq_none_iff.mp hlookup
    dsimp only
    by_cases hfull : registry.rootSets.records.length ≥ uint32Max
    · rw [if_pos hfull]
      exact ⟨_, _, rfl, h, Extends.refl _, fun hne => absurd rfl hne⟩
    rw [if_neg hfull]
    obtain ⟨room, rootSets, heap, hreserve, hwf, hrecords, hspare, -⟩ :=
      provTableReserve_spec h.rootSets 24 (by omega) (by omega) registry.heap
    rw [hreserve]
    -- the table after the growth, whatever the allocator does next
    have hgrown : ∀ heap, ProvRegistry.WF { registry with rootSets := rootSets, heap := heap } ∧
        Extends registry { registry with rootSets := rootSets, heap := heap } := fun heap =>
      h.setRootSets _ heap hwf (hrecords ▸ List.prefix_rfl) (hrecords ▸ h.sets)
        (hrecords ▸ h.setCount)
    cases room with
    | false => exact ⟨_, _, rfl, (hgrown heap).1, (hgrown heap).2, fun hne => absurd rfl hne⟩
    | true =>
      simp only [Bool.true_eq_false, if_false]
      cases hcalloc : heap.calloc roots.length 4 with | mk granted heap'
      cases granted with
      | false => exact ⟨_, _, rfl, (hgrown heap').1, (hgrown heap').2, fun hne => absurd rfl hne⟩
      | true =>
        simp only [Bool.true_eq_false, if_false]
        have hpush := h.setRootSets (rootSets.push id (fun r => r.hash.toNat)
            ⟨roots, provRootSetHash roots⟩) heap'
          (hwf.push (by rw [hrecords]; exact hfresh) (hspare rfl))
          ⟨[_], by rw [← hrecords]; rfl⟩
          (by
            intro r hr
            rcases List.mem_append.mp hr with hr | hr
            · exact h.sets r (hrecords ▸ hr)
            · obtain rfl := List.mem_singleton.mp hr
              exact ⟨hroots, fun hn => hnil (congrArg List.length hn), hlength, rfl⟩)
          (by
            show (rootSets.records ++ [_]).length ≤ uint32Max
            rw [List.length_append, List.length_singleton, hrecords]
            omega)
        refine ⟨_, _, rfl, hpush.1, hpush.2, fun _ => ⟨?_, ?_⟩⟩
        · show rootSets.records.length + 1 ≤ (rootSets.records ++ [_]).length
          rw [List.length_append, List.length_singleton]
        · rw [setRoots_succ]
          show (((rootSets.records ++ [_])[rootSets.records.length]?).map _).getD [] = roots
          rw [List.getElem?_concat_length]
          rfl

/-! ### The union cache -/

/-- The key tells the two sets apart. -/
theorem unionKey_injective {a b a' b' : ℕ} (ha : a ≤ uint32Max) (hb : b ≤ uint32Max)
    (ha' : a' ≤ uint32Max) (hb' : b' ≤ uint32Max) (h : unionKey a b = unionKey a' b') :
    a = a' ∧ b = b' := by
  have hkey : ∀ {x y : ℕ}, x ≤ uint32Max → y ≤ uint32Max →
      (unionKey x y).toNat = x * 2 ^ 32 + y := by
    intro x y hx hy
    simp only [uint32Max] at hx hy
    rw [unionKey, BitVec.toNat_or, BitVec.toNat_shiftLeft, BitVec.toNat_ofNat, BitVec.toNat_ofNat,
      Nat.mod_eq_of_lt (show x < 2 ^ 64 by omega), Nat.mod_eq_of_lt (show y < 2 ^ 64 by omega),
      Nat.shiftLeft_eq, Nat.mod_eq_of_lt (by omega), ← Nat.shiftLeft_eq,
      ← Nat.shiftLeft_add_eq_or_of_lt (show y < 2 ^ 32 by omega), Nat.shiftLeft_eq]
  have heq := congrArg BitVec.toNat h
  rw [hkey ha hb, hkey ha' hb'] at heq
  simp only [uint32Max] at hb hb'
  omega

theorem unionCacheStore_mem {cache : List (Option ProvUnionCacheEntry)}
    {entry e : ProvUnionCacheEntry} (he : some e ∈ (unionCacheStore cache entry).1) :
    e = entry ∨ some e ∈ cache := by
  unfold unionCacheStore at he
  split at he
  · rcases List.mem_or_eq_of_mem_set he with he | he
    · exact Or.inr he
    · exact Or.inl (Option.some.inj he)
  · exact Or.inr he

/-- One slot of the old cache is stored in the new one. -/
def rehashSlot (entries : List (Option ProvUnionCacheEntry)) (slot : Option ProvUnionCacheEntry) :
    List (Option ProvUnionCacheEntry) :=
  match slot with
  | none => entries
  | some entry => (unionCacheStore entries entry).1

theorem provUnionCacheRehashLocked_mem {cache : List (Option ProvUnionCacheEntry)} {capacity : ℕ}
    {e : ProvUnionCacheEntry} (he : some e ∈ provUnionCacheRehashLocked cache capacity) :
    some e ∈ cache := by
  -- what a fold that stores the slots of `slots` one after another can hold
  have hfold : ∀ (slots entries : List (Option ProvUnionCacheEntry)),
      some e ∈ slots.foldl rehashSlot entries →
      some e ∈ slots ∨ some e ∈ entries := by
    intro slots
    induction slots with
    | nil => exact fun entries he => Or.inr he
    | cons slot slots ih =>
      intro entries he
      rw [List.foldl_cons] at he
      rcases ih _ he with he | he
      · exact Or.inl (List.mem_cons_of_mem _ he)
      · cases slot with
        | none => exact Or.inr he
        | some entry =>
          rcases unionCacheStore_mem he with rfl | he
          · exact Or.inl List.mem_cons_self
          · exact Or.inr he
  rcases hfold cache _ he with he | he
  · exact he
  · cases List.eq_of_mem_replicate he

/-- A change of the union cache to one that tells the truth. -/
theorem ProvRegistry.WF.setCache {registry : ProvRegistry} (h : registry.WF)
    {cache : List (Option ProvUnionCacheEntry)} (count : ℕ) (heap : Heap)
    (hcache : ∀ entry, some entry ∈ cache → UnionOk registry entry) :
    ProvRegistry.WF
        { registry with unionCache := cache, unionCacheCount := count, heap := heap } ∧
      Extends registry
        { registry with unionCache := cache, unionCacheCount := count, heap := heap } := by
  have hext : Extends registry
      { registry with unionCache := cache, unionCacheCount := count, heap := heap } :=
    ⟨List.prefix_rfl, List.prefix_rfl, rfl, rfl⟩
  exact ⟨⟨h.limit_pos, h.rootSets, h.sets, h.setCount, h.labels, h.views, h.labelCount,
    fun entry hentry => (hcache entry hentry).mono hext⟩, hext⟩

theorem provUnionCacheInsertLocked_spec {registry : ProvRegistry} (h : registry.WF)
    {entry : ProvUnionCacheEntry} (hentry : UnionOk registry entry) :
    (provUnionCacheInsertLocked registry entry).WF ∧
      Extends registry (provUnionCacheInsertLocked registry entry) := by
  unfold provUnionCacheInsertLocked
  dsimp only
  generalize provShouldGrow (registry.unionCacheCount + 1) registry.unionCache.length = grow
  split_ifs with hsize hgranted
  · exact ⟨h, Extends.refl _⟩
  · exact h.setCache registry.unionCacheCount _ h.cache
  all_goals
    refine h.setCache _ _ fun e he => ?_
    rcases unionCacheStore_mem he with rfl | he
    · exact hentry
    · first
        | exact h.cache e he
        | exact h.cache e (provUnionCacheRehashLocked_mem he)

/-- What the cache finds is a union of the two sets of the key. -/
theorem provUnionCacheLookupLocked_spec {registry : ProvRegistry} (h : registry.WF)
    {first second : ℕ} (hfirst : first ≤ registry.rootSets.records.length)
    (hsecond : second ≤ registry.rootSets.records.length) {entry : ProvUnionCacheEntry}
    (hlookup : provUnionCacheLookupLocked registry (unionKey first second) = some entry) :
    UnionResult registry (setMembers registry first) (setMembers registry second)
      entry.result entry.truncated := by
  have hstored : some entry ∈ registry.unionCache ∧ entry.key = unionKey first second := by
    unfold provUnionCacheLookupLocked at hlookup
    split at hlookup
    · rename_i slot hfind
      have hview := find_eq_hit hfind
      rw [unionCacheView, hlookup] at hview
      refine ⟨?_, Cell.occupied.inj hview⟩
      rw [List.getD_eq_getElem?_getD] at hlookup
      cases hslot : registry.unionCache[slot]? with
      | none => simp [hslot] at hlookup
      | some e =>
        rw [hslot, Option.getD_some] at hlookup
        exact hlookup ▸ List.mem_of_getElem? hslot
    · cases hlookup
  obtain ⟨hmem, hkey⟩ := hstored
  obtain ⟨first', second', hfirst', hsecond', hkey', hresult⟩ := h.cache entry hmem
  obtain ⟨rfl, rfl⟩ := unionKey_injective (hfirst.trans h.setCount) (hsecond.trans h.setCount)
    (hfirst'.trans h.setCount) (hsecond'.trans h.setCount) (hkey.symm.trans hkey')
  exact hresult

/-! ### The union of two sets -/

theorem UnionResult.comm {registry : ProvRegistry} {left right : Finset ℕ} {result : ℕ}
    {truncated : Bool} (h : UnionResult registry left right result truncated) :
    UnionResult registry right left result truncated := by
  rwa [UnionResult, Finset.union_comm right, LabelValue.overflows_comm]

/-- The empty set adds nothing. -/
theorem ProvRegistry.WF.unionResult_empty {registry : ProvRegistry} (h : registry.WF) {setId : ℕ}
    (hid : setId ≤ registry.rootSets.records.length) :
    UnionResult registry ∅ (setMembers registry setId) setId false := by
  have hcard : (∅ ∪ setMembers registry setId).card ≤ registry.maxRootsPerSet := by
    rw [Finset.empty_union]
    exact h.card_le setId
  exact ⟨hid, by rw [cut_eq_self hcard, Finset.empty_union],
    (LabelValue.overflows_eq_false_iff.mpr hcard).symm⟩

theorem ProvRegistry.WF.unionResult_self {registry : ProvRegistry} (h : registry.WF) {setId : ℕ}
    (hid : setId ≤ registry.rootSets.records.length) :
    UnionResult registry (setMembers registry setId) (setMembers registry setId) setId false := by
  have hcard : (setMembers registry setId ∪ setMembers registry setId).card ≤
      registry.maxRootsPerSet := by
    rw [Finset.union_self]
    exact h.card_le setId
  exact ⟨hid, by rw [cut_eq_self hcard, Finset.union_self],
    (LabelValue.overflows_eq_false_iff.mpr hcard).symm⟩

/-- The union of two sets.  An identifier other than the invalid one stands for the union cut to
the budget. -/
theorem provRootSetUnionLocked_spec {registry : ProvRegistry} (h : registry.WF) (left right : ℕ) :
    ∃ setId truncated registry',
      provRootSetUnionLocked registry left right = (setId, truncated, registry') ∧
      registry'.WF ∧ Extends registry registry' ∧
      (setId ≠ provRootSetIdInvalid → UnionResult registry' (setMembers registry left)
        (setMembers registry right) setId truncated) := by
  unfold provRootSetUnionLocked
  by_cases hvalid : provRootSetIdValidLocked registry left = false ∨
      provRootSetIdValidLocked registry right = false
  · rw [if_pos hvalid]
    exact ⟨_, _, _, rfl, h, Extends.refl _, fun hne => absurd rfl hne⟩
  rw [if_neg hvalid]
  simp only [not_or, Bool.not_eq_false, provRootSetIdValidLocked_iff] at hvalid
  obtain ⟨hleft, hright⟩ := hvalid
  by_cases hempty : left = provRootSetEmpty
  · rw [if_pos hempty]
    subst hempty
    exact ⟨_, _, _, rfl, h, Extends.refl _, fun _ => h.unionResult_empty hright⟩
  rw [if_neg hempty]
  by_cases hsame : right = provRootSetEmpty ∨ left = right
  · rw [if_pos hsame]
    refine ⟨_, _, _, rfl, h, Extends.refl _, fun _ => ?_⟩
    rcases hsame with rfl | rfl
    · exact (h.unionResult_empty hleft).comm
    · exact h.unionResult_self hleft
  rw [if_neg hsame]
  dsimp only
  -- the cache does not care which side was the left one
  obtain ⟨first, second, hfirst, hsecond, hkey, horder⟩ :
      ∃ first second, first ≤ registry.rootSets.records.length ∧
        second ≤ registry.rootSets.records.length ∧
        (BitVec.ofNat 64 (if left < right then left else right) <<< 32) |||
          BitVec.ofNat 64 (if left < right then right else left) = unionKey first second ∧
        ((first = left ∧ second = right) ∨ (first = right ∧ second = left)) := by
    by_cases hlt : left < right
    · exact ⟨left, right, hleft, hright, by rw [if_pos hlt, if_pos hlt]; rfl, Or.inl ⟨rfl, rfl⟩⟩
    · exact ⟨right, left, hright, hleft, by rw [if_neg hlt, if_neg hlt]; rfl, Or.inr ⟨rfl, rfl⟩⟩
  rw [hkey]
  have hswap : ∀ {registry' : ProvRegistry} {result : ℕ} {truncated : Bool},
      UnionResult registry' (setMembers registry first) (setMembers registry second) result
        truncated ↔ UnionResult registry' (setMembers registry left) (setMembers registry right)
          result truncated := by
    rcases horder with ⟨rfl, rfl⟩ | ⟨rfl, rfl⟩
    · exact Iff.rfl
    · exact ⟨UnionResult.comm, UnionResult.comm⟩
  cases hlookup : provUnionCacheLookupLocked registry (unionKey first second) with
  | some cached =>
    exact ⟨_, _, _, rfl, h, Extends.refl _,
      fun _ => hswap.mp (provUnionCacheLookupLocked_spec h hfirst hsecond hlookup)⟩
  | none =>
    obtain ⟨l, hl, hleftRecord⟩ := provRootSetRecordLocked_eq hempty hleft
    obtain ⟨r, hr, hrightRecord⟩ := provRootSetRecordLocked_eq (fun hr => hsame (Or.inl hr)) hright
    rw [hleftRecord, hrightRecord]
    dsimp only
    cases hcalloc : registry.heap.calloc registry.maxRootsPerSet 4 with | mk granted heap
    have hheap := h.setHeap heap
    have hheapExt : Extends registry { registry with heap := heap } :=
      ⟨List.prefix_rfl, List.prefix_rfl, rfl, rfl⟩
    cases granted with
    | false => exact ⟨_, _, _, rfl, hheap, hheapExt, fun hne => absurd rfl hne⟩
    | true =>
      simp only [Bool.true_eq_false, if_false]
      have hascending := mergeRoots_ascending (h.sets l hl).ascending (h.sets r hr).ascending
      obtain ⟨setId, registry₁, hintern, hwf₁, hext₁, hid⟩ :=
        provRootSetInternSortedLocked_spec hheap
          (hascending.sublist (List.take_sublist registry.maxRootsPerSet _))
          (List.length_take_le _ _)
      rw [hintern]
      dsimp only
      by_cases hinvalid : setId = provRootSetIdInvalid
      · rw [if_neg (not_not.mpr hinvalid)]
        exact ⟨_, _, _, rfl, hwf₁, hheapExt.trans hext₁, fun hne => absurd hinvalid hne⟩
      · rw [if_pos hinvalid]
        obtain ⟨hbound, hroots⟩ := hid hinvalid
        have hunion : UnionResult registry₁ (setMembers registry left) (setMembers registry right)
            setId (decide ((mergeRoots l.roots r.roots).length > registry.maxRootsPerSet)) := by
          have hlimit : registry₁.maxRootsPerSet = registry.maxRootsPerSet := hext₁.limit
          have hl' : setMembers registry left = l.roots.toFinset := by
            rw [setMembers, setRoots_of_record hleftRecord]
          have hr' : setMembers registry right = r.roots.toFinset := by
            rw [setMembers, setRoots_of_record hrightRecord]
          refine ⟨hbound, ?_, ?_⟩
          · rw [setMembers, hroots, toFinset_take _ hascending, toFinset_mergeRoots, hlimit, hl', hr']
          · rw [length_mergeRoots (h.sets l hl).ascending (h.sets r hr).ascending, hl', hr', hlimit]
            rfl
        have hle : registry.rootSets.records.length ≤ registry₁.rootSets.records.length :=
          hext₁.length_le
        have hentry : UnionOk registry₁ ⟨unionKey first second, setId,
            decide ((mergeRoots l.roots r.roots).length > registry.maxRootsPerSet)⟩ := by
          refine ⟨first, second, hfirst.trans hle, hsecond.trans hle, rfl, ?_⟩
          rw [(hheapExt.trans hext₁).setMembers_eq hfirst,
            (hheapExt.trans hext₁).setMembers_eq hsecond]
          exact hswap.mpr hunion
        obtain ⟨hwf₂, hext₂⟩ := provUnionCacheInsertLocked_spec hwf₁ hentry
        exact ⟨_, _, _, rfl, hwf₂, (hheapExt.trans hext₁).trans hext₂, fun _ => hunion.mono hext₂⟩

/-- Two sets are found to meet when they share a root. -/
theorem provRootSetsIntersect_iff {registry : ProvRegistry} (h : registry.WF) (left right : ℕ) :
    provRootSetsIntersect registry left right = true ↔
      ¬ Disjoint (setMembers registry left) (setMembers registry right) := by
  have hempty : ∀ {setId}, provRootSetRecordLocked registry setId = none →
      setMembers registry setId = ∅ := by
    intro setId hnone
    rw [setMembers, setRoots, hnone]
    rfl
  unfold provRootSetsIntersect
  cases hleft : provRootSetRecordLocked registry left with
  | none => simp [hempty hleft]
  | some l =>
    cases hright : provRootSetRecordLocked registry right with
    | none => simp [hempty hright]
    | some r =>
      have hl := (h.sets l (mem_of_provRootSetRecordLocked hleft)).ascending
      have hr := (h.sets r (mem_of_provRootSetRecordLocked hright)).ascending
      rw [setMembers, setMembers, setRoots_of_record hleft, setRoots_of_record hright,
        Finset.not_disjoint_iff]
      dsimp only
      rw [meetRoots_eq_true_iff hl hr]
      simp only [List.mem_toFinset]

end TaintForge
