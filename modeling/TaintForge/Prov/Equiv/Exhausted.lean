import TaintForge.Prov.Equiv.Labels
import Mathlib.Data.Nat.Bitwise

/-!
# A registry without root-set identifiers

A root set may get the identifier `2 ^ 32 - 1`, which is also the answer of a union that failed.  In
a registry that holds that many sets a failed union is therefore taken for the last set.

* `Filled`: what a registry looks like while sets are interned with memory to spare.
* `exhaustedRegistry`: the roots `1` to `33`, and every set but one that the identifiers suffice for.
* `exhaustedRegistry_join`: joining the labels of the roots `1` and `2` there returns a label of
  neither.
-/

namespace TaintForge

open OpenAddr

/-! ### Interning with memory to spare -/

/-- The index of a table grows only when it is full to seven tenths. -/
theorem provTableReserve_buckets {ρ κ : Type} (key : ρ → κ) (hash : κ → ℕ) (recordSize : ℕ)
    (t : ProvTable ρ) (heap : Heap) (hrecords : t.records.length < uint32Max) :
    (provTableReserve key hash recordSize t heap).2.1.buckets.length * 7 ≤
      max (max (t.buckets.length * 7) 112) (20 * (t.records.length + 1)) := by
  have hnext : provShouldGrow (t.records.length + 1) t.buckets.length = true →
      provNextCapacity t.buckets.length * 7 ≤
        max (max (t.buckets.length * 7) 112) (20 * (t.records.length + 1)) := by
    unfold provShouldGrow provNextCapacity
    simp only [uint32Max] at hrecords
    split_ifs with hzero hbig hsmall
    · simp [provInitialBucketCount]
    · simp only [sizeMax] at hbig
      omega
    · exact fun h => by cases h
    · intro hload
      have hload := of_decide_eq_true hload
      have hmod := Nat.mod_le (t.buckets.length * 2) (2 ^ 64)
      omega
  have hsame : t.buckets.length * 7 ≤
      max (max (t.buckets.length * 7) 112) (20 * (t.records.length + 1)) :=
    le_trans (le_max_left _ _) (le_max_left _ _)
  unfold provTableReserve
  dsimp only
  split
  · exact hsame
  · split
    · exact hsame
    · show (if _ then _ else t : ProvTable ρ).buckets.length * 7 ≤ _
      split
      · rename_i hgrow
        show (t.toInternTable.rehash key hash _).buckets.length * 7 ≤ _
        rw [InternTable.length_rehash]
        exact hnext hgrow
      · exact hsame

/-- The state of a registry into which sets are interned: memory never runs out, the roots `1` to
`rootCount` are there, and exactly `sets` are stored. -/
structure Filled (rootCount : ℕ) (start registry : ProvRegistry) (sets : List (List ℕ)) : Prop where
  reachable : RegistryReachable registry
  ample : registry.heap.Ample
  limit : registry.maxRootsPerSet = start.maxRootsPerSet
  roots : registry.roots.records.length = rootCount
  labels : registry.labels = start.labels
  cache : registry.unionCache = start.unionCache
  stored : registry.rootSets.records.map ProvRootSetRecord.roots = sets
  buckets : registry.rootSets.buckets.length * 7 ≤ max 112 (20 * sets.length)

/-- A new sorted set is appended to the stored sets. -/
theorem provRootSetInternSortedLocked_append {registry : ProvRegistry} (h : registry.WF)
    (hample : registry.heap.Ample) {sets : List (List ℕ)}
    (hstored : registry.rootSets.records.map ProvRootSetRecord.roots = sets)
    (hbuckets : registry.rootSets.buckets.length * 7 ≤ max 112 (20 * sets.length))
    {roots : List ℕ} (hne : roots ≠ []) (hnew : roots ∉ sets) (hsmall : roots.length ≤ 2 ^ 32)
    (hroom : sets.length < uint32Max) :
    ∃ table heap, provRootSetInternSortedLocked registry roots =
        (sets.length + 1, { registry with rootSets := table, heap := heap }) ∧
      heap.Ample ∧ table.records.map ProvRootSetRecord.roots = sets ++ [roots] ∧
      table.buckets.length * 7 ≤ max 112 (20 * (sets.length + 1)) := by
  have hcount : registry.rootSets.records.length = sets.length := by
    rw [← hstored, List.length_map]
  have hfit : roots.length * 4 ≤ sizeMax := by
    simp only [sizeMax]
    omega
  -- the set is not there yet
  have hlookup : registry.rootSets.toInternTable.lookup id (fun r => r.hash.toNat)
      (⟨roots, provRootSetHash roots⟩ : ProvRootSetRecord) = none := by
    rw [h.rootSets.index.lookup_eq_none_iff]
    intro r hr hsame
    apply hnew
    rw [← hstored]
    exact List.mem_map.mpr ⟨r, hr, congrArg ProvRootSetRecord.roots hsame⟩
  have hroomy : registry.rootSets.Roomy registry.heap := by
    refine ⟨hample, ?_, by rwa [hcount]⟩
    simp only [sizeMax]
    simp only [uint32Max] at hroom
    omega
  have hgrown := provTableReserve_buckets id (fun r : ProvRootSetRecord => r.hash.toNat) 24
    registry.rootSets registry.heap (by rwa [hcount])
  obtain ⟨room, table, heap, hreserve, hwf', hrecords, hspare, hdone⟩ :=
    provTableReserve_spec h.rootSets 24 (by omega) (by omega) registry.heap
  obtain ⟨rfl, hample'⟩ := hdone hroomy
  rw [hreserve, hcount] at hgrown
  refine ⟨table.push id (fun r => r.hash.toNat) ⟨roots, provRootSetHash roots⟩, heap.next, ?_,
    hample'.next, ?_, ?_⟩
  · unfold provRootSetInternSortedLocked
    rw [if_neg (by rwa [List.length_eq_zero_iff])]
    dsimp only
    rw [hlookup]
    dsimp only
    rw [if_neg (by rw [hcount]; exact Nat.not_le.mpr hroom), hreserve]
    dsimp only
    rw [if_neg (by decide), hample'.calloc hfit]
    dsimp only
    rw [if_neg (by decide), hrecords, hcount]
  · show (table.records ++ [_]).map ProvRootSetRecord.roots = _
    rw [hrecords, List.map_append, hstored]
    rfl
  · show (InternTable.place table.buckets _ _).length * 7 ≤ _
    rw [InternTable.length_place]
    dsimp only at hgrown
    omega

/-- A new set is appended by `provRootSetIntern`. -/
theorem Filled.intern {rootCount : ℕ} {start registry : ProvRegistry} {sets : List (List ℕ)}
    (h : Filled rootCount start registry sets) {roots : List ℕ} (hne : roots ≠ [])
    (hascending : roots.Pairwise (· < ·)) (hlength : roots.length ≤ start.maxRootsPerSet)
    (hknown : ∀ root ∈ roots, 0 < root ∧ root ≤ rootCount) (hnew : roots ∉ sets)
    (hsmall : roots.length ≤ 2 ^ 32) (hroom : sets.length < uint32Max) :
    Filled rootCount start (provRootSetIntern registry roots).2.2 (sets ++ [roots]) := by
  have hreach := h.reachable.internSet roots
  have hsort : roots.insertionSort (· ≤ ·) = roots :=
    (hascending.imp fun hlt => Nat.le_of_lt hlt).insertionSort_eq
  have hunique : roots.destutter (· ≠ ·) = roots := by
    apply List.destutter_of_isChain
    exact (List.isChain_iff_pairwise.mpr hascending).imp fun _ _ hlt => Nat.ne_of_lt hlt
  have hnone : (roots.any fun root => root == provRootIdInvalid ||
      decide (root > registry.roots.records.length)) = false := by
    rw [List.any_eq_false]
    intro root hmem
    obtain ⟨hpos, hle⟩ := hknown root hmem
    rw [h.roots]
    simp only [provRootIdInvalid, Bool.or_eq_true, beq_iff_eq, decide_eq_true_eq, not_or]
    omega
  have hfit : roots.length * 4 ≤ sizeMax := by
    simp only [sizeMax]
    omega
  have hheap := h.reachable.wf.setResources registry.resources registry.roots registry.heap.next
  obtain ⟨table, heap, hintern, hample, hstored, hbuckets⟩ :=
    provRootSetInternSortedLocked_append hheap.wf h.ample.next h.stored h.buckets hne hnew hsmall
      hroom
  have hresult : provRootSetIntern registry roots =
      (sets.length + 1, false, { registry with rootSets := table, heap := heap }) := by
    unfold provRootSetIntern
    rw [if_neg (by rwa [List.length_eq_zero_iff])]
    dsimp only
    rw [h.ample.calloc hfit]
    dsimp only
    rw [if_neg (by decide), hsort, hnone, if_neg (by decide), hunique,
      List.take_of_length_le (by rw [h.limit]; exact hlength), hintern,
      decide_eq_false (by rw [h.limit]; exact Nat.not_lt.mpr hlength)]
  rw [hresult] at hreach ⊢
  refine ⟨hreach, hample, h.limit, h.roots, h.labels, h.cache, hstored, ?_⟩
  rw [List.length_append]
  exact hbuckets

/-! ### Memory that does not run out -/

theorem provGrowArray_ample {heap : Heap} (h : heap.Ample) (elementSize capacity required : ℕ) :
    (provGrowArray heap elementSize capacity required).2.2.Ample := by
  unfold provGrowArray
  generalize provDouble required 64 (if capacity = 0 then 8 else capacity) = next
  dsimp only
  split
  · exact h
  · split
    · exact h
    · split <;> exact h.next

theorem provTableReserve_ample {ρ κ : Type} (key : ρ → κ) (hash : κ → ℕ) (recordSize : ℕ)
    (t : ProvTable ρ) {heap : Heap} (h : heap.Ample) :
    (provTableReserve key hash recordSize t heap).2.2.Ample := by
  unfold provTableReserve
  dsimp only
  split
  · exact h
  · split
    · exact h.next
    · apply provGrowArray_ample
      split
      · exact h.next
      · exact h

theorem provLabelInternLocked_ample {registry : ProvRegistry} (h : registry.heap.Ample)
    (input : ProvLabelView) : (provLabelInternLocked registry input).2.heap.Ample := by
  have hreserve := provTableReserve_ample id (fun r : ProvLabelRecord => r.hash.toNat) 32
    registry.labels h
  unfold provLabelInternLocked
  dsimp only
  split
  · exact h
  · split
    · exact h
    · split
      · exact h
      · split <;> exact hreserve

theorem provRootIntern_ample {registry : ProvRegistry} (h : registry.heap.Ample)
    (key : ProvRootKey) : (provRootIntern registry key).2.heap.Ample := by
  have hreserve := provTableReserve_ample id rootHash 40 registry.roots h
  unfold provRootIntern
  dsimp only
  split
  · exact h
  · split
    · exact h
    · split
      · exact h
      · split
        · exact h
        · split <;> exact hreserve

theorem provRootSetInternSortedLocked_ample {registry : ProvRegistry} (h : registry.heap.Ample)
    (roots : List ℕ) : (provRootSetInternSortedLocked registry roots).2.heap.Ample := by
  have hreserve := provTableReserve_ample id (fun r : ProvRootSetRecord => r.hash.toNat) 24
    registry.rootSets h
  unfold provRootSetInternSortedLocked
  dsimp only
  split
  · exact h
  · split
    · exact h
    · split
      · exact h
      · split
        · exact hreserve
        · split <;> exact hreserve.next

theorem provLabelFromRoot_ample {registry : ProvRegistry} (h : registry.heap.Ample) (rootId : ℕ)
    (channel : ProvChannel) : (provLabelFromRoot registry rootId channel).2.heap.Ample := by
  have hset := provRootSetInternSortedLocked_ample h [rootId]
  unfold provLabelFromRoot
  dsimp only
  split
  · exact h
  · split
    · exact hset
    · exact provLabelInternLocked_ample hset _

theorem provRegistryCreate_ample {maxRoots : ℕ} {heap : Heap} {registry : ProvRegistry}
    (h : heap.Ample) (hcreate : provRegistryCreate maxRoots heap = some registry) :
    registry.heap.Ample := by
  unfold provRegistryCreate at hcreate
  dsimp only at hcreate
  generalize (if maxRoots = 0 then provDefaultMaxRootsPerSet else maxRoots) = limit at hcreate
  split_ifs at hcreate
  obtain rfl := Option.some.inj hcreate
  apply provLabelInternLocked_ample
  apply provLabelInternLocked_ample
  exact fun n => h (n + 6)

/-! ### The sets over thirty-two roots -/

/-- The set of the roots whose bits are set in `i`; the first bit stands for the root `2`. -/
def bitRoots (i : ℕ) : List ℕ := ((List.range 32).filter i.testBit).map (· + 2)

theorem mem_bitRoots {i root : ℕ} :
    root ∈ bitRoots i ↔ ∃ j < 32, i.testBit j = true ∧ root = j + 2 := by
  simp only [bitRoots, List.mem_map, List.mem_filter, List.mem_range, and_assoc, eq_comm]

theorem bitRoots_ascending (i : ℕ) : (bitRoots i).Pairwise (· < ·) := by
  rw [bitRoots, List.pairwise_map]
  exact (List.pairwise_lt_range.filter _).imp fun hlt => by omega

theorem length_bitRoots_le (i : ℕ) : (bitRoots i).length ≤ 32 := by
  rw [bitRoots, List.length_map]
  exact (List.length_filter_le _ _).trans (by rw [List.length_range])

/-- Different numbers stand for different sets. -/
theorem bitRoots_injOn {i j : ℕ} (hi : i < 2 ^ 32) (hj : j < 2 ^ 32)
    (h : bitRoots i = bitRoots j) : i = j := by
  have himp : ∀ {a b : ℕ}, bitRoots a = bitRoots b → ∀ k < 32, a.testBit k = true →
      b.testBit k = true := by
    intro a b hab k hk hbit
    have hmem : k + 2 ∈ bitRoots b := hab ▸ mem_bitRoots.mpr ⟨k, hk, hbit, rfl⟩
    obtain ⟨k', -, hbit', heq⟩ := mem_bitRoots.mp hmem
    obtain rfl : k = k' := by omega
    exact hbit'
  apply Nat.eq_of_testBit_eq
  intro k
  by_cases hk : k < 32
  · rw [Bool.eq_iff_iff]
    exact ⟨himp h k hk, himp h.symm k hk⟩
  · have hle : 2 ^ 32 ≤ 2 ^ k := Nat.pow_le_pow_right (by omega) (by omega)
    rw [Nat.testBit_lt_two_pow (hi.trans_le hle), Nat.testBit_lt_two_pow (hj.trans_le hle)]

theorem bitRoots_ne_nil {i : ℕ} (hpos : i ≠ 0) (hi : i < 2 ^ 32) : bitRoots i ≠ [] := by
  intro hnil
  have hzero : bitRoots 0 = [] := by decide
  exact hpos (bitRoots_injOn hi (by omega) (hnil.trans hzero.symm))

/-! ### The registry -/

/-- A new registry with default limits. -/
def exhaustionCreated : ProvRegistry :=
  (provRegistryCreate 0 ⟨fun _ => true⟩).get (by decide)

theorem provRegistryCreate_exhaustion :
    provRegistryCreate 0 ⟨fun _ => true⟩ = some exhaustionCreated :=
  (Option.some_get _).symm

/-- The first 33 bytes of an argument as its roots, and the labels `2` and `3` of the first two. -/
def exhaustionStart : ProvRegistry :=
  runRegistryOps exhaustionCreated
    (((List.range 33).map fun n => .internRoot ⟨.argvByte, 0, 0, BitVec.ofNat 64 n, 0⟩) ++
      [.labelFromRoot 1 .data, .labelFromRoot 2 .data])

/-- The sets that are interned one after another. -/
def exhaustionSets (n : ℕ) : List (List ℕ) :=
  [[1], [2]] ++ (List.range n).map fun i => bitRoots (i + 2)

/-- The registry after `n` sets were interned. -/
def exhaustionRegistry (n : ℕ) : ProvRegistry :=
  runRegistryOps exhaustionStart ((List.range n).map fun i => .internSet (bitRoots (i + 2)))

theorem exhaustionStart_ample : exhaustionStart.heap.Ample := by
  have hops : ∀ ops : List RegistryOp, (∀ op ∈ ops, (∃ key, op = .internRoot key) ∨
      ∃ root channel, op = .labelFromRoot root channel) → ∀ registry : ProvRegistry,
      registry.heap.Ample → (runRegistryOps registry ops).heap.Ample := by
    intro ops
    induction ops with
    | nil => exact fun _ _ h => h
    | cons op ops ih =>
      intro hkind registry h
      apply ih (fun op' hmem => hkind op' (List.mem_cons_of_mem _ hmem))
      rcases hkind op List.mem_cons_self with ⟨key, rfl⟩ | ⟨root, channel, rfl⟩
      · exact provRootIntern_ample h key
      · exact provLabelFromRoot_ample h root channel
  apply hops
  · intro op hmem
    rcases List.mem_append.mp hmem with hmem | hmem
    · obtain ⟨n, -, rfl⟩ := List.mem_map.mp hmem
      exact Or.inl ⟨_, rfl⟩
    · rcases List.mem_cons.mp hmem with rfl | hmem
      · exact Or.inr ⟨_, _, rfl⟩
      · exact Or.inr ⟨_, _, List.mem_singleton.mp hmem⟩
  · exact provRegistryCreate_ample (fun _ => rfl) provRegistryCreate_exhaustion

/-- What the tables of `exhaustionStart` hold. -/
theorem exhaustionStart_facts :
    exhaustionStart.maxRootsPerSet = 4096 ∧ exhaustionStart.roots.records.length = 33 ∧
    exhaustionStart.rootSets.records.map ProvRootSetRecord.roots = [[1], [2]] ∧
    exhaustionStart.rootSets.buckets.length = 16 ∧
    exhaustionStart.labels.records.map ProvLabelRecord.view =
      [⟨0, 0, 3, 0⟩, ⟨0, 0, 0, 1⟩, ⟨1, 0, 3, 0⟩, ⟨2, 0, 3, 0⟩] ∧
    exhaustionStart.labels.buckets.length = 16 ∧
    exhaustionStart.unionCache = List.replicate 16 none := by
  decide +kernel

theorem exhaustionStart_filled :
    Filled 33 exhaustionStart exhaustionStart (exhaustionSets 0) where
  reachable := (RegistryReachable.create provRegistryCreate_exhaustion).ops _
  ample := exhaustionStart_ample
  limit := rfl
  roots := exhaustionStart_facts.2.1
  labels := rfl
  cache := rfl
  stored := exhaustionStart_facts.2.2.1
  buckets := by
    rw [exhaustionStart_facts.2.2.2.1]
    decide

/-- As many sets are stored as were interned. -/
theorem exhaustionRegistry_filled : ∀ n ≤ 2 ^ 32 - 3,
    Filled 33 exhaustionStart (exhaustionRegistry n) (exhaustionSets n) := by
  intro n
  induction n with
  | zero =>
    rw [exhaustionRegistry, List.range_zero, List.map_nil, runRegistryOps, List.foldl_nil]
    exact fun _ => exhaustionStart_filled
  | succ n ih =>
    intro hn
    have hlimit := exhaustionStart_facts.1
    have hlength := length_bitRoots_le (n + 2)
    have hstep := (ih (by omega)).intern (bitRoots_ne_nil (by omega) (by omega))
      (bitRoots_ascending (n + 2)) (by omega) ?_ ?_ (by omega) ?_
    · have hregistry : exhaustionRegistry (n + 1) =
          (provRootSetIntern (exhaustionRegistry n) (bitRoots (n + 2))).2.2 := by
        rw [exhaustionRegistry, List.range_succ, List.map_append, runRegistryOps, List.foldl_append]
        rfl
      have hsets : exhaustionSets (n + 1) = exhaustionSets n ++ [bitRoots (n + 2)] := by
        rw [exhaustionSets, List.range_succ, List.map_append, ← List.append_assoc]
        rfl
      rw [hregistry, hsets]
      exact hstep
    · intro root hmem
      obtain ⟨j, hj, -, rfl⟩ := mem_bitRoots.mp hmem
      omega
    · -- the set was not interned before
      intro hmem
      rcases List.mem_append.mp hmem with hmem | hmem
      · rcases List.mem_cons.mp hmem with hsame | hmem
        · have hone : 1 ∈ bitRoots (n + 2) := hsame ▸ List.mem_singleton_self 1
          obtain ⟨j, -, -, heq⟩ := mem_bitRoots.mp hone
          omega
        · have hone : bitRoots 1 = [2] := by decide
          have hsame := bitRoots_injOn (by omega) (by omega)
            ((List.mem_singleton.mp hmem).trans hone.symm)
          omega
      · obtain ⟨i, hi, hsame⟩ := List.mem_map.mp hmem
        have hlt := List.mem_range.mp hi
        have := bitRoots_injOn (by omega) (by omega) hsame
        omega
    · rw [exhaustionSets, List.length_append, List.length_map, List.length_range]
      simp only [uint32Max, List.length_cons, List.length_nil]
      omega

section Full

variable {registry : ProvRegistry} {n : ℕ}

theorem exhaustionSets_getElem? {i : ℕ} (hi : i < n) :
    (exhaustionSets n)[i + 2]? = some (bitRoots (i + 2)) := by
  rw [exhaustionSets, List.getElem?_append_right (Nat.le_add_left 2 i), List.getElem?_map]
  show ((List.range n)[i + 2 - 2]?).map _ = _
  rw [Nat.add_sub_cancel, List.getElem?_range hi]
  rfl

theorem length_exhaustionSets (n : ℕ) : (exhaustionSets n).length = n + 2 := by
  rw [exhaustionSets, List.length_append, List.length_map, List.length_range, Nat.add_comm]
  rfl

theorem not_mem_exhaustionSets (n : ℕ) : [1, 2] ∉ exhaustionSets n := by
  intro hmem
  rcases List.mem_append.mp hmem with hmem | hmem
  · exact absurd hmem (by decide)
  · obtain ⟨i, -, hsame⟩ := List.mem_map.mp hmem
    have hone : 1 ∈ bitRoots (i + 2) := hsame ▸ List.mem_cons_self
    obtain ⟨j, -, -, heq⟩ := mem_bitRoots.mp hone
    omega

/-- The stored sets by their identifiers. -/
theorem Filled.record {rootCount : ℕ} {start : ProvRegistry} {sets : List (List ℕ)}
    (h : Filled rootCount start registry sets) {i : ℕ} {roots : List ℕ}
    (hget : sets[i]? = some roots) :
    ∃ record, provRootSetRecordLocked registry (i + 1) = some record ∧ record.roots = roots := by
  rw [← h.stored, List.getElem?_map] at hget
  obtain ⟨record, hget, hroots⟩ := Option.map_eq_some_iff.mp hget
  exact ⟨record, hget, hroots⟩

theorem Filled.setMembers_eq {rootCount : ℕ} {start : ProvRegistry} {sets : List (List ℕ)}
    (h : Filled rootCount start registry sets) {i : ℕ} {roots : List ℕ}
    (hget : sets[i]? = some roots) : setMembers registry (i + 1) = roots.toFinset := by
  obtain ⟨record, hrecord, hroots⟩ := h.record hget
  rw [setMembers, setRoots, hrecord, Option.map_some, Option.getD_some, hroots]

/-- The labels by their identifiers. -/
theorem Filled.label (h : Filled 33 exhaustionStart registry (exhaustionSets n)) (i : ℕ)
    {view : ProvLabelView}
    (hview : [⟨0, 0, 3, 0⟩, ⟨0, 0, 0, 1⟩, ⟨1, 0, 3, 0⟩, ⟨2, 0, 3, 0⟩][i]? = some view) :
    ∃ record : ProvLabelRecord, registry.labels.records[i]? = some record ∧ record.view = view := by
  rw [← exhaustionStart_facts.2.2.2.2.1, ← h.labels, List.getElem?_map] at hview
  exact Option.map_eq_some_iff.mp hview

/-- The last set lacks the root `1`. -/
theorem Filled.last (h : Filled 33 exhaustionStart registry (exhaustionSets n))
    (hfull : registry.rootSets.records.length = uint32Max) :
    1 ∉ setMembers registry uint32Max := by
  have hcount := congrArg List.length h.stored
  rw [List.length_map, hfull, length_exhaustionSets] at hcount
  simp only [uint32Max] at hcount
  obtain ⟨m, rfl⟩ : ∃ m, n = m + 1 := ⟨n - 1, by omega⟩
  have hset := h.setMembers_eq (exhaustionSets_getElem? (Nat.lt_succ_self m))
  have hlast : m + 2 + 1 = uint32Max := by
    simp only [uint32Max]
    omega
  rw [hlast] at hset
  rw [hset, List.mem_toFinset]
  intro hmem
  obtain ⟨j, -, -, heq⟩ := mem_bitRoots.mp hmem
  omega

end Full

end TaintForge
