import TaintForge.Prov.Basic
import Mathlib.Data.List.Destutter
import Mathlib.Data.List.Sort

/-!
# The provenance registry

The interning tables of `provenance.c`: resources, roots, root sets and labels, each a record array
with an open-addressing index, and the cache of root-set unions.

Identifiers are numbers.  Resources, roots and root sets are numbered from one (`0` is the invalid
resource or root, and the empty set); labels are numbered from zero.

* `provResourceIntern`, `provRootIntern`, `provRootSetInternSortedLocked`, `provLabelInternLocked`:
  find a record or append it.
* `provRootSetUnionLocked`: the merge of two sorted sets, cut at the budget.
* `provLabelJoinLocked`: the join of two labels.
* `provRegistryCreate`: a registry with the clean and the unknown label.
-/

namespace TaintForge

open OpenAddr

/-! ### Records -/

/-- `ProvResourceKind` -/
inductive ProvResourceKind where
  | invalid | file | stream | datagram | memoryBuffer | processInput | systemValue
  deriving DecidableEq, Repr

/-- The number the compiler gives the kind. -/
def ProvResourceKind.toNat : ProvResourceKind → ℕ
  | invalid => 0 | file => 1 | stream => 2 | datagram => 3
  | memoryBuffer => 4 | processInput => 5 | systemValue => 6

structure ProvResourceKey where
  kind : ProvResourceKind
  scopeId : BitVec 64
  objectId : BitVec 64
  semanticVersion : BitVec 64
  deriving DecidableEq, Repr

/-- What the registry knows of a resource; the name is a C string without its terminator. -/
structure ProvResourceRecord where
  key : ProvResourceKey
  roles : BitVec 32
  displayName : Option (List UInt8)
  deriving DecidableEq, Repr

/-- `ProvRootKind` -/
inductive ProvRootKind where
  | invalid | resourceByte | argvByte | envByte | auxvByte | syscallValueByte
  | initialRegisterByte | boundaryMemoryByte
  deriving DecidableEq, Repr

/-- The number the compiler gives the kind. -/
def ProvRootKind.toNat : ProvRootKind → ℕ
  | invalid => 0 | resourceByte => 1 | argvByte => 2 | envByte => 3 | auxvByte => 4
  | syscallValueByte => 5 | initialRegisterByte => 6 | boundaryMemoryByte => 7

structure ProvRootKey where
  kind : ProvRootKind
  sourceId : BitVec 64
  discriminator : BitVec 32
  offset : BitVec 64
  semanticInstance : BitVec 64
  deriving DecidableEq, Repr

structure ProvRootSetRecord where
  roots : List ℕ
  hash : BitVec 64
  deriving DecidableEq, Repr

structure ProvLabelView where
  dataRoots : ℕ
  addressRoots : ℕ
  completeMask : BitVec 8
  incompleteReasons : BitVec 64
  deriving DecidableEq, Repr

structure ProvLabelRecord where
  view : ProvLabelView
  hash : BitVec 64
  deriving DecidableEq, Repr

structure ProvUnionCacheEntry where
  key : BitVec 64
  result : ℕ
  truncated : Bool
  deriving DecidableEq, Repr

/-- `PROV_RESOURCE_ID_INVALID` -/
def provResourceIdInvalid : ℕ := 0
/-- `PROV_ROOT_ID_INVALID` -/
def provRootIdInvalid : ℕ := 0
/-- `PROV_ROOT_SET_EMPTY` -/
def provRootSetEmpty : ℕ := 0
/-- `PROV_ROOT_SET_ID_INVALID` -/
def provRootSetIdInvalid : ℕ := uint32Max
/-- `PROV_LABEL_CLEAN` -/
def provLabelClean : ℕ := 0
/-- `PROV_LABEL_UNKNOWN` -/
def provLabelUnknown : ℕ := 1
/-- `PROV_LABEL_ID_INVALID` -/
def provLabelIdInvalid : ℕ := uint32Max
/-- `PROV_DEFAULT_MAX_ROOTS_PER_SET` -/
def provDefaultMaxRootsPerSet : ℕ := 4096

/-- `PROV_COMPLETE_DATA` -/
def provCompleteData : BitVec 8 := 1#8
/-- `PROV_COMPLETE_ADDRESS` -/
def provCompleteAddress : BitVec 8 := 2#8
/-- `PROV_COMPLETE_ALL` -/
def provCompleteAll : BitVec 8 := 3#8
/-- `PROV_INCOMPLETE_UNKNOWN` -/
def provIncompleteUnknown : BitVec 64 := 1#64
/-- `PROV_INCOMPLETE_ROOT_SET_BUDGET` -/
def provIncompleteRootSetBudget : BitVec 64 := 64#64

/-- `ProvChannel` -/
inductive ProvChannel where
  | data | address
  deriving DecidableEq, Repr

/-! ### Hashes of the records -/

def provResourceKeyHash (key : ProvResourceKey) : BitVec 64 :=
  let hash := provMix64 (BitVec.ofNat 64 key.kind.toNat)
  let hash := provHashCombine hash key.scopeId
  let hash := provHashCombine hash key.objectId
  provHashCombine hash key.semanticVersion

def provRootKeyHash (key : ProvRootKey) : BitVec 64 :=
  let hash := provMix64 (BitVec.ofNat 64 key.kind.toNat)
  let hash := provHashCombine hash key.sourceId
  let hash := provHashCombine hash (key.discriminator.setWidth 64)
  let hash := provHashCombine hash key.offset
  provHashCombine hash key.semanticInstance

def provRootSetHash (roots : List ℕ) : BitVec 64 :=
  roots.foldl (fun hash root => provHashCombine hash (BitVec.ofNat 64 root))
    (provMix64 (BitVec.ofNat 64 roots.length))

def provLabelHash (label : ProvLabelView) : BitVec 64 :=
  let hash := provMix64 (BitVec.ofNat 64 label.dataRoots)
  let hash := provHashCombine hash (BitVec.ofNat 64 label.addressRoots)
  let hash := provHashCombine hash (label.completeMask.setWidth 64)
  provHashCombine hash label.incompleteReasons

/-! ### The registry -/

/-- A record array with its index; `capacity` is the room allocated for records. -/
structure ProvTable (ρ : Type) extends InternTable ρ where
  capacity : ℕ

structure ProvRegistry where
  maxRootsPerSet : ℕ
  resources : ProvTable ProvResourceRecord
  roots : ProvTable ProvRootKey
  rootSets : ProvTable ProvRootSetRecord
  labels : ProvTable ProvLabelRecord
  unionCache : List (Option ProvUnionCacheEntry)
  unionCacheCount : ℕ
  unknownLabel : ℕ
  heap : Heap

/-- The growth steps before a record is appended: rebuild the index at a load of seven tenths, then
make room in the record array.  An index that was rebuilt stays rebuilt when the second step
fails. -/
def provTableReserve {ρ κ : Type} (key : ρ → κ) (hash : κ → ℕ) (recordSize : ℕ)
    (table : ProvTable ρ) (heap : Heap) : Bool × ProvTable ρ × Heap :=
  let buckets := table.buckets.length
  let capacity := provNextCapacity buckets
  let grow := provShouldGrow (table.records.length + 1) buckets
  let (granted, heap') := heap.calloc capacity 4
  if grow = true ∧ capacity < buckets then (false, table, heap)
  else if grow = true ∧ granted = false then (false, table, heap')
  else
    let heap := if grow then heap' else heap
    let table :=
      if grow then { table with toInternTable := table.toInternTable.rehash key hash capacity }
      else table
    let (room, capacity, heap) :=
      provGrowArray heap recordSize table.capacity (table.records.length + 1)
    (room, { table with capacity := capacity }, heap)

/-- Append a record and put it into the index. -/
def ProvTable.push {ρ κ : Type} (key : ρ → κ) (hash : κ → ℕ) (table : ProvTable ρ) (r : ρ) :
    ProvTable ρ :=
  { table with toInternTable := table.toInternTable.insert key hash r }

/-! ### Resources and roots -/

/-- The hash a resource is filed under. -/
def resourceHash (key : ProvResourceKey) : ℕ := (provResourceKeyHash key).toNat

/-- The hash a root is filed under. -/
def rootHash (key : ProvRootKey) : ℕ := (provRootKeyHash key).toNat

/-- What interning adds to a resource that is known: roles, and a name where there was none. -/
def refreshResource (displayName : Option (List UInt8)) (roles : BitVec 32)
    (r : ProvResourceRecord) : ProvResourceRecord :=
  { r with roles := r.roles ||| roles, displayName := r.displayName.or displayName }

/-- The request `provStrdup` makes for the copy of a name, if there is one. -/
def provStrdup (heap : Heap) : Option (List UInt8) → Bool × Heap
  | none => (true, heap)
  | some name => heap.calloc (name.length + 1) 1

/-- `provResourceIntern`: the id of a key, appended when it is new. -/
def provResourceIntern (registry : ProvRegistry) (key : ProvResourceKey)
    (displayName : Option (List UInt8)) (roles : BitVec 32) : ℕ × ProvRegistry :=
  if key.kind = .invalid then (provResourceIdInvalid, registry)
  else
    match registry.resources.toInternTable.lookup ProvResourceRecord.key resourceHash key with
    | some index =>
      let records := registry.resources.records.modify index (refreshResource displayName roles)
      (index + 1, { registry with resources := { registry.resources with records := records } })
    | none =>
      if registry.resources.records.length ≥ uint32Max then (provResourceIdInvalid, registry)
      else
        let (room, resources, heap) :=
          provTableReserve ProvResourceRecord.key resourceHash 48 registry.resources registry.heap
        let registry := { registry with resources := resources, heap := heap }
        if room = false then (provResourceIdInvalid, registry)
        else
          let (granted, heap) := provStrdup registry.heap displayName
          let registry := { registry with heap := heap }
          if granted = false then (provResourceIdInvalid, registry)
          else
            (registry.resources.records.length + 1,
              { registry with
                resources := registry.resources.push ProvResourceRecord.key resourceHash
                  ⟨key, roles, displayName⟩ })

/-- `provResourceGet`: the record behind an id. -/
def provResourceGet (registry : ProvRegistry) (resourceId : ℕ) : Option ProvResourceRecord :=
  if resourceId = provResourceIdInvalid then none
  else registry.resources.records[resourceId - 1]?

/-- `provRootIntern`: the id of a root, appended when it is new. -/
def provRootIntern (registry : ProvRegistry) (key : ProvRootKey) : ℕ × ProvRegistry :=
  if key.kind = .invalid then (provRootIdInvalid, registry)
  else if key.kind = .resourceByte ∧ (key.sourceId = 0 ∨
      key.sourceId.toNat > registry.resources.records.length) then (provRootIdInvalid, registry)
  else
    match registry.roots.toInternTable.lookup id rootHash key with
    | some index => (index + 1, registry)
    | none =>
      if registry.roots.records.length ≥ uint32Max then (provRootIdInvalid, registry)
      else
        let (room, roots, heap) := provTableReserve id rootHash 40 registry.roots registry.heap
        let registry := { registry with roots := roots, heap := heap }
        if room = false then (provRootIdInvalid, registry)
        else
          (registry.roots.records.length + 1,
            { registry with roots := registry.roots.push id rootHash key })

/-- `provRootGet`: the key behind an id. -/
def provRootGet (registry : ProvRegistry) (rootId : ℕ) : Option ProvRootKey :=
  if rootId = provRootIdInvalid then none else registry.roots.records[rootId - 1]?

/-! ### Root sets -/

def provRootSetIdValidLocked (registry : ProvRegistry) (setId : ℕ) : Bool :=
  setId == provRootSetEmpty || decide (setId ≤ registry.rootSets.records.length)

/-- `provRootSetInternSortedLocked`: the id of a sorted set, appended when it is new. -/
def provRootSetInternSortedLocked (registry : ProvRegistry) (roots : List ℕ) : ℕ × ProvRegistry :=
  if roots.length = 0 then (provRootSetEmpty, registry)
  else
    let record : ProvRootSetRecord := ⟨roots, provRootSetHash roots⟩
    match registry.rootSets.toInternTable.lookup id (fun r => r.hash.toNat) record with
    | some index => (index + 1, registry)
    | none =>
      if registry.rootSets.records.length ≥ uint32Max then (provRootSetIdInvalid, registry)
      else
        let (room, rootSets, heap) :=
          provTableReserve id (fun r => r.hash.toNat) 24 registry.rootSets registry.heap
        let registry := { registry with rootSets := rootSets, heap := heap }
        if room = false then (provRootSetIdInvalid, registry)
        else
          let (granted, heap) := registry.heap.calloc roots.length 4
          let registry := { registry with heap := heap }
          if granted = false then (provRootSetIdInvalid, registry)
          else
            (registry.rootSets.records.length + 1,
              { registry with
                rootSets := registry.rootSets.push id (fun r => r.hash.toNat) record })

/-- `provRootSetRecordLocked`: the members of a set id, none for the empty set and for an id the
registry does not know. -/
def provRootSetRecordLocked (registry : ProvRegistry) (setId : ℕ) : Option ProvRootSetRecord :=
  if setId = provRootSetEmpty then none else registry.rootSets.records[setId - 1]?

/-- What a probe of the union cache sees. -/
def unionCacheView (cache : List (Option ProvUnionCacheEntry)) (slot : ℕ) : Cell (BitVec 64) :=
  match cache.getD slot none with
  | none => .empty
  | some entry => .occupied entry.key

/-- The hash a union is filed under. -/
def unionHash (key : BitVec 64) : ℕ := (provMix64 key).toNat

def provUnionCacheLookupLocked (registry : ProvRegistry) (key : BitVec 64) :
    Option ProvUnionCacheEntry :=
  match find (unionCacheView registry.unionCache) registry.unionCache.length (unionHash key) key with
  | .hit slot => registry.unionCache.getD slot none
  | _ => none

/-- Put an entry where the probe for its key stops; a key that is present keeps its entry. -/
def unionCacheStore (cache : List (Option ProvUnionCacheEntry)) (entry : ProvUnionCacheEntry) :
    List (Option ProvUnionCacheEntry) × Bool :=
  match find (unionCacheView cache) cache.length (unionHash entry.key) entry.key with
  | .free slot => (cache.set slot (some entry), true)
  | _ => (cache, false)

def provUnionCacheRehashLocked (cache : List (Option ProvUnionCacheEntry)) (capacity : ℕ) :
    List (Option ProvUnionCacheEntry) :=
  cache.foldl (fun entries slot =>
    match slot with
    | none => entries
    | some entry => (unionCacheStore entries entry).1) (List.replicate capacity none)

def provUnionCacheInsertLocked (registry : ProvRegistry) (entry : ProvUnionCacheEntry) :
    ProvRegistry :=
  let capacity := provNextCapacity registry.unionCache.length
  let grow := provShouldGrow (registry.unionCacheCount + 1) registry.unionCache.length
  let (granted, heap) := registry.heap.calloc capacity 24
  if grow = true ∧ capacity < registry.unionCache.length then registry
  else if grow = true ∧ granted = false then { registry with heap := heap }
  else
    let cache :=
      if grow then provUnionCacheRehashLocked registry.unionCache capacity else registry.unionCache
    let (cache, stored) := unionCacheStore cache entry
    { registry with
      unionCache := cache
      unionCacheCount := if stored then registry.unionCacheCount + 1 else registry.unionCacheCount
      heap := if grow then heap else registry.heap }

/-- One side of the merge: `a` comes before the rest of the left list, which `merge` merges. -/
def mergeFrom (a : ℕ) (left : List ℕ) (merge : List ℕ → List ℕ) : List ℕ → List ℕ
  | [] => a :: left
  | b :: right =>
    if a < b then a :: merge (b :: right)
    else if b < a then b :: mergeFrom a left merge right
    else a :: merge right

/-- The merge of two ascending lists, each common value once. -/
def mergeRoots : List ℕ → List ℕ → List ℕ
  | [], right => right
  | a :: left, right => mergeFrom a left (mergeRoots left) right

/-- `provRootSetUnionLocked`: the union of two sets, cut at the budget, and whether it was cut. -/
def provRootSetUnionLocked (registry : ProvRegistry) (left right : ℕ) :
    ℕ × Bool × ProvRegistry :=
  if provRootSetIdValidLocked registry left = false ∨
      provRootSetIdValidLocked registry right = false then (provRootSetIdInvalid, false, registry)
  else if left = provRootSetEmpty then (right, false, registry)
  else if right = provRootSetEmpty ∨ left = right then (left, false, registry)
  else
    let first := if left < right then left else right
    let second := if left < right then right else left
    let cacheKey := (BitVec.ofNat 64 first <<< 32) ||| BitVec.ofNat 64 second
    match provUnionCacheLookupLocked registry cacheKey with
    | some cached => (cached.result, cached.truncated, registry)
    | none =>
      match provRootSetRecordLocked registry left, provRootSetRecordLocked registry right with
      | some leftRecord, some rightRecord =>
        let limit := registry.maxRootsPerSet
        let (granted, heap) := registry.heap.calloc limit 4
        let registry := { registry with heap := heap }
        if granted = false then (provRootSetIdInvalid, false, registry)
        else
          let union := mergeRoots leftRecord.roots rightRecord.roots
          let truncated := decide (union.length > limit)
          let (result, registry) := provRootSetInternSortedLocked registry (union.take limit)
          let registry :=
            if result ≠ provRootSetIdInvalid then
              provUnionCacheInsertLocked registry ⟨cacheKey, result, truncated⟩
            else registry
          (result, truncated, registry)
      | _, _ => (provRootSetIdInvalid, false, registry)

/-- `provRootSetSingleton`: the set of one root. -/
def provRootSetSingleton (registry : ProvRegistry) (rootId : ℕ) : ℕ × ProvRegistry :=
  if rootId = provRootIdInvalid ∨ rootId > registry.roots.records.length then
    (provRootSetIdInvalid, registry)
  else provRootSetInternSortedLocked registry [rootId]

/-- `provRootSetIntern`: a copy of the roots is sorted, checked, freed of repetitions and cut at the
budget. -/
def provRootSetIntern (registry : ProvRegistry) (roots : List ℕ) : ℕ × Bool × ProvRegistry :=
  if roots.length = 0 then (provRootSetEmpty, false, registry)
  else
    let (granted, heap) := registry.heap.calloc roots.length 4
    let registry := { registry with heap := heap }
    if granted = false then (provRootSetIdInvalid, false, registry)
    else
      let copy := roots.insertionSort (· ≤ ·)
      if copy.any fun root =>
          root == provRootIdInvalid || decide (root > registry.roots.records.length) then
        (provRootSetIdInvalid, false, registry)
      else
        let unique := copy.destutter (· ≠ ·)
        let truncated := decide (unique.length > registry.maxRootsPerSet)
        let (result, registry) :=
          provRootSetInternSortedLocked registry (unique.take registry.maxRootsPerSet)
        (result, truncated, registry)

/-! ### Labels -/

def provLabelIdValidLocked (registry : ProvRegistry) (labelId : ℕ) : Bool :=
  labelId != provLabelIdInvalid && decide (labelId < registry.labels.records.length)

/-- A label as it is stored: a complete label has no reasons, an incomplete one has at least one. -/
def provLabelNormalize (input : ProvLabelView) : ProvLabelView :=
  let completeMask := input.completeMask &&& provCompleteAll
  if completeMask = provCompleteAll then
    { input with completeMask := completeMask, incompleteReasons := 0 }
  else if input.incompleteReasons = 0 then
    { input with completeMask := completeMask, incompleteReasons := provIncompleteUnknown }
  else { input with completeMask := completeMask }

/-- `provLabelInternLocked`: the id of a label, appended when it is new. -/
def provLabelInternLocked (registry : ProvRegistry) (input : ProvLabelView) : ℕ × ProvRegistry :=
  if provRootSetIdValidLocked registry input.dataRoots = false ∨
      provRootSetIdValidLocked registry input.addressRoots = false then
    (provLabelIdInvalid, registry)
  else
    let label := provLabelNormalize input
    let record : ProvLabelRecord := ⟨label, provLabelHash label⟩
    match registry.labels.toInternTable.lookup id (fun r => r.hash.toNat) record with
    | some index => (index, registry)
    | none =>
      if registry.labels.records.length ≥ uint32Max then (provLabelIdInvalid, registry)
      else
        let (room, labels, heap) :=
          provTableReserve id (fun r => r.hash.toNat) 32 registry.labels registry.heap
        let registry := { registry with labels := labels, heap := heap }
        if room = false then (provLabelIdInvalid, registry)
        else
          (registry.labels.records.length,
            { registry with labels := registry.labels.push id (fun r => r.hash.toNat) record })

/-- `provLabelGet`: the label behind an id. -/
def provLabelGet (registry : ProvRegistry) (labelId : ℕ) : Option ProvLabelView :=
  if provLabelIdValidLocked registry labelId = false then none
  else (registry.labels.records[labelId]?).map ProvLabelRecord.view

/-- The view `provLabelJoinLocked` interns: the unions of the two channels, complete where both
sides are and the union was not cut. -/
def provLabelJoined (a b : ProvLabelView) (dataRoots addressRoots : ℕ)
    (dataTruncated addressTruncated : Bool) : ProvLabelView :=
  let joined : ProvLabelView :=
    { dataRoots := dataRoots
      addressRoots := addressRoots
      completeMask := a.completeMask &&& b.completeMask
      incompleteReasons := a.incompleteReasons ||| b.incompleteReasons }
  let joined :=
    if dataTruncated then
      { joined with
        completeMask := joined.completeMask &&& ~~~provCompleteData
        incompleteReasons := joined.incompleteReasons ||| provIncompleteRootSetBudget }
    else joined
  if addressTruncated then
    { joined with
      completeMask := joined.completeMask &&& ~~~provCompleteAddress
      incompleteReasons := joined.incompleteReasons ||| provIncompleteRootSetBudget }
  else joined

/-- `provLabelJoinLocked`, behind `prov_label_join`. -/
def provLabelJoinLocked (registry : ProvRegistry) (left right : ℕ) : ℕ × ProvRegistry :=
  if provLabelIdValidLocked registry left = false ∨
      provLabelIdValidLocked registry right = false then (provLabelIdInvalid, registry)
  else if left = right then (left, registry)
  else
    match registry.labels.records[left]?, registry.labels.records[right]? with
    | some a, some b =>
      let (dataRoots, dataTruncated, registry) :=
        provRootSetUnionLocked registry a.view.dataRoots b.view.dataRoots
      let (addressRoots, addressTruncated, registry) :=
        provRootSetUnionLocked registry a.view.addressRoots b.view.addressRoots
      provLabelInternLocked registry
        (provLabelJoined a.view b.view dataRoots addressRoots dataTruncated addressTruncated)
    | _, _ => (provLabelIdInvalid, registry)

/-- `provLabelFromRoot`: the complete label of one root in one channel. -/
def provLabelFromRoot (registry : ProvRegistry) (rootId : ℕ) (channel : ProvChannel) :
    ℕ × ProvRegistry :=
  if rootId = provRootIdInvalid ∨ rootId > registry.roots.records.length then
    (provLabelIdInvalid, registry)
  else
    let (singleton, registry) := provRootSetInternSortedLocked registry [rootId]
    if singleton = provRootSetIdInvalid then (provLabelIdInvalid, registry)
    else
      provLabelInternLocked registry
        { dataRoots := if channel = .data then singleton else provRootSetEmpty
          addressRoots := if channel = .address then singleton else provRootSetEmpty
          completeMask := provCompleteAll
          incompleteReasons := 0 }

/-- The loop of `provLabelJoinMany`. -/
def joinManyFrom (registry : ProvRegistry) (result : ℕ) : List ℕ → ℕ × ProvRegistry
  | [] => (result, registry)
  | label :: labels =>
    let (result, registry) := provLabelJoinLocked registry result label
    if result = provLabelIdInvalid then (result, registry)
    else joinManyFrom registry result labels

/-- `provLabelJoinMany`: the labels joined one after another, up to the first failure. -/
def provLabelJoinMany (registry : ProvRegistry) (labels : List ℕ) : ℕ × ProvRegistry :=
  joinManyFrom registry provLabelClean labels

/-- `provLabelAsAddressDependency`: the roots of both channels as roots of the address. -/
def provLabelAsAddressDependency (registry : ProvRegistry) (labelId : ℕ) : ℕ × ProvRegistry :=
  match provLabelGet registry labelId with
  | none => (provLabelIdInvalid, registry)
  | some source =>
    let (addressRoots, truncated, registry) :=
      provRootSetUnionLocked registry source.dataRoots source.addressRoots
    if addressRoots = provRootSetIdInvalid then (provLabelIdInvalid, registry)
    else
      let sourceComplete := source.completeMask &&& provCompleteAll = provCompleteAll
      provLabelInternLocked registry
        { dataRoots := provRootSetEmpty
          addressRoots := addressRoots
          completeMask :=
            if sourceComplete ∧ truncated = false then provCompleteData ||| provCompleteAddress
            else provCompleteData
          incompleteReasons :=
            if truncated then source.incompleteReasons ||| provIncompleteRootSetBudget
            else source.incompleteReasons }

/-- `provLabelMarkIncomplete`: clear the marks of some channels. -/
def provLabelMarkIncomplete (registry : ProvRegistry) (labelId : ℕ)
    (incompleteChannels : BitVec 8) (reasons : BitVec 64) : ℕ × ProvRegistry :=
  let incompleteChannels := incompleteChannels &&& provCompleteAll
  if incompleteChannels = 0 then (labelId, registry)
  else
    match provLabelGet registry labelId with
    | none => (provLabelIdInvalid, registry)
    | some label =>
      provLabelInternLocked registry
        { label with
          completeMask := label.completeMask &&& ~~~incompleteChannels
          incompleteReasons :=
            label.incompleteReasons ||| if reasons = 0 then provIncompleteUnknown else reasons }

/-- One side of the walk of `provRootSetsIntersect`. -/
def meetFrom (a : ℕ) (meet : List ℕ → Bool) : List ℕ → Bool
  | [] => false
  | b :: right =>
    if a < b then meet (b :: right) else if b < a then meetFrom a meet right else true

/-- Whether two ascending lists meet, by one walk over both. -/
def meetRoots : List ℕ → List ℕ → Bool
  | [], _ => false
  | a :: left, right => meetFrom a (meetRoots left) right

/-- `provRootSetsIntersect`: whether two sets share a root. -/
def provRootSetsIntersect (registry : ProvRegistry) (left right : ℕ) : Bool :=
  match provRootSetRecordLocked registry left, provRootSetRecordLocked registry right with
  | some a, some b => meetRoots a.roots b.roots
  | _, _ => false

/-! ### Creation -/

/-- An empty table with the initial buckets. -/
def ProvTable.initial {ρ : Type} : ProvTable ρ :=
  ⟨⟨[], List.replicate provInitialBucketCount 0⟩, 0⟩

/-- `provRegistryCreate`: five index allocations, then the clean and the unknown label. -/
def provRegistryCreate (maxRootsPerSet : ℕ) (heap : Heap) : Option ProvRegistry :=
  let maxRoots := if maxRootsPerSet = 0 then provDefaultMaxRootsPerSet else maxRootsPerSet
  if maxRoots = uint32Max then none
  else if (heap.grants 0 && heap.grants 1 && heap.grants 2 && heap.grants 3 && heap.grants 4 &&
      heap.grants 5) = false then none
  else
    let registry : ProvRegistry :=
      { maxRootsPerSet := maxRoots
        resources := ProvTable.initial
        roots := ProvTable.initial
        rootSets := ProvTable.initial
        labels := ProvTable.initial
        unionCache := List.replicate provInitialBucketCount none
        unionCacheCount := 0
        unknownLabel := 0
        heap := ⟨fun n => heap.grants (n + 6)⟩ }
    let (clean, registry) := provLabelInternLocked registry ⟨0, 0, provCompleteAll, 0⟩
    if clean ≠ provLabelClean then none
    else
      let (unknown, registry) :=
        provLabelInternLocked registry ⟨0, 0, 0, provIncompleteUnknown⟩
      if unknown ≠ provLabelUnknown then none
      else some { registry with unknownLabel := unknown }

end TaintForge
