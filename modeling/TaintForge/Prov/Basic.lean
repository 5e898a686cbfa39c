import TaintForge.Lib.InternTable
import Mathlib.Data.BitVec

/-!
# Hashes, growth and allocation of the provenance tables

The helpers at the top of `provenance.c`: the mixing functions `provMix64` and `provHashCombine`,
the load test `provShouldGrow`, and the growth of an array, `provGrowArray`.

Allocation can fail at any request.  A table carries a `Heap`, the answers its future requests will
get, so that a statement about every table is a statement about every pattern of failures.
-/

namespace TaintForge

/-- `SIZE_MAX` -/
def sizeMax : ℕ := 2 ^ 64 - 1

/-- `UINT32_MAX` -/
def uint32Max : ℕ := 2 ^ 32 - 1

/-- `UINT64_MAX` -/
def uint64Max : ℕ := 2 ^ 64 - 1

/-! ### Allocation -/

/-- The allocator as one table sees it: `grants n` tells whether its `n`-th request from now on is
granted. -/
structure Heap where
  grants : ℕ → Bool

/-- The allocator after one request. -/
def Heap.next (heap : Heap) : Heap := ⟨fun n => heap.grants (n + 1)⟩

/-- `calloc(count, size)`, also `malloc` and `realloc` for one block: refused by the allocator, or
because the size does not fit in `size_t`. -/
def Heap.calloc (heap : Heap) (count size : ℕ) : Bool × Heap :=
  (heap.grants 0 && decide (count * size ≤ sizeMax), heap.next)

theorem Heap.calloc_le {heap : Heap} {count size : ℕ} (h : (heap.calloc count size).1 = true) :
    count * size ≤ sizeMax := by
  simp only [Heap.calloc, Bool.and_eq_true, decide_eq_true_eq] at h
  exact h.2

/-- Every future request is granted. -/
def Heap.Ample (heap : Heap) : Prop := ∀ n, heap.grants n = true

theorem Heap.Ample.next {heap : Heap} (h : heap.Ample) : heap.next.Ample := fun n => h (n + 1)

theorem Heap.Ample.calloc {heap : Heap} (h : heap.Ample) {count size : ℕ}
    (hsize : count * size ≤ sizeMax) : heap.calloc count size = (true, heap.next) := by
  rw [Heap.calloc, h 0, Bool.true_and, decide_eq_true hsize]

/-! ### Hashes -/

def provMix64 (value : BitVec 64) : BitVec 64 :=
  let value := value ^^^ (value >>> 30)
  let value := value * 0xbf58476d1ce4e5b9#64
  let value := value ^^^ (value >>> 27)
  let value := value * 0x94d049bb133111eb#64
  value ^^^ (value >>> 31)

def provHashCombine (hash value : BitVec 64) : BitVec 64 :=
  provMix64 (hash ^^^ (provMix64 value + 0x9e3779b97f4a7c15#64 + (hash <<< 6) + (hash >>> 2)))

/-! ### Growth -/

/-- `PROV_INITIAL_BUCKET_COUNT` -/
def provInitialBucketCount : ℕ := 16

/-- Grow at a load of seven tenths. -/
def provShouldGrow (entries buckets : ℕ) : Bool :=
  if buckets = 0 then true
  else if entries > sizeMax / 10 then true
  else if buckets > sizeMax / 7 then false
  else decide (entries * 10 ≥ buckets * 7)

/-- The bucket count after a growth, in `size_t`. -/
def provNextCapacity (buckets : ℕ) : ℕ :=
  if buckets = 0 then provInitialBucketCount else buckets * 2 % 2 ^ 64

/-- The doubling loop of `provGrowArray`.  Each round doubles `next`, so 64 rounds reach
`SIZE_MAX / 2`. -/
def provDouble (required : ℕ) : ℕ → ℕ → ℕ
  | 0, next => next
  | fuel + 1, next =>
    if next < required then
      if next > sizeMax / 2 then required else provDouble required fuel (next * 2)
    else next

/-- Make room for `required` elements: whether there is room, the new capacity, the allocator. -/
def provGrowArray (heap : Heap) (elementSize capacity required : ℕ) : Bool × ℕ × Heap :=
  if capacity ≥ required then (true, capacity, heap)
  else
    let next := provDouble required 64 (if capacity = 0 then 8 else capacity)
    if next > sizeMax / elementSize then (false, capacity, heap)
    else
      let (granted, heap) := heap.calloc next elementSize
      if granted then (true, next, heap) else (false, capacity, heap)

/-- Below the load limit at least one more entry fits besides the new one. -/
theorem lt_of_not_provShouldGrow {entries buckets : ℕ} (hsize : buckets ≤ sizeMax / 7)
    (h : provShouldGrow entries buckets = false) : entries < buckets := by
  unfold provShouldGrow at h
  split_ifs at h with h1 h2 h3
  · omega
  · simp only [decide_eq_false_iff_not] at h
    omega

theorem provNextCapacity_pow {k : ℕ} (h : 2 ^ k * 2 ≤ sizeMax) :
    provNextCapacity (2 ^ k) = 2 ^ (k + 1) := by
  have hpos : 2 ^ k ≠ 0 := (Nat.two_pow_pos k).ne'
  rw [provNextCapacity, if_neg hpos, Nat.mod_eq_of_lt, pow_succ]
  simp only [sizeMax] at h
  omega

theorem provDouble_le (required : ℕ) : ∀ fuel next, provDouble required fuel next ≤
    max next (2 * required)
  | 0, next => le_max_left _ _
  | fuel + 1, next => by
    unfold provDouble
    split_ifs with hlt
    · omega
    · have hrec := provDouble_le required fuel (next * 2)
      omega
    · exact le_max_left _ _

/-- With memory to spare, an array of up to `2 ^ 32` small records can grow. -/
theorem Heap.Ample.growArray {heap : Heap} (h : heap.Ample) (elementSize capacity : ℕ)
    {required : ℕ} (hrequired : required ≤ 2 ^ 32) (hpos : 0 < elementSize)
    (hsize : elementSize ≤ 64) :
    ∃ capacity' heap', provGrowArray heap elementSize capacity required =
      (true, capacity', heap') ∧ heap'.Ample := by
  unfold provGrowArray
  by_cases hcap : capacity ≥ required
  · rw [if_pos hcap]
    exact ⟨capacity, heap, rfl, h⟩
  rw [if_neg hcap]
  have hle := provDouble_le required 64 (if capacity = 0 then 8 else capacity)
  have hstart : (if capacity = 0 then 8 else capacity) ≤ 2 ^ 33 := by split_ifs <;> omega
  generalize provDouble required 64 (if capacity = 0 then 8 else capacity) = next at hle
  have hdiv : sizeMax / 64 ≤ sizeMax / elementSize := Nat.div_le_div_left hsize hpos
  have hsmall : sizeMax / 64 = 2 ^ 58 - 1 := by decide
  have hfit : ¬ next > sizeMax / elementSize := by omega
  have hmul := Nat.mul_le_of_le_div _ _ _ (Nat.not_lt.mp hfit)
  dsimp only
  rw [if_neg hfit, h.calloc hmul]
  exact ⟨_, _, rfl, h.next⟩

end TaintForge
