import Mathlib.Data.List.TakeDrop

/-!
# Reading parts of some bytes

* `byteSlice`: the bytes between two offsets, as far as they are there.
* `Scan`: a computation that keeps account of the parts that it reads, and may raise.
* `Scan.bind_outcome_eq_ok`, `Scan.Inside.bind`: what a sequence of steps has done, and where it has
  read.
-/

namespace TaintForge

/-! ### Slices -/

/-- `data[start:stop]` -/
def byteSlice (data : List UInt8) (start stop : ℕ) : List UInt8 := (data.take stop).drop start

theorem length_byteSlice {data : List UInt8} {start stop : ℕ} (h : stop ≤ data.length) :
    (byteSlice data start stop).length = stop - start := by
  rw [byteSlice, List.length_drop, List.length_take, Nat.min_eq_left h]

theorem byteSlice_eq_take_drop (data : List UInt8) (start width : ℕ) :
    byteSlice data start (start + width) = (data.drop start).take width := by
  rw [byteSlice, List.drop_take, Nat.add_sub_cancel_left]

/-- A slice and what is behind it. -/
theorem drop_eq_byteSlice_append {data : List UInt8} {start stop : ℕ} (h : start ≤ stop) :
    data.drop start = byteSlice data start stop ++ data.drop stop := by
  obtain ⟨width, rfl⟩ := Nat.exists_eq_add_of_le h
  rw [byteSlice_eq_take_drop, ← List.drop_drop, List.take_append_drop]

/-- A slice of a slice. -/
theorem take_drop_byteSlice {data : List UInt8} {start stop offset width : ℕ}
    (h : start + offset + width ≤ stop) :
    ((byteSlice data start stop).drop offset).take width =
      byteSlice data (start + offset) (start + offset + width) := by
  rw [byteSlice_eq_take_drop, byteSlice, List.drop_drop, List.drop_take, List.take_take,
    Nat.min_eq_left (by omega)]

/-! ### Scans -/

/-- A computation over some bytes: the parts that it reads, as pairs of a start and an end, and its value
or what it raises. -/
structure Scan (ε α : Type) where
  reads : List (ℕ × ℕ)
  outcome : Except ε α

namespace Scan

variable {ε α β : Type}

/-- Read the part between two offsets, as far as it is there. -/
def slice (data : List UInt8) (start stop : ℕ) : Scan ε (List UInt8) :=
  ⟨[(start, stop)], .ok (byteSlice data start stop)⟩

/-- Raise. -/
def fail (error : ε) : Scan ε α := ⟨[], .error error⟩

/-- Raise unless something is so. -/
def require (condition : Prop) [Decidable condition] (error : ε) : Scan ε Unit :=
  ⟨[], if condition then .ok () else .error error⟩

/-- Raise unless there is a value. -/
def ofOption (x : Option α) (error : ε) : Scan ε α :=
  ⟨[], match x with
    | some a => .ok a
    | none => .error error⟩

/-- What raises or has a value, without reading. -/
def lift (x : Except ε α) : Scan ε α := ⟨[], x⟩

instance : Monad (Scan ε) where
  pure a := ⟨[], .ok a⟩
  bind x f :=
    match x.outcome with
    | .ok a => ⟨x.reads ++ (f a).reads, (f a).outcome⟩
    | .error error => ⟨x.reads, .error error⟩

@[simp] theorem pure_outcome (a : α) : (pure a : Scan ε α).outcome = .ok a := rfl

@[simp] theorem pure_reads (a : α) : (pure a : Scan ε α).reads = [] := rfl

theorem bind_of_ok {x : Scan ε α} {a : α} (h : x.outcome = .ok a) (f : α → Scan ε β) :
    (x >>= f).outcome = (f a).outcome ∧ (x >>= f).reads = x.reads ++ (f a).reads := by
  obtain ⟨reads, outcome⟩ := x
  obtain rfl : outcome = .ok a := h
  exact ⟨rfl, rfl⟩

theorem bind_of_error {x : Scan ε α} {error : ε} (h : x.outcome = .error error) (f : α → Scan ε β) :
    (x >>= f).outcome = .error error ∧ (x >>= f).reads = x.reads := by
  obtain ⟨reads, outcome⟩ := x
  obtain rfl : outcome = .error error := h
  exact ⟨rfl, rfl⟩

/-- **What a successful sequence of steps has done.** -/
theorem bind_outcome_eq_ok {x : Scan ε α} {f : α → Scan ε β} {b : β} :
    (x >>= f).outcome = .ok b ↔ ∃ a, x.outcome = .ok a ∧ (f a).outcome = .ok b := by
  cases hx : x.outcome with
  | ok a =>
    rw [(bind_of_ok hx f).1]
    constructor
    · intro h
      exact ⟨a, rfl, h⟩
    · rintro ⟨a', ha', h⟩
      rwa [Except.ok.inj ha']
  | error error =>
    rw [(bind_of_error hx f).1]
    constructor
    · nofun
    · rintro ⟨a', ha', -⟩
      cases ha'

/-- **What a sequence of steps that raises has done.** -/
theorem bind_outcome_eq_error {x : Scan ε α} {f : α → Scan ε β} {error : ε} :
    (x >>= f).outcome = .error error ↔
      x.outcome = .error error ∨ ∃ a, x.outcome = .ok a ∧ (f a).outcome = .error error := by
  cases hx : x.outcome with
  | ok a =>
    rw [(bind_of_ok hx f).1]
    constructor
    · intro h
      exact Or.inr ⟨a, rfl, h⟩
    · rintro (h | ⟨a', ha', h⟩)
      · cases h
      · rwa [Except.ok.inj ha']
  | error error' =>
    rw [(bind_of_error hx f).1]
    constructor
    · intro h
      exact Or.inl (congrArg Except.error (Except.error.inj h))
    · rintro (h | ⟨a', ha', -⟩)
      · exact congrArg Except.error (Except.error.inj h)
      · cases ha'

@[simp] theorem require_outcome_eq_ok {condition : Prop} [Decidable condition] {error : ε} {u : Unit} :
    (require condition error).outcome = .ok u ↔ condition := by
  unfold require
  dsimp only
  split <;> simp_all

@[simp] theorem require_outcome_eq_error {condition : Prop} [Decidable condition] {error error' : ε} :
    (require condition error).outcome = .error error' ↔ ¬condition ∧ error = error' := by
  unfold require
  dsimp only
  split <;> simp_all

@[simp] theorem ofOption_outcome_eq_ok {x : Option α} {error : ε} {a : α} :
    (ofOption x error).outcome = .ok a ↔ x = some a := by
  cases x <;> simp [ofOption]

@[simp] theorem ofOption_outcome_eq_error {x : Option α} {error error' : ε} :
    (ofOption x error).outcome = .error error' ↔ x = none ∧ error = error' := by
  cases x <;> simp [ofOption]

/-- A computation reads inside some bytes. -/
def Inside (data : List UInt8) (x : Scan ε α) : Prop :=
  ∀ read ∈ x.reads, read.1 ≤ read.2 ∧ read.2 ≤ data.length

theorem Inside.of_reads_nil {data : List UInt8} {x : Scan ε α} (h : x.reads = []) : x.Inside data := by
  intro read hread
  rw [h] at hread
  exact absurd hread List.not_mem_nil

theorem Inside.slice {data : List UInt8} {start stop : ℕ} (hstart : start ≤ stop)
    (hstop : stop ≤ data.length) : (Scan.slice data start stop : Scan ε (List UInt8)).Inside data := by
  intro read hread
  obtain rfl := List.mem_singleton.mp hread
  exact ⟨hstart, hstop⟩

/-- Steps that read inside the bytes do so one after the other. -/
theorem Inside.bind {data : List UInt8} {x : Scan ε α} {f : α → Scan ε β} (hx : x.Inside data)
    (hf : ∀ a, x.outcome = .ok a → (f a).Inside data) : (x >>= f).Inside data := by
  intro read hread
  cases houtcome : x.outcome with
  | ok a =>
    rw [(bind_of_ok houtcome f).2] at hread
    rcases List.mem_append.mp hread with hread | hread
    · exact hx read hread
    · exact hf a houtcome read hread
  | error error =>
    rw [(bind_of_error houtcome f).2] at hread
    exact hx read hread

end Scan

end TaintForge
