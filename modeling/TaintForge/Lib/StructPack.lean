import Mathlib.Data.Nat.Digits.Defs
import Mathlib.Tactic.Ring

/-!
# Packed records

Records of numbers with fixed widths, packed without padding, the least significant byte of each number first.
A number that does not fit its width is refused.

* `pack`, `unpack`: from the numbers to the bytes and back.
* `unpack_pack`: what was packed is read again, whatever follows it.
* `ByteOrder`: the same in either order of the bytes, where a record is all that there is to read.
-/

namespace TaintForge.StructPack

/-! ### Numbers -/

/-- The bytes of a number, with a width. -/
def leBytes : ℕ → ℕ → List UInt8
  | 0, _ => []
  | width + 1, n => UInt8.ofNat n :: leBytes width (n / 256)

/-- The number of some bytes. -/
def leValue (bytes : List UInt8) : ℕ := Nat.ofDigits 256 (bytes.map UInt8.toNat)

@[simp] theorem length_leBytes (width n : ℕ) : (leBytes width n).length = width := by
  induction width generalizing n with
  | zero => rfl
  | succ width ih => rw [leBytes, List.length_cons, ih]

theorem leValue_leBytes {width n : ℕ} (h : n < 256 ^ width) : leValue (leBytes width n) = n := by
  unfold leValue
  induction width generalizing n with
  | zero =>
    rw [pow_zero, Nat.lt_one_iff] at h
    rw [h]
    rfl
  | succ width ih =>
    rw [pow_succ] at h
    have hrest : n / 256 < 256 ^ width := Nat.div_lt_of_lt_mul (by rw [Nat.mul_comm]; exact h)
    have hdigit : (UInt8.ofNat n).toNat = n % 256 := UInt8.toNat_ofNat'
    rw [leBytes, List.map_cons, Nat.ofDigits_cons, ih hrest, hdigit]
    exact Nat.mod_add_div n 256

/-! ### Records -/

/-- The bytes of a record, given by the width and the value of each field. -/
def pack : List (ℕ × ℕ) → Option (List UInt8)
  | [] => some []
  | (width, value) :: fields =>
    if value < 256 ^ width then (pack fields).map (leBytes width value ++ ·) else none

/-- The values of a record at the start of some bytes, by the widths of its fields. -/
def unpack : List ℕ → List UInt8 → Option (List ℕ)
  | [], _ => some []
  | width :: widths, bytes =>
    if bytes.length < width then none
    else (unpack widths (bytes.drop width)).map (leValue (bytes.take width) :: ·)

/-- A record is packed where every value fits its width. -/
theorem pack_isSome {fields : List (ℕ × ℕ)} :
    (pack fields).isSome = true ↔ ∀ field ∈ fields, field.2 < 256 ^ field.1 := by
  induction fields with
  | nil => exact iff_of_true rfl fun field h => absurd h List.not_mem_nil
  | cons field fields ih =>
    rw [List.forall_mem_cons, pack]
    split
    · rename_i h
      rw [Option.isSome_map, ih, and_iff_right h]
    · rename_i h
      exact iff_of_false Bool.false_ne_true fun hboth => h hboth.1

theorem length_pack {fields : List (ℕ × ℕ)} {bytes : List UInt8} (h : pack fields = some bytes) :
    bytes.length = (fields.map Prod.fst).sum := by
  induction fields generalizing bytes with
  | nil =>
    obtain rfl := Option.some.inj h
    rfl
  | cons field fields ih =>
    unfold pack at h
    split at h
    · obtain ⟨rest, hrest, rfl⟩ := Option.map_eq_some_iff.mp h
      rw [List.length_append, length_leBytes, ih hrest, List.map_cons, List.sum_cons]
    · cases h

/-- **What was packed is read again.** -/
theorem unpack_pack {fields : List (ℕ × ℕ)} {bytes : List UInt8} (h : pack fields = some bytes)
    (rest : List UInt8) : unpack (fields.map Prod.fst) (bytes ++ rest) = some (fields.map Prod.snd) := by
  induction fields generalizing bytes with
  | nil => rfl
  | cons field fields ih =>
    unfold pack at h
    split at h
    · rename_i hfits
      obtain ⟨tail, htail, rfl⟩ := Option.map_eq_some_iff.mp h
      have hlength := length_leBytes field.1 field.2
      rw [List.map_cons, List.append_assoc, unpack, if_neg (by rw [List.length_append, hlength]; omega),
        List.drop_left' hlength, List.take_left' hlength, ih htail, leValue_leBytes hfits]
      rfl
    · cases h

/-! ### The order of the bytes -/

theorem leValue_lt (bytes : List UInt8) : leValue bytes < 256 ^ bytes.length := by
  have h := Nat.ofDigits_lt_base_pow_length' (b := 254) (l := bytes.map UInt8.toNat) ?_
  · rwa [List.length_map] at h
  · intro digit hdigit
    obtain ⟨byte, -, rfl⟩ := List.mem_map.mp hdigit
    exact byte.toNat_lt

theorem leBytes_leValue (bytes : List UInt8) : leBytes bytes.length (leValue bytes) = bytes := by
  induction bytes with
  | nil => rfl
  | cons byte bytes ih =>
    have hvalue : leValue (byte :: bytes) = byte.toNat + 256 * leValue bytes := by
      unfold leValue
      rw [List.map_cons, Nat.ofDigits_cons]
    have hbyte := byte.toNat_lt
    rw [List.length_cons, leBytes, hvalue, Nat.add_mul_div_left _ _ (by decide),
      Nat.div_eq_of_lt hbyte, Nat.zero_add, ih]
    congr 1
    apply UInt8.toNat_inj.mp
    rw [UInt8.toNat_ofNat', Nat.add_mul_mod_self_left]
    exact Nat.mod_eq_of_lt hbyte

/-- The order of the bytes of a number: the least significant one first, or the most significant
one. -/
inductive ByteOrder
  | little
  | big
  deriving DecidableEq, Repr

namespace ByteOrder

/-- The bytes of a number, with a width. -/
def bytes : ByteOrder → ℕ → ℕ → List UInt8
  | little, width, n => leBytes width n
  | big, width, n => (leBytes width n).reverse

/-- The number of some bytes. -/
def value : ByteOrder → List UInt8 → ℕ
  | little, bytes => leValue bytes
  | big, bytes => leValue bytes.reverse

@[simp] theorem length_bytes (order : ByteOrder) (width n : ℕ) :
    (order.bytes width n).length = width := by
  cases order <;> simp [bytes]

theorem value_bytes (order : ByteOrder) {width n : ℕ} (h : n < 256 ^ width) :
    order.value (order.bytes width n) = n := by
  cases order with
  | little => exact leValue_leBytes h
  | big =>
    show leValue (leBytes width n).reverse.reverse = n
    rw [List.reverse_reverse, leValue_leBytes h]

theorem bytes_value (order : ByteOrder) (data : List UInt8) :
    order.bytes data.length (order.value data) = data := by
  cases order with
  | little => exact leBytes_leValue data
  | big =>
    show (leBytes data.length (leValue data.reverse)).reverse = data
    rw [← List.length_reverse, leBytes_leValue, List.reverse_reverse]

theorem value_lt (order : ByteOrder) (data : List UInt8) : order.value data < 256 ^ data.length := by
  cases order with
  | little => exact leValue_lt data
  | big =>
    rw [← List.length_reverse]
    exact leValue_lt data.reverse

/-- The bytes of a record in this order. -/
def pack (order : ByteOrder) : List (ℕ × ℕ) → Option (List UInt8)
  | [] => some []
  | (width, value) :: fields =>
    if value < 256 ^ width then (pack order fields).map (order.bytes width value ++ ·) else none

/-- The values of a record that takes all of some bytes. -/
def unpack (order : ByteOrder) : List ℕ → List UInt8 → Option (List ℕ)
  | [], data => if data.isEmpty then some [] else none
  | width :: widths, data =>
    if data.length < width then none
    else (unpack order widths (data.drop width)).map (order.value (data.take width) :: ·)

/-- A record is packed where every value fits its width. -/
theorem pack_of_fits (order : ByteOrder) {fields : List (ℕ × ℕ)}
    (h : ∀ field ∈ fields, field.2 < 256 ^ field.1) :
    order.pack fields = some (fields.flatMap fun field => order.bytes field.1 field.2) := by
  induction fields with
  | nil => rfl
  | cons field fields ih =>
    rw [List.forall_mem_cons] at h
    rw [pack, if_pos h.1, ih h.2]
    rfl

theorem fits_of_pack {order : ByteOrder} {fields : List (ℕ × ℕ)} {data : List UInt8}
    (h : order.pack fields = some data) : ∀ field ∈ fields, field.2 < 256 ^ field.1 := by
  induction fields generalizing data with
  | nil => simp
  | cons field fields ih =>
    unfold pack at h
    split at h
    · rename_i hfits
      obtain ⟨rest, hrest, -⟩ := Option.map_eq_some_iff.mp h
      exact List.forall_mem_cons.mpr ⟨hfits, ih hrest⟩
    · cases h

/-- A record is read from as many bytes as it takes. -/
theorem unpack_isSome (order : ByteOrder) {widths : List ℕ} {data : List UInt8}
    (h : data.length = widths.sum) : ∃ values, order.unpack widths data = some values := by
  induction widths generalizing data with
  | nil =>
    obtain rfl := List.length_eq_zero_iff.mp h
    exact ⟨[], rfl⟩
  | cons width widths ih =>
    rw [List.sum_cons] at h
    have hrest : (data.drop width).length = widths.sum := by
      rw [List.length_drop]
      omega
    obtain ⟨values, hvalues⟩ := ih hrest
    refine ⟨order.value (data.take width) :: values, ?_⟩
    rw [unpack, if_neg (by omega), hvalues]
    rfl

theorem length_of_unpack {order : ByteOrder} {widths values : List ℕ} {data : List UInt8}
    (h : order.unpack widths data = some values) :
    data.length = widths.sum ∧ values.length = widths.length := by
  induction widths generalizing data values with
  | nil =>
    unfold unpack at h
    split at h
    · rename_i hempty
      obtain rfl := List.isEmpty_iff.mp hempty
      obtain rfl := Option.some.inj h
      exact ⟨rfl, rfl⟩
    · cases h
  | cons width widths ih =>
    unfold unpack at h
    split at h
    · cases h
    · obtain ⟨rest, hrest, rfl⟩ := Option.map_eq_some_iff.mp h
      obtain ⟨hlength, hvalues⟩ := ih hrest
      rw [List.length_drop] at hlength
      exact ⟨by rw [List.sum_cons]; omega, by rw [List.length_cons, List.length_cons, hvalues]⟩

/-- Each value of a record is the number of the bytes at its place. -/
theorem getElem?_of_unpack {order : ByteOrder} {widths values : List ℕ} {data : List UInt8}
    (h : order.unpack widths data = some values) {i width : ℕ} (hi : widths[i]? = some width) :
    values[i]? = some (order.value ((data.drop (widths.take i).sum).take width)) := by
  induction widths generalizing data values i with
  | nil => simp at hi
  | cons first widths ih =>
    unfold unpack at h
    split at h
    · cases h
    · obtain ⟨rest, hrest, rfl⟩ := Option.map_eq_some_iff.mp h
      cases i with
      | zero =>
        obtain rfl := Option.some.inj hi
        simp
      | succ i =>
        rw [List.getElem?_cons_succ] at hi ⊢
        rw [ih hrest hi, List.take_succ_cons, List.sum_cons, List.drop_drop]

end ByteOrder

end TaintForge.StructPack
