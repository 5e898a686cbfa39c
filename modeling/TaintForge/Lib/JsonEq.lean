import TaintForge.Lib.JsonRoundTrip

/-!
# Equality of JSON values

`==` of Python on what `json.loads` returns: numbers are compared by what they count as, and dictionaries whatever the
order of their keys.

* `Json.eq`: the comparison.
* `Json.eq_self`: a value that can be read back equals itself.
-/

namespace TaintForge

namespace Json

/-- What a number counts as; `nan` does not equal itself. -/
def number : Json → Option PyFloat
  | .int n => some (.finite n)
  | .bool b => some (.finite (if b then 1 else 0))
  | .float .nan => none
  | .float x => some x
  | _ => none

/-- Comparison of two numbers. -/
def eqNumber (x y : Json) : Bool :=
  match x.number, y.number with
  | some a, some b => a == b
  | _, _ => false

mutual

/-- `x == y`. -/
def eq : Json → Json → Bool
  | .null, .null => true
  | .str s, .str t => s == t
  | .arr xs, .arr ys => eqItems xs ys
  | .obj f, .obj g => f.length == g.length && eqFields f g
  | .bool b, y => eqNumber (.bool b) y
  | .int n, y => eqNumber (.int n) y
  | .float x, y => eqNumber (.float x) y
  | _, _ => false

def eqItems : List Json → List Json → Bool
  | [], [] => true
  | x :: xs, y :: ys => eq x y && eqItems xs ys
  | _, _ => false

/-- Each field of one dictionary equals that of the other. -/
def eqFields : List (PyStr × Json) → List (PyStr × Json) → Bool
  | [], _ => true
  | (k, x) :: rest, g =>
    (match lookup k g with
      | some y => eq x y
      | none => false) && eqFields rest g

end

theorem lookup_of_mem {fields : List (PyStr × Json)} (hkeys : (fields.map Prod.fst).Nodup) {k : PyStr}
    {x : Json} (h : (k, x) ∈ fields) : lookup k fields = some x := by
  induction fields with
  | nil => exact absurd h List.not_mem_nil
  | cons field rest ih =>
    obtain ⟨k', y⟩ := field
    rw [List.map_cons, List.nodup_cons] at hkeys
    rw [lookup_cons]
    rcases List.mem_cons.mp h with h | h
    · obtain ⟨rfl, rfl⟩ := Prod.mk.inj h
      exact if_pos rfl
    · rw [if_neg, ih hkeys.2 h]
      rintro rfl
      exact hkeys.1 (List.mem_map.mpr ⟨(k', x), h, rfl⟩)

mutual

/-- **A value that can be read back equals itself.** -/
theorem eq_self : ∀ {j : Json}, Portable false j → eq j j = true
  | .null, _ => rfl
  | .bool b, _ => by cases b <;> rfl
  | .int n, _ => by simp [eq, eqNumber, number]
  | .float _, h => absurd h (by simp [Portable])
  | .str s, _ => by simp [eq]
  | .arr items, h => by
    rw [eq]
    exact eqItems_self (by simpa [Portable] using h)
  | .obj fields, h => by
    rw [Portable] at h
    rw [eq, beq_self_eq_true, Bool.true_and]
    exact eqFields_self h.2 fun k x hmem => lookup_of_mem h.1 hmem

theorem eqItems_self : ∀ {items : List Json}, PortableItems false items → eqItems items items = true
  | [], _ => rfl
  | x :: xs, h => by
    rw [PortableItems] at h
    rw [eqItems, eq_self h.1, eqItems_self h.2]
    rfl

theorem eqFields_self : ∀ {fields : List (PyStr × Json)} {g : List (PyStr × Json)}, PortableFields false fields →
    (∀ k x, (k, x) ∈ fields → lookup k g = some x) → eqFields fields g = true
  | [], _, _, _ => by rw [eqFields]
  | (k, x) :: rest, g, h, hlookup => by
    rw [PortableFields] at h
    rw [eqFields, hlookup k x List.mem_cons_self]
    dsimp only
    rw [eq_self h.2.1, eqFields_self h.2.2 fun k' x' hmem => hlookup k' x' (List.mem_cons_of_mem _ hmem)]
    rfl

end

end Json

end TaintForge
