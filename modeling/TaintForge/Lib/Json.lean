import TaintForge.Lib.PyStr
import Mathlib.Data.Rat.Defs

/-!
# JSON values as Python objects

What `json.loads` returns and `json.dumps` takes.  An object is a dictionary of Python, which keeps
the order of its keys and has each key once.

* `PyFloat`, `Json`: the values; a finite float is the rational number it stands for.
* `Json.get?`: `value.get(key)` of a dictionary.
-/

namespace TaintForge

/-- A Python `float`. -/
inductive PyFloat
  | finite (q : ℚ)
  | inf (negative : Bool)
  | nan
  deriving DecidableEq

/-- A JSON value. -/
inductive Json
  | null
  | bool (b : Bool)
  | int (n : ℤ)
  | float (x : PyFloat)
  | str (s : PyStr)
  | arr (items : List Json)
  | obj (fields : List (PyStr × Json))

namespace Json

/-- `fields.get(key)`: the value, or nothing where the key is absent. -/
def lookup (key : PyStr) : List (PyStr × Json) → Option Json
  | [] => none
  | (k, value) :: rest => if k = key then some value else lookup key rest

/-- `dict.get(key)` of a value that should be a dictionary, with `None` for an absent key. -/
def get (key : PyStr) : Json → Json
  | .obj fields => (lookup key fields).getD .null
  | _ => .null

@[simp] theorem lookup_nil (key : PyStr) : lookup key [] = none := rfl

@[simp] theorem lookup_cons (key k : PyStr) (value : Json) (rest : List (PyStr × Json)) :
    lookup key ((k, value) :: rest) = if k = key then some value else lookup key rest := rfl

end Json

end TaintForge
