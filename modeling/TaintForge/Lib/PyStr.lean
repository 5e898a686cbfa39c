import Mathlib.Data.List.DropRight
import Mathlib.Data.List.Infix
import Mathlib.Data.List.Lex

/-!
# Python strings

A string of Python is a sequence of code points.  Surrogates may stand alone in it, and only then can
it not be encoded as UTF-8, so a list of numbers is the right model and Lean's `String` is not.

* `py`: a literal as a Python string.
* `PyStr.encodable`: whether the strict UTF-8 encoder takes the string.
* `PyStr.lstrip`, `PyStr.rstripOf`, `PyStr.strip`: the methods of the same names.
-/

namespace TaintForge

/-- A Python `str`: its code points. -/
abbrev PyStr := List ℕ

instance PyStr.lawfulBEq : LawfulBEq PyStr := inferInstance

/-- A literal. -/
def py (s : String) : PyStr := s.toList.map Char.toNat

theorem py_inj {s t : String} : py s = py t ↔ s = t := by
  constructor
  · intro h
    have hlist : s.toList = t.toList := by
      refine List.map_injective_iff.mpr ?_ h
      intro a b hab
      exact Char.ext (UInt32.toNat_inj.mp hab)
    exact String.toList_injective hlist
  · rintro rfl
    rfl

namespace PyStr

/-! ### Encoding -/

/-- A code point that UTF-8 has bytes for. -/
def isScalar (c : ℕ) : Bool := decide (c < 0x110000) && !(decide (0xD800 ≤ c) && decide (c < 0xE000))

/-- Whether `s.encode("utf-8")` succeeds: there is no lone surrogate in `s`. -/
def encodable (s : PyStr) : Bool := s.all isScalar

/-- A literal of Lean has no surrogates. -/
@[simp] theorem encodable_py (s : String) : encodable (py s) = true := by
  apply List.all_eq_true.mpr
  intro c hc
  obtain ⟨char, -, rfl⟩ := List.mem_map.mp hc
  have hvalid : char.toNat < 0xD800 ∨ 0xDFFF < char.toNat ∧ char.toNat < 0x110000 := char.valid
  simp only [isScalar, Bool.and_eq_true, Bool.not_eq_true', Bool.and_eq_false_iff, decide_eq_true_eq,
    decide_eq_false_iff_not]
  omega

@[simp] theorem encodable_append (s t : PyStr) :
    encodable (s ++ t) = (encodable s && encodable t) := by
  simp [encodable]

/-! ### Stripping -/

/-- `str.isspace` for one character: the characters that `strip` removes. -/
def isSpace (c : ℕ) : Bool :=
  (decide (0x09 ≤ c) && decide (c ≤ 0x0D)) || (decide (0x1C ≤ c) && decide (c ≤ 0x20)) ||
    c == 0x85 || c == 0xA0 || c == 0x1680 || (decide (0x2000 ≤ c) && decide (c ≤ 0x200A)) ||
    c == 0x2028 || c == 0x2029 || c == 0x202F || c == 0x205F || c == 0x3000

/-- `s.lstrip()`. -/
def lstrip (s : PyStr) : PyStr := s.dropWhile isSpace

/-- `s.rstrip()`. -/
def rstrip (s : PyStr) : PyStr := s.rdropWhile isSpace

/-- `s.strip()`. -/
def strip (s : PyStr) : PyStr := rstrip (lstrip s)

/-- `s.rstrip(c)` for a single character. -/
def rstripOf (c : ℕ) (s : PyStr) : PyStr := s.rdropWhile (· == c)

/-- What `rstrip` removes is a run of the character. -/
theorem eq_rstripOf_append (c : ℕ) (s : PyStr) :
    ∃ n, s = rstripOf c s ++ List.replicate n c := by
  refine ⟨(s.rtakeWhile (· == c)).length, ?_⟩
  have htail : s.rtakeWhile (· == c) = List.replicate (s.rtakeWhile (· == c)).length c := by
    apply List.eq_replicate_of_mem
    intro x hx
    simpa using List.mem_rtakeWhile_imp hx
  rw [← htail]
  exact List.rdropWhile_append_rtakeWhile.symm

theorem rstripOf_getLast_ne {c : ℕ} {s : PyStr} (hne : rstripOf c s ≠ []) :
    (rstripOf c s).getLast hne ≠ c := by
  intro heq
  exact List.rdropWhile_last_not (· == c) s hne (beq_iff_eq.mpr heq)

theorem rstripOf_isPrefix (c : ℕ) (s : PyStr) : rstripOf c s <+: s :=
  List.rdropWhile_prefix (· == c) s

/-- A text with no white space around it is not changed. -/
theorem strip_eq_self {s : PyStr} (hhead : ∀ c ∈ s.head?, isSpace c = false)
    (hlast : ∀ c ∈ s.getLast?, isSpace c = false) : strip s = s := by
  have hleft : lstrip s = s := by
    cases s with
    | nil => rfl
    | cons c s => exact List.dropWhile_cons_of_neg (by simp [hhead c rfl])
  rw [strip, hleft]
  apply List.rdropWhile_eq_self_iff.mpr
  intro hne
  simp [hlast _ (List.getLast_mem_getLast? hne)]

theorem strip_subset (s : PyStr) : strip s ⊆ s := by
  intro c hc
  exact (List.dropWhile_sublist isSpace).subset ((List.rdropWhile_prefix isSpace _).subset hc)

/-! ### Segments between separators

A segment without the separator ends at the first one, so two strings that begin with such segments
and a separator begin with the same segment. -/

theorem append_sep_inj {c : ℕ} {s t x y : PyStr} (hs : c ∉ s) (ht : c ∉ t)
    (h : s ++ c :: x = t ++ c :: y) : s = t ∧ x = y := by
  induction s generalizing t with
  | nil =>
    cases t with
    | nil => simpa using h
    | cons b t =>
      rw [List.nil_append, List.cons_append, List.cons.injEq] at h
      exact absurd (h.1 ▸ List.mem_cons_self) ht
  | cons a s ih =>
    cases t with
    | nil =>
      rw [List.nil_append, List.cons_append, List.cons.injEq] at h
      exact absurd (h.1 ▸ List.mem_cons_self) hs
    | cons b t =>
      rw [List.cons_append, List.cons_append, List.cons.injEq] at h
      obtain ⟨hab, hrest⟩ := h
      obtain ⟨hst, hxy⟩ := ih (fun hm => hs (List.mem_cons_of_mem a hm))
        (fun hm => ht (List.mem_cons_of_mem b hm)) hrest
      exact ⟨by rw [hab, hst], hxy⟩

end PyStr

end TaintForge
