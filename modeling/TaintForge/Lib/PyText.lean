import TaintForge.Lib.JsonText
import Mathlib.Data.List.TakeWhile

/-!
# Reading text in Python

* `PyStr.splitlines`, `PyStr.split`: the methods of the same names, `split` at white space.
* `PyStr.isDecimal`: the characters that `\d` matches and that `int` reads as digits.
* `pyInt`: `int(text)`, which is `none` where Python raises a `ValueError`.
* `utf8Char`, `fsencode`: the bytes of text, and of a file name.
-/

namespace TaintForge

namespace PyStr

/-! ### Lines and words -/

/-- The characters that end a line for `str.splitlines`. -/
def isLineBreak (c : ℕ) : Bool :=
  (decide (0x0A ≤ c) && decide (c ≤ 0x0D)) || (decide (0x1C ≤ c) && decide (c ≤ 0x1E)) ||
    c == 0x85 || c == 0x2028 || c == 0x2029

/-- `s.splitlines()`. -/
def splitlines : PyStr → List PyStr
  | [] => []
  | 0x0D :: 0x0A :: rest => [] :: splitlines rest
  | c :: rest =>
    if isLineBreak c then [] :: splitlines rest
    else match splitlines rest with
      | [] => [[c]]
      | line :: lines => (c :: line) :: lines

/-- `s.split()`. -/
def split (s : PyStr) : List PyStr := (s.splitOnP isSpace).filter (· ≠ [])

theorem isSpace_of_isLineBreak {c : ℕ} (h : isLineBreak c = true) : isSpace c = true := by
  simp only [isLineBreak, isSpace, Bool.or_eq_true, Bool.and_eq_true, decide_eq_true_eq,
    beq_iff_eq] at h ⊢
  omega

theorem splitlines_cons {c : ℕ} (hc : isLineBreak c = false) (s : PyStr) :
    splitlines (c :: s) = match splitlines s with
      | [] => [[c]]
      | line :: lines => (c :: line) :: lines := by
  rw [splitlines.eq_3]
  · simp [hc]
  · rintro rest rfl -
    simp [isLineBreak] at hc

/-- A text without a line break is one line. -/
theorem splitlines_of_not_mem {s : PyStr} (hne : s ≠ []) (h : ∀ c ∈ s, isLineBreak c = false) :
    splitlines s = [s] := by
  induction s with
  | nil => exact absurd rfl hne
  | cons c s ih =>
    obtain ⟨hc, hs⟩ := List.forall_mem_cons.mp h
    rw [splitlines_cons hc]
    cases s with
    | nil => rfl
    | cons d s => rw [ih (List.cons_ne_nil d s) hs]

/-- A text is cut after the line feed that ends its first line. -/
theorem splitlines_append_lineFeed {s : PyStr} (h : ∀ c ∈ s, isLineBreak c = false) (t : PyStr) :
    splitlines (s ++ 0x0A :: t) = s :: splitlines t := by
  induction s with
  | nil =>
    rw [List.nil_append, splitlines.eq_3]
    · simp [isLineBreak]
    · intro rest hcr
      simp at hcr
  | cons c s ih =>
    obtain ⟨hc, hs⟩ := List.forall_mem_cons.mp h
    rw [List.cons_append, splitlines_cons hc, ih hs]

/-- The lines of a text hold characters of it, and none that ends a line. -/
theorem mem_of_mem_splitlines {s line : PyStr} (h : line ∈ splitlines s) :
    ∀ c ∈ line, c ∈ s ∧ isLineBreak c = false := by
  induction s using splitlines.induct generalizing line with
  | case1 => simp [splitlines] at h
  | case2 rest ih =>
    rw [splitlines] at h
    intro c hc
    rcases List.mem_cons.mp h with rfl | h
    · simp at hc
    · exact ⟨List.mem_cons_of_mem _ (List.mem_cons_of_mem _ (ih h c hc).1), (ih h c hc).2⟩
  | case3 c rest hcr hbreak ih =>
    rw [splitlines.eq_3 _ _ hcr, if_pos hbreak] at h
    intro d hd
    rcases List.mem_cons.mp h with rfl | h
    · simp at hd
    · exact ⟨List.mem_cons_of_mem _ (ih h d hd).1, (ih h d hd).2⟩
  | case4 c rest hcr hbreak hrest ih =>
    rw [splitlines_cons (Bool.eq_false_iff.mpr hbreak), hrest] at h
    intro d hd
    rw [List.mem_singleton.mp h, List.mem_singleton] at hd
    rw [hd]
    exact ⟨List.mem_cons_self, Bool.eq_false_iff.mpr hbreak⟩
  | case5 c rest hcr hbreak first lines hrest ih =>
    rw [splitlines_cons (Bool.eq_false_iff.mpr hbreak), hrest] at h
    intro d hd
    rcases List.mem_cons.mp h with rfl | h
    · rcases List.mem_cons.mp hd with rfl | hd
      · exact ⟨List.mem_cons_self, Bool.eq_false_iff.mpr hbreak⟩
      · have hfirst := ih (hrest ▸ List.mem_cons_self) d hd
        exact ⟨List.mem_cons_of_mem _ hfirst.1, hfirst.2⟩
    · have hline := ih (hrest ▸ List.mem_cons_of_mem _ h) d hd
      exact ⟨List.mem_cons_of_mem _ hline.1, hline.2⟩

/-- The first word of a text that begins with one. -/
theorem split_append {w rest : PyStr} (hne : w ≠ []) (hw : ∀ c ∈ w, isSpace c = false)
    (hrest : ∀ c t, rest = c :: t → isSpace c = true) : ∃ words, split (w ++ rest) = w :: words := by
  cases rest with
  | nil =>
    refine ⟨[], ?_⟩
    rw [split, List.append_nil, List.splitOnP_eq_singleton (by simpa using hw)]
    simp [hne]
  | cons c t =>
    refine ⟨(t.splitOnP isSpace).filter (· ≠ []), ?_⟩
    rw [split, List.splitOnP_append_cons_of_forall_mem (by simpa using hw) c (hrest c t rfl)]
    simp [hne]

/-! ### Digits -/

/-- The first character of each run of ten decimal digits. -/
def decimalZeros : List ℕ :=
  [0x30, 0x660, 0x6F0, 0x7C0, 0x966, 0x9E6, 0xA66, 0xAE6, 0xB66, 0xBE6, 0xC66, 0xCE6, 0xD66, 0xDE6,
    0xE50, 0xED0, 0xF20, 0x1040, 0x1090, 0x17E0, 0x1810, 0x1946, 0x19D0, 0x1A80, 0x1A90, 0x1B50,
    0x1BB0, 0x1C40, 0x1C50, 0xA620, 0xA8D0, 0xA900, 0xA9D0, 0xA9F0, 0xAA50, 0xABF0, 0xFF10, 0x104A0,
    0x10D30, 0x11066, 0x110F0, 0x11136, 0x111D0, 0x112F0, 0x11450, 0x114D0, 0x11650, 0x116C0,
    0x11730, 0x118E0, 0x11950, 0x11C50, 0x11D50, 0x11DA0, 0x16A60, 0x16AC0, 0x16B50, 0x1D7CE,
    0x1D7D8, 0x1D7E2, 0x1D7EC, 0x1D7F6, 0x1E140, 0x1E2F0, 0x1E950, 0x1FBF0]

/-- `\d`: the decimal digits of all scripts. -/
def isDecimal (c : ℕ) : Bool := decimalZeros.any fun start => decide (start ≤ c) && decide (c < start + 10)

/-- The value of a decimal digit. -/
def decimalDigit (c : ℕ) : ℕ :=
  match decimalZeros.find? fun start => decide (start ≤ c) && decide (c < start + 10) with
  | some start => c - start
  | none => 0

/-- The digits of `int`'s syntax: single underscores may stand between them. -/
def intDigits : PyStr → Option (List ℕ)
  | [] => none
  | c :: rest =>
    if isDecimal c then
      match rest with
      | [] => some [decimalDigit c]
      | 0x5F :: rest => (intDigits rest).map (decimalDigit c :: ·)
      | d :: rest => (intDigits (d :: rest)).map (decimalDigit c :: ·)
    else none

end PyStr

/-- The number that decimal digits write. -/
def decimalValue (digits : List ℕ) : ℕ := digits.foldl (fun n d => n * 10 + d) 0

/-- The number of `int`'s syntax without the sign, if it is not too long. -/
def pyNat (s : PyStr) : Option ℕ :=
  match PyStr.intDigits s with
  | some digits => if digits.length ≤ maxStrDigits then some (decimalValue digits) else none
  | none => none

/-- `int(s)`. -/
def pyInt (s : PyStr) : Option ℤ :=
  match PyStr.strip s with
  | 0x2D :: digits => (pyNat digits).map fun n : ℕ => -(n : ℤ)
  | 0x2B :: digits => (pyNat digits).map fun n : ℕ => (n : ℤ)
  | digits => (pyNat digits).map fun n : ℕ => (n : ℤ)

/-! ### Encoding -/

/-- `str.encode("utf-8")` of one character. -/
def utf8Char (c : ℕ) : List UInt8 :=
  if c < 0x80 then [UInt8.ofNat c]
  else if c < 0x800 then [UInt8.ofNat (0xC0 + c / 0x40), UInt8.ofNat (0x80 + c % 0x40)]
  else if c < 0x10000 then
    [UInt8.ofNat (0xE0 + c / 0x1000), UInt8.ofNat (0x80 + c / 0x40 % 0x40), UInt8.ofNat (0x80 + c % 0x40)]
  else
    [UInt8.ofNat (0xF0 + c / 0x40000), UInt8.ofNat (0x80 + c / 0x1000 % 0x40),
      UInt8.ofNat (0x80 + c / 0x40 % 0x40), UInt8.ofNat (0x80 + c % 0x40)]

/-- `os.fsencode` of one character: a surrogate may stand for a byte. -/
def fsencodeChar (c : ℕ) : Option (List UInt8) :=
  if 0xDC80 ≤ c ∧ c ≤ 0xDCFF then some [UInt8.ofNat (c - 0xDC00)]
  else if PyStr.isScalar c then some (utf8Char c)
  else none

/-- `os.fsencode(s)`, with nothing where Python raises a `UnicodeEncodeError`. -/
def fsencode (s : PyStr) : Option (List UInt8) := (s.mapM fsencodeChar).map List.flatten

end TaintForge
