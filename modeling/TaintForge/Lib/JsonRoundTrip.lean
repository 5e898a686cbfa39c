import TaintForge.Lib.JsonText
import Mathlib.Data.Nat.Digits.Lemmas

/-!
# Written documents are read back

* `parseNumber_decimalInt`, `scanString_quoted`: numbers and strings.
* `parseValue_write`, `loads_dumps`: whole documents, in every layout.
-/

namespace TaintForge

/-! ### Runs of characters -/

/-- What `span` returns on a run that ends. -/
theorem span_append {p : ℕ → Bool} {run rest : PyStr} (hrun : ∀ c ∈ run, p c)
    (hrest : ∀ c ∈ rest.head?, ¬ p c) : (run ++ rest).span p = (run, rest) := by
  rw [List.span_eq_takeWhile_dropWhile]
  induction run with
  | nil =>
    cases rest with
    | nil => rfl
    | cons c rest =>
      have hc : ¬ p c := hrest c rfl
      simp [hc]
  | cons c run ih =>
    have hc : p c := hrun c List.mem_cons_self
    have htail := ih fun d hd => hrun d (List.mem_cons_of_mem c hd)
    rw [Prod.mk.injEq] at htail
    simp [hc, htail.1, htail.2]

theorem dropWhile_append {p : ℕ → Bool} {run rest : PyStr} (hrun : ∀ c ∈ run, p c)
    (hrest : ∀ c ∈ rest.head?, ¬ p c) : (run ++ rest).dropWhile p = rest := by
  have hspan := span_append hrun hrest
  rw [List.span_eq_takeWhile_dropWhile] at hspan
  exact (Prod.mk.inj hspan).2

/-! ### Decimal numbers -/

theorem decimal_isDigit (n : ℕ) : ∀ c ∈ decimal n, Json.isDigit c := by
  intro c hc
  unfold decimal at hc
  split at hc
  · rw [List.mem_singleton] at hc
    subst hc
    rfl
  · rw [List.mem_map] at hc
    obtain ⟨d, hd, rfl⟩ := hc
    have hlt : d < 10 := Nat.digits_lt_base (by norm_num) (List.mem_reverse.mp hd)
    simp only [Json.isDigit, Bool.and_eq_true, decide_eq_true_eq]
    omega

theorem decimal_ne_nil (n : ℕ) : decimal n ≠ [] := by
  unfold decimal
  split
  · simp
  · rename_i hn
    simpa [Nat.digits_eq_nil_iff_eq_zero] using hn

@[simp] theorem digitsValue_decimal (n : ℕ) : Json.digitsValue (decimal n) = n := by
  unfold decimal
  split
  · rename_i hn
    subst hn
    rfl
  · rw [Json.digitsValue, List.foldl_map, List.foldl_reverse]
    rw [show (fun (x y : ℕ) => y * 10 + (0x30 + x - 0x30)) = fun x y => x + 10 * y from by
      funext x y
      omega]
    have hdigits := Nat.ofDigits_digits 10 n
    rw [Nat.ofDigits_eq_foldr] at hdigits
    simpa using hdigits

/-- A number other than zero does not begin with a zero. -/
theorem decimal_head {n : ℕ} (hn : n ≠ 0) : (decimal n).head? ≠ some 0x30 := by
  intro h
  rw [decimal, if_neg hn, List.head?_map, List.head?_reverse, Option.map_eq_some_iff] at h
  obtain ⟨d, hd, hzero⟩ := h
  have hlast := Nat.getLast_digit_ne_zero 10 hn
  rw [List.getLast?_eq_some_getLast (Nat.digits_ne_nil_iff_ne_zero.mpr hn), Option.some.injEq] at hd
  omega

theorem decimal_injective : Function.Injective decimal := by
  intro m n h
  rw [← digitsValue_decimal m, h, digitsValue_decimal]

namespace Json

/-- What may follow a number without being taken for a part of it. -/
def EndsNumber (rest : PyStr) : Prop :=
  ∀ c ∈ rest.head?, isDigit c = false ∧ c ≠ 0x2E ∧ c ≠ 0x65 ∧ c ≠ 0x45

theorem spanInteger_decimal (n : ℕ) {rest : PyStr} (hrest : EndsNumber rest) :
    spanInteger (decimal n ++ rest) = (decimal n, rest) := by
  by_cases hn : n = 0
  · subst hn
    rfl
  · have hspan : (decimal n ++ rest).span isDigit = (decimal n, rest) := by
      apply span_append (decimal_isDigit n)
      intro c hc
      rw [(hrest c hc).1]
      exact Bool.false_ne_true
    cases hd : decimal n with
    | nil => exact absurd hd (decimal_ne_nil n)
    | cons d ds =>
      have hzero : d ≠ 0x30 := by
        rintro rfl
        exact decimal_head hn (by rw [hd]; rfl)
      rw [hd] at hspan
      unfold spanInteger
      split
      · rename_i heq
        exact absurd heq (by simp)
      · rename_i heq
        rw [List.cons_append, List.cons.injEq] at heq
        exact absurd heq.1 hzero
      · exact hspan

theorem spanFraction_none {rest : PyStr} (hrest : EndsNumber rest) :
    spanFraction rest = ([], rest) := by
  unfold spanFraction
  split
  · exact absurd rfl (hrest _ rfl).2.1
  · rfl

theorem spanExponent_none {rest : PyStr} (hrest : EndsNumber rest) :
    spanExponent rest = ([], rest) := by
  cases rest with
  | nil => rfl
  | cons c rest =>
    obtain ⟨-, -, hlower, hupper⟩ := hrest c rfl
    simp [spanExponent, hlower, hupper]

/-- A number begins with a digit or a minus sign and a digit. -/
theorem decimalInt_eq_cons (n : ℤ) : ∃ c rest, decimalInt n = c :: rest ∧
    ((0x30 ≤ c ∧ c ≤ 0x39) ∨ c = 0x2D ∧ ∃ d more, rest = d :: more ∧ 0x30 ≤ d ∧ d ≤ 0x39) := by
  cases hd : decimal n.natAbs with
  | nil => exact absurd hd (decimal_ne_nil _)
  | cons d more =>
    have hdigit := decimal_isDigit n.natAbs d (by rw [hd]; exact List.mem_cons_self)
    simp only [isDigit, Bool.and_eq_true, decide_eq_true_eq] at hdigit
    unfold decimalInt
    rw [hd]
    split
    · exact ⟨_, _, rfl, Or.inr ⟨rfl, d, more, rfl, hdigit⟩⟩
    · exact ⟨d, more, rfl, Or.inl hdigit⟩

/-- **A number that was written is read back.** -/
theorem parseNumber_decimalInt (ft : FloatText) {n : ℤ} (hn : convertible n) {rest : PyStr}
    (hrest : EndsNumber rest) : parseNumber ft (decimalInt n ++ rest) = .ok (.int n, rest) := by
  rw [convertible, decide_eq_true_eq] at hn
  have hsign : spanSign (fun c => c == 0x2D) (decimalInt n ++ rest) =
      (if n < 0 then [0x2D] else [], decimal n.natAbs ++ rest) := by
    unfold decimalInt
    split
    · rfl
    · cases hd : decimal n.natAbs with
      | nil => exact absurd hd (decimal_ne_nil _)
      | cons d ds =>
        have hdigit := decimal_isDigit n.natAbs d (by rw [hd]; exact List.mem_cons_self)
        have hne : d ≠ 0x2D := by
          rintro rfl
          exact absurd hdigit (by decide)
        simp [spanSign, hne]
  unfold parseNumber
  rw [hsign]
  dsimp only
  rw [spanInteger_decimal _ hrest]
  dsimp only
  rw [if_neg (decimal_ne_nil _), spanFraction_none hrest]
  dsimp only
  rw [spanExponent_none hrest]
  dsimp only
  rw [if_pos ⟨rfl, rfl⟩, if_neg (by omega), digitsValue_decimal]
  by_cases hneg : n < 0
  · have habs : -(n.natAbs : ℤ) = n := by omega
    rw [if_pos hneg, if_neg (by simp), habs]
  · rw [if_neg hneg, if_pos rfl, Int.natAbs_of_nonneg (by omega)]

/-! ### Strings -/

@[simp] theorem prepend_ok (c : ℕ) (s rest : PyStr) :
    prepend c (.ok (s, rest)) = .ok (c :: s, rest) := rfl

theorem hexValue_hexDigit {d : ℕ} (hd : d < 16) : hexValue (hexDigit d) = some d := by
  have hall : ∀ d < 16, hexValue (hexDigit d) = some d := by decide
  exact hall d hd

/-- An escape is a code unit in four digits. -/
theorem unicodeEscape_eq {c : ℕ} (hc : c < 0x10000) :
    ∃ d₁ d₂ d₃ d₄, unicodeEscape c = [0x5C, 0x75, d₁, d₂, d₃, d₄] ∧ hex4 d₁ d₂ d₃ d₄ = some c := by
  refine ⟨_, _, _, _, rfl, ?_⟩
  unfold hex4
  rw [hexValue_hexDigit (Nat.mod_lt _ (by norm_num)), hexValue_hexDigit (Nat.mod_lt _ (by norm_num)),
    hexValue_hexDigit (Nat.mod_lt _ (by norm_num)), hexValue_hexDigit (Nat.mod_lt _ (by norm_num))]
  simp only [Option.some.injEq]
  omega

/-- What follows an escape does not complete it to a surrogate pair. -/
def NoLowNext (rest : PyStr) : Prop :=
  ∀ e f g h more, rest = 0x5C :: 0x75 :: e :: f :: g :: h :: more →
    ∃ low, hex4 e f g h = some low ∧ isLowSurrogate low = false

theorem scanString_unicodeEscape {c : ℕ} (hc : c < 0x10000) {rest : PyStr}
    (hrest : isHighSurrogate c → NoLowNext rest) :
    scanString (unicodeEscape c ++ rest) = prepend c (scanString rest) := by
  obtain ⟨d₁, d₂, d₃, d₄, hescape, hvalue⟩ := unicodeEscape_eq hc
  rw [hescape]
  show scanString (0x5C :: 0x75 :: d₁ :: d₂ :: d₃ :: d₄ :: rest) = _
  rw [scanString.eq_3, hvalue]
  dsimp only
  split
  · rename_i hhigh
    split
    · rename_i e f g h more
      obtain ⟨low, hlow, hnot⟩ := hrest hhigh e f g h more rfl
      rw [hlow]
      dsimp only
      rw [if_neg (by rw [hnot]; exact Bool.false_ne_true)]
    · rfl
  · rfl

/-- Two escapes that form a pair. -/
theorem scanString_pair {c : ℕ} (hlow : 0x10000 ≤ c) (hhigh : c < 0x110000) (rest : PyStr) :
    scanString (unicodeEscape (0xD800 + (c - 0x10000) / 0x400) ++
      (unicodeEscape (0xDC00 + (c - 0x10000) % 0x400) ++ rest)) = prepend c (scanString rest) := by
  obtain ⟨d₁, d₂, d₃, d₄, hone, hhighValue⟩ :=
    unicodeEscape_eq (c := 0xD800 + (c - 0x10000) / 0x400) (by omega)
  obtain ⟨e₁, e₂, e₃, e₄, htwo, hlowValue⟩ :=
    unicodeEscape_eq (c := 0xDC00 + (c - 0x10000) % 0x400) (by omega)
  have hfirst : isHighSurrogate (0xD800 + (c - 0x10000) / 0x400) = true := by
    simp only [isHighSurrogate, Bool.and_eq_true, decide_eq_true_eq]
    omega
  have hsecond : isLowSurrogate (0xDC00 + (c - 0x10000) % 0x400) = true := by
    simp only [isLowSurrogate, Bool.and_eq_true, decide_eq_true_eq]
    omega
  have hjoined : 0x10000 + (0xD800 + (c - 0x10000) / 0x400 - 0xD800) * 0x400 +
      (0xDC00 + (c - 0x10000) % 0x400 - 0xDC00) = c := by omega
  rw [hone, htwo]
  show scanString (0x5C :: 0x75 :: d₁ :: d₂ :: d₃ :: d₄ ::
    0x5C :: 0x75 :: e₁ :: e₂ :: e₃ :: e₄ :: rest) = _
  rw [scanString.eq_3, hhighValue]
  dsimp only
  rw [if_pos hfirst]
  split
  · rename_i heq
    simp only [List.cons.injEq, true_and] at heq
    obtain ⟨rfl, rfl, rfl, rfl, rfl⟩ := heq
    rw [hlowValue]
    dsimp only
    rw [if_pos hsecond, hjoined]
  · rename_i hnot
    exact absurd rfl (hnot e₁ e₂ e₃ e₄ rest)

theorem scanString_shortEscape {c letter : ℕ} (h : shortEscape c = some letter) (rest : PyStr) :
    scanString (0x5C :: letter :: rest) = prepend c (scanString rest) := by
  have hletter : letter ≠ 0x75 ∧ unescape letter = some c := by
    unfold shortEscape at h
    split at h
    · cases h
      subst c
      decide
    · split at h
      · cases h
        subst c
        decide
      · split at h
        · cases h
          subst c
          decide
        · split at h
          · cases h
            subst c
            decide
          · split at h
            · cases h
              subst c
              decide
            · split at h
              · cases h
                subst c
                decide
              · split at h
                · cases h
                  subst c
                  decide
                · cases h
  rw [scanString.eq_4 _ _ (by
    intro a b c d rest h
    rintro rfl
    exact hletter.1 h), hletter.2]

theorem scanString_plain {c : ℕ} (hquote : c ≠ 0x22) (hbackslash : c ≠ 0x5C) (hcontrol : 0x20 ≤ c)
    (rest : PyStr) : scanString (c :: rest) = prepend c (scanString rest) := by
  rw [scanString.eq_5 _ _ hquote]
  · rw [if_neg (by omega)]
  · intro a b c' d more hc
    exact absurd hc hbackslash
  · intro letter more hc
    exact absurd hc hbackslash

/-- One character and its escape. -/
theorem scanString_escapeChar {ensureAscii : Bool} {c : ℕ} (hc : ensureAscii → PyStr.isScalar c)
    (rest : PyStr) : scanString (escapeChar ensureAscii c ++ rest) = prepend c (scanString rest) := by
  unfold escapeChar
  split
  · rename_i letter hletter
    exact scanString_shortEscape hletter rest
  · rename_i hshort
    have hquote : c ≠ 0x22 := by
      rintro rfl
      exact absurd hshort (by decide)
    have hbackslash : c ≠ 0x5C := by
      rintro rfl
      exact absurd hshort (by decide)
    split
    · apply scanString_unicodeEscape (by omega)
      intro hhigh
      simp only [isHighSurrogate, Bool.and_eq_true, decide_eq_true_eq] at hhigh
      omega
    · split
      · rename_i hascii
        rw [Bool.and_eq_true, decide_eq_true_eq] at hascii
        have hscalar := hc hascii.1
        simp only [PyStr.isScalar, Bool.and_eq_true, Bool.not_eq_true', Bool.and_eq_false_iff,
          decide_eq_true_eq, decide_eq_false_iff_not] at hscalar
        split
        · rename_i hsmall
          apply scanString_unicodeEscape hsmall
          intro hhigh
          simp only [isHighSurrogate, Bool.and_eq_true, decide_eq_true_eq] at hhigh
          omega
        · rw [List.append_assoc]
          exact scanString_pair (by omega) hscalar.1 rest
      · exact scanString_plain hquote hbackslash (by omega) rest

/-- **A string that was written is read back.** -/
theorem scanString_escaped {ensureAscii : Bool} {s : PyStr} (hs : ensureAscii → s.encodable)
    (rest : PyStr) :
    scanString (s.flatMap (escapeChar ensureAscii) ++ 0x22 :: rest) = .ok (s, rest) := by
  induction s with
  | nil => rfl
  | cons c s ih =>
    have hboth : ensureAscii → PyStr.isScalar c ∧ PyStr.encodable s := fun h => by
      simpa [PyStr.encodable] using hs h
    rw [List.flatMap_cons, List.append_assoc, scanString_escapeChar fun h => (hboth h).1,
      ih fun h => (hboth h).2]
    rfl

/-! ### Documents -/

mutual

/-- A document that is read back as it was: no number with a point, no integer that is too large, no key
twice in an object, and in the layouts of ASCII characters no surrogate. -/
def Portable (ensureAscii : Bool) : Json → Prop
  | .int n => convertible n
  | .float _ => False
  | .str s => ensureAscii → s.encodable
  | .arr items => PortableItems ensureAscii items
  | .obj fields => (fields.map Prod.fst).Nodup ∧ PortableFields ensureAscii fields
  | _ => True

def PortableItems (ensureAscii : Bool) : List Json → Prop
  | [] => True
  | x :: xs => Portable ensureAscii x ∧ PortableItems ensureAscii xs

def PortableFields (ensureAscii : Bool) : List (PyStr × Json) → Prop
  | [] => True
  | (k, x) :: rest =>
    (ensureAscii → k.encodable) ∧ Portable ensureAscii x ∧ PortableFields ensureAscii rest

end

mutual

/-- How deep the reader has to go for a document. -/
def cost : Json → ℕ
  | .arr items => costItems items + 1
  | .obj fields => costFields fields + 1
  | _ => 1

def costItems : List Json → ℕ
  | [] => 0
  | x :: xs => cost x + costItems xs + 1

def costFields : List (PyStr × Json) → ℕ
  | [] => 0
  | (_, x) :: rest => cost x + costFields rest + 1

end

theorem skipWhitespace_append {run rest : PyStr} (hrun : ∀ c ∈ run, isWhitespace c)
    (hrest : ∀ c ∈ rest.head?, ¬ isWhitespace c) : skipWhitespace (run ++ rest) = rest :=
  dropWhile_append hrun hrest

theorem isWhitespace_newline (l : Layout) (depth : ℕ) : ∀ c ∈ l.newline depth, isWhitespace c := by
  intro c hc
  unfold Layout.newline at hc
  split at hc
  · exact absurd hc List.not_mem_nil
  · rcases List.mem_cons.mp hc with rfl | hc
    · rfl
    · rw [List.eq_of_mem_replicate hc]
      rfl

theorem isWhitespace_pad (n : ℕ) : ∀ c ∈ List.replicate n 0x20, isWhitespace c := by
  intro c hc
  rw [List.eq_of_mem_replicate hc]
  rfl

/-- No value begins with whitespace. -/
theorem write_head (ft : FloatText) (l : Layout) (depth : ℕ) {j : Json}
    (hj : Portable l.ensureAscii j) :
    ∃ c rest, write ft l depth j = c :: rest ∧ c < 0x80 ∧ isWhitespace c = false ∧ c ≠ 0x5D := by
  cases j with
  | null => exact ⟨_, _, rfl, by decide, rfl, by decide⟩
  | bool b => cases b <;> exact ⟨_, _, rfl, by decide, rfl, by decide⟩
  | float x => exact absurd hj (by simp [Portable])
  | str s => exact ⟨_, _, rfl, by decide, rfl, by decide⟩
  | int n =>
    obtain ⟨c, rest, hwrite, hc⟩ := decimalInt_eq_cons n
    refine ⟨c, rest, hwrite, by omega, ?_, by omega⟩
    simp only [isWhitespace, Bool.or_eq_false_iff, beq_eq_false_iff_ne]
    omega
  | arr items =>
    cases items with
    | nil => exact ⟨_, _, rfl, by decide, rfl, by decide⟩
    | cons x xs => exact ⟨_, _, rfl, by decide, rfl, by decide⟩
  | obj fields =>
    cases fields with
    | nil => exact ⟨_, _, rfl, by decide, rfl, by decide⟩
    | cons field rest => exact ⟨_, _, rfl, by decide, rfl, by decide⟩

theorem endsNumber_of_mem {c : ℕ} {rest : PyStr}
    (hc : c = 0x2C ∨ c = 0x5D ∨ c = 0x7D ∨ c = 0x20 ∨ c = 0x0A) : EndsNumber (c :: rest) := by
  rintro d hd
  cases hd
  rcases hc with rfl | rfl | rfl | rfl | rfl <;> decide

/-- A line break and a bracket end a number. -/
theorem endsNumber_newline (l : Layout) (depth : ℕ) {c : ℕ} (hc : c = 0x5D ∨ c = 0x7D) (rest : PyStr) :
    EndsNumber (l.newline depth ++ c :: rest) := by
  unfold Layout.newline
  split
  · apply endsNumber_of_mem
    rcases hc with rfl | rfl <;> simp
  · exact endsNumber_of_mem (by simp)

theorem parseConstant_decimalInt (n : ℤ) (rest : PyStr) :
    parseConstant (decimalInt n ++ rest) = none := by
  have hbeq : ∀ c d : ℕ, d ≤ 0x39 → 0x39 < c → (c == d) = false := fun c d hd hc =>
    beq_eq_false_iff_ne.mpr (by omega)
  obtain ⟨c, tail, hwrite, hc | ⟨rfl, d, more, rfl, hd⟩⟩ := decimalInt_eq_cons n
  · have hminus : (0x2D == c) = false := beq_eq_false_iff_ne.mpr (by omega)
    rw [hwrite]
    simp [parseConstant, constants, py, List.isPrefixOf, hbeq _ _ hc.2, hminus]
  · rw [hwrite]
    simp [parseConstant, constants, py, List.isPrefixOf, hbeq _ _ hd.2]

/-! ### Dictionaries -/

theorem setField_of_notMem {key : PyStr} {value : Json} {fields : List (PyStr × Json)}
    (h : key ∉ fields.map Prod.fst) : setField key value fields = fields ++ [(key, value)] := by
  induction fields with
  | nil => rfl
  | cons field rest ih =>
    rw [List.map_cons, List.mem_cons, not_or] at h
    unfold setField
    rw [if_neg (Ne.symm h.1), ih h.2]
    rfl

theorem ofPairs_of_nodup {pairs : List (PyStr × Json)} (h : (pairs.map Prod.fst).Nodup) :
    ofPairs pairs = pairs := by
  have hgen : ∀ done : List (PyStr × Json), ((done ++ pairs).map Prod.fst).Nodup →
      pairs.foldl (fun fields pair => setField pair.1 pair.2 fields) done = done ++ pairs := by
    clear h
    induction pairs with
    | nil =>
      intro done _
      simp
    | cons pair rest ih =>
      intro done hdone
      have hnew : pair.1 ∉ done.map Prod.fst := by
        rw [List.map_append, List.nodup_append] at hdone
        exact fun hmem => hdone.2.2 _ hmem pair.1 (by simp) rfl
      rw [List.foldl_cons, setField_of_notMem hnew, ih]
      · simp
      · simpa using hdone
  exact hgen [] h

/-! ### The round trip -/

section RoundTrip

variable (ft : FloatText) (l : Layout)

theorem parseValue_str {s : PyStr} (hs : l.ensureAscii → s.encodable) (fuel : ℕ) (rest : PyStr) :
    parseValue ft (fuel + 1) (quoted l.ensureAscii s ++ rest) = .ok (.str s, rest) := by
  have hscan := scanString_escaped hs rest
  rw [quoted, List.cons_append, List.append_assoc, List.singleton_append]
  unfold parseValue
  rw [if_pos rfl, hscan]

theorem parseValue_int {n : ℤ} (hn : convertible n) (fuel : ℕ) {rest : PyStr}
    (hrest : EndsNumber rest) :
    parseValue ft (fuel + 1) (decimalInt n ++ rest) = .ok (.int n, rest) := by
  have hnumber := parseNumber_decimalInt ft hn hrest
  have hconstant := parseConstant_decimalInt n rest
  obtain ⟨c, more, hwrite, hc⟩ := decimalInt_eq_cons n
  rw [hwrite, List.cons_append] at hnumber hconstant ⊢
  unfold parseValue
  rw [if_neg (by omega), if_neg (by omega), if_neg (by omega), hconstant]
  exact hnumber

/-- What the reader does with a constant. -/
theorem parseValue_constant {c : ℕ} {more rest : PyStr} {j : Json} (fuel : ℕ)
    (hc : c ≠ 0x22 ∧ c ≠ 0x7B ∧ c ≠ 0x5B) (h : parseConstant (c :: more) = some (j, rest)) :
    parseValue ft (fuel + 1) (c :: more) = .ok (j, rest) := by
  unfold parseValue
  rw [if_neg hc.1, if_neg hc.2.1, if_neg hc.2.2, h]

/-- What the reader does behind a value. -/
theorem skipWhitespace_newline (depth c : ℕ) (rest : PyStr) (hc : isWhitespace c = false) :
    skipWhitespace (l.newline depth ++ c :: rest) = c :: rest := by
  apply skipWhitespace_append (isWhitespace_newline l depth)
  rintro d hd
  cases hd
  rw [hc]
  exact Bool.false_ne_true

/-- Blanks in front of a value. -/
theorem skipWhitespace_write {run : PyStr} (hrun : ∀ c ∈ run, isWhitespace c) (depth : ℕ) {j : Json}
    (hj : Portable l.ensureAscii j) (rest : PyStr) :
    skipWhitespace (run ++ (write ft l depth j ++ rest)) = write ft l depth j ++ rest := by
  obtain ⟨c, more, hwrite, -, hspace, -⟩ := write_head ft l depth hj
  apply skipWhitespace_append hrun
  rw [hwrite]
  rintro d hd
  cases hd
  rw [hspace]
  exact Bool.false_ne_true

/-- The reader behind the last element of an array. -/
theorem parseItems_last {fuel : ℕ} {s r rest : PyStr} {x : Json}
    (hvalue : parseValue ft fuel s = .ok (x, r)) (hr : skipWhitespace r = 0x5D :: rest) :
    parseItems ft (fuel + 1) s = .ok ([x], rest) := by
  unfold parseItems
  rw [hvalue]
  dsimp only
  rw [hr]
  exact if_pos rfl

/-- The reader behind another element. -/
theorem parseItems_more {fuel : ℕ} {s r more rest : PyStr} {x : Json} {xs : List Json}
    (hvalue : parseValue ft fuel s = .ok (x, r)) (hr : skipWhitespace r = 0x2C :: more)
    (hmore : parseItems ft fuel (skipWhitespace more) = .ok (xs, rest)) :
    parseItems ft (fuel + 1) s = .ok (x :: xs, rest) := by
  unfold parseItems
  rw [hvalue]
  dsimp only
  rw [hr]
  dsimp only
  rw [if_neg (by decide), if_pos rfl, hmore]

/-- The reader at a field: its key and its value. -/
theorem parseFields_last {fuel : ℕ} {s r afterColon afterValue rest : PyStr} {key : PyStr} {x : Json}
    (hkey : scanString s = .ok (key, r)) (hcolon : skipWhitespace r = 0x3A :: afterColon)
    (hvalue : parseValue ft fuel (skipWhitespace afterColon) = .ok (x, afterValue))
    (hr : skipWhitespace afterValue = 0x7D :: rest) :
    parseFields ft (fuel + 1) (0x22 :: s) = .ok ([(key, x)], rest) := by
  unfold parseFields
  rw [if_neg (not_not.mpr rfl), hkey]
  dsimp only
  rw [hcolon]
  dsimp only
  rw [if_neg (not_not.mpr rfl), hvalue]
  dsimp only
  rw [hr]
  exact if_pos rfl

theorem parseFields_more {fuel : ℕ} {s r afterColon afterValue more rest : PyStr} {key : PyStr}
    {x : Json} {pairs : List (PyStr × Json)}
    (hkey : scanString s = .ok (key, r)) (hcolon : skipWhitespace r = 0x3A :: afterColon)
    (hvalue : parseValue ft fuel (skipWhitespace afterColon) = .ok (x, afterValue))
    (hr : skipWhitespace afterValue = 0x2C :: more)
    (hmore : parseFields ft fuel (skipWhitespace more) = .ok (pairs, rest)) :
    parseFields ft (fuel + 1) (0x22 :: s) = .ok ((key, x) :: pairs, rest) := by
  unfold parseFields
  rw [if_neg (not_not.mpr rfl), hkey]
  dsimp only
  rw [hcolon]
  dsimp only
  rw [if_neg (not_not.mpr rfl), hvalue]
  dsimp only
  rw [hr]
  dsimp only
  rw [if_neg (by decide), if_pos rfl, hmore]

/-- One call of the reader for each of its three parts. -/
structure ReadsBack (fuel : ℕ) : Prop where
  value : ∀ j depth rest, Portable l.ensureAscii j → cost j ≤ fuel → EndsNumber rest →
    parseValue ft fuel (write ft l depth j ++ rest) = .ok (j, rest)
  items : ∀ x xs depth above rest, PortableItems l.ensureAscii (x :: xs) → costItems (x :: xs) ≤ fuel →
    parseItems ft fuel (write ft l depth x ++ (writeItems ft l depth xs ++
      (l.newline above ++ 0x5D :: rest))) = .ok (x :: xs, rest)
  fields : ∀ k x more depth above rest, PortableFields l.ensureAscii ((k, x) :: more) →
    costFields ((k, x) :: more) ≤ fuel →
    parseFields ft fuel (quoted l.ensureAscii k ++ (l.colon ++ (write ft l depth x ++
      (writeFields ft l depth more ++ (l.newline above ++ 0x7D :: rest))))) = .ok ((k, x) :: more, rest)

theorem ReadsBack.zero : ReadsBack ft l 0 where
  value j depth rest _ hcost := by
    cases j <;> simp [cost] at hcost
  items x xs depth above rest _ hcost := by
    simp [costItems] at hcost
  fields k x more depth above rest _ hcost := by
    simp [costFields] at hcost

variable {ft l} {fuel : ℕ}

theorem isWhitespace_comma (l : Layout) (depth : ℕ) :
    ∀ c ∈ List.replicate l.itemPad 0x20 ++ l.newline depth, isWhitespace c := by
  intro c hc
  rcases List.mem_append.mp hc with hc | hc
  · exact isWhitespace_pad _ c hc
  · exact isWhitespace_newline l depth c hc

/-- The elements of an array: each but the last is followed by a comma. -/
theorem ReadsBack.items_succ (h : ReadsBack ft l fuel) {x : Json} {xs : List Json} (depth above : ℕ)
    (rest : PyStr) (hport : PortableItems l.ensureAscii (x :: xs))
    (hcost : costItems (x :: xs) ≤ fuel + 1) :
    parseItems ft (fuel + 1) (write ft l depth x ++ (writeItems ft l depth xs ++
      (l.newline above ++ 0x5D :: rest))) = .ok (x :: xs, rest) := by
  obtain ⟨hx, hxs⟩ := hport
  simp only [costItems] at hcost
  cases xs with
  | nil =>
    apply parseItems_last
    · exact h.value x depth _ hx (by omega) (endsNumber_newline l above (Or.inl rfl) rest)
    · exact skipWhitespace_newline l above 0x5D rest rfl
  | cons y ys =>
    have htail : writeItems ft l depth (y :: ys) ++ (l.newline above ++ 0x5D :: rest) =
        0x2C :: (List.replicate l.itemPad 0x20 ++ l.newline depth ++ (write ft l depth y ++
          (writeItems ft l depth ys ++ (l.newline above ++ 0x5D :: rest)))) := by
      simp [writeItems, Layout.comma]
    rw [htail]
    apply parseItems_more ft (h.value x depth _ hx (by omega) (endsNumber_of_mem (Or.inl rfl)))
    · rfl
    · rw [skipWhitespace_write ft l (isWhitespace_comma l depth) depth hxs.1]
      apply h.items y ys depth above rest hxs
      simp only [costItems] at hcost ⊢
      omega

/-- The fields of an object. -/
theorem ReadsBack.fields_succ (h : ReadsBack ft l fuel) {k : PyStr} {x : Json}
    {more : List (PyStr × Json)} (depth above : ℕ) (rest : PyStr)
    (hport : PortableFields l.ensureAscii ((k, x) :: more))
    (hcost : costFields ((k, x) :: more) ≤ fuel + 1) :
    parseFields ft (fuel + 1) (quoted l.ensureAscii k ++ (l.colon ++ (write ft l depth x ++
      (writeFields ft l depth more ++ (l.newline above ++ 0x7D :: rest))))) =
        .ok ((k, x) :: more, rest) := by
  obtain ⟨hk, hx, hmore⟩ := hport
  simp only [costFields] at hcost
  have hcolon : ∀ t, skipWhitespace (l.colon ++ t) = 0x3A :: (List.replicate l.keyPad 0x20 ++ t) :=
    fun _ => rfl
  rw [quoted, List.cons_append, List.append_assoc, List.singleton_append]
  cases more with
  | nil =>
    apply parseFields_last ft (scanString_escaped hk _) (hcolon _)
    · rw [skipWhitespace_write ft l (isWhitespace_pad l.keyPad) depth hx]
      exact h.value x depth _ hx (by omega) (endsNumber_newline l above (Or.inr rfl) rest)
    · exact skipWhitespace_newline l above 0x7D rest rfl
  | cons next more =>
    obtain ⟨k', y⟩ := next
    have htail : writeFields ft l depth ((k', y) :: more) ++ (l.newline above ++ 0x7D :: rest) =
        0x2C :: (List.replicate l.itemPad 0x20 ++ l.newline depth ++ (quoted l.ensureAscii k' ++
          (l.colon ++ (write ft l depth y ++
            (writeFields ft l depth more ++ (l.newline above ++ 0x7D :: rest)))))) := by
      simp [writeFields, Layout.comma]
    rw [htail]
    apply parseFields_more ft (scanString_escaped hk _) (hcolon _)
    · rw [skipWhitespace_write ft l (isWhitespace_pad l.keyPad) depth hx]
      exact h.value x depth _ hx (by omega) (endsNumber_of_mem (Or.inl rfl))
    · rfl
    · rw [skipWhitespace_append (isWhitespace_comma l depth)]
      · apply h.fields k' y more depth above rest hmore
        simp only [costFields] at hcost ⊢
        omega
      · rintro c hc
        cases hc
        decide

/-- A value, from its elements or fields. -/
theorem ReadsBack.value_succ (h : ReadsBack ft l fuel) (j : Json) (depth : ℕ) (rest : PyStr)
    (hport : Portable l.ensureAscii j) (hcost : cost j ≤ fuel + 1) (hrest : EndsNumber rest) :
    parseValue ft (fuel + 1) (write ft l depth j ++ rest) = .ok (j, rest) := by
  cases j with
  | null => exact parseValue_constant ft fuel (by decide) rfl
  | bool b =>
    cases b with
    | true => exact parseValue_constant ft fuel (by decide) rfl
    | false => exact parseValue_constant ft fuel (by decide) rfl
  | float x => exact absurd hport (by simp [Portable])
  | str s => exact parseValue_str ft l hport fuel rest
  | int n => exact parseValue_int ft hport fuel hrest
  | arr items =>
    cases items with
    | nil => rfl
    | cons x xs =>
      have hitems := h.items x xs (depth + 1) depth rest hport (by
        simp only [cost] at hcost
        omega)
      have htext : write ft l depth (.arr (x :: xs)) ++ rest =
          0x5B :: (l.newline (depth + 1) ++ (write ft l (depth + 1) x ++
            (writeItems ft l (depth + 1) xs ++ (l.newline depth ++ 0x5D :: rest)))) := by
        simp [write]
      obtain ⟨c, more, hwrite, -, -, hc⟩ := write_head ft l (depth + 1) hport.1
      rw [htext]
      unfold parseValue
      rw [if_neg (by decide), if_neg (by decide), if_pos rfl,
        skipWhitespace_write ft l (isWhitespace_newline l (depth + 1)) (depth + 1) hport.1]
      rw [hwrite, List.cons_append] at hitems ⊢
      split
      · rename_i heq
        rw [List.cons.injEq] at heq
        exact absurd heq.1 hc
      · rw [hitems]
  | obj fields =>
    cases fields with
    | nil => rfl
    | cons field more =>
      obtain ⟨k, x⟩ := field
      obtain ⟨hnodup, hfields⟩ := hport
      have hparse := h.fields k x more (depth + 1) depth rest hfields (by
        simp only [cost] at hcost
        omega)
      have htext : write ft l depth (.obj ((k, x) :: more)) ++ rest =
          0x7B :: (l.newline (depth + 1) ++ (quoted l.ensureAscii k ++ (l.colon ++
            (write ft l (depth + 1) x ++ (writeFields ft l (depth + 1) more ++
              (l.newline depth ++ 0x7D :: rest)))))) := by
        simp [write]
      rw [htext]
      unfold parseValue
      rw [if_neg (by decide), if_pos rfl,
        skipWhitespace_append (isWhitespace_newline l (depth + 1)) (by
          rintro c hc
          cases hc
          decide)]
      rw [quoted, List.cons_append] at hparse ⊢
      split
      · rename_i heq
        rw [List.cons.injEq] at heq
        exact absurd heq.1 (by decide)
      · rw [hparse]
        dsimp only
        rw [ofPairs_of_nodup hnodup]

theorem readsBack (ft : FloatText) (l : Layout) (fuel : ℕ) : ReadsBack ft l fuel := by
  induction fuel with
  | zero => exact ReadsBack.zero ft l
  | succ fuel ih =>
    constructor
    · exact ih.value_succ
    · intro x xs
      exact ih.items_succ
    · intro k x more
      exact ih.fields_succ

/-! ### Whole documents -/

variable (ft l)

mutual

/-- The text is long enough for the depth that the reader allows itself. -/
theorem cost_le_length (depth : ℕ) : ∀ j, Portable l.ensureAscii j →
    cost j ≤ (write ft l depth j).length
  | .null, _ => by simp [cost, write, py]
  | .bool true, _ => by simp [cost, write, py]
  | .bool false, _ => by simp [cost, write, py]
  | .float _, hj => absurd hj (by simp [Portable])
  | .str _, _ => by simp [cost, write, quoted]
  | .int n, _ => by
    obtain ⟨c, rest, hwrite, -⟩ := decimalInt_eq_cons n
    simp [cost, write, hwrite]
  | .arr [], _ => by simp [cost, costItems, write, py]
  | .arr (x :: xs), hj => by
    have hx := cost_le_length (depth + 1) x hj.1
    have hxs := costItems_le_length (depth + 1) xs hj.2
    simp only [cost, costItems, write, List.length_cons, List.length_append]
    omega
  | .obj [], _ => by simp [cost, costFields, write, py]
  | .obj ((k, x) :: rest), hj => by
    have hx := cost_le_length (depth + 1) x hj.2.2.1
    have hrest := costFields_le_length (depth + 1) rest hj.2.2.2
    simp only [cost, costFields, write, List.length_cons, List.length_append]
    omega

theorem costItems_le_length (depth : ℕ) : ∀ xs, PortableItems l.ensureAscii xs →
    costItems xs ≤ (writeItems ft l depth xs).length
  | [], _ => by simp [costItems]
  | x :: xs, hport => by
    have hx := cost_le_length depth x hport.1
    have hxs := costItems_le_length depth xs hport.2
    simp only [costItems, writeItems, Layout.comma, List.length_cons, List.length_append]
    omega

theorem costFields_le_length (depth : ℕ) : ∀ fields, PortableFields l.ensureAscii fields →
    costFields fields ≤ (writeFields ft l depth fields).length
  | [], _ => by simp [costFields]
  | (_, x) :: rest, hport => by
    have hx := cost_le_length depth x hport.2.1
    have hrest := costFields_le_length depth rest hport.2.2
    simp only [costFields, writeFields, Layout.comma, List.length_cons, List.length_append]
    omega

end

/-- **A document that was written is read back, with blanks behind it or not.** -/
theorem loads_write (ft : FloatText) (l : Layout) {j : Json} (hj : Portable l.ensureAscii j)
    {blank : PyStr} (hblank : ∀ c ∈ blank, isWhitespace c) :
    loads ft (write ft l 0 j ++ blank) = .ok j := by
  obtain ⟨c, rest, hwrite, hascii, hspace, -⟩ := write_head ft l 0 hj
  have hcost := cost_le_length ft l 0 j hj
  have hends : EndsNumber blank := by
    intro d hd
    have hd' := hblank d (List.mem_of_mem_head? hd)
    simp only [isWhitespace, Bool.or_eq_true, beq_iff_eq] at hd'
    rcases hd' with ((rfl | rfl) | rfl) | rfl <;> decide
  have hparse := (readsBack ft l (2 * (write ft l 0 j ++ blank).length + 2)).value j 0 blank hj
    (by rw [List.length_append]; omega) hends
  have hskip : skipWhitespace (write ft l 0 j ++ blank) = write ft l 0 j ++ blank :=
    skipWhitespace_write ft l (fun _ h => absurd h List.not_mem_nil) 0 hj blank
  have hend : skipWhitespace blank = [] := by
    have h := skipWhitespace_append hblank (show ∀ c ∈ ([] : PyStr).head?, ¬ isWhitespace c by simp)
    rwa [List.append_nil] at h
  unfold loads
  rw [if_neg, hskip, hparse]
  · dsimp only
    rw [if_pos hend]
  · rw [hwrite, List.cons_append, List.head?_cons, Option.some.injEq]
    omega

mutual

/-- The integers of such a document may be converted. -/
theorem convertible_of_mem {ensureAscii : Bool} :
    ∀ j, Portable ensureAscii j → ∀ n ∈ j.ints, convertible n
  | .null, _ => by simp [ints]
  | .bool _, _ => by simp [ints]
  | .float _, _ => by simp [ints]
  | .str _, _ => by simp [ints]
  | .int m, hj => by
    intro n hn
    rw [List.mem_singleton.mp hn]
    exact hj
  | .arr items, hj => convertible_of_mem_items items hj
  | .obj fields, hj => convertible_of_mem_fields fields hj.2

theorem convertible_of_mem_items {ensureAscii : Bool} :
    ∀ xs, PortableItems ensureAscii xs → ∀ n ∈ intsItems xs, convertible n
  | [], _ => by simp [intsItems]
  | x :: xs, h => by
    intro n hn
    rcases List.mem_append.mp hn with hn | hn
    · exact convertible_of_mem x h.1 n hn
    · exact convertible_of_mem_items xs h.2 n hn

theorem convertible_of_mem_fields {ensureAscii : Bool} :
    ∀ fields, PortableFields ensureAscii fields → ∀ n ∈ intsFields fields, convertible n
  | [], _ => by simp [intsFields]
  | (_, x) :: rest, h => by
    intro n hn
    rcases List.mem_append.mp hn with hn | hn
    · exact convertible_of_mem x h.2.1 n hn
    · exact convertible_of_mem_fields rest h.2.2 n hn

end

theorem printable_of_portable {ensureAscii : Bool} {j : Json} (hj : Portable ensureAscii j) :
    j.printable :=
  List.all_eq_true.mpr (convertible_of_mem j hj)

/-- `json.loads(json.dumps(j)) == j`. -/
theorem loads_dumps (ft : FloatText) (l : Layout) {j : Json} (hj : Portable l.ensureAscii j) :
    ∃ text, dumps ft l j = .ok text ∧ loads ft text = .ok j := by
  refine ⟨write ft l 0 j, if_pos (printable_of_portable hj), ?_⟩
  have h := loads_write ft l hj (fun _ h => absurd h List.not_mem_nil)
  rwa [List.append_nil] at h

/-- Different documents have different texts. -/
theorem write_inj {ft : FloatText} {l : Layout} {j k : Json} (hj : Portable l.ensureAscii j)
    (hk : Portable l.ensureAscii k) (h : write ft l 0 j = write ft l 0 k) : j = k := by
  have hread := loads_write ft l hj (fun _ h => absurd h List.not_mem_nil)
  rw [h, loads_write ft l hk (by simp)] at hread
  exact (Except.ok.inj hread).symm

end RoundTrip

end Json

end TaintForge
