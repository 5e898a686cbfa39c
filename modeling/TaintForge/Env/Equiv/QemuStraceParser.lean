import TaintForge.Env.Equiv.StraceParser

/-!
# The QEMU parser on a line of the tracer

The symbol of a failure is searched for in the whole line, so a text in the arguments that looks like
one comes first.  No such text crosses the parenthesis that closes the arguments, and the search can
be told apart into the arguments and the result.

* `first_qemuErrnoSymbolRe`, `first_qemuErrnoNumberRe`: the texts that the two searches look for.
* `search_text`: a search of a line is a search of its arguments and then of its result.
* `qemuErrno_iff`: when the symbol that is found is the one that the result stands for.
-/

namespace TaintForge

open Matcher PyStr

/-! ### The texts that are searched for -/

theorem mem_litIgnoreCase {w s rest : PyStr} {u : Unit} :
    (u, rest) ∈ litIgnoreCase w s ↔
      ∃ word, s = word ++ rest ∧ List.Forall₂ (fun c d => sameLetter c d = true) w word := by
  induction w generalizing s with
  | nil =>
    simp only [litIgnoreCase, mem_pure, Prod.mk.injEq, true_and, List.forall₂_nil_left_iff]
    constructor
    · rintro rfl
      exact ⟨[], rfl, rfl⟩
    · rintro ⟨word, rfl, rfl⟩
      rfl
  | cons c w ih =>
    simp only [litIgnoreCase, mem_bind, mem_char, ih, List.forall₂_cons_left_iff]
    constructor
    · rintro ⟨d, t, ⟨rfl, hd⟩, word, rfl, hword⟩
      exact ⟨d :: word, rfl, d, word, hd, hword, rfl⟩
    · rintro ⟨-, rfl, d, word, hd, hword, rfl⟩
      exact ⟨d, word ++ rest, ⟨rfl, hd⟩, word, rfl, hword⟩

theorem boundaryRe_iff {s : PyStr} : (∃ u rest, (u, rest) ∈ boundaryRe s) ↔ EndsWord s := by
  simp only [boundaryRe, mem_alt, mem_bind, mem_char, mem_lit, mem_pure, Prod.mk.injEq, EndsWord]
  constructor
  · rintro ⟨u, rest, ⟨d, r, ⟨hs, hd⟩, -⟩ | hend | hs⟩ c t hct
    · obtain ⟨rfl, -⟩ := List.cons.inj (hct.symm.trans hs)
      exact .inl hd
    · simp only [textEnd] at hend
      split at hend
      · rename_i hfeed
        rcases hfeed with rfl | rfl
        · cases hct
        · obtain ⟨rfl, -⟩ := List.cons.inj hct
          exact .inl (by decide)
      · simp at hend
    · obtain ⟨rfl, -⟩ := List.cons.inj (hs.symm.trans hct)
      exact .inr rfl
  · intro h
    cases s with
    | nil => exact ⟨(), [], .inr (.inl (by simp [textEnd]))⟩
    | cons c t =>
      rcases h c t rfl with hc | rfl
      · exact ⟨(), t, .inl ⟨c, t, ⟨rfl, hc⟩, trivial, rfl⟩⟩
      · exact ⟨(), t, .inr (.inr rfl)⟩

/-- What stands after `= -1` and white space is determined by the text. -/
theorem minusOne_unique {w w' v v' x x' : PyStr}
    (h : py "=" ++ (w ++ (py "-1" ++ (v ++ x))) = py "=" ++ (w' ++ (py "-1" ++ (v' ++ x'))))
    (hw : ∀ c ∈ w, isSpace c = true) (hw' : ∀ c ∈ w', isSpace c = true)
    (hv : ∀ c ∈ v, isSpace c = true) (hv' : ∀ c ∈ v', isSpace c = true)
    (hx : ∀ c t, x = c :: t → isSpace c = false) (hx' : ∀ c t, x' = c :: t → isSpace c = false) :
    x = x' := by
  have hminus : ∀ (r : PyStr) c t, py "-1" ++ r = c :: t → isSpace c = false := by
    rintro r c t hct
    obtain ⟨rfl, -⟩ := List.cons.inj hct
    decide
  obtain ⟨-, h⟩ := eq_of_runs (List.append_cancel_left h) hw hw' (hminus _) (hminus _)
  exact (eq_of_runs (List.append_cancel_left h) hv hv' hx hx').2

theorem isUpperTail_bounds {c : ℕ} (h : isUpperTail c = true) :
    (0x41 ≤ c ∧ c ≤ 0x5A) ∨ (0x30 ≤ c ∧ c ≤ 0x39) ∨ c = 0x5F := by
  simp only [isUpperTail, Json.isDigit, Bool.or_eq_true, Bool.and_eq_true, decide_eq_true_eq,
    beq_iff_eq] at h
  tauto

theorem isSpace_of_isUpperTail {c : ℕ} (h : isUpperTail c = true) : isSpace c = false := by
  have hclear : ∀ c < 0x80, isUpperTail c = true → isSpace c = false := by decide
  have hbounds := isUpperTail_bounds h
  exact hclear c (by omega) h

theorem isUpperTail_of_isUpper {c : ℕ} (h : isUpper c = true) : isUpperTail c = true := by
  simp only [isUpper] at h
  simp [isUpperTail, h]

theorem IsErrnoName.isUpperTail {E : PyStr} (h : IsErrnoName E) : ∀ c ∈ E, isUpperTail c = true := by
  obtain ⟨head, tail, rfl, hhead, -, htail⟩ := h
  exact List.forall_mem_cons.mpr ⟨isUpperTail_of_isUpper hhead, htail⟩

theorem IsErrnoName.ne_nil {E : PyStr} (h : IsErrnoName E) : E ≠ [] := by
  obtain ⟨head, tail, rfl, -⟩ := h
  exact List.cons_ne_nil head tail

/-- A word ends before a character that is neither part of a symbol nor a digit. -/
theorem EndsWord.isUpperTail {s : PyStr} (h : EndsWord s) :
    ∀ c t, s = c :: t → isUpperTail c = false := by
  intro c t hct
  apply Bool.eq_false_iff.mpr
  intro htail
  rcases h c t hct with hspace | rfl
  · rw [isSpace_of_isUpperTail htail] at hspace
    cases hspace
  · exact absurd htail (by decide)

theorem EndsWord.isDecimal {s : PyStr} (h : EndsWord s) :
    ∀ c t, s = c :: t → isDecimal c = false := by
  intro c t hct
  apply Bool.eq_false_iff.mpr
  intro hdecimal
  rcases h c t hct with hspace | rfl
  · rw [isSpace_of_isDecimal hdecimal] at hspace
    cases hspace
  · exact absurd hdecimal (by decide)

theorem mem_qemuErrnoSymbolRe {s E : PyStr} :
    (∃ rest, (E, rest) ∈ qemuErrnoSymbolRe s) ↔ SymbolText s E := by
  simp only [qemuErrnoSymbolRe, mem_bind, mem_lit, mem_many, mem_many1, mem_char, mem_pure,
    Prod.mk.injEq]
  constructor
  · rintro ⟨rest, -, s₁, rfl, w, s₂, ⟨rfl, hw⟩, -, s₃, rfl, v, s₄, ⟨rfl, hv, hvspace⟩, head, s₅,
      ⟨rfl, hhead⟩, tail, s₆, ⟨rfl, htail, htailUpper⟩, u, s₇, hend, rfl, rfl⟩
    refine ⟨py "=" ++ (w ++ (py "-1" ++ (v ++ head :: tail))), s₆, by simp, ?_,
      boundaryRe_iff.mp ⟨u, _, hend⟩⟩
    exact ⟨w, v, rfl, hw, hv, hvspace, head, tail, rfl, hhead, htail, htailUpper⟩
  · rintro ⟨-, rest, rfl, ⟨w, v, rfl, hw, hv, hvspace, head, tail, rfl, hhead, htail, htailUpper⟩,
      hend⟩
    obtain ⟨u, r, hr⟩ := boundaryRe_iff.mpr hend
    exact ⟨r, (), w ++ (py "-1" ++ (v ++ head :: (tail ++ rest))), by simp, w, _, ⟨rfl, hw⟩, (), _,
      rfl, v, _, ⟨rfl, hv, hvspace⟩, head, _, ⟨rfl, hhead⟩, tail, rest, ⟨rfl, htail, htailUpper⟩, u,
      r, hr, rfl, rfl⟩

theorem mem_qemuErrnoNumberRe {s digits : PyStr} :
    (∃ rest, (digits, rest) ∈ qemuErrnoNumberRe s) ↔ NumberText s digits := by
  simp only [qemuErrnoNumberRe, mem_bind, mem_lit, mem_many, mem_many1, mem_litIgnoreCase, mem_pure,
    Prod.mk.injEq]
  constructor
  · rintro ⟨rest, -, s₁, rfl, w, s₂, ⟨rfl, hw⟩, -, s₃, rfl, v, s₄, ⟨rfl, hv, hvspace⟩, -, s₅,
      ⟨word, rfl, hword⟩, -, s₆, rfl, ds, s₇, ⟨rfl, hds, hdecimal⟩, u, s₈, hend, rfl, rfl⟩
    refine ⟨py "=" ++ (w ++ (py "-1" ++ (v ++ (word ++ (py "=" ++ digits))))), s₇, by simp, ?_,
      boundaryRe_iff.mp ⟨u, _, hend⟩⟩
    exact ⟨w, v, word, rfl, hw, hv, hvspace, hword, hds, hdecimal⟩
  · rintro ⟨-, rest, rfl, ⟨w, v, word, rfl, hw, hv, hvspace, hword, hds, hdecimal⟩, hend⟩
    obtain ⟨u, r, hr⟩ := boundaryRe_iff.mpr hend
    exact ⟨r, (), w ++ (py "-1" ++ (v ++ (word ++ (py "=" ++ (digits ++ rest))))), by simp, w, _,
      ⟨rfl, hw⟩, (), _, rfl, v, _, ⟨rfl, hv, hvspace⟩, (), _, ⟨word, rfl, hword⟩, (), _, rfl, digits,
      rest, ⟨rfl, hds, hdecimal⟩, u, r, hr, rfl, rfl⟩

theorem SymbolText.unique {s E E' : PyStr} (h : SymbolText s E) (h' : SymbolText s E') : E = E' := by
  obtain ⟨-, rest, rfl, ⟨w, v, rfl, hw, -, hv, hE⟩, hend⟩ := h
  obtain ⟨-, rest', hs, ⟨w', v', rfl, hw', -, hv', hE'⟩, hend'⟩ := h'
  have hhead : ∀ {E : PyStr}, IsErrnoName E → ∀ r c t, E ++ r = c :: t → isSpace c = false := by
    rintro E ⟨head, tail, rfl, hhead, -⟩ r c t hct
    obtain ⟨rfl, -⟩ := List.cons.inj hct
    exact isSpace_of_isUpperTail (isUpperTail_of_isUpper hhead)
  simp only [List.append_assoc] at hs
  have hsymbol := minusOne_unique hs hw hw' hv hv' (hhead hE rest) (hhead hE' rest')
  exact (eq_of_runs hsymbol hE.isUpperTail hE'.isUpperTail hend.isUpperTail hend'.isUpperTail).1

/-- A letter of a word is no white space. -/
theorem errno_head {word : PyStr}
    (h : List.Forall₂ (fun c d => sameLetter c d = true) (py "errno") word) (r : PyStr) :
    ∀ c t, word ++ r = c :: t → isSpace c = false := by
  intro c t hct
  have hletters : py "errno" = 0x65 :: py "rrno" := rfl
  rw [hletters] at h
  obtain ⟨d, word, hd, -, rfl⟩ := List.forall₂_cons_left_iff.mp h
  obtain ⟨rfl, -⟩ := List.cons.inj hct
  simp only [sameLetter, Bool.or_eq_true, beq_iff_eq] at hd
  obtain rfl | rfl : d = 0x65 ∨ d = 0x45 := by omega
  · decide
  · decide

theorem NumberText.unique {s digits digits' : PyStr} (h : NumberText s digits)
    (h' : NumberText s digits') : digits = digits' := by
  obtain ⟨-, rest, rfl, ⟨w, v, word, rfl, hw, -, hv, hword, -, hdigits⟩, hend⟩ := h
  obtain ⟨-, rest', hs, ⟨w', v', word', rfl, hw', -, hv', hword', -, hdigits'⟩, hend'⟩ := h'
  simp only [List.append_assoc] at hs
  have hnumber := minusOne_unique hs hw hw' hv hv' (errno_head hword _) (errno_head hword' _)
  have hlength : word.length = word'.length := hword.length_eq.symm.trans hword'.length_eq
  have hrun := List.append_cancel_left (List.append_inj hnumber hlength).2
  exact (eq_of_runs hrun hdigits hdigits' hend.isDecimal hend'.isDecimal).1

theorem first_qemuErrnoSymbolRe (s E : PyStr) :
    first qemuErrnoSymbolRe s = some E ↔ SymbolText s E := by
  rw [first_eq_some_iff, mem_qemuErrnoSymbolRe]
  intro a b r t ha hb
  exact (mem_qemuErrnoSymbolRe.mp ⟨r, ha⟩).unique (mem_qemuErrnoSymbolRe.mp ⟨t, hb⟩)

theorem first_qemuErrnoNumberRe (s digits : PyStr) :
    first qemuErrnoNumberRe s = some digits ↔ NumberText s digits := by
  rw [first_eq_some_iff, mem_qemuErrnoNumberRe]
  intro a b r t ha hb
  exact (mem_qemuErrnoNumberRe.mp ⟨r, ha⟩).unique (mem_qemuErrnoNumberRe.mp ⟨t, hb⟩)

/-! ### The arguments and the result -/

/-- Whether a word ends is seen at the next character. -/
theorem endsWord_append_cons {s t : PyStr} {c : ℕ} :
    EndsWord (s ++ c :: t) ↔ EndsWord (s ++ [c]) := by
  cases s with
  | nil =>
    constructor
    · rintro h d u hdu
      obtain ⟨rfl, -⟩ := List.cons.inj hdu
      exact h c t rfl
    · rintro h d u hdu
      obtain ⟨rfl, -⟩ := List.cons.inj hdu
      exact h c [] rfl
  | cons x s =>
    constructor
    · rintro h d u hdu
      obtain ⟨rfl, -⟩ := List.cons.inj hdu
      exact h x _ rfl
    · rintro h d u hdu
      obtain ⟨rfl, -⟩ := List.cons.inj hdu
      exact h x _ rfl

/-- What stands before a character that is not in it ends before it. -/
theorem append_cons_of_not_mem {core rest x t : PyStr} {c : ℕ} (hc : c ∉ core)
    (h : x ++ c :: t = core ++ rest) : ∃ y, x = core ++ y ∧ rest = y ++ c :: t := by
  rcases List.append_eq_append_iff.mp h with ⟨after, rfl, hafter⟩ | ⟨y, hx, hrest⟩
  · cases after with
    | nil => exact ⟨[], by simp, hafter.symm⟩
    | cons d after =>
      obtain ⟨rfl, -⟩ := List.cons.inj hafter
      exact absurd (List.mem_append_right x List.mem_cons_self) hc
  · exact ⟨y, hx, hrest⟩

section

variable {Core : PyStr → PyStr → Prop} (hclose : ∀ core a, Core core a → 0x29 ∉ core)
include hclose

/-- A text that does not hold a parenthesis is not changed by what follows the next parenthesis. -/
theorem ended_append_cons {x t a : PyStr} :
    Ended Core (x ++ 0x29 :: t) a ↔ Ended Core (x ++ [0x29]) a := by
  constructor
  · rintro ⟨core, rest, hs, hcore, hend⟩
    obtain ⟨y, rfl, rfl⟩ := append_cons_of_not_mem (hclose core a hcore) hs
    exact ⟨core, y ++ [0x29], List.append_assoc .., hcore, endsWord_append_cons.mp hend⟩
  · rintro ⟨core, rest, hs, hcore, hend⟩
    obtain ⟨y, rfl, rfl⟩ := append_cons_of_not_mem (hclose core a hcore) hs
    exact ⟨core, y ++ 0x29 :: t, List.append_assoc .., hcore, endsWord_append_cons.mpr hend⟩

/-- A search of a line is a search of its arguments and, where nothing is found there, of its result. -/
theorem search_text {m : Matcher ℕ PyStr} (hm : ∀ s a, first m s = some a ↔ Ended Core s a)
    (hopen : ∀ core a, Core core a → ∃ r, core = 0x3D :: r) (t : TraceLine) :
    search m t.text =
      (search m (t.args ++ py ")")).or (search m (py "=" ++ (py " " ++ t.result))) := by
  have hrefuse : ∀ c, c ≠ 0x3D → ∀ rest, first m (c :: rest) = none := by
    intro c hc rest
    apply Option.eq_none_iff_forall_ne_some.mpr
    intro a ha
    obtain ⟨core, r, hs, hcore, -⟩ := (hm _ _).mp ha
    obtain ⟨u, rfl⟩ := hopen core a hcore
    exact hc (List.cons.inj hs).1
  have hnil : first m [] = none := by
    apply Option.eq_none_iff_forall_ne_some.mpr
    intro a ha
    obtain ⟨core, r, hs, hcore, -⟩ := (hm _ _).mp ha
    obtain ⟨u, rfl⟩ := hopen core a hcore
    cases hs
  have hname : ∀ c ∈ t.name ++ py "(", c ≠ 0x3D := by
    intro c hc
    rcases List.mem_append.mp hc with hc | hc
    · obtain ⟨head, tail, hname, hhead, htail⟩ := t.name_isName
      have hc' : isNameTail c = true := by
        rw [hname, List.mem_cons] at hc
        rcases hc with rfl | hc
        · simp [isNameTail, hhead]
        · exact htail c hc
      rintro rfl
      exact absurd hc' (by decide)
    · rw [List.mem_singleton.mp hc]
      decide
  have hsplit : t.text = (t.name ++ py "(") ++ ((t.args ++ py ")") ++
      (List.replicate (t.padding + 1) 0x20 ++ (py "=" ++ (py " " ++ t.result)))) := by
    simp [TraceLine.text]
  rw [hsplit, search_append_of_refuse fun c hc => hrefuse c (hname c hc), search_append _ hnil,
    search_append_of_refuse (s := List.replicate (t.padding + 1) 0x20)]
  · intro c hc rest
    apply hrefuse
    rw [List.eq_of_mem_replicate hc]
    decide
  · -- what is found in the arguments is found whatever follows them
    intro before rest hrest hne
    obtain ⟨x, rfl⟩ : ∃ x, rest = x ++ [0x29] := by
      rcases List.append_eq_append_iff.mp hrest with ⟨after, -, hclosing⟩ | ⟨x, -, hx⟩
      · rcases List.append_eq_singleton_iff.mp hclosing.symm with ⟨-, hx⟩ | ⟨-, hnone⟩
        · exact ⟨[], hx⟩
        · exact absurd hnone hne
      · exact ⟨x, hx⟩
    apply Option.ext
    intro a
    rw [hm, hm, List.append_assoc]
    exact ended_append_cons hclose

end

theorem not_mem_of_isSpace {w : PyStr} {c : ℕ} (hc : isSpace c = false)
    (hw : ∀ d ∈ w, isSpace d = true) : c ∉ w := by
  intro hmem
  rw [hw c hmem] at hc
  cases hc

/-- A character of a word is a letter of the word that is read, in capitals or not. -/
theorem exists_of_sameLetter {w word : PyStr}
    (h : List.Forall₂ (fun c d => sameLetter c d = true) w word) {d : ℕ} (hd : d ∈ word) :
    ∃ c ∈ w, sameLetter c d = true := by
  induction h with
  | nil => simp at hd
  | cons hcd _ ih =>
    rcases List.mem_cons.mp hd with rfl | hd
    · exact ⟨_, List.mem_cons_self, hcd⟩
    · obtain ⟨c, hc, hsame⟩ := ih hd
      exact ⟨c, List.mem_cons_of_mem _ hc, hsame⟩

theorem symbolCore_close (core E : PyStr) (h : SymbolCore core E) : 0x29 ∉ core := by
  obtain ⟨w, v, rfl, hw, -, hv, hE⟩ := h
  have hsymbol : 0x29 ∉ E := fun hmem => absurd (hE.isUpperTail _ hmem) (by decide)
  simp [py, not_mem_of_isSpace (show isSpace 0x29 = false by decide) hw,
    not_mem_of_isSpace (show isSpace 0x29 = false by decide) hv, hsymbol]

theorem numberCore_close (core digits : PyStr) (h : NumberCore core digits) : 0x29 ∉ core := by
  obtain ⟨w, v, word, rfl, hw, -, hv, hword, -, hdigits⟩ := h
  have hnumber : 0x29 ∉ digits := fun hmem => absurd (hdigits _ hmem) (by decide)
  have hletters : 0x29 ∉ word := by
    intro hmem
    obtain ⟨c, hc, hsame⟩ := exists_of_sameLetter hword hmem
    have hclear : ∀ c ∈ py "errno", sameLetter c 0x29 = false := by decide
    rw [hclear c hc] at hsame
    cases hsame
  simp [py, not_mem_of_isSpace (show isSpace 0x29 = false by decide) hw,
    not_mem_of_isSpace (show isSpace 0x29 = false by decide) hv, hletters, hnumber]

theorem search_symbol (t : TraceLine) : search qemuErrnoSymbolRe t.text =
    (search qemuErrnoSymbolRe (t.args ++ py ")")).or
      (search qemuErrnoSymbolRe (py "=" ++ (py " " ++ t.result))) :=
  search_text symbolCore_close first_qemuErrnoSymbolRe
    (by rintro core E ⟨w, v, rfl, -⟩; exact ⟨_, rfl⟩) t

theorem search_number (t : TraceLine) : search qemuErrnoNumberRe t.text =
    (search qemuErrnoNumberRe (t.args ++ py ")")).or
      (search qemuErrnoNumberRe (py "=" ++ (py " " ++ t.result))) :=
  search_text numberCore_close first_qemuErrnoNumberRe
    (by rintro core digits ⟨w, v, word, rfl, -⟩; exact ⟨_, rfl⟩) t

/-! ### The symbol of a line -/

/-- The arguments with the parenthesis that closes them. -/
def TraceLine.argsText (t : TraceLine) : PyStr := t.args ++ py ")"

/-- The result with the sign before it. -/
def TraceLine.resultText (t : TraceLine) : PyStr := py "=" ++ (py " " ++ t.result)

/-- The symbol that stands for a numbered error is found: in the arguments first, then in the result,
and only then by its number. -/
inductive NumberedClear (table : ErrorTable) (t : TraceLine) (digits : PyStr) : Prop
  | symbolArgs
      (found : Leftmost SymbolText t.argsText (table.name (Json.digitsValue digits)))
  | symbolResult
      (clearArgs : ∀ E, ¬ Leftmost SymbolText t.argsText E)
      (found : Leftmost SymbolText t.resultText (table.name (Json.digitsValue digits)))
  | numberArgs (digits' : PyStr)
      (clearArgs : ∀ E, ¬ Leftmost SymbolText t.argsText E)
      (clearResult : ∀ E, ¬ Leftmost SymbolText t.resultText E)
      (found : Leftmost NumberText t.argsText digits')
      (short : digits'.length ≤ maxStrDigits)
      (same : table.name (decimalValue (digits'.map decimalDigit)) =
        table.name (Json.digitsValue digits))
  | numberResult
      (clearArgs : ∀ E, ¬ Leftmost SymbolText t.argsText E)
      (clearResult : ∀ E, ¬ Leftmost SymbolText t.resultText E)
      (clearNumber : ∀ digits', ¬ Leftmost NumberText t.argsText digits')
      (short : digits.length ≤ maxStrDigits)

/-- The symbol that is found in a line is the one that its result stands for. -/
inductive QemuErrnoClear (table : ErrorTable) (t : TraceLine) : Prop
  | failure (E : PyStr) (result : IsFailure t.result E)
      (first : ∀ E', Leftmost SymbolText t.argsText E' → E' = E)
  | numbered (digits : PyStr) (result : IsNumbered t.result digits)
      (clear : NumberedClear table t digits)
  | success (result : ∀ E, ¬ QemuFails table t E)
      (clearArgs : ∀ E, ¬ Leftmost SymbolText t.argsText E)
      (clearResult : ∀ E, ¬ Leftmost SymbolText t.resultText E)
      (clearNumber : ∀ digits, ¬ Leftmost NumberText t.argsText digits)
      (clearNumberResult : ∀ digits, ¬ Leftmost NumberText t.resultText digits)

theorem IsFailure.leftmost {t : TraceLine} {E : PyStr} (h : IsFailure t.result E) :
    Leftmost SymbolText t.resultText E := by
  obtain ⟨hE, text, hresult⟩ := h
  refine ⟨[], t.resultText, rfl, ?_, fun _ _ _ _ hlen => absurd hlen (Nat.not_lt_zero _)⟩
  refine ⟨py "=" ++ (py " " ++ (py "-1" ++ (py " " ++ E))), py " (" ++ text ++ py ")", ?_,
    ⟨py " ", py " ", rfl, by decide, by decide, by decide, hE⟩, ?_⟩
  · simp [TraceLine.resultText, hresult]
  · rintro c u hcu
    obtain ⟨rfl, -⟩ := List.cons.inj hcu
    exact .inl (by decide)

theorem IsNumbered.leftmost {t : TraceLine} {digits : PyStr} (h : IsNumbered t.result digits) :
    Leftmost NumberText t.resultText digits := by
  obtain ⟨hne, hdigits, tail, htail, hresult⟩ := h
  refine ⟨[], t.resultText, rfl, ?_, fun _ _ _ _ hlen => absurd hlen (Nat.not_lt_zero _)⟩
  refine ⟨py "=" ++ (py " " ++ (py "-1" ++ (py " " ++ (py "errno" ++ (py "=" ++ digits))))), tail, ?_,
    ⟨py " ", py " ", py "errno", rfl, by decide, by decide, by decide, ?_, hne,
      fun c hc => isDecimal_of_isDigit (hdigits c hc)⟩, ?_⟩
  · simp [TraceLine.resultText, hresult]
  · exact List.forall₂_same.mpr (by decide)
  · rcases htail with rfl | ⟨text, rfl⟩
    · exact nofun
    · rintro c u hcu
      obtain ⟨rfl, -⟩ := List.cons.inj hcu
      exact .inl (by decide)

/-- A symbol is in capitals, and `errno` is not. -/
theorem IsFailure.not_isNumbered {result E digits : PyStr} (h : IsFailure result E) :
    ¬ IsNumbered result digits := by
  rintro ⟨-, -, tail, -, hresult⟩
  obtain ⟨⟨head, rest, rfl, hhead, -⟩, text, hfailure⟩ := h
  have hsame := List.append_cancel_left (List.append_cancel_left (hfailure.symm.trans hresult))
  obtain ⟨rfl, -⟩ := List.cons.inj hsame
  exact absurd hhead (by decide)

section

variable {table : ErrorTable} {t : TraceLine}

theorem search_symbol_iff {s E : PyStr} :
    search qemuErrnoSymbolRe s = some E ↔ Leftmost SymbolText s E :=
  search_eq_some_iff_leftmost first_qemuErrnoSymbolRe

theorem search_symbol_none {s : PyStr} :
    search qemuErrnoSymbolRe s = none ↔ ∀ E, ¬ Leftmost SymbolText s E :=
  search_eq_none_iff_leftmost first_qemuErrnoSymbolRe

theorem search_number_iff {s digits : PyStr} :
    search qemuErrnoNumberRe s = some digits ↔ Leftmost NumberText s digits :=
  search_eq_some_iff_leftmost first_qemuErrnoNumberRe

theorem search_number_none {s : PyStr} :
    search qemuErrnoNumberRe s = none ↔ ∀ digits, ¬ Leftmost NumberText s digits :=
  search_eq_none_iff_leftmost first_qemuErrnoNumberRe

theorem qemuFails_of_failure {E : PyStr} (h : IsFailure t.result E) (E' : PyStr) :
    QemuFails table t E' ↔ E' = E := by
  constructor
  · rintro (h' | ⟨digits, hnumbered, -⟩)
    · have hfound := search_symbol_iff.mpr h'.leftmost
      rw [search_symbol_iff.mpr h.leftmost] at hfound
      exact (Option.some.inj hfound).symm
    · exact absurd hnumbered h.not_isNumbered
  · rintro rfl
    exact .inl h

theorem qemuFails_of_numbered {digits : PyStr} (h : IsNumbered t.result digits) (E : PyStr) :
    QemuFails table t E ↔ E = table.name (Json.digitsValue digits) := by
  constructor
  · rintro (hfailure | ⟨digits', hnumbered, rfl⟩)
    · exact absurd h hfailure.not_isNumbered
    · have hfound := search_number_iff.mpr hnumbered.leftmost
      rw [search_number_iff.mpr h.leftmost] at hfound
      rw [Option.some.inj hfound]
  · rintro rfl
    exact .inr ⟨digits, h, rfl⟩

/-- What is found in a line, told apart into its arguments and its result. -/
theorem extractQemuErrno_text :
    extractQemuErrno table t.text =
      match (search qemuErrnoSymbolRe t.argsText).or (search qemuErrnoSymbolRe t.resultText) with
      | some symbol => .ok (some symbol)
      | none =>
        match (search qemuErrnoNumberRe t.argsText).or (search qemuErrnoNumberRe t.resultText) with
        | some digits => do
          let code ← intOrRaise digits
          pure (some (table.name code.toNat))
        | none => .ok none := by
  rw [extractQemuErrno, search_symbol, search_number]
  rfl

/-- A number is read when it is not too long. -/
theorem numberName_eq_ok {digits : PyStr} {s : PyStr} (h : Leftmost NumberText s digits)
    {o : Option PyStr} :
    (do
      let code ← intOrRaise digits
      pure (some (table.name code.toNat)) : Except PyError (Option PyStr)) = .ok o ↔
      digits.length ≤ maxStrDigits ∧ o = some (table.name (decimalValue (digits.map decimalDigit))) := by
  obtain ⟨before, rest, -, ⟨core, tail, -, ⟨w, v, word, -, -, -, -, -, hne, hdecimal⟩, -⟩, -⟩ := h
  rw [intOrRaise, pyInt_of_isDecimal hne hdecimal]
  by_cases hlength : digits.length ≤ maxStrDigits
  · simp only [hlength, true_and]
    change Except.ok (some (table.name (Int.toNat (Int.ofNat _)))) = _ ↔ _
    rw [Except.ok.injEq, eq_comm]
    rfl
  · simp only [hlength, false_and, iff_false]
    intro h
    cases h

/-- What is found for a line whose result stands for one symbol. -/
theorem errnoFound_iff {E : PyStr} (hE : ∀ E', QemuFails table t E' ↔ E' = E) :
    (∃ o, extractQemuErrno table t.text = .ok o ∧ ∀ E', o = some E' ↔ QemuFails table t E') ↔
      extractQemuErrno table t.text = .ok (some E) := by
  constructor
  · rintro ⟨o, ho, hfails⟩
    rw [ho, (hfails E).mpr ((hE E).mpr rfl)]
  · intro h
    refine ⟨some E, h, fun E' => ?_⟩
    rw [hE, Option.some.injEq, eq_comm]

theorem errnoFound_failure {E : PyStr} (h : IsFailure t.result E) :
    extractQemuErrno table t.text = .ok (some E) ↔
      ∀ E', Leftmost SymbolText t.argsText E' → E' = E := by
  rw [extractQemuErrno_text, search_symbol_iff.mpr h.leftmost]
  cases hargs : search qemuErrnoSymbolRe t.argsText with
  | none => exact iff_of_true rfl fun E' hE' => absurd hE' (search_symbol_none.mp hargs E')
  | some E' =>
    have hfound := search_symbol_iff.mp hargs
    constructor
    · intro hsame E'' hE''
      rw [← search_symbol_iff, hargs] at hE''
      rw [← Option.some.inj hE'']
      exact Option.some.inj (Except.ok.inj hsame)
    · intro hfirst
      rw [hfirst E' hfound]
      rfl

theorem errnoFound_numbered {digits : PyStr} (h : IsNumbered t.result digits) :
    extractQemuErrno table t.text = .ok (some (table.name (Json.digitsValue digits))) ↔
      NumberedClear table t digits := by
  rw [extractQemuErrno_text, search_number_iff.mpr h.leftmost]
  cases hargs : search qemuErrnoSymbolRe t.argsText with
  | some E =>
    constructor
    · intro hsame
      have hE : E = _ := Option.some.inj (Except.ok.inj hsame)
      exact .symbolArgs (hE ▸ search_symbol_iff.mp hargs)
    · rintro (hfound | ⟨hclear, -⟩ | ⟨-, hclear, -, -, -, -⟩ | ⟨hclear, -⟩)
      · rw [search_symbol_iff.mpr hfound] at hargs
        rw [← Option.some.inj hargs]
        rfl
      all_goals exact absurd (search_symbol_iff.mp hargs) (hclear E)
  | none =>
    have hclear := search_symbol_none.mp hargs
    cases hresult : search qemuErrnoSymbolRe t.resultText with
    | some E =>
      constructor
      · intro hsame
        have hE : E = _ := Option.some.inj (Except.ok.inj hsame)
        exact .symbolResult hclear (hE ▸ search_symbol_iff.mp hresult)
      · rintro (hfound | ⟨-, hfound⟩ | ⟨-, -, hnone, -, -, -⟩ | ⟨-, hnone, -, -⟩)
        · exact absurd hfound (hclear _)
        · rw [search_symbol_iff.mpr hfound] at hresult
          rw [← Option.some.inj hresult]
          rfl
        all_goals exact absurd (search_symbol_iff.mp hresult) (hnone E)
    | none =>
      have hclear' := search_symbol_none.mp hresult
      cases hnumber : search qemuErrnoNumberRe t.argsText with
      | some digits' =>
        have hfound := search_number_iff.mp hnumber
        rw [Option.none_or, Option.some_or]
        refine (numberName_eq_ok hfound).trans ?_
        rw [Option.some.injEq]
        constructor
        · rintro ⟨hshort, hsame⟩
          exact .numberArgs digits' hclear hclear' hfound hshort hsame.symm
        · rintro (hother | ⟨-, hother⟩ | ⟨ds, -, -, hother, hshort, hsame⟩ | ⟨-, -, hnone, -⟩)
          · exact absurd hother (hclear _)
          · exact absurd hother (hclear' _)
          · rw [search_number_iff.mpr hother] at hnumber
            obtain rfl := Option.some.inj hnumber
            exact ⟨hshort, hsame.symm⟩
          · exact absurd hfound (hnone digits')
      | none =>
        have hclearNumber := search_number_none.mp hnumber
        rw [Option.none_or, Option.none_or]
        refine (numberName_eq_ok h.leftmost).trans ?_
        rw [decimalValue_map h.2.1]
        constructor
        · rintro ⟨hshort, -⟩
          exact .numberResult hclear hclear' hclearNumber hshort
        · rintro (hother | ⟨-, hother⟩ | ⟨ds, -, -, hother, -, -⟩ | ⟨-, -, -, hshort⟩)
          · exact absurd hother (hclear _)
          · exact absurd hother (hclear' _)
          · exact absurd hother (hclearNumber ds)
          · exact ⟨hshort, rfl⟩

theorem errnoFound_success (h : ∀ E, ¬ QemuFails table t E) :
    (∃ o, extractQemuErrno table t.text = .ok o ∧ ∀ E, o = some E ↔ QemuFails table t E) ↔
      (∀ E, ¬ Leftmost SymbolText t.argsText E) ∧ (∀ E, ¬ Leftmost SymbolText t.resultText E) ∧
      (∀ digits, ¬ Leftmost NumberText t.argsText digits) ∧
      ∀ digits, ¬ Leftmost NumberText t.resultText digits := by
  rw [← search_symbol_none, ← search_symbol_none, ← search_number_none, ← search_number_none,
    extractQemuErrno_text]
  constructor
  · rintro ⟨o, ho, hfails⟩
    have hnone : o = none := Option.eq_none_iff_forall_ne_some.mpr fun E hE => h E ((hfails E).mp hE)
    rw [hnone] at ho
    split at ho
    · cases ho
    · rename_i hsymbol
      split at ho
      · rename_i digits hdigits
        obtain ⟨code, -, hcode⟩ := bind_eq_ok.mp ho
        cases hcode
      · rename_i hnumber
        rw [Option.or_eq_none_iff] at hsymbol hnumber
        exact ⟨hsymbol.1, hsymbol.2, hnumber.1, hnumber.2⟩
  · rintro ⟨hsymbolArgs, hsymbolResult, hnumberArgs, hnumberResult⟩
    rw [hsymbolArgs, hsymbolResult, hnumberArgs, hnumberResult]
    exact ⟨none, rfl, fun E => ⟨nofun, fun hE => absurd hE (h E)⟩⟩

/-- The symbol that is found in a line is the one that its result stands for, exactly when no text in
the arguments or in the result comes before it. -/
theorem qemuErrno_iff (table : ErrorTable) (t : TraceLine) :
    (∃ o, extractQemuErrno table t.text = .ok o ∧ ∀ E, o = some E ↔ QemuFails table t E) ↔
      QemuErrnoClear table t := by
  constructor
  · intro h
    by_cases hfailure : ∃ E, IsFailure t.result E
    · obtain ⟨E, hE⟩ := hfailure
      exact .failure E hE
        ((errnoFound_failure hE).mp ((errnoFound_iff (qemuFails_of_failure hE)).mp h))
    by_cases hnumbered : ∃ digits, IsNumbered t.result digits
    · obtain ⟨digits, hdigits⟩ := hnumbered
      exact .numbered digits hdigits
        ((errnoFound_numbered hdigits).mp ((errnoFound_iff (qemuFails_of_numbered hdigits)).mp h))
    · have hnone : ∀ E, ¬ QemuFails table t E := by
        rintro E (hE | ⟨digits, hdigits, -⟩)
        · exact hfailure ⟨E, hE⟩
        · exact hnumbered ⟨digits, hdigits⟩
      obtain ⟨hsymbol, hsymbol', hnumber, hnumber'⟩ := (errnoFound_success hnone).mp h
      exact .success hnone hsymbol hsymbol' hnumber hnumber'
  · rintro (⟨E, hE, hfirst⟩ | ⟨digits, hdigits, hclear⟩ | ⟨hnone, hsymbol, hsymbol', hnumber, hnumber'⟩)
    · exact (errnoFound_iff (qemuFails_of_failure hE)).mpr ((errnoFound_failure hE).mpr hfirst)
    · exact (errnoFound_iff (qemuFails_of_numbered hdigits)).mpr
        ((errnoFound_numbered hdigits).mpr hclear)
    · exact (errnoFound_success hnone).mpr ⟨hsymbol, hsymbol', hnumber, hnumber'⟩

end

-- A text in a quoted path comes before the result.
example : extractQemuErrno ⟨fun _ => none, nofun⟩ (py "open(\"= -1 EIO (\", 0) = -1 ENOENT (No)") =
    .ok (some (py "EIO")) := by decide

/-! ### The QEMU parser -/

theorem ErrorTable.name_ne_nil' (table : ErrorTable) (code : ℕ) : table.name code ≠ [] := by
  unfold ErrorTable.name
  cases hname : table.errorcode code with
  | none => exact List.append_ne_nil_of_left_ne_nil (by decide) _
  | some name => exact table.name_ne_nil code name hname

/-- What is found in a line is a name. -/
theorem extractQemuErrno_ne_nil {table : ErrorTable} {line : PyStr} {o : Option PyStr}
    (h : extractQemuErrno table line = .ok o) : o ≠ some [] := by
  rintro rfl
  unfold extractQemuErrno at h
  split at h
  · rename_i symbol hsymbol
    obtain ⟨before, rest, -, ⟨core, tail, -, ⟨w, v, -, -, -, -, hname⟩, -⟩, -⟩ :=
      search_symbol_iff.mp hsymbol
    exact hname.ne_nil (Option.some.inj (Except.ok.inj h))
  · split at h
    · obtain ⟨code, -, hcode⟩ := bind_eq_ok.mp h
      exact table.name_ne_nil' _ (Option.some.inj (Except.ok.inj hcode))
    · cases h

/-- A payload is an event with an error of its own. -/
theorem qemuPayload_event {table : ErrorTable} {targetArch : PyStr} {x : SyscallEvent × PyStr}
    {p : QemuPayload} (h : qemuPayload table targetArch x = .ok p) :
    ∃ errno, p.event = { x.1 with errno := errno } := by
  obtain ⟨errno, -, h⟩ := bind_eq_ok.mp h
  obtain rfl := Except.ok.inj h
  exact ⟨errno, rfl⟩

/-- An event without an error takes the one that is found in its line. -/
theorem filledErrno_of_none {table : ErrorTable} {line : PyStr} {e : SyscallEvent}
    (he : e.errno = none) : filledErrno table e line = extractQemuErrno table line := by
  rw [filledErrno, he, if_pos (by rfl)]
  cases ho : extractQemuErrno table line with
  | error x => rfl
  | ok o =>
    cases o with
    | none => rfl
    | some E =>
      have hE : E ≠ [] := fun hnil => extractQemuErrno_ne_nil ho (by rw [hnil])
      simp [Except.map, hE]

theorem qemuPayload_eq_ok {table : ErrorTable} {targetArch line : PyStr} {e : SyscallEvent}
    (he : e.errno = none) {p : QemuPayload} :
    qemuPayload table targetArch (e, line) = .ok p ↔ ∃ o, extractQemuErrno table line = .ok o ∧
      p = ⟨{ e with errno := o }, py "qemu_strace", targetArch⟩ := by
  rw [qemuPayload, filledErrno_of_none he]
  constructor
  · intro h
    obtain ⟨o, ho, h⟩ := bind_eq_ok.mp h
    exact ⟨o, ho, (Except.ok.inj h).symm⟩
  · rintro ⟨o, ho, rfl⟩
    rw [ho]
    rfl

section

variable {literalEval : PyStr → Option PyStr} {table : ErrorTable} {sourceFile targetArch : PyStr}

/-- A trace is read part by part. -/
theorem qemuLoop_append (lines more : List PyStr) (number : ℕ) :
    qemuLoop literalEval sourceFile (lines ++ more) number = (do
      let events ← qemuLoop literalEval sourceFile lines number
      let events' ← qemuLoop literalEval sourceFile more (number + lines.length)
      pure (events ++ events')) := by
  induction lines generalizing number with
  | nil =>
    change _ = (do
      let events' ← qemuLoop literalEval sourceFile more number
      pure ([] ++ events'))
    simp only [List.nil_append, bind_pure]
  | cons line lines ih =>
    rw [List.cons_append, qemuLoop, qemuLoop]
    have hnumber : number + 1 + lines.length = number + (lines.length + 1) := by omega
    simp only [ih, hnumber, List.length_cons]
    split
    · rfl
    · simp only [bind_assoc, pure_bind, List.append_assoc]

theorem qemuLoop_oneLine {lines : List PyStr}
    (hlines : ∀ line ∈ lines, ∀ c ∈ line, isLineBreak c = false) {number : ℕ}
    {events : List (SyscallEvent × PyStr)}
    (h : qemuLoop literalEval sourceFile lines number = .ok events) :
    ∀ x ∈ events, ∀ c ∈ x.1.args, isLineBreak c = false := by
  induction lines generalizing number events with
  | nil =>
    obtain rfl := Except.ok.inj h
    simp
  | cons line lines ih =>
    obtain ⟨hline, hlines⟩ := List.forall_mem_cons.mp hlines
    rw [qemuLoop] at h
    split at h
    · exact ih hlines h
    · obtain ⟨parsed, hparsed, h⟩ := bind_eq_ok.mp h
      obtain ⟨later, hlater, h⟩ := bind_eq_ok.mp h
      obtain rfl := Except.ok.inj h
      intro x hx
      rcases List.mem_append.mp hx with hx | hx
      · obtain ⟨e, he, rfl⟩ := List.mem_map.mp hx
        obtain rfl : parsed = some e := Option.mem_toList.mp he
        intro c hc
        exact hline c (strip_subset line (parseStraceLine_args hparsed hc))
      · exact ih hlines hlater x hx

/-- The line of a system call, when it is not passed over. -/
theorem qemuLoop_text {t : TraceLine} (hskips : ¬ qemuSkips t.text) {number : ℕ}
    {x : SyscallEvent × PyStr} :
    qemuLoop literalEval sourceFile [t.text] number = .ok [x] ↔
      parseStraceLine literalEval t.text ⟨sourceFile, number, .guest⟩ = .ok (some x.1) ∧
        x.2 = t.text := by
  rw [qemuLoop]
  simp only [t.strip_text, if_neg hskips]
  constructor
  · intro h
    obtain ⟨parsed, hparsed, h⟩ := bind_eq_ok.mp h
    obtain ⟨later, hlater, h⟩ := bind_eq_ok.mp h
    obtain rfl := Except.ok.inj hlater
    have hevents := Except.ok.inj h
    rw [hparsed]
    cases parsed with
    | none => cases hevents
    | some e =>
      obtain ⟨rfl, -⟩ := List.cons.inj hevents
      exact ⟨rfl, rfl⟩
  · rintro ⟨hparsed, hline⟩
    obtain ⟨e, line⟩ := x
    obtain rfl : line = t.text := hline
    rw [hparsed]
    rfl

/-- One payload is written for one event. -/
theorem qemuPayloads_eq_ok {lines : List PyStr} {number : ℕ} {p : QemuPayload} :
    qemuPayloads literalEval table sourceFile targetArch lines number = .ok [p] ↔
      ∃ x, qemuLoop literalEval sourceFile lines number = .ok [x] ∧
        qemuPayload table targetArch x = .ok p := by
  constructor
  · intro h
    obtain ⟨events, hevents, h⟩ := bind_eq_ok.mp h
    cases events with
    | nil => cases h
    | cons x events =>
      rw [List.mapM_cons] at h
      obtain ⟨p', hp', h⟩ := bind_eq_ok.mp h
      obtain ⟨later, hlater, h⟩ := bind_eq_ok.mp h
      obtain ⟨rfl, rfl⟩ := List.cons.inj (Except.ok.inj h)
      cases events with
      | nil => exact ⟨x, hevents, hp'⟩
      | cons y events =>
        rw [List.mapM_cons] at hlater
        obtain ⟨p'', -, hlater⟩ := bind_eq_ok.mp hlater
        obtain ⟨more, -, hlater⟩ := bind_eq_ok.mp hlater
        cases hlater
  · rintro ⟨x, hx, hp⟩
    rw [qemuPayloads, hx]
    change List.mapM (qemuPayload table targetArch) [x] = _
    rw [List.mapM_cons, hp]
    rfl

end

/-- The QEMU parser writes one payload for a line, and it tells what the line says. -/
def QemuReads (literalEval : PyStr → Option PyStr) (table : ErrorTable)
    (sourceFile targetArch : PyStr) (number : ℕ) (t : TraceLine) : Prop :=
  ∃ p, qemuPayloads literalEval table sourceFile targetArch (splitlines t.text) number = .ok [p] ∧
    Tells t (QemuFails table t) p.event

/-- The lines that the QEMU parser reads as the tracer wrote them. -/
structure QemuClear (table : ErrorTable) (t : TraceLine) : Prop where
  finished : ¬ py "<unfinished ...>" <:+: t.text
  notResumed : ¬ (py "<... " <:+: t.text ∧ py " resumed>" <:+: t.text)
  oneLine : ∀ c ∈ t.args, isLineBreak c = false
  delimited : ¬ Separated t.result
  ports : PortsReadable t.args
  value : ReadableValue t.result
  errno : QemuErrnoClear table t

/-- What an event tells once its error is filled in. -/
theorem ReadAs.tells_iff {t : TraceLine} {position : LinePosition} {e : SyscallEvent}
    {Fails : PyStr → Prop} (h : ReadAs t position e) {o : Option PyStr} (ho : o ≠ some []) :
    Tells t Fails { e with errno := o } ↔ (∀ E, o = some E ↔ Fails E) ∧ ReadableValue t.result :=
  TaintForge.tells_iff (e := { e with errno := o }) h.event h.syscall h.args h.returnValue ho

theorem qemuReads_iff (literalEval : PyStr → Option PyStr) (table : ErrorTable)
    (sourceFile targetArch : PyStr) (number : ℕ) (t : TraceLine) :
    QemuReads literalEval table sourceFile targetArch number t ↔ QemuClear table t := by
  constructor
  · rintro ⟨p, hp, htells⟩
    obtain ⟨⟨e, line⟩, hloop, hpayload⟩ := qemuPayloads_eq_ok.mp hp
    obtain ⟨errno, hevent⟩ := qemuPayload_event hpayload
    have hsame : e.args = t.args := by rw [← htells.args, hevent]
    have hargs : ∀ c ∈ t.args, isLineBreak c = false := by
      rw [← hsame]
      apply qemuLoop_oneLine _ hloop (e, line) List.mem_cons_self
      intro line hline c hc
      exact (mem_of_mem_splitlines hline c hc).2
    rw [splitlines_of_not_mem t.text_ne_nil (t.text_oneLine hargs)] at hloop
    have hskips : ¬ qemuSkips t.text := by
      intro hskips
      rw [qemuLoop] at hloop
      simp only [t.strip_text, if_pos hskips, qemuLoop, Except.ok.injEq] at hloop
      cases hloop
    obtain ⟨hline, rfl⟩ := (qemuLoop_text hskips).mp hloop
    obtain ⟨hsep, hports, hread⟩ := parseStraceLine_text hargs hline hsame
    obtain ⟨o, ho, rfl⟩ := (qemuPayload_eq_ok hread.errno).mp hpayload
    obtain ⟨hfails, hvalue⟩ := (hread.tells_iff (extractQemuErrno_ne_nil ho)).mp htells
    refine ⟨?_, ?_, hargs, hsep, hports, hvalue, (qemuErrno_iff table t).mp ⟨o, ho, hfails⟩⟩
    · exact fun h => hskips (.inr (.inl h))
    · exact fun h => hskips (.inr (.inr h))
  · intro h
    have hskips : ¬ qemuSkips t.text := by
      rintro (hnil | hunfinished | hresumed)
      · exact t.text_ne_nil hnil
      · exact h.finished hunfinished
      · exact h.notResumed hresumed
    obtain ⟨e, he, hread⟩ := exists_parseStraceLine_text literalEval h.oneLine h.delimited h.ports
      ⟨sourceFile, number, .guest⟩
    obtain ⟨o, ho, hfails⟩ := (qemuErrno_iff table t).mpr h.errno
    have hloop : qemuLoop literalEval sourceFile (splitlines t.text) number = .ok [(e, t.text)] := by
      rw [splitlines_of_not_mem t.text_ne_nil (t.text_oneLine h.oneLine)]
      exact (qemuLoop_text hskips).mpr ⟨he, rfl⟩
    have hpayload : qemuPayload table targetArch (e, t.text) = .ok _ :=
      (qemuPayload_eq_ok hread.errno).mpr ⟨o, ho, rfl⟩
    refine ⟨_, qemuPayloads_eq_ok.mpr ⟨_, hloop, hpayload⟩, ?_⟩
    exact (hread.tells_iff (extractQemuErrno_ne_nil ho)).mpr ⟨hfails, h.value⟩

/-! ### Both parsers -/

/-- Each parser reads a line as the tracer wrote it, in whatever place of a file it stands, exactly
when nothing in the line misleads it; the native parser never reads a failure so. -/
theorem traceLine_reads_iff (literalEval : PyStr → Option PyStr) (table : ErrorTable)
    (sourceFile targetArch : PyStr) (number : ℕ) (context : ExecutionContext) (t : TraceLine) :
    (StraceReads literalEval sourceFile number context t ↔ StraceClear t) ∧
      (QemuReads literalEval table sourceFile targetArch number t ↔ QemuClear table t) :=
  ⟨straceReads_iff literalEval sourceFile number context t,
    qemuReads_iff literalEval table sourceFile targetArch number t⟩

/-- `openat(AT_FDCWD, "/etc/config", O_RDONLY) = -1 ENOENT (No such file or directory)` -/
def failedOpenat : TraceLine where
  name := py "openat"
  args := py "AT_FDCWD, \"/etc/config\", O_RDONLY"
  padding := 0
  result := py "-1 ENOENT (No such file or directory)"
  name_isName := ⟨0x6F, py "penat", rfl, by decide, by decide⟩
  result_ne_nil := by decide
  result_head := by decide
  result_last := by decide
  result_oneLine := by decide

/-- The native parser reads a failed system call as one that returns -1 without an error. -/
theorem failedOpenat_lost :
    IsFailure failedOpenat.result (py "ENOENT") ∧
      (straceLoop (fun _ => none) (py "strace.log") (splitlines failedOpenat.text) 1 .guest).map
        (fun x => x.1.map fun e => (e.syscall, e.returnValue, e.errno)) =
          .ok [(py "openat", some (-1), none)] ∧
      ¬ StraceReads (fun _ => none) (py "strace.log") 1 .guest failedOpenat := by
  have hfails : IsFailure failedOpenat.result (py "ENOENT") :=
    ⟨⟨0x45, py "NOENT", rfl, by decide, by decide, by decide⟩, py "No such file or directory", rfl⟩
  refine ⟨hfails, by decide +kernel, ?_⟩
  intro hreads
  exact ((straceReads_iff _ _ _ _ _).mp hreads).successful _ hfails

end TaintForge
