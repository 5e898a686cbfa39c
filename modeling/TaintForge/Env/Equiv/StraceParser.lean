import TaintForge.Env.TraceLine
import TaintForge.Lib.Except

/-!
# The native parser on a line of the tracer

A greedy `.*` gives the arguments everything up to the last separator of the line, so the arguments
come out as they are exactly when no separator follows in the result.  The result is then read by its
first word alone.

* `first_syscallRe`, `first_syscallRe_separated`: what `SYSCALL_RE` makes of a line.
* `parseResult_eq`: a result is read by its first word, and no symbol is ever found in it.
* `returnValue_iff`: when the first word is the number that the result begins with.
* `straceLoop_append`: a log is read part by part.
-/

namespace TaintForge

open Matcher PyStr

/-! ### Characters -/

theorem isDecimal_of_isDigit {c : ℕ} (h : Json.isDigit c = true) : isDecimal c = true := by
  simp only [Json.isDigit, Bool.and_eq_true, decide_eq_true_eq] at h
  simp only [isDecimal, decimalZeros, List.any_cons, Bool.or_eq_true, Bool.and_eq_true,
    decide_eq_true_eq]
  left
  omega

theorem decimalDigit_of_isDigit {c : ℕ} (h : Json.isDigit c = true) :
    decimalDigit c = c - 0x30 := by
  have hvalue : ∀ c < 0x3A, Json.isDigit c = true → decimalDigit c = c - 0x30 := by decide
  apply hvalue c ?_ h
  simp only [Json.isDigit, Bool.and_eq_true, decide_eq_true_eq] at h
  omega

theorem isSpace_of_isDecimal {c : ℕ} (h : isDecimal c = true) : isSpace c = false := by
  obtain ⟨start, hstart, hc⟩ := List.any_eq_true.mp h
  simp only [Bool.and_eq_true, decide_eq_true_eq] at hc
  -- no run of digits holds a space
  have hclear : ∀ start ∈ decimalZeros, ∀ i < 10, isSpace (start + i) = false := by decide
  have hi := hclear start hstart (c - start) (by omega)
  rwa [Nat.add_sub_cancel' hc.1] at hi

theorem not_isDecimal_of_lt {c : ℕ} (h : c < 0x30) : isDecimal c = false := by
  have hclear : ∀ c < 0x30, isDecimal c = false := by decide
  exact hclear c h

theorem isNameHead_bounds {c : ℕ} (h : isNameHead c = true) :
    (0x61 ≤ c ∧ c ≤ 0x7A) ∨ (0x41 ≤ c ∧ c ≤ 0x5A) ∨ c = 0x5F := by
  simp only [isNameHead, Bool.or_eq_true, Bool.and_eq_true, decide_eq_true_eq, beq_iff_eq] at h
  tauto

theorem isNameTail_bounds {c : ℕ} (h : isNameTail c = true) :
    (0x61 ≤ c ∧ c ≤ 0x7A) ∨ (0x41 ≤ c ∧ c ≤ 0x5A) ∨ c = 0x5F ∨ (0x30 ≤ c ∧ c ≤ 0x39) := by
  simp only [isNameTail, Bool.or_eq_true, Json.isDigit, Bool.and_eq_true, decide_eq_true_eq] at h
  rcases h with h | h
  · have hhead := isNameHead_bounds h
    tauto
  · tauto

theorem isSpace_of_isNameHead {c : ℕ} (h : isNameHead c = true) : isSpace c = false := by
  have hclear : ∀ c < 0x80, isNameHead c = true → isSpace c = false := by decide
  have hbounds := isNameHead_bounds h
  exact hclear c (by omega) h

theorem isDecimal_of_isNameHead {c : ℕ} (h : isNameHead c = true) : isDecimal c = false := by
  have hclear : ∀ c < 0x80, isNameHead c = true → isDecimal c = false := by decide
  have hbounds := isNameHead_bounds h
  exact hclear c (by omega) h

theorem isDot_of_not_isLineBreak {c : ℕ} (h : isLineBreak c = false) : isDot c = true := by
  by_contra hdot
  simp only [isDot, bne_iff_ne, ne_eq, not_not] at hdot
  rw [hdot] at h
  exact absurd h (by decide)

/-! ### Where a line is cut -/

/-- A text on one line that ends in no white space is the whole result. -/
theorem first_resultRe {result : PyStr} (pid : Option PyStr) (name args : PyStr)
    (hne : result ≠ []) (hdot : ∀ c ∈ result, isDot c = true)
    (hlast : ∀ c ∈ result.getLast?, isSpace c = false) :
    first (resultRe pid name args) result = some ⟨pid, name, args, result⟩ := by
  obtain ⟨c, s, rfl⟩ := List.exists_cons_of_ne_nil hne
  obtain ⟨hc, hs⟩ := List.forall_mem_cons.mp hdot
  simp only [resultRe, lazyMany1, bind_assoc, pure_bind]
  rw [first_bind_of_eq (char_of_pos hc s), first_lazyMany_bind_of_end hs]
  · rfl
  · -- what is left after a shorter run does not end in white space
    rintro w d u rfl
    rw [first_eq_none, List.eq_nil_iff_forall_not_mem]
    rintro ⟨m, rest⟩ hmem
    obtain ⟨v, r, hv, hend⟩ := mem_bind.mp hmem
    obtain ⟨hdu, hv⟩ := mem_many.mp hv
    obtain ⟨ended, r', hr, -⟩ := mem_bind.mp hend
    have hspace : ∀ x ∈ d :: u, isSpace x = true := by
      intro x hx
      rw [hdu, List.mem_append] at hx
      rcases hx with hx | hx
      · exact hv x hx
      · simp only [textEnd] at hr
        split at hr
        · rename_i hrr
          rcases hrr with rfl | rfl
          · simp at hx
          · rw [List.mem_singleton.mp hx]
            decide
        · simp at hr
    have hlastmem : (c :: (w ++ d :: u)).getLast? = (d :: u).getLast? := by
      rw [← List.cons_append, List.getLast?_append_of_ne_nil _ (List.cons_ne_nil d u)]
    have hx := List.getLast_mem_getLast? (List.cons_ne_nil d u)
    have hclear := hlast _ (hlastmem ▸ hx)
    rw [hspace _ (List.getLast_mem _)] at hclear
    cases hclear

/-- A separator is found where one stands. -/
theorem first_separatorRe_ne_none {s : PyStr} (pid : Option PyStr) (name args : PyStr)
    (hdot : ∀ c ∈ s, isDot c = true) :
    first (separatorRe pid name args) s ≠ none ↔ SeparatorText s := by
  constructor
  · intro h
    obtain ⟨m, hm⟩ := Option.ne_none_iff_exists'.mp h
    obtain ⟨rest, hmem⟩ := mem_of_first hm
    simp only [separatorRe, mem_bind, mem_lit, mem_many1, resultRe, mem_lazyMany1] at hmem
    obtain ⟨-, s₁, rfl, w, s₂, ⟨rfl, hw, hwspace⟩, -, s₃, rfl, v, s₄, ⟨rfl, hv, hvspace⟩, x, s₅,
      ⟨rfl, hx, -⟩, -⟩ := hmem
    exact ⟨w, v, x ++ s₅, rfl, hw, hv, by simp [hx], hwspace, hvspace⟩
  · rintro ⟨w, v, x, rfl, hw, hv, hx, hwspace, hvspace⟩
    have hxdot : ∀ c ∈ x, isDot c = true := fun c hc => hdot c (by simp [hc])
    have hmem : (⟨pid, name, args, x⟩, []) ∈ separatorRe pid name args
        (py ")" ++ (w ++ (py "=" ++ (v ++ x)))) := by
      simp only [separatorRe, mem_bind, mem_lit, mem_many1, resultRe, mem_lazyMany1, mem_many]
      refine ⟨(), _, rfl, w, _, ⟨rfl, hw, hwspace⟩, (), _, rfl, v, x, ⟨rfl, hv, hvspace⟩, x, [],
        ⟨by simp, hx, hxdot⟩, [], [], ⟨rfl, by simp⟩, (), [], ?_, ?_⟩
      · simp [textEnd]
      · simp
    exact first_ne_none_of_mem hmem

/-- The separator that a match has found tells its arguments. -/
theorem separatorRe_args {s : PyStr} {pid : Option PyStr} {name args : PyStr} {m : SyscallMatch}
    (h : first (separatorRe pid name args) s = some m) : m.args = args := by
  obtain ⟨rest, hmem⟩ := mem_of_first h
  simp only [separatorRe, resultRe, mem_bind, mem_pure, Prod.mk.injEq] at hmem
  obtain ⟨-, -, -, -, -, -, -, -, -, -, -, -, -, -, -, -, -, -, -, -, -, rfl, -⟩ := hmem
  rfl

/-- A name hands over to the arguments. -/
theorem first_syscallRe_name {name : PyStr} (hname : IsName name) (s : PyStr) :
    first syscallRe (name ++ (py "(" ++ s)) = first (many isDot >>= separatorRe none name) s := by
  obtain ⟨head, tail, rfl, hhead, htail⟩ := hname
  have hspace : isSpace head = false := isSpace_of_isNameHead hhead
  have hdecimal : isDecimal head = false := isDecimal_of_isNameHead hhead
  have hpid : ∀ u, (do
      let pid ← many1 isDecimal
      let _ ← many1 isSpace
      pure pid : Matcher ℕ PyStr) (head :: u) = [] := by
    intro u
    rw [bind_apply, many1_of_neg hdecimal, List.flatMap_nil]
  rw [List.cons_append, syscallRe, first_bind_of_eq (many_of_neg hspace _),
    first_bind_of_eq (opt_of_nil (hpid _)), callRe, first_bind_of_eq (char_of_pos hhead _),
    first_many_bind_of_stop htail]
  · rw [argumentsRe, first_bind_of_eq (lit_append _ _)]
  · rintro c u hcu
    obtain ⟨rfl, -⟩ := List.cons.inj hcu
    decide
  · -- a parenthesis is no character of a name
    intro w c u hc
    rw [first_eq_none, argumentsRe, bind_apply]
    have hlit : lit (py "(") (c :: u) = [] := by
      apply List.eq_nil_iff_forall_not_mem.mpr
      rintro ⟨ended, rest⟩ hmem
      obtain ⟨rfl, -⟩ := List.cons.inj (mem_lit.mp hmem)
      exact absurd hc (by decide)
    rw [hlit, List.flatMap_nil]

namespace TraceLine

variable (t : TraceLine)

/-- The part of a line after its arguments. -/
def tail : PyStr :=
  py ")" ++ (List.replicate (t.padding + 1) 0x20 ++ (py "=" ++ (py " " ++ t.result)))

theorem text_eq : t.text = t.name ++ (py "(" ++ (t.args ++ t.tail)) := rfl

theorem isDot_result : ∀ c ∈ t.result, isDot c = true := fun c hc =>
  isDot_of_not_isLineBreak (t.result_oneLine c hc)

theorem tail_oneLine : ∀ c ∈ t.tail, isLineBreak c = false := by
  intro c hc
  simp only [tail, List.mem_append, List.mem_replicate] at hc
  rcases hc with hc | ⟨-, rfl⟩ | hc | hc | hc
  · rw [List.mem_singleton.mp hc]
    decide
  · decide
  · rw [List.mem_singleton.mp hc]
    decide
  · rw [List.mem_singleton.mp hc]
    decide
  · exact t.result_oneLine c hc

theorem name_oneLine : ∀ c ∈ t.name, isLineBreak c = false := by
  intro c hc
  obtain ⟨head, tail, hname, hhead, htail⟩ := t.name_isName
  have hc' : isNameTail c = true := by
    rw [hname, List.mem_cons] at hc
    rcases hc with rfl | hc
    · simp [isNameTail, hhead]
    · exact htail c hc
  have hclear : ∀ c < 0x80, isNameTail c = true → isLineBreak c = false := by decide
  have hbounds := isNameTail_bounds hc'
  exact hclear c (by omega) hc'

/-- A line is on one line when its arguments are. -/
theorem text_oneLine (hargs : ∀ c ∈ t.args, isLineBreak c = false) :
    ∀ c ∈ t.text, isLineBreak c = false := by
  intro c hc
  simp only [text_eq, List.mem_append] at hc
  rcases hc with hc | hc | hc | hc
  · exact t.name_oneLine c hc
  · rw [List.mem_singleton.mp hc]
    decide
  · exact hargs c hc
  · exact t.tail_oneLine c hc

theorem text_ne_nil : t.text ≠ [] := by
  obtain ⟨head, tail, hname, -⟩ := t.name_isName
  simp [text, hname]

/-- There is no white space around a line. -/
theorem strip_text : strip t.text = t.text := by
  apply strip_eq_self
  · obtain ⟨head, tail, hname, hhead, -⟩ := t.name_isName
    intro c hc
    rw [text, hname] at hc
    obtain rfl : head = c := by simpa using hc
    exact isSpace_of_isNameHead hhead
  · intro c hc
    apply t.result_last c
    have hassoc : t.text = (t.name ++ py "(" ++ t.args ++ py ")" ++
        List.replicate (t.padding + 1) 0x20 ++ py "=" ++ py " ") ++ t.result := by
      simp [text]
    rwa [hassoc, List.getLast?_append_of_ne_nil _ t.result_ne_nil] at hc

/-- The separator of the line hands over to the result. -/
theorem first_separatorRe_tail (args : PyStr) :
    first (separatorRe none t.name args) t.tail = some ⟨none, t.name, args, t.result⟩ := by
  obtain ⟨c, s, hresult⟩ := List.exists_cons_of_ne_nil t.result_ne_nil
  have hc : isSpace c = false := t.result_head c (by simp [hresult])
  have hblanks : ∀ x ∈ List.replicate (t.padding + 1) 0x20, isSpace x = true := by
    intro x hx
    rw [List.eq_of_mem_replicate hx]
    decide
  rw [separatorRe, tail, first_bind_of_eq (lit_append _ _),
    first_many1_bind_of_stop (by simp) hblanks]
  · rw [first_bind_of_eq (lit_append _ _)]
    have hblank : many1 isSpace (py " " ++ t.result) = [(py " ", t.result)] := by
      rw [hresult]
      exact many1_of_pos_of_neg (show isSpace 0x20 = true by decide) hc s
    rw [first_bind_of_eq hblank]
    exact first_resultRe none t.name args t.result_ne_nil t.isDot_result t.result_last
  · rintro x u hxu
    obtain ⟨rfl, -⟩ := List.cons.inj hxu
    decide
  · -- the sign is no white space
    intro w x u hx
    rw [first_eq_none, bind_apply]
    have hlit : lit (py "=") (x :: u) = [] := by
      apply List.eq_nil_iff_forall_not_mem.mpr
      rintro ⟨taken, rest⟩ hmem
      obtain ⟨rfl, -⟩ := List.cons.inj (mem_lit.mp hmem)
      exact absurd hx (by decide)
    rw [hlit, List.flatMap_nil]

/-- A separator that stands in what follows the arguments' own closing parenthesis stands in the
result. -/
theorem separated_of_tail {w rest : PyStr} (hw : w ≠ []) (htail : t.tail = w ++ rest)
    (hrest : SeparatorText rest) : Separated t.result := by
  obtain ⟨v, u, x, hrest', hv, hu, hx, hvspace, huspace⟩ := hrest
  -- what precedes the result holds one closing parenthesis, the first character
  have hcut : (py ")" ++ (List.replicate (t.padding + 1) 0x20 ++ (py "=" ++ py " "))) ++ t.result =
      w ++ rest := by
    rw [← htail]
    simp [tail]
  rcases List.append_eq_append_iff.mp hcut with ⟨before, -, hresult⟩ | ⟨after, hpre, hafter⟩
  · exact ⟨before, rest, hresult, v, u, x, hrest', hv, hu, hx, hvspace, huspace⟩
  · cases after with
    | nil =>
      exact ⟨[], t.result, rfl, v, u, x, hafter.symm.trans hrest', hv, hu, hx, hvspace, huspace⟩
    | cons d after =>
      exfalso
      obtain ⟨c, w, rfl⟩ := List.exists_cons_of_ne_nil hw
      rw [hrest'] at hafter
      have hd : 0x29 = d := (List.cons.inj hafter).1
      have hrun : List.replicate (t.padding + 1) 0x20 ++ (py "=" ++ py " ") = w ++ d :: after :=
        (List.cons.inj hpre).2
      have hmem : 0x29 ∈ List.replicate (t.padding + 1) 0x20 ++ (py "=" ++ py " ") := by
        rw [hrun, hd]
        simp
      simp [py, List.mem_replicate] at hmem

/-- Where no separator follows in the result, a line is cut where the tracer closed the arguments. -/
theorem first_syscallRe (hargs : ∀ c ∈ t.args, isLineBreak c = false)
    (hsep : ¬ Separated t.result) :
    first syscallRe t.text = some ⟨none, t.name, t.args, t.result⟩ := by
  rw [text_eq, first_syscallRe_name t.name_isName, first_many_bind_eq_some]
  refine ⟨t.args, t.tail, rfl, fun c hc => isDot_of_not_isLineBreak (hargs c hc),
    t.first_separatorRe_tail t.args, ?_⟩
  intro w' rest' hs hw' hlen
  by_contra hfound
  obtain ⟨w, rfl⟩ : t.args <+: w' :=
    List.prefix_of_prefix_length_le (List.prefix_append _ _) ⟨rest', hs.symm⟩ hlen.le
  have htail : t.tail = w ++ rest' := by
    rw [List.append_assoc] at hs
    exact List.append_cancel_left hs
  have hw : w ≠ [] := by
    rintro rfl
    simp at hlen
  have hdot : ∀ c ∈ rest', isDot c = true := by
    intro c hc
    exact isDot_of_not_isLineBreak (t.tail_oneLine c (by simp [htail, hc]))
  exact hsep (t.separated_of_tail hw htail ((first_separatorRe_ne_none _ _ _ hdot).mp hfound))

/-- Where a separator follows in the result, the arguments are read beyond their end. -/
theorem first_syscallRe_separated (hargs : ∀ c ∈ t.args, isLineBreak c = false)
    (hsep : Separated t.result) :
    ∃ m, first syscallRe t.text = some m ∧ t.args.length < m.args.length := by
  obtain ⟨before, rest, hresult, hrest⟩ := hsep
  let long := t.args ++ (py ")" ++ (List.replicate (t.padding + 1) 0x20 ++
    (py "=" ++ (py " " ++ before))))
  have hsplit : t.args ++ t.tail = long ++ rest := by
    simp [long, tail, hresult]
  have hdot : ∀ c ∈ t.args ++ t.tail, isDot c = true := by
    intro c hc
    apply isDot_of_not_isLineBreak
    rcases List.mem_append.mp hc with hc | hc
    · exact hargs c hc
    · exact t.tail_oneLine c hc
  have hlong : ∀ c ∈ long, isDot c = true := fun c hc => hdot c (by simp [hsplit, hc])
  have hfound : first (separatorRe none t.name long) rest ≠ none :=
    (first_separatorRe_ne_none _ _ _ fun c hc => hdot c (by simp [hsplit, hc])).mpr hrest
  have hsome : first (many isDot >>= separatorRe none t.name) (t.args ++ t.tail) ≠ none := by
    intro hnone
    rw [first_bind, List.findSome?_eq_none_iff] at hnone
    exact hfound (hnone (long, rest) (mem_many.mpr ⟨hsplit, hlong⟩))
  obtain ⟨m, hm⟩ := Option.ne_none_iff_exists'.mp hsome
  refine ⟨m, ?_, ?_⟩
  · rw [text_eq, first_syscallRe_name t.name_isName, hm]
  · obtain ⟨w, r, hwr, hw, hfirst, hlongest⟩ := first_many_bind_eq_some.mp hm
    rw [separatorRe_args hfirst]
    by_contra hshort
    refine hfound (hlongest long rest hsplit hlong ?_)
    calc w.length ≤ t.args.length := not_lt.mp hshort
      _ < long.length := by simp [long, py]

end TraceLine

/-! ### The result -/

theorem intDigits_of_isDecimal {digits : PyStr} (hne : digits ≠ [])
    (h : ∀ c ∈ digits, isDecimal c = true) : intDigits digits = some (digits.map decimalDigit) := by
  induction digits with
  | nil => exact absurd rfl hne
  | cons c s ih =>
    obtain ⟨hc, hs⟩ := List.forall_mem_cons.mp h
    cases s with
    | nil => simp [intDigits, hc]
    | cons d s =>
      have hd : isDecimal d = true := hs d List.mem_cons_self
      have hunderscore : d ≠ 0x5F := by
        rintro rfl
        exact absurd hd (by decide)
      rw [intDigits.eq_4 c d s (by simpa using hunderscore), if_pos hc,
        ih (List.cons_ne_nil d s) hs]
      rfl

/-- A character that neither is a digit nor stands between two ends the digits that `int` takes. -/
theorem intDigits_append_of_neg {digits rest : PyStr} {c : ℕ} (hc : isDecimal c = false)
    (hunderscore : c ≠ 0x5F) (h : ∀ d ∈ digits, isDecimal d = true) :
    intDigits (digits ++ c :: rest) = none := by
  induction digits with
  | nil =>
    rw [List.nil_append, intDigits.eq_def]
    simp [hc]
  | cons d s ih =>
    obtain ⟨hd, hs⟩ := List.forall_mem_cons.mp h
    cases s with
    | nil =>
      have htail : intDigits (c :: rest) = none := ih hs
      rw [List.cons_append, List.nil_append, intDigits.eq_4 d c rest (by simpa using hunderscore),
        if_pos hd, htail]
      rfl
    | cons x s =>
      have hx : x ≠ 0x5F := by
        rintro rfl
        exact absurd (hs _ List.mem_cons_self) (by decide)
      rw [List.cons_append, List.cons_append, intDigits.eq_4 d x _ (by simpa using hx), if_pos hd,
        ← List.cons_append, ih hs]
      rfl

theorem pyNat_of_isDecimal {digits : PyStr} (hne : digits ≠ [])
    (h : ∀ c ∈ digits, isDecimal c = true) :
    pyNat digits =
      if digits.length ≤ maxStrDigits then some (decimalValue (digits.map decimalDigit)) else none := by
  rw [pyNat, intDigits_of_isDecimal hne h]
  simp only [List.length_map]

theorem pyNat_append_of_neg {digits rest : PyStr} {c : ℕ} (hc : isDecimal c = false)
    (hunderscore : c ≠ 0x5F) (h : ∀ d ∈ digits, isDecimal d = true) :
    pyNat (digits ++ c :: rest) = none := by
  rw [pyNat, intDigits_append_of_neg hc hunderscore h]

/-- Digits of a number as JSON writes it have the value that they have there. -/
theorem decimalValue_map {digits : PyStr} (h : ∀ c ∈ digits, Json.isDigit c = true) :
    decimalValue (digits.map decimalDigit) = Json.digitsValue digits := by
  have hmap : digits.map decimalDigit = digits.map (· - 0x30) :=
    List.map_congr_left fun c hc => decimalDigit_of_isDigit (h c hc)
  rw [hmap, decimalValue, Json.digitsValue, List.foldl_map]

theorem strip_of_forall {s : PyStr} (h : ∀ c ∈ s, isSpace c = false) : strip s = s :=
  strip_eq_self (fun c hc => h c (List.mem_of_mem_head? hc))
    (fun c hc => h c (List.mem_of_mem_getLast? hc))

/-- `int` of a word with a sign or without. -/
theorem pyInt_append {sign s : PyStr} (hsign : sign = [] ∨ sign = py "-")
    (hspace : ∀ c ∈ s, isSpace c = false) (hhead : ∀ c ∈ s.head?, c ≠ 0x2D ∧ c ≠ 0x2B) :
    pyInt (sign ++ s) = (pyNat s).map fun n : ℕ => if sign = [] then (n : ℤ) else -(n : ℤ) := by
  rcases hsign with rfl | rfl
  · rw [List.nil_append, pyInt, strip_of_forall hspace]
    split
    · rename_i digits
      exact absurd rfl (hhead 0x2D rfl).1
    · rename_i digits
      exact absurd rfl (hhead 0x2B rfl).2
    · rfl
  · have hstrip : strip (py "-" ++ s) = 0x2D :: s := by
      apply strip_of_forall
      intro c hc
      rcases List.mem_cons.mp hc with rfl | hc
      · decide
      · exact hspace c hc
    rw [pyInt, hstrip]
    rfl

theorem head_of_isDecimal {digits : PyStr} (rest : PyStr) (hne : digits ≠ [])
    (h : ∀ c ∈ digits, isDecimal c = true) : ∀ c ∈ (digits ++ rest).head?, c ≠ 0x2D ∧ c ≠ 0x2B := by
  obtain ⟨d, s, rfl⟩ := List.exists_cons_of_ne_nil hne
  intro c hc
  obtain rfl : d = c := by simpa using hc
  have hd := h d List.mem_cons_self
  constructor
  · rintro rfl
    exact absurd hd (by decide)
  · rintro rfl
    exact absurd hd (by decide)

theorem pyInt_of_isDecimal {digits : PyStr} (hne : digits ≠ [])
    (h : ∀ c ∈ digits, isDecimal c = true) :
    pyInt digits = if digits.length ≤ maxStrDigits then
      some (decimalValue (digits.map decimalDigit) : ℤ) else none := by
  have hhead : ∀ c ∈ digits.head?, c ≠ 0x2D ∧ c ≠ 0x2B := by
    simpa using head_of_isDecimal [] hne h
  have hint := pyInt_append (.inl rfl) (fun c hc => isSpace_of_isDecimal (h c hc)) hhead
  rw [List.nil_append] at hint
  rw [hint, pyNat_of_isDecimal hne h]
  by_cases hlength : digits.length ≤ maxStrDigits
  · simp [hlength]
  · simp [hlength]

theorem firstWord_append {w rest : PyStr} (hw : ∀ c ∈ w, isSpace c = false)
    (hrest : ∀ c t, rest = c :: t → isSpace c = true) : firstWord (w ++ rest) = w := by
  rw [firstWord, List.takeWhile_append_of_pos (by simpa using hw)]
  cases rest with
  | nil => simp
  | cons c t => simp [hrest c t rfl]

theorem firstWord_isSpace (s : PyStr) : ∀ c ∈ firstWord s, isSpace c = false := by
  intro c hc
  simpa using List.mem_takeWhile_imp hc

/-- A text is its first word and what white space separates from it. -/
theorem firstWord_spec (s : PyStr) :
    ∃ rest, s = firstWord s ++ rest ∧ ∀ c t, rest = c :: t → isSpace c = true := by
  refine ⟨s.dropWhile fun c => !isSpace c, List.takeWhile_append_dropWhile.symm, ?_⟩
  intro c t hrest
  have hhead := List.head_dropWhile_not (fun c => !isSpace c) (l := s) (by simp [hrest])
  simpa [hrest] using hhead

/-- A result is read by its first word, and no symbol is found in it: a first word `-1` is a number. -/
theorem parseResult_eq {result : PyStr} (hne : result ≠ [])
    (hhead : ∀ c ∈ result.head?, isSpace c = false)
    (hlast : ∀ c ∈ result.getLast?, isSpace c = false) :
    parseResult result = .ok (pyInt (firstWord result), none) := by
  obtain ⟨rest, hresult, hrest⟩ := firstWord_spec result
  have hword : firstWord result ≠ [] := by
    obtain ⟨c, s, rfl⟩ := List.exists_cons_of_ne_nil hne
    simp [firstWord, hhead c rfl]
  obtain ⟨words, hwords⟩ := split_append hword (firstWord_isSpace result) hrest
  rw [← hresult] at hwords
  have hminus : pyInt (py "-1") = some (-1) := by decide
  simp only [parseResult, strip_eq_self hhead hlast]
  split
  · -- a question mark is no number
    rename_i hquestion
    obtain ⟨s, rfl⟩ := hquestion
    have hnone : pyInt (firstWord (py "?" ++ s)) = none := by
      have hcut : firstWord (py "?" ++ s) = [] ++ ([] ++ 0x3F :: firstWord s) := by
        simp [firstWord, py, isSpace]
      have hspace := firstWord_isSpace (py "?" ++ s)
      rw [hcut, List.nil_append] at hspace
      rw [hcut, pyInt_append (.inl rfl) hspace (by simp),
        pyNat_append_of_neg (by decide) (by decide) (by simp)]
      rfl
    rw [hnone]
  · rw [hwords]
    dsimp only
    cases hint : pyInt (firstWord result) with
    | some n => rfl
    | none =>
      cases words with
      | nil => rfl
      | cons second more =>
        have hne' : firstWord result ≠ py "-1" := by
          intro heq
          rw [heq, hminus] at hint
          cases hint
        simp [hne']

/-- The number that a result begins with is the value of one run of digits. -/
theorem BeginsWithDecimal.unique {result : PyStr} {n k : ℤ} (hn : BeginsWithDecimal result n)
    (hk : BeginsWithDecimal result k) : n = k := by
  obtain ⟨sign, digits, rest, hresult, hsign, hne, hdigits, hrest, rfl⟩ := hn
  obtain ⟨sign', digits', rest', hresult', hsign', hne', hdigits', hrest', rfl⟩ := hk
  have hnotDigit : ∀ {r : PyStr}, (∀ c t, r = c :: t → isNameTail c = false ∧ isDecimal c = false) →
      ∀ c t, r = c :: t → Json.isDigit c = false := by
    intro r hr c t hct
    have htail := (hr c t hct).1
    rw [isNameTail, Bool.or_eq_false_iff] at htail
    exact htail.2
  -- a digit is no sign, so the signs are the same
  have hdash : ∀ {ds r r' : PyStr}, ds ≠ [] → (∀ c ∈ ds, Json.isDigit c = true) →
      ds ++ r ≠ py "-" ++ r' := by
    rintro ds r r' hds hall heq
    obtain ⟨d, ds, rfl⟩ := List.exists_cons_of_ne_nil hds
    have hd : d = 0x2D := (List.cons.inj heq).1
    have hdigit := hall d List.mem_cons_self
    rw [hd] at hdigit
    exact absurd hdigit (by decide)
  have hsame : sign = sign' := by
    rcases hsign with rfl | rfl
    · rcases hsign' with rfl | rfl
      · rfl
      · rw [List.nil_append] at hresult
        exact absurd (hresult.symm.trans hresult') (hdash hne hdigits)
    · rcases hsign' with rfl | rfl
      · rw [List.nil_append] at hresult'
        exact absurd (hresult'.symm.trans hresult) (hdash hne' hdigits')
      · rfl
  subst hsame
  have hrun := List.append_cancel_left (hresult.symm.trans hresult')
  obtain ⟨rfl, -⟩ := eq_of_runs hrun hdigits hdigits' (hnotDigit hrest) (hnotDigit hrest')
  rfl

/-- A plain decimal number at the beginning of a result is the number it begins with. -/
theorem beginsWithDecimal_of_plain {result sign digits : PyStr} {rest : PyStr}
    (hresult : result = sign ++ (digits ++ rest)) (hsign : sign = [] ∨ sign = py "-")
    (hne : digits ≠ []) (hdigits : ∀ c ∈ digits, Json.isDigit c = true)
    (hrest : ∀ c t, rest = c :: t → isSpace c = true) :
    BeginsWithDecimal result
      (if sign = [] then (Json.digitsValue digits : ℤ) else -(Json.digitsValue digits : ℤ)) := by
  refine ⟨sign, digits, rest, hresult, hsign, hne, hdigits, ?_, rfl⟩
  intro c t hct
  have hc := hrest c t hct
  have hclear : ∀ c < 0x80, isSpace c = true → isNameTail c = false := by decide
  constructor
  · apply Bool.eq_false_iff.mpr
    intro htail
    have hbounds := isNameTail_bounds htail
    rw [hclear c (by omega) hc] at htail
    cases htail
  · apply Bool.eq_false_iff.mpr
    intro hdecimal
    rw [isSpace_of_isDecimal hdecimal] at hc
    cases hc

theorem pyInt_signed {sign digits : PyStr} (hsign : sign = [] ∨ sign = py "-") (hne : digits ≠ [])
    (hdigits : ∀ c ∈ digits, Json.isDigit c = true) :
    pyInt (sign ++ digits) = if digits.length ≤ maxStrDigits then
      some (if sign = [] then (Json.digitsValue digits : ℤ) else -(Json.digitsValue digits : ℤ))
      else none := by
  have hdecimal : ∀ c ∈ digits, isDecimal c = true := fun c hc =>
    isDecimal_of_isDigit (hdigits c hc)
  have hhead : ∀ c ∈ digits.head?, c ≠ 0x2D ∧ c ≠ 0x2B := by
    simpa using head_of_isDecimal [] hne hdecimal
  rw [pyInt_append hsign (fun c hc => isSpace_of_isDecimal (hdecimal c hc)) hhead,
    pyNat_of_isDecimal hne hdecimal, decimalValue_map hdigits]
  by_cases hlength : digits.length ≤ maxStrDigits
  · simp [hlength]
  · simp [hlength]

/-- The first word of a result is the number that the result begins with, or the result begins with
no number and its first word is none either. -/
def ReadableValue (result : PyStr) : Prop :=
  PlainDecimal (firstWord result) ∨
    (∀ n, ¬ BeginsWithDecimal result n) ∧ pyInt (firstWord result) = none

/-- `int` of the first word is the number that a result begins with exactly for those results. -/
theorem returnValue_iff (result : PyStr) :
    (∀ n, pyInt (firstWord result) = some n ↔ BeginsWithDecimal result n) ↔ ReadableValue result := by
  obtain ⟨rest, hresult, hrest⟩ := firstWord_spec result
  constructor
  · intro h
    by_cases hnumber : ∃ n, BeginsWithDecimal result n
    · left
      obtain ⟨n, hn⟩ := hnumber
      have hint := (h n).mpr hn
      obtain ⟨sign, digits, tail, hdecimal, hsign, hne, hdigits, htail, -⟩ := hn
      have hspace : ∀ c ∈ sign ++ digits, isSpace c = false := by
        intro c hc
        rcases List.mem_append.mp hc with hc | hc
        · rcases hsign with rfl | rfl
          · simp at hc
          · rw [List.mem_singleton.mp hc]
            decide
        · exact isSpace_of_isDecimal (isDecimal_of_isDigit (hdigits c hc))
      have hword : firstWord result = sign ++ (digits ++ firstWord tail) := by
        rw [hdecimal, ← List.append_assoc, firstWord, List.takeWhile_append_of_pos (by simpa using hspace),
          List.append_assoc]
        rfl
      -- the word is the number alone: what may follow the number in it is nothing that `int` takes
      cases hmore : firstWord tail with
      | nil =>
        rw [hmore, List.append_nil] at hword
        refine ⟨sign, digits, hword, hsign, hne, hdigits, ?_⟩
        rw [hword, pyInt_signed hsign hne hdigits] at hint
        by_contra hlong
        rw [if_neg hlong] at hint
        cases hint
      | cons c v =>
        exfalso
        obtain ⟨u, hu⟩ : ∃ u, tail = c :: u := by
          obtain ⟨u, hu, -⟩ := firstWord_spec tail
          exact ⟨v ++ u, by rw [hu, hmore, List.cons_append]⟩
        obtain ⟨hname, hc⟩ := htail c u hu
        have hunderscore : c ≠ 0x5F := by
          rintro rfl
          exact absurd hname (by decide)
        have hdec : ∀ d ∈ digits, isDecimal d = true := fun d hd => isDecimal_of_isDigit (hdigits d hd)
        have hall := firstWord_isSpace result
        rw [hword, hmore] at hall
        rw [hword, hmore, pyInt_append hsign (fun d hd => hall d (List.mem_append_right sign hd))
          (head_of_isDecimal _ hne hdec), pyNat_append_of_neg hc hunderscore hdec] at hint
        cases hint
    · right
      refine ⟨fun n hn => hnumber ⟨n, hn⟩, ?_⟩
      apply Option.eq_none_iff_forall_ne_some.mpr
      intro n hint
      exact hnumber ⟨n, (h n).mp hint⟩
  · rintro (⟨sign, digits, hword, hsign, hne, hdigits, hlength⟩ | ⟨hnone, hint⟩) n
    · have hbegins : BeginsWithDecimal result _ :=
        beginsWithDecimal_of_plain (by rw [hresult, hword, List.append_assoc]) hsign hne hdigits hrest
      rw [hword, pyInt_signed hsign hne hdigits, if_pos hlength, Option.some.injEq]
      constructor
      · rintro rfl
        exact hbegins
      · intro hn
        exact hbegins.unique hn
    · rw [hint]
      exact ⟨nofun, fun hn => absurd hn (hnone n)⟩

/-! ### The port -/

theorem first_htonsPortRe (s digits : PyStr) : first htonsPortRe s = some digits ↔ PortText s digits := by
  have hmem : ∀ digits rest, (digits, rest) ∈ htonsPortRe s ↔
      s = py "htons(" ++ (digits ++ (py ")" ++ rest)) ∧ digits ≠ [] ∧
        ∀ c ∈ digits, isDecimal c = true := by
    intro digits rest
    simp only [htonsPortRe, mem_bind, mem_lit, mem_many1, mem_pure, Prod.mk.injEq]
    constructor
    · rintro ⟨-, u, rfl, ds, v, ⟨rfl, hne, hds⟩, -, w, rfl, rfl, rfl⟩
      exact ⟨rfl, hne, hds⟩
    · rintro ⟨rfl, hne, hds⟩
      exact ⟨(), _, rfl, digits, _, ⟨rfl, hne, hds⟩, (), rest, rfl, rfl, rfl⟩
  have hclose : ∀ (r : PyStr) c t, py ")" ++ r = c :: t → isDecimal c = false := by
    rintro r c t hct
    obtain ⟨rfl, -⟩ := List.cons.inj hct
    decide
  rw [first_eq_some_iff]
  · exact exists_congr fun rest => hmem digits rest
  · intro a b r u ha hb
    obtain ⟨hsa, -, ha⟩ := (hmem a r).mp ha
    obtain ⟨hsb, -, hb⟩ := (hmem b u).mp hb
    have hrun := List.append_cancel_left (hsa.symm.trans hsb)
    exact (eq_of_runs hrun ha hb (hclose r) (hclose u)).1

/-- The first port in the arguments is not too long for `int`. -/
def PortsReadable (args : PyStr) : Prop :=
  ∀ digits, Leftmost PortText args digits → digits.length ≤ maxStrDigits

theorem extractNetworkTarget_isOk (args : PyStr) :
    (∃ target, extractNetworkTarget args = .ok target) ↔ PortsReadable args := by
  unfold extractNetworkTarget
  cases hport : search htonsPortRe args with
  | none =>
    have hnone := (search_eq_none_iff_leftmost first_htonsPortRe).mp hport
    exact iff_of_true ⟨_, rfl⟩ fun digits hdigits => absurd hdigits (hnone digits)
  | some digits =>
    have hleft := (search_eq_some_iff_leftmost first_htonsPortRe).mp hport
    obtain ⟨before, rest, -, ⟨tail, -, hne, hdecimal⟩, -⟩ := hleft
    have hunique : ∀ digits', Leftmost PortText args digits' → digits' = digits := by
      intro digits' hdigits'
      have hother := (search_eq_some_iff_leftmost first_htonsPortRe).mpr hdigits'
      rw [hport] at hother
      exact (Option.some.inj hother).symm
    simp only [optionalIntOrRaise, intOrRaise, pyInt_of_isDecimal hne hdecimal]
    constructor
    · rintro ⟨target, htarget⟩ digits' hdigits'
      rw [hunique digits' hdigits']
      by_contra hlong
      rw [if_neg hlong] at htarget
      cases htarget
    · intro hports
      rw [if_pos (hports digits ((search_eq_some_iff_leftmost first_htonsPortRe).mp hport))]
      exact ⟨_, rfl⟩

/-! ### One line -/

section

variable {literalEval : PyStr → Option PyStr}

/-- What an event of a system call holds of the match that it was made from. -/
theorem parseSyscallMatch_eq_ok {m : SyscallMatch} {line : PyStr} {position : LinePosition}
    {e : SyscallEvent} (h : parseSyscallMatch literalEval m line position = .ok e) :
    PortsReadable m.args ∧ parseResult m.result = .ok (e.returnValue, e.errno) ∧
      e.event = .syscall ∧ e.syscall = m.name ∧ e.args = m.args ∧
      e.executionContext = position.executionContext := by
  obtain ⟨target, htarget, h⟩ := bind_eq_ok.mp h
  obtain ⟨value, hvalue, h⟩ := bind_eq_ok.mp h
  obtain ⟨pid, -, h⟩ := bind_eq_ok.mp h
  obtain rfl := Except.ok.inj h
  exact ⟨(extractNetworkTarget_isOk m.args).mp ⟨target, htarget⟩, hvalue, rfl, rfl, rfl, rfl⟩

theorem parseSyscallMatch_isOk {m : SyscallMatch} (line : PyStr) (position : LinePosition)
    {value : Option ℤ × Option PyStr} (hpid : m.pid = none) (hports : PortsReadable m.args)
    (hvalue : parseResult m.result = .ok value) :
    ∃ e, parseSyscallMatch literalEval m line position = .ok e := by
  obtain ⟨target, htarget⟩ := (extractNetworkTarget_isOk m.args).mpr hports
  unfold parseSyscallMatch
  rw [htarget, hvalue, hpid]
  exact ⟨_, rfl⟩

/-- The arguments of an event stand in the line that it was made from. -/
theorem parseStraceLine_args {line : PyStr} {position : LinePosition} {e : SyscallEvent}
    (h : parseStraceLine literalEval line position = .ok (some e)) : e.args ⊆ line := by
  unfold parseStraceLine at h
  split at h
  · rename_i m hm
    obtain ⟨e', he', hsome⟩ := bind_eq_ok.mp h
    obtain rfl := Option.some.inj (Except.ok.inj hsome)
    rw [(parseSyscallMatch_eq_ok he').2.2.2.2.1]
    obtain ⟨rest, hmem⟩ := mem_of_first hm
    simp only [syscallRe, callRe, argumentsRe, separatorRe, resultRe, mem_bind, mem_opt, mem_many,
      mem_many1, mem_char, mem_lit, mem_pure, Prod.mk.injEq] at hmem
    obtain ⟨-, s, ⟨rfl, -⟩, pid, u, hpid, head, -, ⟨rfl, -⟩, tail, -, ⟨rfl, -⟩, -, r, rfl, args, r', ⟨rfl, -⟩,
      -, -, -, -, -, -, -, -, -, -, -, -, -, -, -, -, -, -, -, -, -, rfl, -⟩ := hmem
    intro c hc
    apply List.mem_append_right
    rcases hpid with ⟨-, -, -, v, ⟨rfl, -⟩, -, w, ⟨rfl, -⟩, -, rfl⟩ | ⟨-, rfl⟩
    · simp [hc]
    · simp [hc]
  · split at h
    · obtain ⟨value, -, hsome⟩ := bind_eq_ok.mp h
      obtain rfl := Option.some.inj (Except.ok.inj hsome)
      exact List.nil_subset line
    · split at h
      · obtain rfl := Option.some.inj (Except.ok.inj h)
        exact List.nil_subset line
      · cases h

/-- What the line of a system call is read as, when its arguments come out as they are. -/
structure ReadAs (t : TraceLine) (position : LinePosition) (e : SyscallEvent) : Prop where
  event : e.event = .syscall
  syscall : e.syscall = t.name
  args : e.args = t.args
  errno : e.errno = none
  returnValue : e.returnValue = pyInt (firstWord t.result)
  executionContext : e.executionContext = position.executionContext

/-- The arguments come out as they are only where no separator follows and the port can be read. -/
theorem parseStraceLine_text {t : TraceLine} (hargs : ∀ c ∈ t.args, isLineBreak c = false)
    {position : LinePosition} {e : SyscallEvent}
    (h : parseStraceLine literalEval t.text position = .ok (some e)) (heq : e.args = t.args) :
    ¬ Separated t.result ∧ PortsReadable t.args ∧ ReadAs t position e := by
  unfold parseStraceLine at h
  by_cases hsep : Separated t.result
  · exfalso
    obtain ⟨m, hm, hlong⟩ := t.first_syscallRe_separated hargs hsep
    rw [hm] at h
    obtain ⟨e', he', hsome⟩ := bind_eq_ok.mp h
    obtain rfl := Option.some.inj (Except.ok.inj hsome)
    rw [← (parseSyscallMatch_eq_ok he').2.2.2.2.1, heq] at hlong
    exact lt_irrefl _ hlong
  · rw [t.first_syscallRe hargs hsep] at h
    obtain ⟨e', he', hsome⟩ := bind_eq_ok.mp h
    obtain rfl := Option.some.inj (Except.ok.inj hsome)
    obtain ⟨hports, hvalue, hevent, hsyscall, -, hcontext⟩ := parseSyscallMatch_eq_ok he'
    rw [parseResult_eq t.result_ne_nil t.result_head t.result_last, Except.ok.injEq,
      Prod.mk.injEq] at hvalue
    exact ⟨hsep, hports, hevent, hsyscall, heq, hvalue.2.symm, hvalue.1.symm, hcontext⟩

variable (literalEval) in
theorem exists_parseStraceLine_text {t : TraceLine} (hargs : ∀ c ∈ t.args, isLineBreak c = false)
    (hsep : ¬ Separated t.result) (hports : PortsReadable t.args) (position : LinePosition) :
    ∃ e, parseStraceLine literalEval t.text position = .ok (some e) ∧ ReadAs t position e := by
  obtain ⟨e, he⟩ : ∃ e, parseSyscallMatch literalEval ⟨none, t.name, t.args, t.result⟩ t.text
      position = .ok e :=
    parseSyscallMatch_isOk t.text position rfl hports
      (parseResult_eq t.result_ne_nil t.result_head t.result_last)
  have hline : parseStraceLine literalEval t.text position = .ok (some e) := by
    rw [parseStraceLine, t.first_syscallRe hargs hsep]
    dsimp only
    rw [he]
    rfl
  have hsame : e.args = t.args := (parseSyscallMatch_eq_ok he).2.2.2.2.1
  exact ⟨e, hline, (parseStraceLine_text hargs hline hsame).2.2⟩

/-- What an event tells once it is read as the line: the value of the result and the error. -/
theorem tells_iff {t : TraceLine} {e : SyscallEvent} {Fails : PyStr → Prop}
    (hevent : e.event = .syscall) (hsyscall : e.syscall = t.name) (hargs : e.args = t.args)
    (hvalue : e.returnValue = pyInt (firstWord t.result)) (herrno : e.errno ≠ some []) :
    Tells t Fails e ↔ (∀ E, e.errno = some E ↔ Fails E) ∧ ReadableValue t.result := by
  rw [← returnValue_iff, ← hvalue]
  constructor
  · intro h
    exact ⟨h.errno, h.returnValue⟩
  · rintro ⟨hfails, hreturn⟩
    refine ⟨hevent, hsyscall, hargs, hfails, hreturn, ?_⟩
    intro hguest
    have hsame : optionalString e.errno = e.errno := by
      unfold optionalString
      split
      · rename_i hnone
        exact hnone.symm
      · rename_i E hE
        have hne : E ≠ [] := fun hnil => herrno (by rw [hE, hnil])
        rw [if_neg hne, hE]
    refine ⟨⟨0, e.syscall, optionalString e.errno, optionalString e.path, e.returnValue,
      optionalString e.remoteIp, e.remotePort⟩, ?_, hsyscall, ?_⟩
    · simp [syscallReadings, selectSyscallEvents, hguest, syscallReading, hevent]
    · intro E
      change optionalString e.errno = some E ↔ Fails E
      rw [hsame]
      exact hfails E

/-! ### The log -/

/-- A log is read part by part: the second part in the context in which the first ends. -/
theorem straceLoop_append (sourceFile : PyStr) (lines more : List PyStr) (number : ℕ)
    (context : ExecutionContext) :
    straceLoop literalEval sourceFile (lines ++ more) number context = (do
      let (events, context) ← straceLoop literalEval sourceFile lines number context
      let (events', context) ← straceLoop literalEval sourceFile more (number + lines.length) context
      pure (events ++ events', context)) := by
  induction lines generalizing number context with
  | nil =>
    change _ = (do
      let (events', context) ← straceLoop literalEval sourceFile more number context
      pure ([] ++ events', context))
    rw [List.nil_append]
    cases straceLoop literalEval sourceFile more number context with
    | error x => rfl
    | ok result => rfl
  | cons line lines ih =>
    rw [List.cons_append, straceLoop, straceLoop]
    have hnumber : number + 1 + lines.length = number + (lines.length + 1) := by omega
    simp only [ih, hnumber, List.length_cons]
    split
    · rfl
    · simp [bind_assoc]

/-- A line at the beginning of a log is read by itself, and what follows it in the context that it
leaves behind. -/
theorem straceLoop_line (sourceFile : PyStr) {t : TraceLine}
    (hargs : ∀ c ∈ t.args, isLineBreak c = false) (more : PyStr) (number : ℕ)
    (context : ExecutionContext) :
    straceLoop literalEval sourceFile (splitlines (t.text ++ 0x0A :: more)) number context = (do
      let (events, context) ←
        straceLoop literalEval sourceFile (splitlines t.text) number context
      let (events', context) ←
        straceLoop literalEval sourceFile (splitlines more) (number + 1) context
      pure (events ++ events', context)) := by
  have hline : splitlines t.text = [t.text] :=
    splitlines_of_not_mem t.text_ne_nil (t.text_oneLine hargs)
  rw [splitlines_append_lineFeed (t.text_oneLine hargs), hline]
  exact straceLoop_append sourceFile [t.text] (splitlines more) number context

/-- The arguments of the events of a log are on one line. -/
theorem straceLoop_oneLine {sourceFile : PyStr} {lines : List PyStr}
    (hlines : ∀ line ∈ lines, ∀ c ∈ line, isLineBreak c = false) {number : ℕ}
    {context context' : ExecutionContext} {events : List SyscallEvent}
    (h : straceLoop literalEval sourceFile lines number context = .ok (events, context')) :
    ∀ e ∈ events, ∀ c ∈ e.args, isLineBreak c = false := by
  induction lines generalizing number context context' events with
  | nil =>
    obtain ⟨rfl, -⟩ := Prod.mk.inj (Except.ok.inj h)
    simp
  | cons line lines ih =>
    obtain ⟨hline, hlines⟩ := List.forall_mem_cons.mp hlines
    rw [straceLoop] at h
    split at h
    · exact ih hlines h
    · obtain ⟨parsed, hparsed, h⟩ := bind_eq_ok.mp h
      obtain ⟨⟨later, context''⟩, hlater, h⟩ := bind_eq_ok.mp h
      obtain ⟨rfl, -⟩ := Prod.mk.inj (Except.ok.inj h)
      intro e he
      rcases List.mem_append.mp he with he | he
      · obtain rfl : parsed = some e := Option.mem_toList.mp he
        intro c hc
        exact hline c (strip_subset line (parseStraceLine_args hparsed hc))
      · exact ih hlines hlater e he

/-- The line of a system call, when it is not passed over. -/
theorem straceLoop_text {t : TraceLine} (hskips : ¬ straceSkips t.text) {sourceFile : PyStr}
    {number : ℕ} {context context' : ExecutionContext} {e : SyscallEvent} :
    straceLoop literalEval sourceFile [t.text] number context = .ok ([e], context') ↔
      parseStraceLine literalEval t.text ⟨sourceFile, number,
        if isGuestExecveLine t.text then .guest else context⟩ = .ok (some e) ∧
      context' = if isSuccessfulChrootLine t.text then .guest
        else if isGuestExecveLine t.text then .guest else context := by
  rw [straceLoop]
  simp only [t.strip_text, if_neg hskips]
  constructor
  · intro h
    obtain ⟨parsed, hparsed, h⟩ := bind_eq_ok.mp h
    obtain ⟨⟨later, context''⟩, hlater, h⟩ := bind_eq_ok.mp h
    obtain ⟨rfl, rfl⟩ := Prod.mk.inj (Except.ok.inj hlater)
    obtain ⟨hevents, rfl⟩ := Prod.mk.inj (Except.ok.inj h)
    refine ⟨?_, rfl⟩
    rw [hparsed]
    cases parsed with
    | none => cases hevents
    | some e' =>
      obtain ⟨rfl, -⟩ := List.cons.inj hevents
      rfl
  · rintro ⟨hparsed, rfl⟩
    rw [hparsed]
    rfl

end

/-! ### The native parser -/

/-- The native parser makes one event of a line, and it tells what the line says. -/
def StraceReads (literalEval : PyStr → Option PyStr) (sourceFile : PyStr) (number : ℕ)
    (context : ExecutionContext) (t : TraceLine) : Prop :=
  ∃ e context', straceLoop literalEval sourceFile (splitlines t.text) number context =
    .ok ([e], context') ∧ Tells t (StraceFails t) e

/-- The lines that the native parser reads as the tracer wrote them. -/
structure StraceClear (t : TraceLine) : Prop where
  finished : ¬ py "<unfinished ...>" <:+: t.text
  notResumed : ¬ py "resumed>" <:+: t.text
  oneLine : ∀ c ∈ t.args, isLineBreak c = false
  delimited : ¬ Separated t.result
  ports : PortsReadable t.args
  value : ReadableValue t.result
  successful : ∀ E, ¬ IsFailure t.result E

theorem straceReads_iff (literalEval : PyStr → Option PyStr) (sourceFile : PyStr) (number : ℕ)
    (context : ExecutionContext) (t : TraceLine) :
    StraceReads literalEval sourceFile number context t ↔ StraceClear t := by
  constructor
  · rintro ⟨e, context', hloop, htells⟩
    have hargs : ∀ c ∈ t.args, isLineBreak c = false := by
      rw [← htells.args]
      apply straceLoop_oneLine _ hloop e List.mem_cons_self
      intro line hline c hc
      exact (mem_of_mem_splitlines hline c hc).2
    rw [splitlines_of_not_mem t.text_ne_nil (t.text_oneLine hargs)] at hloop
    have hskips : ¬ straceSkips t.text := by
      intro hskips
      rw [straceLoop] at hloop
      simp only [t.strip_text, if_pos hskips, straceLoop, Except.ok.injEq, Prod.mk.injEq] at hloop
      exact absurd hloop.1 (by simp)
    obtain ⟨hsep, hports, hread⟩ :=
      parseStraceLine_text hargs ((straceLoop_text hskips).mp hloop).1 htells.args
    obtain ⟨hfails, hvalue⟩ := (tells_iff hread.event hread.syscall hread.args hread.returnValue
      (by simp [hread.errno])).mp htells
    refine ⟨?_, ?_, hargs, hsep, hports, hvalue, ?_⟩
    · exact fun h => hskips (.inr (.inl h))
    · exact fun h => hskips (.inr (.inr h))
    · intro E hE
      have hsome := (hfails E).mpr hE
      rw [hread.errno] at hsome
      cases hsome
  · intro h
    have hskips : ¬ straceSkips t.text := by
      rintro (hnil | hunfinished | hresumed)
      · exact t.text_ne_nil hnil
      · exact h.finished hunfinished
      · exact h.notResumed hresumed
    obtain ⟨e, he, hread⟩ := exists_parseStraceLine_text literalEval h.oneLine h.delimited h.ports
      ⟨sourceFile, number, if isGuestExecveLine t.text then .guest else context⟩
    have hloop := (straceLoop_text hskips).mpr ⟨he, rfl⟩
    rw [← splitlines_of_not_mem t.text_ne_nil (t.text_oneLine h.oneLine)] at hloop
    refine ⟨e, _, hloop, ?_⟩
    apply (tells_iff hread.event hread.syscall hread.args hread.returnValue
      (by simp [hread.errno])).mpr
    refine ⟨?_, h.value⟩
    intro E
    rw [hread.errno]
    exact ⟨nofun, fun hE => absurd hE (h.successful E)⟩

end TaintForge
