import TaintForge.Dse.Equiv.SymExpr
import TaintForge.Dse.Replay

/-!
# The evaluator computes the value of an expression

`dseEvalExprObserved` reads an expression as `SymExpr.denote` does, under the observed values.

* `evalBinary_node`, `evalUnary_node`: what the operators compute on words.
* `Evaluates`: an evaluation that keeps the table of the nodes sound, with a rule for each way to compose
  evaluations.
* `dseEvalExprObserved_sound`: the evaluator.
* `dseEvalExprObserved_again`: what has been evaluated can be evaluated again.
-/

namespace TaintForge

open BitVec Function

/-! ### Operators on words -/

theorem SymBinary.isArith_or (op : SymBinary) : op.IsArith ∨ op.IsRelation ∨ op = .concat := by
  cases op <;> decide

theorem SymBinary.Fits.of_arith {op : SymBinary} {w wa wb : ℕ} (hop : op.IsArith)
    (h : op.Fits w wa wb) : wa = w ∧ wb = w := by
  cases op <;> first | exact absurd hop (by decide) | exact h

theorem SymBinary.Fits.of_relation {op : SymBinary} {w wa wb : ℕ} (hop : op.IsRelation)
    (h : op.Fits w wa wb) : w = 1 ∧ wa = wb := by
  cases op <;> first | exact absurd hop (by decide) | exact h

section Words

variable {w : ℕ} (hw : 1 ≤ w ∧ w ≤ 64)

include hw

omit hw in
theorem sshiftRight_of_le {n : ℕ} (hn : w ≤ n) (x : BitVec w) :
    x.sshiftRight n = if x.msb then allOnes w else 0#w := by
  apply BitVec.eq_of_getLsbD_eq
  intro i hi
  rw [BitVec.getLsbD_sshiftRight, decide_eq_false (show ¬ w ≤ i by omega),
    if_neg (show ¬ n + i < w by omega), Bool.not_false, Bool.true_and]
  cases x.msb
  · exact BitVec.getLsbD_zero.symm
  · rw [if_pos rfl, BitVec.getLsbD_allOnes, decide_eq_true hi]

theorem evalSar_word (x y : BitVec w) : evalSar w x.word y.word = (x.sshiftRight' y).word := by
  have hmsb : (x.word >>> (w - 1) &&& 1 ≠ 0) = (x.msb = true) := propext (word_shift_msb hw x)
  have hzero : (y.word ≠ 0) = (y.toNat ≠ 0) := by
    rw [← toNat_word hw.2 y, ne_eq, ne_eq, ← BitVec.toNat_inj]
    rfl
  rw [evalSar, maskW_word hw.2, toNat_word hw.2, word_allOnes hw.2]
  simp only [hmsb, hzero]
  rw [BitVec.sshiftRight_eq']
  split
  · rename_i hge
    rw [sshiftRight_of_le hge]
    split
    · rfl
    · exact (BitVec.setWidth_zero _ _).symm
  · rename_i hlt
    rw [word_allOnes (by omega), maskW_eq_word hw.2,
      ← setWidth_word_sshiftRight hw.2 x (show y.toNat ≤ w by omega)]
    congr 2
    split
    · rfl
    · exact (BitVec.or_zero).symm

theorem evalBinary_arith {op : SymBinary} (hop : op.IsArith) (x y : BitVec w) (operand low : ℕ) :
    evalBinary op w operand low x.word y.word = (op.onBits x y).word := by
  have hmask := maskW_eq_word hw.2
  cases op with
  | add => exact (hmask _).trans (congrArg word (setWidth_word_add hw.2 x y))
  | sub => exact (hmask _).trans (congrArg word (setWidth_word_sub hw.2 x y))
  | mul => exact (hmask _).trans (congrArg word (setWidth_word_mul hw.2 x y))
  | xor => exact (hmask _).trans (congrArg word (setWidth_word_xor hw.2 x y))
  | and => exact (hmask _).trans (congrArg word (setWidth_word_and hw.2 x y))
  | or => exact (hmask _).trans (congrArg word (setWidth_word_or hw.2 x y))
  | shl =>
    show (if y.word.toNat ≥ w then 0 else maskW (x.word <<< y.word.toNat) w) = (x <<< y).word
    rw [toNat_word hw.2, BitVec.shiftLeft_eq']
    split
    · rename_i hge
      rw [BitVec.shiftLeft_eq_zero hge]
      exact (BitVec.setWidth_zero _ _).symm
    · rw [hmask, setWidth_word_shiftLeft hw.2]
  | lshr =>
    show (if y.word.toNat ≥ w then 0 else maskW (x.word >>> y.word.toNat) w) = (x >>> y).word
    rw [toNat_word hw.2, BitVec.ushiftRight_eq']
    split
    · rename_i hge
      rw [BitVec.ushiftRight_eq_zero hge]
      exact (BitVec.setWidth_zero _ _).symm
    · rw [hmask, setWidth_word_ushiftRight hw.2]
  | ashr => exact evalSar_word hw x y
  | concat | eq | ult | slt => exact absurd hop (by decide)

theorem evalBinary_relation {op : SymBinary} (hop : op.IsRelation) (x y : BitVec w) (low : ℕ) :
    evalBinary op 1 w low x.word y.word = (BitVec.ofBool (op.holds x y)).word := by
  have hbit : ∀ {p : Prop} [Decidable p] {b : Bool}, (p ↔ b = true) →
      (if p then 1 else 0 : BitVec 64) = (BitVec.ofBool b).word := by
    intro p _ b h
    cases b with
    | true => exact if_pos (h.mpr rfl)
    | false => exact if_neg fun hp => Bool.false_ne_true (h.mp hp)
  cases op with
  | eq => exact hbit (by show _ ↔ (x == y) = true; rw [← word_beq hw.2, beq_iff_eq])
  | ult => exact hbit (by rw [word_ult hw.2]; rfl)
  | slt => exact hbit (by rw [xor_sign_ult hw.2 x y hw.1]; rfl)
  | add | sub | mul | xor | and | or | shl | lshr | ashr | concat => exact absurd hop (by decide)

end Words

/-- **An operator with two operands computes the value of its node.** -/
theorem evalBinary_node {h : SymHeader} {op : SymBinary} {a b : SymExpr}
    (hwf : (SymExpr.binary h op a b).WellFormed) (σ : Valuation) :
    evalBinary op h.width a.width b.width (a.bits a.width σ).word (b.bits b.width σ).word =
      ((SymExpr.binary h op a b).bits h.width σ).word := by
  obtain ⟨hw, -, hfits, ha, hb⟩ := hwf
  rcases op.isArith_or with hop | hop | rfl
  · obtain ⟨hwa, hwb⟩ := hfits.of_arith hop
    rw [hwa, hwb, evalBinary_arith hw hop, SymExpr.bits_arith σ hop rfl]
  · obtain ⟨hone, hsame⟩ := hfits.of_relation hop
    rw [hone, ← hsame, evalBinary_relation ha.width_le hop, SymExpr.bits_relation σ hop hone rfl]
  · have hsum : h.width = a.width + b.width := hfits
    have hword : (((a.bits a.width σ).word <<< b.width) ||| (b.bits b.width σ).word).setWidth
        (a.width + b.width) = a.bits a.width σ ++ b.bits b.width σ :=
      setWidth_word_append ha.width_le.2 _ _ (hsum ▸ hw.2)
    rw [← SymExpr.bits_concat σ hsum rfl rfl, ← hsum] at hword
    show maskW (_ ||| _) h.width = _
    rw [maskW_eq_word hw.2, hword]

/-- **An operator with one operand computes the value of its node.** -/
theorem evalUnary_node {h : SymHeader} {op : SymUnary} {a : SymExpr} {high low : ℕ}
    (hwf : (SymExpr.unary h op a high low).WellFormed) (σ : Valuation) :
    evalUnary op h.width a.width low (a.bits a.width σ).word =
      ((SymExpr.unary h op a high low).bits h.width σ).word := by
  obtain ⟨hw, -, hfits, ha⟩ := hwf
  have hwa := ha.width_le
  cases op with
  | extract =>
    rw [SymExpr.bits_extract, ← setWidth_word_extract hwa.2]
    exact maskW_eq_word hw.2 _
  | zext =>
    rw [SymExpr.bits_zext]
    show maskW _ h.width = _
    rw [maskW_eq_word hw.2]
    congr 1
    apply BitVec.eq_of_toNat_eq
    rw [BitVec.toNat_setWidth, BitVec.toNat_setWidth, toNat_word hwa.2]
  | sext =>
    have hle : a.width ≤ h.width := hfits
    rw [SymExpr.bits_sext, ← setWidth_word_signExtend hwa.2 (a.bits a.width σ)
      (?_ : ∀ i < h.width, (~~~maskW (allOnes 64) a.width).getLsbD i = decide (a.width ≤ i)),
      ← maskW_eq_word hw.2]
    · show maskW (if a.width < 64 ∧ maskW (a.bits a.width σ).word a.width >>> (a.width - 1) &&& 1 ≠ 0 then
        maskW (a.bits a.width σ).word a.width ||| _ else maskW (a.bits a.width σ).word a.width) h.width = _
      rw [maskW_word hwa.2]
      by_cases hmsb : (a.bits a.width σ).msb = true
      · by_cases hfull : a.width < 64
        · rw [if_pos hmsb, if_pos ⟨hfull, (word_shift_msb hwa _).mpr hmsb⟩]
        · -- nothing is above the width of a full word
          have hones : (~~~maskW (allOnes 64) a.width) = 0#64 := by
            rw [maskW, if_pos (by omega), BitVec.not_allOnes]
          rw [if_pos hmsb, if_neg fun h => hfull h.1, hones, BitVec.or_zero]
      · rw [if_neg hmsb, if_neg fun h => hmsb ((word_shift_msb hwa _).mp h.2)]
    · intro i hi
      rw [BitVec.getLsbD_not, word_allOnes hwa.2, getLsbD_word hwa.2, BitVec.getLsbD_allOnes,
        decide_eq_true (show i < 64 by omega), Bool.true_and, ← decide_not, decide_eq_decide]
      omega

/-! ### The evaluator -/

/-- The valuation gives every observed symbol its value. -/
def Agrees (observedValues : ℕ → Option DseObservedValue) (σ : Valuation) : Prop :=
  ∀ symbol observed, observedValues symbol.id = some observed →
    σ symbol observed.width = observed.value.setWidth observed.width

namespace SymExpr

/-- The variables that are evaluated, with their widths: of an `ite` those of the selected branch. -/
def visited (σ : Valuation) : SymExpr → List (ℕ × SymVar)
  | .const _ _ => []
  | .var h symbol => [(h.width, symbol)]
  | .binary _ _ a b => visited σ a ++ visited σ b
  | .unary _ _ a _ _ => visited σ a
  | .ternary _ c t f => visited σ c ++ if c.bits 1 σ = 1 then visited σ t else visited σ f

/-- The nodes of an expression. -/
def subterms : SymExpr → List SymExpr
  | .const h value => [.const h value]
  | .var h symbol => [.var h symbol]
  | .binary h op a b => .binary h op a b :: (subterms a ++ subterms b)
  | .unary h op a high low => .unary h op a high low :: subterms a
  | .ternary h c t f => .ternary h c t f :: (subterms c ++ (subterms t ++ subterms f))

theorem mem_subterms_self (e : SymExpr) : e ∈ e.subterms := by
  cases e <;> exact List.mem_cons_self

variable {pool : List SymExpr}

theorem binary_subset {h : SymHeader} {op : SymBinary} {a b : SymExpr}
    (hsub : (binary h op a b).subterms ⊆ pool) : a.subterms ⊆ pool ∧ b.subterms ⊆ pool :=
  List.append_subset.mp (List.cons_subset.mp hsub).2

theorem unary_subset {h : SymHeader} {op : SymUnary} {a : SymExpr} {high low : ℕ}
    (hsub : (unary h op a high low).subterms ⊆ pool) : a.subterms ⊆ pool :=
  (List.cons_subset.mp hsub).2

theorem ternary_subset {h : SymHeader} {c t f : SymExpr} (hsub : (ternary h c t f).subterms ⊆ pool) :
    c.subterms ⊆ pool ∧ t.subterms ⊆ pool ∧ f.subterms ⊆ pool := by
  obtain ⟨hc, htf⟩ := List.append_subset.mp (List.cons_subset.mp hsub).2
  exact ⟨hc, List.append_subset.mp htf⟩

end SymExpr

/-- The nodes of some expressions in one memory: those at one address are the same. -/
def Coherent (pool : List SymExpr) : Prop := ∀ x ∈ pool, ∀ y ∈ pool, x.addr = y.addr → x = y

section Evaluator

variable {observedValues : ℕ → Option DseObservedValue} {pool : List SymExpr}

/-- A word that the evaluator may return for an expression. -/
def IsValueOf (observedValues : ℕ → Option DseObservedValue) (e : SymExpr) (value : BitVec 64) : Prop :=
  ∀ σ, Agrees observedValues σ → value = (e.bits e.width σ).word ∧
    ∀ v ∈ e.visited σ, ∃ observed, observedValues v.2.id = some observed ∧ observed.width = v.1

/-- What the table holds of finished nodes. -/
def MemoSound (observedValues : ℕ → Option DseObservedValue) (pool : List SymExpr) (memo : ReplayMemo) :
    Prop :=
  ∀ x ∈ pool, ∀ value, memo.entries x.addr = some ⟨.ok value, true⟩ → IsValueOf observedValues x value

/-- The table stays sound when the entry of a node changes, if the entry says nothing wrong. -/
theorem MemoSound.update {entries : ℕ → Option DseReplayMemoEntry} {size : ℕ} {heap : Heap}
    (h : MemoSound observedValues pool ⟨entries, size, heap⟩) (hpool : Coherent pool) {e : SymExpr}
    (he : e ∈ pool) {entry : DseReplayMemoEntry}
    (hentry : ∀ value, entry = ⟨.ok value, true⟩ → IsValueOf observedValues e value)
    (size' : ℕ) (heap' : Heap) :
    MemoSound observedValues pool ⟨update entries e.addr (some entry), size', heap'⟩ := by
  intro x hx value hvalue
  dsimp only at hvalue
  by_cases haddr : x.addr = e.addr
  · obtain rfl := hpool x hx e he haddr
    rw [update_self] at hvalue
    exact hentry value (Option.some.inj hvalue)
  · rw [update_of_ne haddr] at hvalue
    exact h x hx value hvalue

/-- An evaluation that keeps the table sound, and what it returns. -/
def Evaluates (observedValues : ℕ → Option DseObservedValue) (pool : List SymExpr)
    (x : ReplayEval (BitVec 64)) (p : BitVec 64 → Prop) : Prop :=
  ∀ memo value memo', MemoSound observedValues pool memo → x memo = (.ok value, memo') →
    MemoSound observedValues pool memo' ∧ p value

namespace Evaluates

variable {x : ReplayEval (BitVec 64)} {p q : BitVec 64 → Prop}

theorem pure {value : BitVec 64} (h : p value) : Evaluates observedValues pool (Pure.pure value) p := by
  intro memo _ _ hmemo hx
  cases hx
  exact ⟨hmemo, h⟩

theorem throw (failure : DseReplayEvalFailure) :
    Evaluates observedValues pool (MonadExcept.throw failure) p := by
  intro memo _ _ _ hx
  cases hx

theorem bind {f : BitVec 64 → ReplayEval (BitVec 64)} (hx : Evaluates observedValues pool x p)
    (hf : ∀ a, p a → Evaluates observedValues pool (f a) q) :
    Evaluates observedValues pool (x >>= f) q := by
  intro memo value memo' hmemo hrun
  rcases hresult : x memo with ⟨failure | a, mid⟩
  · have hbind : (x >>= f) memo = (.error failure, mid) := by
      show (ExceptT.bindCont f (x memo).1) (x memo).2 = _
      rw [hresult]
      rfl
    rw [hbind] at hrun
    cases hrun
  · have hbind : (x >>= f) memo = f a mid := by
      show (ExceptT.bindCont f (x memo).1) (x memo).2 = _
      rw [hresult]
      rfl
    rw [hbind] at hrun
    obtain ⟨hmid, ha⟩ := hx memo a mid hmemo hresult
    exact hf a ha mid value memo' hmid hrun

theorem mono (hx : Evaluates observedValues pool x p) (h : ∀ value, p value → q value) :
    Evaluates observedValues pool x q := by
  intro memo value memo' hmemo hrun
  obtain ⟨hmemo', hvalue⟩ := hx memo value memo' hmemo hrun
  exact ⟨hmemo', h value hvalue⟩

theorem evalIf {fits : Bool} (hx : fits = true → Evaluates observedValues pool x p) :
    Evaluates observedValues pool (evalIf fits x) p := by
  cases fits with
  | true => exact hx rfl
  | false => exact throw _

/-- A node is evaluated once, and later found in the table. -/
theorem memoised (hpool : Coherent pool) {e : SymExpr} (he : e ∈ pool) {depth : ℕ}
    (hx : Evaluates observedValues pool x (IsValueOf observedValues e)) :
    Evaluates observedValues pool (memoised e.header depth x) (IsValueOf observedValues e) := by
  intro memo value memo' hmemo hrun
  rw [TaintForge.memoised] at hrun
  by_cases hguard : e.header.width = 0 ∨ e.header.width > 64 ∨ depth > dseMaxReplayDepth
  · rw [if_pos hguard] at hrun
    cases hrun
  rw [if_neg hguard] at hrun
  rcases hentry : memo.entries e.header.addr with _ | ⟨status, complete⟩
  · rw [hentry] at hrun
    dsimp only at hrun
    by_cases hfull : memo.size ≥ dseMaxReplayEvalNodes
    · rw [if_pos hfull] at hrun
      cases hrun
    rw [if_neg hfull] at hrun
    by_cases hgranted : (memo.heap.calloc 1 24).1 = false
    · rw [if_pos hgranted] at hrun
      cases hrun
    rw [if_neg hgranted] at hrun
    -- an unfinished entry says nothing
    have hstart : MemoSound observedValues pool
        ⟨update memo.entries e.header.addr (some ⟨.error .invalidExpr, false⟩), memo.size + 1,
          (memo.heap.calloc 1 24).2⟩ :=
      MemoSound.update hmemo hpool he (fun _ h => by cases h) _ _
    rcases hresult : x ⟨update memo.entries e.header.addr (some ⟨.error .invalidExpr, false⟩), memo.size + 1,
      (memo.heap.calloc 1 24).2⟩ with ⟨failure | v, mid⟩
    · rw [hresult] at hrun
      cases hrun
    · rw [hresult] at hrun
      obtain ⟨hmid, hv⟩ := hx _ v mid hstart hresult
      have hmasked : IsValueOf observedValues e (maskW v e.width) := by
        intro σ hσ
        obtain ⟨hbits, hvisited⟩ := hv σ hσ
        have hwidth : e.width ≤ 64 := not_lt.mp fun h => hguard (Or.inr (Or.inl h))
        rw [hbits, maskW_word hwidth]
        exact ⟨rfl, hvisited⟩
      cases hrun
      exact ⟨MemoSound.update hmid hpool he (fun w hw => by cases hw; exact hmasked) _ _, hmasked⟩
  · rw [hentry] at hrun
    cases complete with
    | false => cases hrun
    | true =>
      cases hrun
      exact ⟨hmemo, hmemo e he value hentry⟩

end Evaluates

/-- **The evaluator computes the value of an expression**, and only when its variables are observed. -/
theorem dseEvalExprObservedImpl_sound (hpool : Coherent pool) {e : SymExpr} (hwf : e.WellFormed)
    (hsub : e.subterms ⊆ pool) (depth : ℕ) :
    Evaluates observedValues pool (dseEvalExprObservedImpl observedValues e depth)
      (IsValueOf observedValues e) := by
  have he : e ∈ pool := hsub e.mem_subterms_self
  induction e generalizing depth with
  | const h value =>
    refine Evaluates.memoised hpool he (.pure fun σ _ => ⟨?_, fun v hv => nomatch hv⟩)
    rw [maskW_eq_word hwf.1.2]
    show _ = (BitVec.ofNat h.width (value.setWidth h.width).toNat).word
    rw [BitVec.ofNat_toNat, BitVec.setWidth_eq]
  | var h symbol =>
    refine Evaluates.memoised hpool he ?_
    rw [evalVar]
    rcases hobserved : observedValues symbol.id with _ | observed
    · exact .throw _
    · by_cases hwidth : observed.width = h.width
      · dsimp only
        rw [if_neg (not_not.mpr hwidth)]
        refine .pure fun σ hσ => ⟨?_, fun v hv => ?_⟩
        · rw [maskW_eq_word hwf.1.2]
          show _ = (BitVec.ofNat h.width (σ symbol h.width).toNat).word
          rw [BitVec.ofNat_toNat, BitVec.setWidth_eq, ← hwidth, hσ symbol observed hobserved]
        · obtain rfl := List.mem_singleton.mp hv
          exact ⟨observed, hobserved, hwidth⟩
      · dsimp only
        rw [if_pos hwidth]
        exact .throw _
  | binary h op a b iha ihb =>
    obtain ⟨hsuba, hsubb⟩ := SymExpr.binary_subset hsub
    refine Evaluates.memoised hpool he (.evalIf fun _ => ?_)
    refine (iha hwf.2.2.2.1 hsuba _ (hsuba a.mem_subterms_self)).bind fun left hleft => ?_
    refine (ihb hwf.2.2.2.2 hsubb _ (hsubb b.mem_subterms_self)).bind fun right hright => .pure ?_
    intro σ hσ
    obtain ⟨hl, hvl⟩ := hleft σ hσ
    obtain ⟨hr, hvr⟩ := hright σ hσ
    rw [hl, hr, evalBinary_node hwf]
    exact ⟨rfl, fun v hv => (List.mem_append.mp hv).elim (hvl v) (hvr v)⟩
  | unary h op a high low iha =>
    have hsuba := SymExpr.unary_subset hsub
    refine Evaluates.memoised hpool he (.evalIf fun _ => ?_)
    refine (iha hwf.2.2.2 hsuba _ (hsuba a.mem_subterms_self)).bind fun left hleft => .pure ?_
    intro σ hσ
    obtain ⟨hl, hvl⟩ := hleft σ hσ
    rw [hl, evalUnary_node hwf]
    exact ⟨rfl, hvl⟩
  | ternary h c t f ihc iht ihf =>
    obtain ⟨hw, hvar, ⟨hcw, htw, hfw⟩, hwfc, hwft, hwff⟩ := hwf
    obtain ⟨hsubc, hsubt, hsubf⟩ := SymExpr.ternary_subset hsub
    refine Evaluates.memoised hpool he (.evalIf fun _ => ?_)
    refine (ihc hwfc hsubc _ (hsubc c.mem_subterms_self)).bind fun condition hcondition => ?_
    have hbit : ∀ σ, Agrees observedValues σ → (condition &&& 1 ≠ 0 ↔ c.bits 1 σ = 1) := by
      intro σ hσ
      rw [(hcondition σ hσ).1, hcw]
      generalize c.bits 1 σ = bit
      revert bit
      decide
    -- the value and the variables of the selected branch, with the variables of the condition
    have hbranch : ∀ x : SymExpr, x.width = h.width →
        (∀ σ, Agrees observedValues σ → (if c.bits 1 σ = 1 then t else f) = x) →
        ∀ value, IsValueOf observedValues x value →
          IsValueOf observedValues (.ternary h c t f) value := by
      intro x hxw hselect value hvalue σ hσ
      obtain ⟨hv, hvisited⟩ := hvalue σ hσ
      have hvisitc := (hcondition σ hσ).2
      refine ⟨?_, fun v hmem => (List.mem_append.mp hmem).elim (hvisitc v) fun hsel => hvisited v ?_⟩
      · rw [hv, hxw, ← hselect σ hσ]
        show _ = ((SymExpr.ternary h c t f).bits h.width σ).word
        rw [SymExpr.bits_ternary]
        split <;> rfl
      · rw [← hselect σ hσ]
        split
        · rename_i hsel'
          rwa [if_pos hsel'] at hsel
        · rename_i hsel'
          rwa [if_neg hsel'] at hsel
    by_cases hone : condition &&& 1 ≠ 0
    · rw [if_pos hone]
      exact (iht hwft hsubt _ (hsubt t.mem_subterms_self)).mono
        (hbranch t htw fun σ hσ => if_pos ((hbit σ hσ).mp hone))
    · rw [if_neg hone]
      exact (ihf hwff hsubf _ (hsubf f.mem_subterms_self)).mono
        (hbranch f hfw fun σ hσ => if_neg fun h => hone ((hbit σ hσ).mpr h))

theorem dseEvalExprObserved_sound {e : SymExpr} (hwf : e.WellFormed) (hshared : Coherent e.subterms)
    {heap heap' : Heap} {value : BitVec 64}
    (h : dseEvalExprObserved observedValues e heap = (.ok value, heap')) :
    IsValueOf observedValues e value := by
  rw [dseEvalExprObserved] at h
  rcases hrun : dseEvalExprObservedImpl observedValues e 0 ⟨fun _ => none, 0, heap⟩ with ⟨status, memo⟩
  rw [hrun] at h
  cases h
  -- the table is empty at the start
  exact (dseEvalExprObservedImpl_sound hshared hwf (List.Subset.refl _) 0 _ value memo
    (fun x _ v hv => by cases hv) hrun).2

end Evaluator

/-! ### Evaluating again -/

section Again

variable {observedValues observedValues' : ℕ → Option DseObservedValue}

/-- A table that is as another one, with an allocator that grants everything. -/
structure ReplayMemo.SameTable (memo memo' : ReplayMemo) : Prop where
  entries : memo'.entries = memo.entries
  size : memo'.size = memo.size
  ample : memo'.heap.Ample

/-- What the first evaluation returns the second one returns as well. -/
def Repeats (x y : ReplayEval (BitVec 64)) : Prop :=
  ∀ memo memo₁ value mid, memo.SameTable memo₁ → x memo = (.ok value, mid) →
    ∃ mid₁, y memo₁ = (.ok value, mid₁) ∧ mid.SameTable mid₁

namespace Repeats

variable {x y : ReplayEval (BitVec 64)}

theorem pure (value : BitVec 64) : Repeats (Pure.pure value) (Pure.pure value) := by
  intro memo memo₁ _ _ hsame hrun
  cases hrun
  exact ⟨memo₁, rfl, hsame⟩

theorem throw (failure : DseReplayEvalFailure) : Repeats (MonadExcept.throw failure) y := by
  intro _ _ _ _ _ hrun
  cases hrun

theorem bind {f g : BitVec 64 → ReplayEval (BitVec 64)} (hx : Repeats x y)
    (hf : ∀ a, Repeats (f a) (g a)) : Repeats (x >>= f) (y >>= g) := by
  intro memo memo₁ value mid hsame hrun
  have hbind : ∀ (z : ReplayEval (BitVec 64)) (k : BitVec 64 → ReplayEval (BitVec 64)) (m : ReplayMemo),
      (z >>= k) m = ExceptT.bindCont k (z m).1 (z m).2 := fun _ _ _ => rfl
  rw [hbind] at hrun
  rcases hresult : x memo with ⟨failure | a, next⟩
  · rw [hresult] at hrun
    cases hrun
  · rw [hresult] at hrun
    obtain ⟨next₁, hy, hnext⟩ := hx memo memo₁ a next hsame hresult
    rw [hbind, hy]
    exact hf a next next₁ value mid hnext hrun

theorem evalIf {fits : Bool} (hx : Repeats x y) : Repeats (evalIf fits x) (evalIf fits y) := by
  cases fits with
  | true => exact hx
  | false => exact throw _

theorem memoised {h : SymHeader} {depth : ℕ} (hx : Repeats x y) :
    Repeats (memoised h depth x) (memoised h depth y) := by
  intro memo memo₁ value mid hsame hrun
  rw [TaintForge.memoised] at hrun ⊢
  by_cases hguard : h.width = 0 ∨ h.width > 64 ∨ depth > dseMaxReplayDepth
  · rw [if_pos hguard] at hrun
    cases hrun
  rw [if_neg hguard] at hrun ⊢
  rw [hsame.entries]
  rcases hentry : memo.entries h.addr with _ | ⟨status, complete⟩
  · rw [hentry] at hrun
    dsimp only at hrun ⊢
    rw [hsame.size]
    by_cases hfull : memo.size ≥ dseMaxReplayEvalNodes
    · rw [if_pos hfull] at hrun
      cases hrun
    rw [if_neg hfull] at hrun ⊢
    by_cases hgranted : (memo.heap.calloc 1 24).1 = false
    · rw [if_pos hgranted] at hrun
      cases hrun
    rw [if_neg hgranted] at hrun
    have hcalloc : memo₁.heap.calloc 1 24 = (true, memo₁.heap.next) := hsame.ample.calloc (by decide)
    rw [hcalloc, if_neg (show ¬ true = false by decide)]
    have hstart : ReplayMemo.SameTable
        ⟨update memo.entries h.addr (some ⟨.error .invalidExpr, false⟩), memo.size + 1,
          (memo.heap.calloc 1 24).2⟩
        ⟨update memo.entries h.addr (some ⟨.error .invalidExpr, false⟩), memo.size + 1,
          memo₁.heap.next⟩ :=
      ⟨rfl, rfl, hsame.ample.next⟩
    rcases hresult : x ⟨update memo.entries h.addr (some ⟨.error .invalidExpr, false⟩), memo.size + 1,
      (memo.heap.calloc 1 24).2⟩ with ⟨failure | v, next⟩
    · rw [hresult] at hrun
      cases hrun
    · rw [hresult] at hrun
      obtain ⟨next₁, hy, hnext⟩ := hx _ _ v next hstart hresult
      rw [hy]
      cases hrun
      refine ⟨_, rfl, ?_, hnext.size, hnext.ample⟩
      show update next₁.entries h.addr _ = update next.entries h.addr _
      rw [hnext.entries]
  · rw [hentry] at hrun
    cases complete with
    | false => cases hrun
    | true =>
      cases hrun
      exact ⟨memo₁, rfl, hsame⟩

end Repeats

theorem evalVar_repeats
    (hbound : ∀ id value, observedValues id = some value → observedValues' id = some value) (width : ℕ)
    (symbol : SymVar) : Repeats (evalVar observedValues width symbol) (evalVar observedValues' width symbol) := by
  rw [evalVar, evalVar]
  rcases hobserved : observedValues symbol.id with _ | observed
  · exact .throw _
  · rw [hbound _ _ hobserved]
    by_cases hwidth : observed.width ≠ width
    · dsimp only
      rw [if_pos hwidth]
      exact .throw _
    · dsimp only
      rw [if_neg hwidth]
      exact .pure _

/-- **An expression that has been evaluated can be evaluated again**, also when more variables have got
a value, and with the same result. -/
theorem dseEvalExprObserved_again
    (hbound : ∀ id value, observedValues id = some value → observedValues' id = some value) {e : SymExpr}
    {heap heap' heap₁ : Heap} {value : BitVec 64}
    (h : dseEvalExprObserved observedValues e heap = (.ok value, heap')) (hample : heap₁.Ample) :
    ∃ heap₁', dseEvalExprObserved observedValues' e heap₁ = (.ok value, heap₁') ∧ heap₁'.Ample := by
  have hall : ∀ depth, Repeats (dseEvalExprObservedImpl observedValues e depth)
      (dseEvalExprObservedImpl observedValues' e depth) := by
    clear h
    induction e with
    | const h value => exact fun depth => .memoised (.pure _)
    | var h symbol => exact fun depth => .memoised (evalVar_repeats hbound h.width symbol)
    | binary h op a b iha ihb =>
      exact fun depth => .memoised (.evalIf (.bind (iha _) fun _ => .bind (ihb _) fun _ => .pure _))
    | unary h op a high low iha =>
      exact fun depth => .memoised (.evalIf (.bind (iha _) fun _ => .pure _))
    | ternary h c t f ihc iht ihf =>
      refine fun depth => .memoised (.evalIf (.bind (ihc _) fun condition => ?_))
      by_cases hone : condition &&& 1 ≠ 0
      · rw [if_pos hone, if_pos hone]
        exact iht _
      · rw [if_neg hone, if_neg hone]
        exact ihf _
  rw [dseEvalExprObserved] at h
  rcases hrun : dseEvalExprObservedImpl observedValues e 0 ⟨fun _ => none, 0, heap⟩ with ⟨status, memo⟩
  rw [hrun] at h
  cases h
  obtain ⟨memo₁, hrun₁, hsame⟩ := hall 0 ⟨fun _ => none, 0, heap⟩ ⟨fun _ => none, 0, heap₁⟩ value memo
    ⟨rfl, rfl, hample⟩ hrun
  refine ⟨memo₁.heap, ?_, hsame.ample⟩
  rw [dseEvalExprObserved, hrun₁]

end Again

end TaintForge
