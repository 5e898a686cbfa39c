import TaintForge.Dse.SymExpr
import TaintForge.Lib.WordBits

/-!
# The meaning of symbolic expressions

`SymExpr.denote` gives an expression its value under a valuation of the symbols, with the operations of
bit vectors.  An expression that is well formed has a value of its width.

* `Represents e w f`: the well-formed expression `e` of width `w` has the value `f σ` for every `σ`.
* `symExprAdd_represents`, …: each constructor computes its operation on what the operands represent.
-/

namespace TaintForge

open BitVec

/-- Values for the symbols.  A symbol that occurs in two widths counts as two. -/
abbrev Valuation := SymVar → (w : ℕ) → BitVec w

/-! ### Operations -/

namespace SymBinary

/-- An operation on two values of the width of its result. -/
def onBits (op : SymBinary) {w : ℕ} (x y : BitVec w) : BitVec w :=
  match op with
  | .add => x + y
  | .sub => x - y
  | .mul => x * y
  | .xor => x ^^^ y
  | .and => x &&& y
  | .or => x ||| y
  | .shl => x <<< y
  | .lshr => x >>> y
  | .ashr => x.sshiftRight' y
  | _ => 0

/-- A relation. -/
def holds (op : SymBinary) {w : ℕ} (x y : BitVec w) : Bool :=
  match op with
  | .eq => x == y
  | .ult => x.ult y
  | .slt => x.slt y
  | _ => false

/-- The value of a node from the values of its operands, of widths `wa` and `wb`. -/
def apply (op : SymBinary) (w wa wb x y : ℕ) : ℕ :=
  match op with
  | .concat => (BitVec.ofNat wa x ++ BitVec.ofNat wb y).toNat
  | .eq | .ult | .slt => (BitVec.ofBool (op.holds (BitVec.ofNat wa x) (BitVec.ofNat wa y))).toNat
  | op => (op.onBits (BitVec.ofNat w x) (BitVec.ofNat w y)).toNat

/-- The operations whose operands have the width of the result. -/
def IsArith (op : SymBinary) : Prop := op ∉ [.concat, .eq, .ult, .slt]

/-- The operations with a result of one bit. -/
def IsRelation (op : SymBinary) : Prop := op ∈ [.eq, .ult, .slt]

instance (op : SymBinary) : Decidable op.IsArith := inferInstanceAs (Decidable (op ∉ _))

instance (op : SymBinary) : Decidable op.IsRelation := inferInstanceAs (Decidable (op ∈ _))

/-- The widths of the operands go with that of the result. -/
def Fits (op : SymBinary) (w wa wb : ℕ) : Prop :=
  match op with
  | .concat => w = wa + wb
  | .eq | .ult | .slt => w = 1 ∧ wa = wb
  | _ => wa = w ∧ wb = w

end SymBinary

namespace SymUnary

def apply (op : SymUnary) (w wa low x : ℕ) : ℕ :=
  match op with
  | .extract => ((BitVec.ofNat wa x).extractLsb' low w).toNat
  | .zext => ((BitVec.ofNat wa x).setWidth w).toNat
  | .sext => ((BitVec.ofNat wa x).signExtend w).toNat

/-- The width of the operand and the bit range go with the width of the result. -/
def Fits (op : SymUnary) (w wa high low : ℕ) : Prop :=
  match op with
  | .extract => low + w ≤ wa ∧ high + 1 = low + w
  | .zext | .sext => wa ≤ w

end SymUnary

/-! ### Expressions -/

namespace SymExpr

/-- The value of an expression. -/
def denote (σ : Valuation) : SymExpr → ℕ
  | .const h value => (value.setWidth h.width).toNat
  | .var h symbol => (σ symbol h.width).toNat
  | .binary h op a b => op.apply h.width a.width b.width (denote σ a) (denote σ b)
  | .unary h op a _ low => op.apply h.width a.width low (denote σ a)
  | .ternary h c t f =>
    if BitVec.ofNat 1 (denote σ c) = 1 then (BitVec.ofNat h.width (denote σ t)).toNat
    else (BitVec.ofNat h.width (denote σ f)).toNat

/-- The value as a bit vector of some width, which should be that of the expression. -/
def bits (e : SymExpr) (w : ℕ) (σ : Valuation) : BitVec w := BitVec.ofNat w (e.denote σ)

/-- What the constructors keep of every node. -/
def WellFormed : SymExpr → Prop
  | .const h value => (1 ≤ h.width ∧ h.width ≤ 64) ∧ h.hasVar = false ∧ value.toNat < 2 ^ h.width
  | .var h _ => (1 ≤ h.width ∧ h.width ≤ 64) ∧ h.hasVar = true
  | .binary h op a b =>
    (1 ≤ h.width ∧ h.width ≤ 64) ∧ h.hasVar = (a.hasVar || b.hasVar) ∧ op.Fits h.width a.width b.width ∧
      WellFormed a ∧ WellFormed b
  | .unary h op a high low =>
    (1 ≤ h.width ∧ h.width ≤ 64) ∧ h.hasVar = a.hasVar ∧ op.Fits h.width a.width high low ∧ WellFormed a
  | .ternary h c t f =>
    (1 ≤ h.width ∧ h.width ≤ 64) ∧ h.hasVar = (c.hasVar || t.hasVar || f.hasVar) ∧
      (c.width = 1 ∧ t.width = h.width ∧ f.width = h.width) ∧ WellFormed c ∧ WellFormed t ∧ WellFormed f

theorem WellFormed.width_le {e : SymExpr} (h : e.WellFormed) : 1 ≤ e.width ∧ e.width ≤ 64 := by
  cases e <;> exact h.1

/-- **Without a variable the value is the same under every valuation.** -/
theorem WellFormed.denote_eq {e : SymExpr} (h : e.WellFormed) (hvar : e.hasVar = false)
    (σ τ : Valuation) : e.denote σ = e.denote τ := by
  induction e with
  | const header value => rfl
  | var header symbol => exact absurd (h.2.symm.trans hvar) (by decide)
  | binary header op a b iha ihb =>
    obtain ⟨-, hor, -, ha, hb⟩ := h
    have hor' : (a.hasVar || b.hasVar) = false := hor.symm.trans hvar
    rw [Bool.or_eq_false_iff] at hor'
    rw [denote, denote, iha ha hor'.1, ihb hb hor'.2]
  | unary header op a high low iha =>
    obtain ⟨-, hsame, -, ha⟩ := h
    rw [denote, denote, iha ha (hsame.symm.trans hvar)]
  | ternary header c t f ihc iht ihf =>
    obtain ⟨-, hor, -, hc, ht, hf⟩ := h
    have hor' : (c.hasVar || t.hasVar || f.hasVar) = false := hor.symm.trans hvar
    rw [Bool.or_eq_false_iff, Bool.or_eq_false_iff] at hor'
    rw [denote, denote, ihc hc hor'.1.1, iht ht hor'.1.2, ihf hf hor'.2]

end SymExpr

theorem SymBinary.apply_lt {op : SymBinary} {w wa wb : ℕ} (h : op.Fits w wa wb) (x y : ℕ) :
    op.apply w wa wb x y < 2 ^ w := by
  cases op with
  | concat =>
    have hw : w = wa + wb := h
    subst hw
    exact BitVec.isLt _
  | eq | ult | slt =>
    have hw : w = 1 := h.1
    subst hw
    exact BitVec.isLt _
  | add | sub | mul | xor | and | or | shl | lshr | ashr => exact BitVec.isLt _

namespace SymExpr

/-- The value has the width of the expression. -/
theorem WellFormed.denote_lt {e : SymExpr} (h : e.WellFormed) (σ : Valuation) :
    e.denote σ < 2 ^ e.width := by
  cases e with
  | const header value => exact BitVec.isLt _
  | var header symbol => exact BitVec.isLt _
  | binary header op a b => exact SymBinary.apply_lt h.2.2.1 _ _
  | unary header op a high low => cases op <;> exact BitVec.isLt _
  | ternary header c t f =>
    rw [denote]
    split
    · exact BitVec.isLt _
    · exact BitVec.isLt _

theorem WellFormed.toNat_bits {e : SymExpr} (h : e.WellFormed) (σ : Valuation) :
    (e.bits e.width σ).toNat = e.denote σ := by
  rw [bits, BitVec.toNat_ofNat, Nat.mod_eq_of_lt (h.denote_lt σ)]

/-! The value of a node from the values of its operands. -/

variable {h : SymHeader} {op : SymBinary} {a b c : SymExpr} (σ : Valuation)

theorem bits_arith (hop : op.IsArith) {w : ℕ} (hw : h.width = w) :
    (binary h op a b).bits w σ = op.onBits (a.bits w σ) (b.bits w σ) := by
  subst hw
  show BitVec.ofNat h.width (op.apply h.width a.width b.width (a.denote σ) (b.denote σ)) = _
  cases op <;>
    first
    | exact absurd hop (by decide)
    | exact (BitVec.ofNat_toNat _ _).trans (BitVec.setWidth_eq _)

theorem bits_relation (hop : op.IsRelation) (hone : h.width = 1) {w : ℕ} (ha : a.width = w) :
    (binary h op a b).bits 1 σ = BitVec.ofBool (op.holds (a.bits w σ) (b.bits w σ)) := by
  show BitVec.ofNat 1 (op.apply h.width a.width b.width (a.denote σ) (b.denote σ)) = _
  rw [ha, hone]
  cases op <;>
    first
    | exact absurd hop (by decide)
    | exact (BitVec.ofNat_toNat _ _).trans (BitVec.setWidth_eq _)

theorem bits_concat {v w : ℕ} (hsum : h.width = v + w) (ha : a.width = v) (hb : b.width = w) :
    (binary h .concat a b).bits (v + w) σ = a.bits v σ ++ b.bits w σ := by
  show BitVec.ofNat (v + w) (SymBinary.apply .concat h.width a.width b.width (a.denote σ) (b.denote σ)) = _
  rw [ha, hb, hsum]
  exact (BitVec.ofNat_toNat _ _).trans (BitVec.setWidth_eq _)

theorem bits_extract (high low : ℕ) :
    (unary h .extract a high low).bits h.width σ = (a.bits a.width σ).extractLsb' low h.width :=
  (BitVec.ofNat_toNat _ _).trans (BitVec.setWidth_eq _)

theorem bits_zext (high low : ℕ) :
    (unary h .zext a high low).bits h.width σ = (a.bits a.width σ).setWidth h.width :=
  (BitVec.ofNat_toNat _ _).trans (BitVec.setWidth_eq _)

theorem bits_sext (high low : ℕ) :
    (unary h .sext a high low).bits h.width σ = (a.bits a.width σ).signExtend h.width :=
  (BitVec.ofNat_toNat _ _).trans (BitVec.setWidth_eq _)

theorem bits_ternary : (ternary h c a b).bits h.width σ =
    if c.bits 1 σ = 1 then a.bits h.width σ else b.bits h.width σ := by
  show BitVec.ofNat h.width
    (if c.bits 1 σ = 1 then (a.bits h.width σ).toNat else (b.bits h.width σ).toNat) = _
  split
  · exact (BitVec.ofNat_toNat _ _).trans (BitVec.setWidth_eq _)
  · exact (BitVec.ofNat_toNat _ _).trans (BitVec.setWidth_eq _)

end SymExpr

/-! ### Representation -/

/-- A well-formed expression of a width, and its value. -/
structure Represents (e : SymExpr) (w : ℕ) (f : Valuation → BitVec w) : Prop where
  wellFormed : e.WellFormed
  width : e.width = w
  bits : ∀ σ, e.bits w σ = f σ

namespace Represents

variable {e a b c : SymExpr} {w v : ℕ} {f g : Valuation → BitVec w}

theorem of_width (h : e.WellFormed) (hw : e.width = w) : Represents e w (e.bits w) :=
  ⟨h, hw, fun _ => rfl⟩

theorem of_wellFormed (h : e.WellFormed) : Represents e e.width (e.bits e.width) := of_width h rfl

theorem congr (h : Represents e w f) (hfg : ∀ σ, f σ = g σ) : Represents e w g :=
  ⟨h.wellFormed, h.width, fun σ => (h.bits σ).trans (hfg σ)⟩

theorem width_le (h : Represents e w f) : 1 ≤ w ∧ w ≤ 64 := h.width ▸ h.wellFormed.width_le

/-- The value of a constant, in its word. -/
theorem word_eq {x : BitVec 64} (h : Represents e w f) (hx : e.constVal = some x) (σ : Valuation) :
    x = (f σ).word := by
  cases e with
  | const header value =>
    cases hx
    have hwidth : header.width = w := h.width
    subst hwidth
    have hbits := h.bits σ
    rw [SymExpr.bits, SymExpr.denote, BitVec.ofNat_toNat, BitVec.setWidth_eq] at hbits
    rw [← hbits]
    apply BitVec.eq_of_toNat_eq
    rw [toNat_word h.width_le.2, BitVec.toNat_setWidth, Nat.mod_eq_of_lt h.wellFormed.2.2]
  | var | binary | unary | ternary => exact absurd hx (by simp [SymExpr.constVal])

end Represents

theorem maskW_eq_word {w : ℕ} (hw : w ≤ 64) (v : BitVec 64) : maskW v w = (v.setWidth w).word := by
  unfold maskW
  split
  · have hw64 : w = 64 := by omega
    subst hw64
    rw [BitVec.setWidth_eq]
    exact (BitVec.setWidth_eq v).symm
  · rename_i hlt
    exact and_lowMask (by omega) v

theorem maskW_word {w : ℕ} (hw : w ≤ 64) (x : BitVec w) : maskW x.word w = x.word := by
  rw [maskW_eq_word hw, setWidth_word hw]

theorem word_allOnes {w : ℕ} (hw : w ≤ 64) : maskW (allOnes 64) w = (allOnes w).word := by
  rw [maskW_eq_word hw]
  congr 1
  apply BitVec.eq_of_getLsbD_eq
  intro i hi
  rw [BitVec.getLsbD_setWidth, BitVec.getLsbD_allOnes, BitVec.getLsbD_allOnes, decide_eq_true hi,
    decide_eq_true (show i < 64 by omega), Bool.true_and]

/-! ### New nodes -/

section Nodes

variable {e a b c : SymExpr} {w v : ℕ} {f g : Valuation → BitVec w}

theorem symExprConst_represents {value : BitVec 64} {x : BitVec w} (h : value.setWidth w = x) :
    (symExprConst value w).All fun e => Represents e w fun _ => x := by
  refine Fallible.All.ite (fun _ => .fail) fun hw => Fallible.All.andThen fun addr => .pure ?_
  have hle : w ≤ 64 := by omega
  refine ⟨⟨⟨show 1 ≤ w by omega, hle⟩, rfl, ?_⟩, rfl, fun σ => ?_⟩
  · show (maskW value w).toNat < 2 ^ w
    rw [maskW_eq_word hle, toNat_word hle]
    exact BitVec.isLt _
  · show BitVec.ofNat w ((maskW value w).setWidth w).toNat = x
    rw [maskW_eq_word hle, setWidth_word hle, BitVec.ofNat_toNat, BitVec.setWidth_eq, h]

theorem symExprVar_represents (symbol : SymVar) (w : ℕ) :
    (symExprVar symbol w).All fun e => Represents e w fun σ => σ symbol w := by
  refine Fallible.All.ite (fun _ => .fail) fun hw => Fallible.All.andThen fun addr => .pure ?_
  refine ⟨⟨⟨show 1 ≤ w by omega, show w ≤ 64 by omega⟩, rfl⟩, rfl, fun σ => ?_⟩
  show BitVec.ofNat w (σ symbol w).toNat = _
  rw [BitVec.ofNat_toNat, BitVec.setWidth_eq]

theorem mkBinary_represents {op : SymBinary} (hop : op.IsArith) (ha : Represents a w f)
    (hb : Represents b w g) :
    (mkBinary op w a b).All fun e => Represents e w fun σ => op.onBits (f σ) (g σ) := by
  refine Fallible.All.andThen fun addr => .pure ?_
  have hfits : op.Fits w a.width b.width := by
    cases op <;> first | exact ⟨ha.width, hb.width⟩ | exact absurd hop (by decide)
  refine ⟨⟨ha.width_le, rfl, hfits, ha.wellFormed, hb.wellFormed⟩, rfl, fun σ => ?_⟩
  rw [← ha.bits σ, ← hb.bits σ]
  exact SymExpr.bits_arith σ hop rfl

/-- A relation between operands of one width. -/
theorem mkBinary_relation {op : SymBinary} (hop : op.IsRelation) (ha : Represents a w f)
    (hb : Represents b w g) :
    (mkBinary op 1 a b).All fun e => Represents e 1 fun σ => BitVec.ofBool (op.holds (f σ) (g σ)) := by
  refine Fallible.All.andThen fun addr => .pure ?_
  have hfits : op.Fits 1 a.width b.width := by
    cases op <;>
      first | exact ⟨rfl, ha.width.trans hb.width.symm⟩ | exact absurd hop (by decide)
  refine ⟨⟨⟨le_rfl, by show 1 ≤ 64; decide⟩, rfl, hfits, ha.wellFormed, hb.wellFormed⟩, rfl, fun σ => ?_⟩
  rw [← ha.bits σ, ← hb.bits σ]
  exact SymExpr.bits_relation σ hop rfl ha.width

theorem mkUnary_represents {op : SymUnary} {high low : ℕ} {h : Valuation → BitVec v}
    (hv : 1 ≤ v ∧ v ≤ 64) (hfits : op.Fits v w high low) (ha : Represents a w f)
    (hop : ∀ σ, BitVec.ofNat v (op.apply v w low (f σ).toNat) = h σ) :
    (mkUnary op v a high low).All fun e => Represents e v h := by
  refine Fallible.All.andThen fun addr => .pure ?_
  refine ⟨⟨hv, rfl, ha.width.symm ▸ hfits, ha.wellFormed⟩, rfl, fun σ => ?_⟩
  rw [← hop σ, ← ha.bits σ]
  show BitVec.ofNat v (op.apply v a.width low (a.denote σ)) = _
  rw [SymExpr.bits, BitVec.toNat_ofNat, ← ha.width, Nat.mod_eq_of_lt (ha.wellFormed.denote_lt σ)]

theorem mkTernary_represents {h : Valuation → BitVec 1} (hc : Represents c 1 h) (ha : Represents a w f)
    (hb : Represents b w g) :
    (mkTernary w c a b).All fun e => Represents e w fun σ => if h σ = 1 then f σ else g σ := by
  refine Fallible.All.andThen fun addr => .pure ?_
  refine ⟨⟨ha.width_le, rfl, ⟨hc.width, ha.width, hb.width⟩, hc.wellFormed, ha.wellFormed, hb.wellFormed⟩,
    rfl, fun σ => ?_⟩
  rw [← hc.bits σ, ← ha.bits σ, ← hb.bits σ]
  exact SymExpr.bits_ternary σ

end Nodes

/-! ### Folding

An operation with constants among its operands returns one of them or a new constant. -/

section Folding

variable {a b c : SymExpr} {w v : ℕ} {f g : Valuation → BitVec w} {x y : BitVec 64}

theorem Represents.eq_of_constVal (ha : Represents a w f) {z : BitVec w}
    (hx : a.constVal = some z.word) (σ : Valuation) : f σ = z :=
  (word_injective ha.width_le.2 (ha.word_eq hx σ)).symm

theorem Represents.eq_zero (ha : Represents a w f) (hx : a.constVal = some 0) (σ : Valuation) :
    f σ = 0#w := by
  apply ha.eq_of_constVal
  rw [hx, word, BitVec.setWidth_zero]
  rfl

theorem Represents.eq_allOnes (ha : Represents a w f)
    (hx : a.constVal = some (maskW (allOnes 64) a.width)) (σ : Valuation) : f σ = allOnes w := by
  apply ha.eq_of_constVal
  rw [hx, ha.width, word_allOnes ha.width_le.2]

theorem Represents.eq_one (ha : Represents a w f) (hx : a.constVal = some 1) (σ : Valuation) :
    f σ = 1#w := by
  have hw := ha.width_le
  apply ha.eq_of_constVal
  rw [hx]
  congr 1
  apply BitVec.eq_of_toNat_eq
  have hone : (1#w).toNat = 1 := by
    rw [BitVec.toNat_ofNat, Nat.mod_eq_of_lt (Nat.one_lt_two_pow (by omega))]
  rw [toNat_word hw.2, hone]
  rfl

/-- Two constants are folded to one. -/
theorem foldConst_represents {k : BitVec 64 → BitVec 64 → BitVec 64} {h : BitVec w → BitVec w → BitVec w}
    (ha : Represents a w f) (hb : Represents b w g) (hx : a.constVal = some x)
    (hy : b.constVal = some y) (hk : ∀ p q : BitVec w, (k p.word q.word).setWidth w = h p q) :
    (symExprConst (maskW (k x y) a.width) a.width).All fun e => Represents e w fun σ => h (f σ) (g σ) := by
  have hw := ha.width_le.2
  rw [ha.width]
  refine (symExprConst_represents rfl).mono fun e he => he.congr fun σ => ?_
  rw [maskW_eq_word hw, setWidth_word hw, ha.word_eq hx σ, hb.word_eq hy σ, hk]

theorem symExprAdd_represents (ha : Represents a w f) (hb : Represents b w g) :
    (symExprAdd a b).All fun e => Represents e w fun σ => f σ + g σ := by
  refine .ite (fun _ => .fail) fun _ => .ite (fun hzero => .pure ?_) fun _ =>
    .ite (fun hzero => .pure ?_) fun _ => ?_
  · exact hb.congr fun σ => by rw [ha.eq_zero hzero, BitVec.zero_add]
  · exact ha.congr fun σ => by rw [hb.eq_zero hzero, BitVec.add_zero]
  · split
    · rename_i hx hy
      exact foldConst_represents ha hb hx hy (setWidth_word_add ha.width_le.2)
    · rw [ha.width]
      exact mkBinary_represents (by decide) ha hb

theorem symExprSub_represents (ha : Represents a w f) (hb : Represents b w g) :
    (symExprSub a b).All fun e => Represents e w fun σ => f σ - g σ := by
  refine .ite (fun _ => .fail) fun _ => .ite (fun hzero => .pure ?_) fun _ => ?_
  · exact ha.congr fun σ => by rw [hb.eq_zero hzero, BitVec.sub_zero]
  · split
    · rename_i hx hy
      exact foldConst_represents ha hb hx hy (setWidth_word_sub ha.width_le.2)
    · rw [ha.width]
      exact mkBinary_represents (by decide) ha hb

theorem symExprXor_represents (ha : Represents a w f) (hb : Represents b w g) :
    (symExprXor a b).All fun e => Represents e w fun σ => f σ ^^^ g σ := by
  refine .ite (fun _ => .fail) fun _ => .ite (fun hzero => .pure ?_) fun _ =>
    .ite (fun hzero => .pure ?_) fun _ => ?_
  · exact hb.congr fun σ => by rw [ha.eq_zero hzero, BitVec.zero_xor]
  · exact ha.congr fun σ => by rw [hb.eq_zero hzero, BitVec.xor_zero]
  · split
    · rename_i hx hy
      exact foldConst_represents ha hb hx hy (setWidth_word_xor ha.width_le.2)
    · rw [ha.width]
      exact mkBinary_represents (by decide) ha hb

theorem symExprAnd_represents (ha : Represents a w f) (hb : Represents b w g) :
    (symExprAnd a b).All fun e => Represents e w fun σ => f σ &&& g σ := by
  refine .ite (fun _ => .fail) fun hwidth => .ite (fun hzero => .pure ?_) fun _ =>
    .ite (fun hzero => .pure ?_) fun _ => .ite (fun hall => .pure ?_) fun _ =>
      .ite (fun hall => .pure ?_) fun _ => ?_
  · exact ha.congr fun σ => by rw [ha.eq_zero hzero, BitVec.zero_and]
  · exact hb.congr fun σ => by rw [hb.eq_zero hzero, BitVec.and_zero]
  · exact hb.congr fun σ => by rw [ha.eq_allOnes hall, BitVec.allOnes_and]
  · rw [not_not.mp hwidth] at hall
    exact ha.congr fun σ => by rw [hb.eq_allOnes hall, BitVec.and_allOnes]
  · split
    · rename_i hx hy
      exact foldConst_represents ha hb hx hy (setWidth_word_and ha.width_le.2)
    · rw [ha.width]
      exact mkBinary_represents (by decide) ha hb

theorem symExprOr_represents (ha : Represents a w f) (hb : Represents b w g) :
    (symExprOr a b).All fun e => Represents e w fun σ => f σ ||| g σ := by
  refine .ite (fun _ => .fail) fun hwidth => .ite (fun hzero => .pure ?_) fun _ =>
    .ite (fun hzero => .pure ?_) fun _ => .ite (fun hall => .pure ?_) fun _ =>
      .ite (fun hall => .pure ?_) fun _ => ?_
  · exact hb.congr fun σ => by rw [ha.eq_zero hzero, BitVec.zero_or]
  · exact ha.congr fun σ => by rw [hb.eq_zero hzero, BitVec.or_zero]
  · exact ha.congr fun σ => by rw [ha.eq_allOnes hall, BitVec.allOnes_or]
  · rw [not_not.mp hwidth] at hall
    exact hb.congr fun σ => by rw [hb.eq_allOnes hall, BitVec.or_allOnes]
  · split
    · rename_i hx hy
      exact foldConst_represents ha hb hx hy (setWidth_word_or ha.width_le.2)
    · rw [ha.width]
      exact mkBinary_represents (by decide) ha hb

theorem symExprMul_represents (ha : Represents a w f) (hb : Represents b w g) :
    (symExprMul a b).All fun e => Represents e w fun σ => f σ * g σ := by
  refine .ite (fun _ => .fail) fun _ => ?_
  split
  · rename_i hx hy
    exact foldConst_represents ha hb hx hy (setWidth_word_mul ha.width_le.2)
  · refine .ite (fun hzero => .pure ?_) fun _ => .ite (fun hzero => .pure ?_) fun _ =>
      .ite (fun hone => .pure ?_) fun _ => .ite (fun hone => .pure ?_) fun _ => ?_
    · exact ha.congr fun σ => by rw [ha.eq_zero hzero, BitVec.zero_mul]
    · exact hb.congr fun σ => by rw [hb.eq_zero hzero, BitVec.mul_zero]
    · exact hb.congr fun σ => by rw [ha.eq_one hone, BitVec.one_mul]
    · exact ha.congr fun σ => by rw [hb.eq_one hone, BitVec.mul_one]
    · rw [ha.width]
      exact mkBinary_represents (by decide) ha hb

/-! ### Relations and choice -/

theorem compareConst_eq {operation : SymBinary} {comparison : Bool} (hw : 1 ≤ w ∧ w ≤ 64) {p q : BitVec w}
    (h : compareConst operation w p.word q.word = some comparison) :
    operation.IsRelation ∧ comparison = operation.holds p q := by
  cases operation with
  | eq => exact ⟨by decide, (Option.some.inj h).symm.trans (word_beq hw.2 p q)⟩
  | ult => exact ⟨by decide, (Option.some.inj h).symm.trans (word_ult hw.2 p q)⟩
  | slt => exact ⟨by decide, (Option.some.inj h).symm.trans (xor_sign_ult hw.2 p q hw.1)⟩
  | add | sub | mul | xor | and | or | shl | lshr | ashr | concat => exact absurd h (by nofun)

theorem symExprCompare_represents {operation : SymBinary} (hop : operation.IsRelation)
    (ha : Represents a w f) (hb : Represents b w g) :
    (symExprCompare operation a b).All fun e =>
      Represents e 1 fun σ => BitVec.ofBool (operation.holds (f σ) (g σ)) := by
  have hw := ha.width_le
  refine .ite (fun _ => .fail) fun _ => ?_
  split
  · rename_i x y hx hy
    split
    · rename_i comparison hcomparison
      refine (symExprConst_represents rfl).mono fun e he => he.congr fun σ => ?_
      rw [ha.width, ha.word_eq hx σ, hb.word_eq hy σ, maskW_word hw.2, maskW_word hw.2] at hcomparison
      rw [← (compareConst_eq hw hcomparison).2]
      cases comparison <;> rfl
    · exact .fail
  · exact mkBinary_relation hop ha hb

theorem symExprEq_represents (ha : Represents a w f) (hb : Represents b w g) :
    (symExprEq a b).All fun e => Represents e 1 fun σ => BitVec.ofBool (f σ == g σ) :=
  symExprCompare_represents (show SymBinary.IsRelation .eq by decide) ha hb

theorem symExprUlt_represents (ha : Represents a w f) (hb : Represents b w g) :
    (symExprUlt a b).All fun e => Represents e 1 fun σ => BitVec.ofBool ((f σ).ult (g σ)) :=
  symExprCompare_represents (show SymBinary.IsRelation .ult by decide) ha hb

theorem symExprSlt_represents (ha : Represents a w f) (hb : Represents b w g) :
    (symExprSlt a b).All fun e => Represents e 1 fun σ => BitVec.ofBool ((f σ).slt (g σ)) :=
  symExprCompare_represents (show SymBinary.IsRelation .slt by decide) ha hb

theorem symExprIte_represents {h : Valuation → BitVec 1} (hc : Represents c 1 h)
    (ha : Represents a w f) (hb : Represents b w g) :
    (symExprIte c a b).All fun e => Represents e w fun σ => if h σ = 1 then f σ else g σ := by
  refine .ite (fun _ => .fail) fun _ => ?_
  split
  · rename_i x hx
    have hcond : ∀ σ, (x &&& 1 ≠ 0 ↔ h σ = 1) := by
      intro σ
      rw [hc.word_eq hx σ]
      generalize h σ = bit
      revert bit
      decide
    refine .ite (fun hone => .pure ?_) fun hone => .pure ?_
    · exact ha.congr fun σ => by rw [if_pos ((hcond σ).mp hone)]
    · exact hb.congr fun σ => by rw [if_neg fun heq => hone ((hcond σ).mpr heq)]
  · rw [ha.width]
    exact mkTernary_represents hc ha hb

/-! ### Widths -/

theorem symExprZext_represents (ha : Represents a w f) (v : ℕ) :
    (symExprZext a v).All fun e => Represents e v fun σ => (f σ).setWidth v := by
  have hw := ha.width_le
  rw [symExprZext, ha.width]
  refine .ite (fun _ => .fail) fun hfits => .ite (fun hsame => .pure ?_) fun _ => ?_
  · subst hsame
    exact ha.congr fun σ => (BitVec.setWidth_eq _).symm
  · split
    · rename_i x hx
      refine (symExprConst_represents rfl).mono fun e he => he.congr fun σ => ?_
      rw [ha.word_eq hx σ, maskW_word hw.2]
      apply BitVec.eq_of_toNat_eq
      rw [BitVec.toNat_setWidth, BitVec.toNat_setWidth, toNat_word hw.2]
    · refine mkUnary_represents (by omega) (show w ≤ v by omega) ha fun σ => ?_
      show BitVec.ofNat v ((BitVec.ofNat w (f σ).toNat).setWidth v).toNat = _
      rw [BitVec.ofNat_toNat, BitVec.setWidth_eq, BitVec.ofNat_toNat, BitVec.setWidth_eq]

/-- The bits that are set above the width of a negative constant. -/
theorem getLsbD_signFill {v : ℕ} (hw : w ≤ v) (hv : v ≤ 64) (i : ℕ) (hi : i < v) :
    (maskW (allOnes 64) v &&& ~~~maskW (allOnes 64) w).getLsbD i = decide (w ≤ i) := by
  rw [BitVec.getLsbD_and, BitVec.getLsbD_not, word_allOnes hv, word_allOnes (by omega), getLsbD_word hv,
    getLsbD_word (by omega), BitVec.getLsbD_allOnes, BitVec.getLsbD_allOnes, decide_eq_true hi,
    decide_eq_true (show i < 64 by omega), Bool.true_and, Bool.true_and, ← decide_not, decide_eq_decide]
  omega

/-- The sign bit of a value in its word. -/
theorem word_shift_msb (hw : 1 ≤ w ∧ w ≤ 64) (p : BitVec w) :
    (p.word >>> (w - 1) &&& 1 ≠ 0) ↔ p.msb = true := by
  have hbit : (p.word >>> (w - 1) &&& 1) = (if p.msb then 1 else 0) := by
    apply BitVec.eq_of_getLsbD_eq
    intro i hi
    rw [BitVec.getLsbD_and, BitVec.getLsbD_ushiftRight, getLsbD_word hw.2, BitVec.msb_eq_getLsbD_last]
    show (p.getLsbD (w - 1 + i) && (1#64).getLsbD i) = _
    rw [BitVec.getLsbD_one]
    by_cases hzero : i = 0
    · subst hzero
      cases p.getLsbD (w - 1) <;> simp
    · rw [decide_eq_false hzero]
      cases p.getLsbD (w - 1) <;> simp [hzero]
  rw [hbit]
  cases p.msb <;> decide

theorem symExprSext_represents (ha : Represents a w f) (v : ℕ) :
    (symExprSext a v).All fun e => Represents e v fun σ => (f σ).signExtend v := by
  have hw := ha.width_le
  rw [symExprSext, ha.width]
  refine .ite (fun _ => .fail) fun hfits => .ite (fun hsame => .pure ?_) fun _ => ?_
  · subst hsame
    exact ha.congr fun σ => (BitVec.signExtend_eq _).symm
  · split
    · rename_i x hx
      refine (symExprConst_represents rfl).mono fun e he => he.congr fun σ => ?_
      have hv : v ≤ 64 := by omega
      rw [maskW_eq_word hv, setWidth_word hv, ha.word_eq hx σ, maskW_word hw.2,
        ← setWidth_word_signExtend hw.2 (f σ) fun i => getLsbD_signFill (show w ≤ v by omega) hv i]
      congr 1
      by_cases hmsb : (f σ).msb = true
      · rw [if_pos hmsb, if_pos ⟨by omega, (word_shift_msb hw _).mpr hmsb⟩]
      · rw [if_neg hmsb, if_neg fun h => hmsb ((word_shift_msb hw _).mp h.2)]
    · refine mkUnary_represents (by omega) (show w ≤ v by omega) ha fun σ => ?_
      show BitVec.ofNat v ((BitVec.ofNat w (f σ).toNat).signExtend v).toNat = _
      rw [BitVec.ofNat_toNat, BitVec.setWidth_eq, BitVec.ofNat_toNat, BitVec.setWidth_eq]

/-- An extraction whose end is computed without wrapping around. -/
theorem symExprExtract_represents (ha : Represents a w f) {low out : ℕ} (hfits : low + out < 2 ^ 32) :
    (symExprExtract a low out).All fun e => Represents e out fun σ => (f σ).extractLsb' low out := by
  have hw := ha.width_le
  rw [symExprExtract, ha.width, Nat.mod_eq_of_lt hfits]
  refine .ite (fun _ => .fail) fun hrange => .ite (fun hsame => .pure ?_) fun _ => ?_
  · obtain ⟨rfl, rfl⟩ := hsame
    exact ha.congr fun σ => BitVec.extractLsb'_eq_self.symm
  · rw [Nat.mod_eq_of_lt (show out < 2 ^ 8 by omega)]
    split
    · rename_i x hx
      refine (symExprConst_represents rfl).mono fun e he => he.congr fun σ => ?_
      rw [maskW_eq_word (by omega), setWidth_word (by omega), ha.word_eq hx σ,
        setWidth_word_extract hw.2]
    · rw [Nat.mod_eq_of_lt (show low + out - 1 < 2 ^ 32 by omega)]
      refine mkUnary_represents (by omega) (show low + out ≤ w ∧ _ by omega) ha fun σ => ?_
      show BitVec.ofNat out ((BitVec.ofNat w (f σ).toNat).extractLsb' low out).toNat = _
      rw [BitVec.ofNat_toNat, BitVec.setWidth_eq, BitVec.ofNat_toNat, BitVec.setWidth_eq]

theorem symExprConcat_represents {h : Valuation → BitVec v} (ha : Represents a w f)
    (hb : Represents b v h) :
    (symExprConcat a b).All fun e => Represents e (w + v) fun σ => f σ ++ h σ := by
  have hw := ha.width_le
  have hv := hb.width_le
  rw [symExprConcat, ha.width, hb.width]
  refine .ite (fun _ => .fail) fun hsum => ?_
  split
  · rename_i x y hx hy
    refine (symExprConst_represents rfl).mono fun e he => he.congr fun σ => ?_
    rw [ha.word_eq hx σ, hb.word_eq hy σ, maskW_word hw.2, maskW_word hv.2,
      setWidth_word_append hw.2 _ _ (by omega)]
  · refine Fallible.All.andThen fun addr => .pure ?_
    refine ⟨⟨show 1 ≤ w + v ∧ w + v ≤ 64 by omega, rfl, ?_, ha.wellFormed, hb.wellFormed⟩, rfl,
      fun σ => ?_⟩
    · show w + v = a.width + b.width
      rw [ha.width, hb.width]
    · rw [← ha.bits σ, ← hb.bits σ]
      exact SymExpr.bits_concat σ rfl ha.width hb.width

/-! ### Shifts and rotations -/

/-- The count of a shift is brought to the width of what is shifted. -/
theorem fitCount_represents {h : Valuation → BitVec v} (hb : Represents b v h) (w : ℕ) :
    (fitCount b w).All fun e => Represents e w fun σ => (h σ).setWidth w := by
  have hv := hb.width_le
  rw [fitCount, hb.width]
  refine .ite (fun _ => symExprZext_represents hb w) fun hle => .ite (fun hgt => ?_) fun hsame => .pure ?_
  · refine (symExprExtract_represents hb (by omega)).mono fun e he => he.congr fun σ => ?_
    rw [BitVec.setWidth_eq_extractLsb' (by omega)]
  · have heq : v = w := by omega
    subst heq
    exact hb.congr fun σ => (BitVec.setWidth_eq _).symm

theorem symExprShl_represents {h : Valuation → BitVec v} (ha : Represents a w f) (hb : Represents b v h) :
    (symExprShl a b).All fun e => Represents e w fun σ => f σ <<< (h σ).setWidth w := by
  have hw := ha.width_le.2
  rw [symExprShl, ha.width]
  refine (fitCount_represents hb w).bind fun count hcount => .ite (fun hzero => .pure ?_) fun _ => ?_
  · exact ha.congr fun σ => by rw [hcount.eq_zero hzero, BitVec.shiftLeft_zero']
  · split
    · rename_i x n hx hn
      refine (symExprConst_represents rfl).mono fun e he => he.congr fun σ => ?_
      rw [ha.word_eq hx σ, hcount.word_eq hn σ, toNat_word hw, BitVec.shiftLeft_eq']
      split
      · rw [maskW_eq_word hw, setWidth_word hw, setWidth_word_shiftLeft hw]
      · rw [BitVec.shiftLeft_eq_zero (by omega)]
        exact BitVec.setWidth_zero _ _
    · exact mkBinary_represents (by decide) ha hcount

theorem symExprShr_represents {h : Valuation → BitVec v} (ha : Represents a w f) (hb : Represents b v h) :
    (symExprShr a b).All fun e => Represents e w fun σ => f σ >>> (h σ).setWidth w := by
  have hw := ha.width_le.2
  rw [symExprShr, ha.width]
  refine (fitCount_represents hb w).bind fun count hcount => .ite (fun hzero => .pure ?_) fun _ => ?_
  · exact ha.congr fun σ => by
      rw [hcount.eq_zero hzero, BitVec.ushiftRight_eq', BitVec.toNat_zero, BitVec.ushiftRight_zero]
  · split
    · rename_i x n hx hn
      refine (symExprConst_represents rfl).mono fun e he => he.congr fun σ => ?_
      rw [ha.word_eq hx σ, hcount.word_eq hn σ, toNat_word hw, BitVec.ushiftRight_eq']
      split
      · rw [maskW_eq_word hw, setWidth_word hw, setWidth_word_ushiftRight hw]
      · rw [BitVec.ushiftRight_eq_zero (by omega)]
        exact BitVec.setWidth_zero _ _
    · exact mkBinary_represents (by decide) ha hcount

theorem symExprSar_represents {h : Valuation → BitVec v} (ha : Represents a w f) (hb : Represents b v h) :
    (symExprSar a b).All fun e => Represents e w fun σ => (f σ).sshiftRight' ((h σ).setWidth w) := by
  rw [symExprSar, ha.width]
  refine (fitCount_represents hb w).bind fun count hcount => .ite (fun hzero => .pure ?_) fun _ => ?_
  · refine ha.congr fun σ => ?_
    rw [hcount.eq_zero hzero, BitVec.sshiftRight_eq', BitVec.toNat_zero, BitVec.sshiftRight_zero]
  · exact mkBinary_represents (by decide) ha hcount

/-- A node that is shared stays the same node. -/
theorem symExprClone_eq (e : SymExpr) : (symExprClone e).All fun copy => copy = e := by
  intro ctx copy ctx' h
  rw [symExprClone] at h
  dsimp only at h
  by_cases hcounted : (ctx.heap.calloc 1 0).1 = false
  · rw [if_pos hcounted] at h
    cases h
  · rw [if_neg hcounted] at h
    cases h
    rfl

theorem symExprClone_represents (ha : Represents a w f) :
    (symExprClone a).All fun e => Represents e w f :=
  (symExprClone_eq a).mono fun _ h => h ▸ ha

theorem rotateLeft_zero (x : BitVec w) : x.rotateLeft 0 = x := by
  apply BitVec.eq_of_getLsbD_eq
  intro i hi
  rw [BitVec.getLsbD_rotateLeft_of_le (by omega)]
  simp [hi]

theorem rotateRight_zero (x : BitVec w) : x.rotateRight 0 = x := by
  apply BitVec.eq_of_getLsbD_eq
  intro i hi
  rw [BitVec.getLsbD_rotateRight_of_lt (by omega)]
  simp [hi]

/-- A rotation puts the two parts of a value together the other way round. -/
theorem append_extract_rotateLeft {c : ℕ} (hc : c < w) (x : BitVec w) :
    (x.extractLsb' 0 (w - c) ++ x.extractLsb' (w - c) c).setWidth w = x.rotateLeft c := by
  apply BitVec.eq_of_getLsbD_eq
  intro i hi
  rw [BitVec.getLsbD_setWidth, decide_eq_true hi, Bool.true_and, BitVec.getLsbD_append,
    BitVec.getLsbD_extractLsb', BitVec.getLsbD_extractLsb', BitVec.getLsbD_rotateLeft_of_le hc]
  by_cases hic : i < c
  · simp [hic]
  · rw [decide_eq_true (show i - c < w - c by omega)]
    simp [hic, hi]

theorem append_extract_rotateRight {c : ℕ} (hc : c < w) (x : BitVec w) :
    (x.extractLsb' 0 c ++ x.extractLsb' c (w - c)).setWidth w = x.rotateRight c := by
  apply BitVec.eq_of_getLsbD_eq
  intro i hi
  rw [BitVec.getLsbD_setWidth, decide_eq_true hi, Bool.true_and, BitVec.getLsbD_append,
    BitVec.getLsbD_extractLsb', BitVec.getLsbD_extractLsb', BitVec.getLsbD_rotateRight_of_lt hc]
  by_cases hic : i < w - c
  · simp [hic]
  · rw [decide_eq_true (show i - (w - c) < c by omega)]
    simp [hic, hi]

theorem Represents.cast {h : Valuation → BitVec v} (ha : Represents a v h) (hv : v = w) :
    Represents a w fun σ => (h σ).setWidth w := by
  subst hv
  exact ha.congr fun σ => (BitVec.setWidth_eq _).symm

theorem symExprRol_represents {h : Valuation → BitVec v} (ha : Represents a w f) (hb : Represents b v h) :
    (symExprRol a b).All fun e => Represents e w fun σ => (f σ).rotateLeft (h σ).toNat := by
  have hw := ha.width_le
  unfold symExprRol
  split
  · exact .fail
  · rename_i n hn
    rw [ha.width]
    dsimp only
    rw [if_pos (show w ≠ 0 by omega)]
    have hcount : ∀ σ, (h σ).toNat % w = n.toNat % w := fun σ => by
      rw [hb.word_eq hn σ, toNat_word hb.width_le.2]
    have hlt : n.toNat % w < w := Nat.mod_lt _ (by omega)
    refine .ite (fun hzero => .pure ?_) fun hne => ?_
    · refine ha.congr fun σ => ?_
      rw [← BitVec.rotateLeft_mod_eq_rotateLeft, hcount σ, hzero, rotateLeft_zero]
    · refine (symExprClone_represents ha).bind fun copy hcopy => ?_
      refine (symExprExtract_represents hcopy (by omega)).bind fun hi hhi => ?_
      refine (symExprExtract_represents ha (by omega)).bind fun lo hlo => ?_
      refine (symExprConcat_represents hhi hlo).mono fun e he => ?_
      refine (he.cast (w := w) (by omega)).congr fun σ => ?_
      rw [append_extract_rotateLeft hlt, ← hcount σ, BitVec.rotateLeft_mod_eq_rotateLeft]

theorem symExprRor_represents {h : Valuation → BitVec v} (ha : Represents a w f) (hb : Represents b v h) :
    (symExprRor a b).All fun e => Represents e w fun σ => (f σ).rotateRight (h σ).toNat := by
  have hw := ha.width_le
  unfold symExprRor
  split
  · exact .fail
  · rename_i n hn
    rw [ha.width]
    dsimp only
    rw [if_pos (show w ≠ 0 by omega)]
    have hcount : ∀ σ, (h σ).toNat % w = n.toNat % w := fun σ => by
      rw [hb.word_eq hn σ, toNat_word hb.width_le.2]
    have hlt : n.toNat % w < w := Nat.mod_lt _ (by omega)
    refine .ite (fun hzero => .pure ?_) fun hne => ?_
    · refine ha.congr fun σ => ?_
      rw [← BitVec.rotateRight_mod_eq_rotateRight, hcount σ, hzero, rotateRight_zero]
    · refine (symExprClone_represents ha).bind fun copy hcopy => ?_
      refine (symExprExtract_represents hcopy (by omega)).bind fun hi hhi => ?_
      refine (symExprExtract_represents ha (by omega)).bind fun lo hlo => ?_
      refine (symExprConcat_represents hhi hlo).mono fun e he => ?_
      refine (he.cast (w := w) (by omega)).congr fun σ => ?_
      rw [append_extract_rotateRight hlt, ← hcount σ, BitVec.rotateRight_mod_eq_rotateRight]

theorem symExprNot_represents (ha : Represents a w f) :
    (symExprNot a).All fun e => Represents e w fun σ => ~~~f σ := by
  have hw := ha.width_le.2
  rw [symExprNot, ha.width]
  refine (symExprConst_represents (x := allOnes w) ?_).bind fun ones hones => ?_
  · rw [word_allOnes hw, setWidth_word hw]
  · refine (symExprXor_represents ha hones).mono fun e he => he.congr fun σ => ?_
    rw [BitVec.xor_allOnes]

theorem symExprNeg_represents (ha : Represents a w f) :
    (symExprNeg a).All fun e => Represents e w fun σ => -f σ := by
  rw [symExprNeg, ha.width]
  refine (symExprConst_represents (x := 0#w) (BitVec.setWidth_zero _ _)).bind fun zero hzero => ?_
  exact (symExprSub_represents hzero ha).mono fun e he => he.congr fun σ => BitVec.zero_sub _

end Folding

/-! ### All constructors -/

/-- A call of a constructor. -/
inductive SymCall where
  | const (value : BitVec 64) (width : ℕ)
  | var (symbol : SymVar) (width : ℕ)
  | add (a b : SymExpr)
  | sub (a b : SymExpr)
  | mul (a b : SymExpr)
  | xor (a b : SymExpr)
  | and (a b : SymExpr)
  | or (a b : SymExpr)
  | shl (a count : SymExpr)
  | shr (a count : SymExpr)
  | sar (a count : SymExpr)
  | rol (a count : SymExpr)
  | ror (a count : SymExpr)
  | extract (a : SymExpr) (lowBit outWidth : ℕ)
  | concat (high low : SymExpr)
  | zext (a : SymExpr) (toWidth : ℕ)
  | sext (a : SymExpr) (toWidth : ℕ)
  | eq (a b : SymExpr)
  | ult (a b : SymExpr)
  | slt (a b : SymExpr)
  | ite (condition whenTrue whenFalse : SymExpr)
  | not (a : SymExpr)
  | neg (a : SymExpr)

namespace SymCall

def run : SymCall → Fallible ExprCtx SymExpr
  | .const value width => symExprConst value width
  | .var symbol width => symExprVar symbol width
  | .add a b => symExprAdd a b
  | .sub a b => symExprSub a b
  | .mul a b => symExprMul a b
  | .xor a b => symExprXor a b
  | .and a b => symExprAnd a b
  | .or a b => symExprOr a b
  | .shl a count => symExprShl a count
  | .shr a count => symExprShr a count
  | .sar a count => symExprSar a count
  | .rol a count => symExprRol a count
  | .ror a count => symExprRor a count
  | .extract a lowBit outWidth => symExprExtract a lowBit outWidth
  | .concat high low => symExprConcat high low
  | .zext a toWidth => symExprZext a toWidth
  | .sext a toWidth => symExprSext a toWidth
  | .eq a b => symExprEq a b
  | .ult a b => symExprUlt a b
  | .slt a b => symExprSlt a b
  | .ite condition whenTrue whenFalse => symExprIte condition whenTrue whenFalse
  | .not a => symExprNot a
  | .neg a => symExprNeg a

def operands : SymCall → List SymExpr
  | .const _ _ | .var _ _ => []
  | .extract a _ _ | .zext a _ | .sext a _ | .not a | .neg a => [a]
  | .ite c a b => [c, a, b]
  | .add a b | .sub a b | .mul a b | .xor a b | .and a b | .or a b | .shl a b | .shr a b | .sar a b
  | .rol a b | .ror a b | .concat a b | .eq a b | .ult a b | .slt a b => [a, b]

/-- The width that a call states. -/
def width : SymCall → ℕ
  | .const _ width | .var _ width => width
  | .extract _ _ outWidth => outWidth
  | .zext _ toWidth | .sext _ toWidth => toWidth
  | .concat high low => high.width + low.width
  | .eq _ _ | .ult _ _ | .slt _ _ => 1
  | .ite _ whenTrue _ => whenTrue.width
  | .not a | .neg a => a.width
  | .add a _ | .sub a _ | .mul a _ | .xor a _ | .and a _ | .or a _ | .shl a _ | .shr a _ | .sar a _
  | .rol a _ | .ror a _ => a.width

/-- The operation of bit vectors that a call stands for.  The count of a shift has the width of what is
shifted: a shorter count is extended and of a longer one the high bits are dropped. -/
def meaning (σ : Valuation) : (call : SymCall) → BitVec call.width
  | .const value width => value.setWidth width
  | .var symbol width => σ symbol width
  | .add a b => a.bits a.width σ + b.bits a.width σ
  | .sub a b => a.bits a.width σ - b.bits a.width σ
  | .mul a b => a.bits a.width σ * b.bits a.width σ
  | .xor a b => a.bits a.width σ ^^^ b.bits a.width σ
  | .and a b => a.bits a.width σ &&& b.bits a.width σ
  | .or a b => a.bits a.width σ ||| b.bits a.width σ
  | .shl a count => a.bits a.width σ <<< (count.bits count.width σ).setWidth a.width
  | .shr a count => a.bits a.width σ >>> (count.bits count.width σ).setWidth a.width
  | .sar a count => (a.bits a.width σ).sshiftRight' ((count.bits count.width σ).setWidth a.width)
  | .rol a count => (a.bits a.width σ).rotateLeft (count.bits count.width σ).toNat
  | .ror a count => (a.bits a.width σ).rotateRight (count.bits count.width σ).toNat
  | .extract a lowBit outWidth => (a.bits a.width σ).extractLsb' lowBit outWidth
  | .concat high low => high.bits high.width σ ++ low.bits low.width σ
  | .zext a toWidth => (a.bits a.width σ).setWidth toWidth
  | .sext a toWidth => (a.bits a.width σ).signExtend toWidth
  | .eq a b => BitVec.ofBool (a.bits a.width σ == b.bits a.width σ)
  | .ult a b => BitVec.ofBool ((a.bits a.width σ).ult (b.bits a.width σ))
  | .slt a b => BitVec.ofBool ((a.bits a.width σ).slt (b.bits a.width σ))
  | .ite condition whenTrue whenFalse =>
    if condition.bits 1 σ = 1 then whenTrue.bits whenTrue.width σ else whenFalse.bits whenTrue.width σ
  | .not a => ~~~a.bits a.width σ
  | .neg a => -a.bits a.width σ

/-- The end of an extracted range fits in 32 bits. -/
def InRange : SymCall → Prop
  | .extract _ lowBit outWidth => lowBit + outWidth < 2 ^ 32
  | _ => True

theorem wellFormed_pair {a b : SymExpr} (h : ∀ e ∈ [a, b], e.WellFormed) :
    a.WellFormed ∧ b.WellFormed :=
  ⟨h a List.mem_cons_self, h b (List.mem_cons_of_mem a List.mem_cons_self)⟩

/-- A call that refuses operands of different widths. -/
theorem all_of_sameWidth {a b : SymExpr} {x y : Fallible ExprCtx SymExpr} {q : SymExpr → Prop}
    (h : b.width = a.width → x.All q) (hx : x = if a.width ≠ b.width then .fail else y) : x.All q := by
  by_cases hab : b.width = a.width
  · exact h hab
  · rw [hx, if_pos (Ne.symm hab)]
    exact .fail

/-- **Every constructor computes the operation that it stands for.** -/
theorem run_represents (call : SymCall) (hcall : ∀ e ∈ call.operands, e.WellFormed)
    (hrange : call.InRange) :
    call.run.All fun e => Represents e call.width fun σ => call.meaning σ := by
  cases call with
  | const value width => exact symExprConst_represents rfl
  | var symbol width => exact symExprVar_represents symbol width
  | add a b =>
    obtain ⟨ha, hb⟩ := wellFormed_pair hcall
    exact all_of_sameWidth (fun hab => symExprAdd_represents (.of_wellFormed ha) (.of_width hb hab)) rfl
  | sub a b =>
    obtain ⟨ha, hb⟩ := wellFormed_pair hcall
    exact all_of_sameWidth (fun hab => symExprSub_represents (.of_wellFormed ha) (.of_width hb hab)) rfl
  | mul a b =>
    obtain ⟨ha, hb⟩ := wellFormed_pair hcall
    exact all_of_sameWidth (fun hab => symExprMul_represents (.of_wellFormed ha) (.of_width hb hab)) rfl
  | xor a b =>
    obtain ⟨ha, hb⟩ := wellFormed_pair hcall
    exact all_of_sameWidth (fun hab => symExprXor_represents (.of_wellFormed ha) (.of_width hb hab)) rfl
  | and a b =>
    obtain ⟨ha, hb⟩ := wellFormed_pair hcall
    exact all_of_sameWidth (fun hab => symExprAnd_represents (.of_wellFormed ha) (.of_width hb hab)) rfl
  | or a b =>
    obtain ⟨ha, hb⟩ := wellFormed_pair hcall
    exact all_of_sameWidth (fun hab => symExprOr_represents (.of_wellFormed ha) (.of_width hb hab)) rfl
  | shl a count =>
    obtain ⟨ha, hb⟩ := wellFormed_pair hcall
    exact symExprShl_represents (.of_wellFormed ha) (.of_wellFormed hb)
  | shr a count =>
    obtain ⟨ha, hb⟩ := wellFormed_pair hcall
    exact symExprShr_represents (.of_wellFormed ha) (.of_wellFormed hb)
  | sar a count =>
    obtain ⟨ha, hb⟩ := wellFormed_pair hcall
    exact symExprSar_represents (.of_wellFormed ha) (.of_wellFormed hb)
  | rol a count =>
    obtain ⟨ha, hb⟩ := wellFormed_pair hcall
    exact symExprRol_represents (.of_wellFormed ha) (.of_wellFormed hb)
  | ror a count =>
    obtain ⟨ha, hb⟩ := wellFormed_pair hcall
    exact symExprRor_represents (.of_wellFormed ha) (.of_wellFormed hb)
  | extract a lowBit outWidth =>
    exact symExprExtract_represents (.of_wellFormed (List.forall_mem_singleton.mp hcall)) hrange
  | concat high low =>
    obtain ⟨ha, hb⟩ := wellFormed_pair hcall
    exact symExprConcat_represents (.of_wellFormed ha) (.of_wellFormed hb)
  | zext a toWidth =>
    exact symExprZext_represents (.of_wellFormed (List.forall_mem_singleton.mp hcall)) toWidth
  | sext a toWidth =>
    exact symExprSext_represents (.of_wellFormed (List.forall_mem_singleton.mp hcall)) toWidth
  | eq a b =>
    obtain ⟨ha, hb⟩ := wellFormed_pair hcall
    exact all_of_sameWidth (fun hab => symExprEq_represents (.of_wellFormed ha) (.of_width hb hab)) rfl
  | ult a b =>
    obtain ⟨ha, hb⟩ := wellFormed_pair hcall
    exact all_of_sameWidth (fun hab => symExprUlt_represents (.of_wellFormed ha) (.of_width hb hab)) rfl
  | slt a b =>
    obtain ⟨ha, hb⟩ := wellFormed_pair hcall
    exact all_of_sameWidth (fun hab => symExprSlt_represents (.of_wellFormed ha) (.of_width hb hab)) rfl
  | ite condition whenTrue whenFalse =>
    have hc : condition.WellFormed := hcall _ (by simp [operands])
    have ha : whenTrue.WellFormed := hcall _ (by simp [operands])
    have hb : whenFalse.WellFormed := hcall _ (by simp [operands])
    by_cases hwidth : condition.width ≠ 1 ∨ whenTrue.width ≠ whenFalse.width
    · rw [run, symExprIte, if_pos hwidth]
      exact .fail
    · have hone : condition.width = 1 := not_not.mp fun h => hwidth (Or.inl h)
      have hsame : whenTrue.width = whenFalse.width := not_not.mp fun h => hwidth (Or.inr h)
      exact symExprIte_represents (.of_width hc hone) (.of_wellFormed ha) (.of_width hb hsame.symm)
  | not a => exact symExprNot_represents (.of_wellFormed (List.forall_mem_singleton.mp hcall))
  | neg a => exact symExprNeg_represents (.of_wellFormed (List.forall_mem_singleton.mp hcall))

end SymCall

/-- **The constructors preserve meaning.** -/
theorem symExpr_constructors_meaning (call : SymCall) (ctx ctx' : ExprCtx) (e : SymExpr)
    (hcall : ∀ operand ∈ call.operands, operand.WellFormed) (hrange : call.InRange)
    (hrun : call.run ctx = (some e, ctx')) :
    e.WellFormed ∧ e.width = call.width ∧ (∀ σ, e.bits call.width σ = call.meaning σ) ∧
      (e.hasVar = false → ∀ σ τ, e.denote σ = e.denote τ) := by
  have h := call.run_represents hcall hrange ctx e ctx' hrun
  exact ⟨h.wellFormed, h.width, h.bits, h.wellFormed.denote_eq⟩

/-- A symbol, an expression that is this symbol, and a context with room. -/
def plainSymbol : SymVar := ⟨0, 0, 0, .generic⟩

def plainByte : SymExpr := .var ⟨1, 8, true⟩ plainSymbol

def plainCtx : ExprCtx := ⟨true, false, 0, 10, ⟨fun _ => true⟩⟩

theorem plainByte_minus_one :
    ∃ e ctx', (SymCall.sub plainByte (.const ⟨2, 8, false⟩ 1)).run plainCtx = (some e, ctx') ∧
      ∀ σ, e.bits 8 σ = plainByte.bits 8 σ - (SymExpr.const ⟨2, 8, false⟩ 1).bits 8 σ := by
  have hcall : ∀ operand ∈ (SymCall.sub plainByte (.const ⟨2, 8, false⟩ 1)).operands,
      operand.WellFormed := by
    simp [SymCall.operands, plainByte, SymExpr.WellFormed]
  exact ⟨_, _, rfl, (symExpr_constructors_meaning (.sub plainByte (.const ⟨2, 8, false⟩ 1)) plainCtx _ _
    hcall trivial rfl).2.2.1⟩

/-- A shift by 256 with a count of 16 bits returns a byte unchanged, and an extraction whose range ends
beyond `2 ^ 32` returns a node of width zero. -/
theorem wide_shift_and_extract :
    (∃ e ctx' σ, symExprShl plainByte (.const ⟨2, 16, false⟩ 256) plainCtx = (some e, ctx') ∧
      e.bits 8 σ ≠ plainByte.bits 8 σ <<< (SymExpr.const ⟨2, 16, false⟩ 256).bits 16 σ) ∧
    ∃ e ctx', symExprExtract plainByte (2 ^ 32 - 256) 256 plainCtx = (some e, ctx') ∧ e.width ≠ 256 := by
  constructor
  · exact ⟨plainByte, _, fun _ _ => 1, rfl, by decide⟩
  · exact ⟨_, _, rfl, by decide⟩

end TaintForge
