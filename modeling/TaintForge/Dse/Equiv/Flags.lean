import TaintForge.Dse.LiftX86
import TaintForge.Dse.Equiv.Context
import TaintForge.Lib.WordFlags

/-!
# The flags after an arithmetic instruction

* `Knows`: what is known of each flag, and how the steps change it.
* `x86SetArithmeticFlags_knows`: the flags of a sum or of a difference.
* `X86ArithInsn`: the instructions whose flags are of this kind, with their exact results.
* `X86ArithInsn.update_knows`: the symbolic flags are those of the exact results.
-/

namespace TaintForge

open Fallible Function BitVec

/-! ### Single bits -/

/-- An expression of one bit. -/
abbrev RepresentsBit (e : SymExpr) (b : Valuation → Bool) : Prop :=
  Represents e 1 fun σ => BitVec.ofBool (b σ)

section Bits

variable {a b value : SymExpr} {f g : Valuation → Bool} {w : ℕ} {h : Valuation → BitVec w}

theorem Represents.bit_congr (ha : RepresentsBit a f) (hfg : ∀ σ, f σ = g σ) : RepresentsBit a g :=
  ha.congr fun σ => congrArg BitVec.ofBool (hfg σ)

theorem symExprXor_bit (ha : RepresentsBit a f) (hb : RepresentsBit b g) :
    (symExprXor a b).All (RepresentsBit · fun σ => f σ ^^ g σ) :=
  (symExprXor_represents ha hb).mono fun _ he => he.congr fun _ => BitVec.ofBool_xor_ofBool

theorem symExprAnd_bit (ha : RepresentsBit a f) (hb : RepresentsBit b g) :
    (symExprAnd a b).All (RepresentsBit · fun σ => f σ && g σ) :=
  (symExprAnd_represents ha hb).mono fun _ he => he.congr fun _ => BitVec.ofBool_and_ofBool

theorem symExprOr_bit (ha : RepresentsBit a f) (hb : RepresentsBit b g) :
    (symExprOr a b).All (RepresentsBit · fun σ => f σ || g σ) :=
  (symExprOr_represents ha hb).mono fun _ he => he.congr fun _ => BitVec.ofBool_or_ofBool

theorem x86FlagNot_bit (ha : RepresentsBit a f) : (x86FlagNot a).All (RepresentsBit · fun σ => !f σ) := by
  have hone : (symExprConst 1 1).All (RepresentsBit · fun _ => true) := symExprConst_represents rfl
  refine hone.bind fun one hone => (symExprXor_bit ha hone).mono fun e he => ?_
  exact he.bit_congr fun σ => Bool.xor_true _

theorem extractLsb'_one (x : BitVec w) (bit : ℕ) : x.extractLsb' bit 1 = BitVec.ofBool (x.getLsbD bit) := by
  apply BitVec.eq_of_getLsbD_eq
  intro i hi
  obtain rfl : i = 0 := by omega
  rw [BitVec.getLsbD_extractLsb', Nat.add_zero, BitVec.getLsbD_ofBool]
  simp

theorem bitOf_bit (hvalue : Represents value w h) {bit : ℕ} (hbit : bit + 1 < 2 ^ 32) :
    (bitOf value bit).All (RepresentsBit · fun σ => (h σ).getLsbD bit) := by
  refine (symExprClone_represents hvalue).bind fun copy hcopy => ?_
  exact (symExprExtract_represents hcopy hbit).mono fun e he => he.congr fun σ => extractLsb'_one _ bit

/-- The sign. -/
theorem bitOf_msb (hvalue : Represents value w h) :
    (bitOf value (w - 1)).All (RepresentsBit · fun σ => (h σ).msb) := by
  have hw := hvalue.width_le
  refine (bitOf_bit hvalue (by omega)).mono fun e he => ?_
  exact he.bit_congr fun σ => (BitVec.msb_eq_getLsbD_last _).symm

theorem cloneOf_bit {value : Option SymExpr} (hvalue : ∀ e, value = some e → RepresentsBit e f) :
    (cloneOf value).All (RepresentsBit · f) :=
  (All.ofOption hvalue).bind fun _ he => symExprClone_represents he

theorem xorOf_represents {k : Valuation → BitVec w} {x y : Fallible ExprCtx SymExpr}
    (hx : x.All (Represents · w h)) (hy : y.All (Represents · w k)) :
    (xorOf x y).All (Represents · w fun σ => h σ ^^^ k σ) :=
  (hx.both hy).bind fun _ hxy => symExprXor_represents hxy.1 hxy.2

theorem xorOf_bit {x y : Fallible ExprCtx SymExpr} (hx : x.All (RepresentsBit · f))
    (hy : y.All (RepresentsBit · g)) : (xorOf x y).All (RepresentsBit · fun σ => f σ ^^ g σ) :=
  (xorOf_represents hx hy).mono fun _ he => he.congr fun _ => BitVec.ofBool_xor_ofBool

/-- The low byte has the parity of the value. -/
theorem lowByteOf_represents (hvalue : Represents value w h) :
    (lowByteOf value).All fun byte =>
      ∃ k : Valuation → BitVec 8, Represents byte 8 k ∧ ∀ σ, evenParity (k σ) = evenParity (h σ) := by
  have hw := hvalue.width
  refine .ite (fun hlt => ?_) fun hge => .ite (fun hgt => ?_) fun hle => ?_
  · refine (symExprZext_represents hvalue 8).mono fun e he => ⟨_, he, fun σ => ?_⟩
    apply evenParity_congr
    intro i hi
    rw [BitVec.getLsbD_setWidth, decide_eq_true hi, Bool.true_and]
  · refine (symExprExtract_represents hvalue (by decide)).mono fun e he => ⟨_, he, fun σ => ?_⟩
    apply evenParity_congr
    intro i hi
    rw [BitVec.getLsbD_extractLsb', decide_eq_true hi, Bool.true_and, Nat.zero_add]
  · obtain rfl : w = 8 := by omega
    exact .pure ⟨h, hvalue, fun σ => rfl⟩

/-- Bits that are added up one after the other. -/
theorem foldlM_xor_bit {byte : SymExpr} {k : Valuation → BitVec 8} (hbyte : Represents byte 8 k)
    (l : List ℕ) (hl : ∀ bit ∈ l, bit < 8) {parity : SymExpr} {p : Valuation → Bool}
    (hparity : RepresentsBit parity p) :
    (l.foldlM (fun parity bit => do symExprXor parity (← bitOf byte bit)) parity).All
      (RepresentsBit · fun σ => l.foldl (fun p bit => p ^^ (k σ).getLsbD bit) (p σ)) := by
  induction l generalizing parity p with
  | nil => exact .pure hparity
  | cons bit l ih =>
    have hbit := hl bit List.mem_cons_self
    have hstep := (bitOf_bit hbyte (show bit + 1 < 2 ^ 32 by omega)).bind fun b hb =>
      symExprXor_bit hparity hb
    exact hstep.bind fun parity hparity =>
      ih (fun bit hbit => hl bit (List.mem_cons_of_mem _ hbit)) hparity

theorem x86EvenParity_bit (hvalue : Represents value w h) :
    (x86EvenParity value).All (RepresentsBit · fun σ => evenParity (h σ)) := by
  refine (lowByteOf_represents hvalue).bind fun byte ⟨k, hbyte, hsame⟩ => ?_
  refine (bitOf_bit hbyte (by decide)).bind fun parity hparity => ?_
  refine (foldlM_xor_bit hbyte _ (by decide) hparity).bind fun parity hparity => ?_
  refine (x86FlagNot_bit hparity).mono fun e he => he.bit_congr fun σ => ?_
  rw [← hsame σ, evenParity_eq_foldl, ← Bool.false_xor ((k σ).getLsbD 0)]
  rfl

/-- The overflow flag, from three signs. -/
theorem overflowOf_bit {left right result : SymExpr} {x y : Valuation → BitVec w}
    (hleft : Represents left w x) (hright : Represents right w y) (hresult : Represents result w h)
    (subtraction : Bool) :
    (overflowOf left right result subtraction).All (RepresentsBit · fun σ =>
      (if subtraction then (x σ).msb ^^ (y σ).msb else !((x σ).msb ^^ (y σ).msb)) &&
        ((x σ).msb ^^ (h σ).msb)) := by
  rw [overflowOf, hleft.width]
  refine (bitOf_msb hleft).attempt.bind fun leftSign hleftSign => ?_
  refine (bitOf_msb hright).attempt.bind fun rightSign hrightSign => ?_
  refine (bitOf_msb hresult).attempt.bind fun resultSign hresultSign => ?_
  refine (xorOf_bit (cloneOf_bit hleftSign) (cloneOf_bit hrightSign)).attempt.bind fun differ hdiffer => ?_
  refine (xorOf_bit (cloneOf_bit hleftSign) (cloneOf_bit hresultSign)).attempt.bind fun moved hmoved => ?_
  have hsigns : (signsOf subtraction differ).All (RepresentsBit · fun σ =>
      if subtraction then (x σ).msb ^^ (y σ).msb else !((x σ).msb ^^ (y σ).msb)) := by
    cases subtraction with
    | true => exact .ofOption hdiffer
    | false => exact (All.ofOption hdiffer).bind fun _ he => x86FlagNot_bit he
  exact (hsigns.both (.ofOption hmoved)).bind fun _ h => symExprAnd_bit h.1 h.2

end Bits

/-! ### The flags of a sum or a difference -/

/-- The sum or the difference of two values with a sign. -/
def exactSigned (subtraction : Bool) {w : ℕ} (x y : BitVec w) : ℤ :=
  if subtraction then x.toInt - y.toInt else x.toInt + y.toInt

/-- The sum or the difference of two values without a sign. -/
def exactUnsigned (subtraction : Bool) {w : ℕ} (x y : BitVec w) : ℤ :=
  if subtraction then x.toNat - y.toNat else x.toNat + y.toNat

/-- What is left of either in `w` bits. -/
def wrapped (subtraction : Bool) {w : ℕ} (x y : BitVec w) : BitVec w :=
  if subtraction then x - y else x + y

/-- The flags: the overflow and the carry flag say that the result does not fit. -/
def arithmeticFlag (subtraction : Bool) {w : ℕ} (x y : BitVec w) : X86Flag → Bool
  | .of => ¬ FitsSigned w (exactSigned subtraction x y)
  | .cf => ¬ FitsUnsigned w (exactUnsigned subtraction x y)
  | .zf => wrapped subtraction x y == 0#w
  | .sf => (wrapped subtraction x y).msb
  | .pf => evenParity (wrapped subtraction x y)
  | .af => (x ^^^ y ^^^ wrapped subtraction x y).getLsbD 4

theorem ofInt_exactSigned (subtraction : Bool) {w : ℕ} (x y : BitVec w) :
    BitVec.ofInt w (exactSigned subtraction x y) = wrapped subtraction x y := by
  cases subtraction with
  | true => exact ofInt_toInt_sub x y
  | false => exact ofInt_toInt_add x y

theorem exactSigned_range (subtraction : Bool) {w : ℕ} (hw : 1 ≤ w) (x y : BitVec w) :
    -2 ^ w ≤ exactSigned subtraction x y ∧ exactSigned subtraction x y < 2 ^ w := by
  cases subtraction with
  | true => exact sub_range hw
  | false => exact add_range hw

/-! ### What is known of the flags -/

/-- A property of what is kept for a flag, and of whether it is poisoned. -/
abbrev FlagPred := Option SymExpr → Bool → Prop

/-- The flag has a value, or it has been given up. -/
def IsBit (b : Valuation → Bool) : FlagPred := fun slot poisoned =>
  poisoned = true ∨ ∃ e, slot = some e ∧ RepresentsBit e b

namespace DSECtx

/-- The flag is as it was. -/
def asIn (ctx : DSECtx) (flag : X86Flag) : FlagPred := fun slot poisoned =>
  slot = ctx.state.x86Flags flag ∧ poisoned = ctx.x86FlagsPoisoned flag

/-- A well-formed state, with what is known of each flag. -/
structure Knows (known : X86Flag → FlagPred) (ctx : DSECtx) : Prop where
  wellFormed : ctx.WellFormed
  flag : ∀ flag, known flag (ctx.state.x86Flags flag) (ctx.x86FlagsPoisoned flag)

variable {known : X86Flag → FlagPred} {ctx ctx' : DSECtx}

theorem WellFormed.knows (hctx : ctx.WellFormed) : ctx.Knows ctx.asIn := ⟨hctx, fun _ => ⟨rfl, rfl⟩⟩

theorem Knows.mono {known' : X86Flag → FlagPred} (h : ctx.Knows known)
    (hmono : ∀ flag slot poisoned, known flag slot poisoned → known' flag slot poisoned) :
    ctx.Knows known' :=
  ⟨h.wellFormed, fun flag => hmono flag _ _ (h.flag flag)⟩

theorem Knows.of_sameState (h : ctx.Knows known) (hsame : SameState ctx ctx') : ctx'.Knows known := by
  refine ⟨hsame.wellFormed h.wellFormed, fun flag => ?_⟩
  rw [hsame.flags, hsame.poisoned]
  exact h.flag flag

/-- Give a flag a new value and say whether it is poisoned. -/
theorem Knows.setFlag (h : ctx.Knows known) (flag : X86Flag) {p : FlagPred} {value : Option SymExpr}
    {poisoned : Bool} (hvalue : ∀ e, value = some e → e.HasWidth 1) (hp : p value poisoned) :
    ((ctx.setFlag flag value).setPoisoned flag poisoned).Knows (update known flag p) := by
  refine ⟨⟨fun other e he => ?_, h.wellFormed.cells, h.wellFormed.vars⟩, fun other => ?_⟩
  · replace he : update ctx.state.x86Flags flag value other = some e := he
    rw [update_apply] at he
    by_cases hsame : other = flag
    · rw [if_pos hsame] at he
      exact hvalue e he
    · rw [if_neg hsame] at he
      exact h.wellFormed.flags other e he
  · show update known flag p other (update ctx.state.x86Flags flag value other)
      (update ctx.x86FlagsPoisoned flag poisoned other)
    by_cases hsame : other = flag
    · subst hsame
      rw [update_self, update_self, update_self]
      exact hp
    · rw [update_of_ne hsame, update_of_ne hsame, update_of_ne hsame]
      exact h.flag other

/-- Flags that are given up. -/
theorem Knows.invalidate (h : ctx.Knows known) (flags : List X86Flag) :
    (dseInvalidateX86Flags flags ctx).Knows
      (flags.foldl (fun known flag => update known flag fun _ poisoned => poisoned = true) known) := by
  induction flags generalizing ctx known with
  | nil => exact h
  | cons flag flags ih => exact ih (h.setFlag flag (fun _ hsome => by cases hsome) rfl)

theorem Knows.setX86Flag (h : ctx.Knows known) (flag : X86Flag) {b : Valuation → Bool}
    {value : Option SymExpr} (hvalue : ∀ e, value = some e → RepresentsBit e b) :
    (dseSetX86Flag flag value ctx).Knows (update known flag (IsBit b)) := by
  have hlost : (dseMarkPathFailure ((ctx.setFlag flag none).setPoisoned flag true)).Knows
      (update known flag (IsBit b)) :=
    (h.setFlag flag (fun _ hsome => by cases hsome) (.inl rfl)).of_sameState (dseMarkPathFailure_sameState _)
  cases value with
  | none => exact hlost
  | some e =>
    have he := hvalue e rfl
    rw [dseSetX86Flag]
    by_cases hwidth : e.width ≠ 1
    · rw [if_pos hwidth]
      exact hlost
    · rw [if_neg hwidth]
      refine h.setFlag flag (fun _ hsome => ?_) (.inr ⟨e, rfl, he⟩)
      cases hsome
      exact he.hasWidth

end DSECtx

/-- **Computing a flag**: afterwards it is known, and the others are as before. -/
theorem setFlagTo_knows {known : X86Flag → FlagPred} (flag : X86Flag) {x : Fallible ExprCtx SymExpr}
    {b : Valuation → Bool} (hx : x.All (RepresentsBit · b)) :
    (setFlagTo flag x).Triple (DSECtx.Knows known) fun _ => DSECtx.Knows (update known flag (IsBit b)) := by
  intro ctx _ ctx' hctx hrun
  cases hrun
  have hsame := exprStep_sameState x ctx
  refine (hctx.of_sameState hsame).setX86Flag flag fun e he => ?_
  exact hx ctx.exprs e (x ctx.exprs).2 (Prod.ext he rfl)

/-- A step on expressions leaves the flags alone. -/
theorem exprStep_then {α β : Type} {known : X86Flag → FlagPred} {x : Fallible ExprCtx α} {p : α → Prop}
    {f : α → Fallible DSECtx β} {Q : β → DSECtx → Prop} (hx : x.All p)
    (hf : ∀ a, p a → (f a).Triple (DSECtx.Knows known) Q) :
    (exprStep x >>= f).Triple (DSECtx.Knows known) Q := by
  intro ctx b ctx' hctx hrun
  obtain ⟨a, c, ha, hb⟩ := bind_eq_some.mp hrun
  obtain ⟨ha, hsame⟩ := exprStep_spec hx ha
  exact hf a ha c b ctx' (hctx.of_sameState hsame) hb

theorem attempt_exprStep_then {α β : Type} {known : X86Flag → FlagPred} {x : Fallible ExprCtx α}
    {p : α → Prop} {f : Option α → Fallible DSECtx β} {Q : β → DSECtx → Prop} (hx : x.All p)
    (hf : ∀ result, (∀ a, result = some a → p a) → (f result).Triple (DSECtx.Knows known) Q) :
    (attempt (exprStep x) >>= f).Triple (DSECtx.Knows known) Q := by
  intro ctx b ctx' hctx hrun
  refine hf _ (fun a ha => ?_) _ b ctx' (hctx.of_sameState (exprStep_sameState x ctx)) hrun
  exact hx ctx.exprs a (x ctx.exprs).2 (Prod.ext ha rfl)

section Update

variable {left right result : SymExpr} {w : ℕ} {x y : Valuation → BitVec w} {known : X86Flag → FlagPred}

/-- The flags that only depend on the result. -/
theorem x86SetZspFlags_knows {r : Valuation → BitVec w} (hresult : Represents result w r) :
    (x86SetZspFlags result).Triple (DSECtx.Knows known) fun _ => DSECtx.Knows
      (update (update (update known .zf (IsBit fun σ => r σ == 0#w)) .sf (IsBit fun σ => (r σ).msb)) .pf
        (IsBit fun σ => evenParity (r σ))) := by
  have hw := hresult.width_le
  rw [x86SetZspFlags, hresult.width, if_neg (by omega)]
  have hzero : (symExprConst 0 w).All fun e => Represents e w fun _ => 0#w :=
    symExprConst_represents (BitVec.setWidth_zero _ _)
  refine .bind (setFlagTo_knows .zf ?_) fun _ => .bind (setFlagTo_knows .sf (bitOf_msb hresult)) fun _ =>
    setFlagTo_knows .pf ?_
  · exact ((symExprClone_represents hresult).both hzero).bind fun _ h => symExprEq_represents h.1 h.2
  · exact (symExprClone_represents hresult).bind fun _ h => x86EvenParity_bit h

section Arithmetic

variable (hleft : Represents left w x) (hright : Represents right w y) (subtraction : Bool)
  (hresult : Represents result w fun σ => wrapped subtraction (x σ) (y σ))

include hleft hright hresult

theorem overflowOf_flag : (overflowOf left right result subtraction).All
    (RepresentsBit · fun σ => arithmeticFlag subtraction (x σ) (y σ) .of) := by
  have hw := hleft.width_le.1
  refine (overflowOf_bit hleft hright hresult subtraction).mono fun e he => he.bit_congr fun σ => ?_
  cases subtraction with
  | true => exact overflow_sub hw
  | false => exact overflow_add hw

theorem auxiliaryOf_flag : (auxiliaryOf left right result).All
    (RepresentsBit · fun σ => arithmeticFlag subtraction (x σ) (y σ) .af) := by
  have hoperands := xorOf_represents (symExprClone_represents hleft) (symExprClone_represents hright)
  refine (xorOf_represents hoperands (symExprClone_represents hresult)).bind fun auxiliary h => ?_
  refine (symExprExtract_represents h (by decide)).mono fun e he => he.congr fun σ => ?_
  exact extractLsb'_one _ 4

theorem carryOf_flag : (carryOf left right result subtraction).All
    (RepresentsBit · fun σ => arithmeticFlag subtraction (x σ) (y σ) .cf) := by
  cases subtraction with
  | true =>
    refine ((symExprClone_represents hleft).both (symExprClone_represents hright)).bind fun _ h => ?_
    exact (symExprUlt_represents h.1 h.2).mono fun e he => he.bit_congr fun σ => borrow_sub
  | false =>
    refine ((symExprClone_represents hresult).both (symExprClone_represents hleft)).bind fun _ h => ?_
    exact (symExprUlt_represents h.1 h.2).mono fun e he => he.bit_congr fun σ => carry_add

/-- **The flags of an addition or a subtraction** are those of the exact result; the carry flag can be
left alone. -/
theorem x86SetArithmeticFlags_knows (preserveCf : Bool) :
    (x86SetArithmeticFlags left right result subtraction preserveCf).Triple (DSECtx.Knows known) fun _ =>
      DSECtx.Knows fun flag =>
        if preserveCf ∧ flag = .cf then known .cf
        else IsBit fun σ => arithmeticFlag subtraction (x σ) (y σ) flag := by
  have hw := hleft.width_le.1
  unfold x86SetArithmeticFlags
  rw [hleft.width, hright.width, hresult.width, if_neg (by omega)]
  refine .bind (setFlagTo_knows .of (overflowOf_flag hleft hright subtraction hresult)) fun _ => ?_
  refine .bind (setFlagTo_knows .af (auxiliaryOf_flag hleft hright subtraction hresult)) fun _ => ?_
  unfold x86SetArithmeticFlags.setCarry
  cases preserveCf with
  | true =>
    refine .bind (.pure fun _ h => h) fun _ => (x86SetZspFlags_knows hresult).mono fun _ ctx hctx => ?_
    refine hctx.mono fun flag slot poisoned h => ?_
    cases flag <;> exact h
  | false =>
    refine .bind (setFlagTo_knows .cf (carryOf_flag hleft hright subtraction hresult)) fun _ => ?_
    refine (x86SetZspFlags_knows hresult).mono fun _ ctx hctx => ?_
    refine hctx.mono fun flag slot poisoned h => ?_
    cases flag <;> exact h

end Arithmetic

end Update

/-! ### Instructions -/

/-- The instructions whose flags are those of a sum or a difference. -/
inductive X86ArithInsn where
  | cmp | sub | add | neg | inc | dec
  deriving DecidableEq, Repr

namespace X86ArithInsn

/-- The symbolic update of the flags. -/
def update (insn : X86ArithInsn) (left right : SymExpr) : Fallible DSECtx Unit :=
  match insn with
  | .cmp => liftCompare .cmp left right
  | .sub => do let _ ← liftArith .sub left.width left right
  | .add => do let _ ← liftArith .add left.width left right
  | .neg => do let _ ← liftUnary .neg left.width left
  | .inc => do let _ ← liftUnary .inc left.width left
  | .dec => do let _ ← liftUnary .dec left.width left

/-- The carry flag is left alone. -/
def keepsCarry : X86ArithInsn → Bool
  | .inc | .dec => true
  | _ => false

/-- The exact result for operands with a sign; some instructions have only one. -/
def signedResult (insn : X86ArithInsn) {w : ℕ} (x y : BitVec w) : ℤ :=
  match insn with
  | .cmp | .sub => x.toInt - y.toInt
  | .add => x.toInt + y.toInt
  | .neg => -x.toInt
  | .inc => x.toInt + 1
  | .dec => x.toInt - 1

/-- The exact result for operands without a sign. -/
def unsignedResult (insn : X86ArithInsn) {w : ℕ} (x y : BitVec w) : ℤ :=
  match insn with
  | .cmp | .sub => x.toNat - y.toNat
  | .add => x.toNat + y.toNat
  | .neg => -x.toNat
  | .inc => x.toNat + 1
  | .dec => x.toNat - 1

/-- The flags are those of a difference. -/
def subtraction : X86ArithInsn → Bool
  | .cmp | .sub | .neg | .dec => true
  | .add | .inc => false

/-- What is added or subtracted. -/
def operands (insn : X86ArithInsn) {w : ℕ} (x y : BitVec w) : BitVec w × BitVec w :=
  match insn with
  | .cmp | .sub | .add => (x, y)
  | .neg => (0#w, x)
  | .inc | .dec => (x, 1#w)

/-- A flag after the instruction. -/
def flag (insn : X86ArithInsn) {w : ℕ} (x y : BitVec w) : X86Flag → Bool :=
  arithmeticFlag insn.subtraction (insn.operands x y).1 (insn.operands x y).2

/-- The carry flag is as it was, unless it had to be given up. -/
def carryKept (ctx : DSECtx) : FlagPred := fun slot poisoned =>
  poisoned = true ∨ ctx.asIn .cf slot poisoned

/-- What is known after the instruction. -/
def knownAfter (insn : X86ArithInsn) {w : ℕ} (x y : Valuation → BitVec w) (ctx : DSECtx) (flag : X86Flag) :
    FlagPred :=
  if insn.keepsCarry ∧ flag = .cf then carryKept ctx else IsBit fun σ => insn.flag (x σ) (y σ) flag

theorem knownAfter_poisoned (insn : X86ArithInsn) {w : ℕ} (x y : Valuation → BitVec w) (ctx : DSECtx)
    (flag : X86Flag) (slot : Option SymExpr) : insn.knownAfter x y ctx flag slot true := by
  unfold knownAfter
  split
  · exact .inl rfl
  · exact .inl rfl

section

variable {left right : SymExpr} {w : ℕ} {x y : Valuation → BitVec w} {ctx : DSECtx}

/-- What the arithmetic flags of the operands of the instruction are. -/
theorem setArithmeticFlags_knows (insn : X86ArithInsn) {a b result : SymExpr}
    (ha : Represents a w fun σ => (insn.operands (x σ) (y σ)).1)
    (hb : Represents b w fun σ => (insn.operands (x σ) (y σ)).2)
    (hresult : Represents result w fun σ =>
      wrapped insn.subtraction (insn.operands (x σ) (y σ)).1 (insn.operands (x σ) (y σ)).2) :
    (x86SetArithmeticFlags a b result insn.subtraction insn.keepsCarry).Triple (DSECtx.Knows ctx.asIn)
      fun _ => DSECtx.Knows (insn.knownAfter x y ctx) := by
  refine (x86SetArithmeticFlags_knows ha hb _ hresult _).mono fun _ c hc => hc.mono ?_
  intro flag slot poisoned h
  unfold knownAfter
  by_cases hcarry : insn.keepsCarry ∧ flag = .cf
  · rw [if_pos hcarry] at h ⊢
    exact .inr h
  · rw [if_neg hcarry] at h ⊢
    exact h

/-- An operand that could not be made gives up all flags. -/
theorem setOrInvalidate_knows (insn : X86ArithInsn) {operand : Option SymExpr}
    {set : SymExpr → Fallible DSECtx Unit}
    (hset : ∀ e, operand = some e → (set e).Triple (DSECtx.Knows ctx.asIn) fun _ =>
      DSECtx.Knows (insn.knownAfter x y ctx)) :
    (liftUnary.setOrInvalidate operand set).Triple (DSECtx.Knows ctx.asIn) fun _ =>
      DSECtx.Knows (insn.knownAfter x y ctx) := by
  cases operand with
  | some e => exact hset e rfl
  | none =>
    refine .modify fun c hc => (hc.invalidate X86Flag.tracked).mono fun flag slot poisoned h => ?_
    have hpoisoned : poisoned = true := by
      cases flag <;> exact h
    rw [hpoisoned]
    exact insn.knownAfter_poisoned x y ctx flag slot

theorem symExprConst_one (w : ℕ) :
    (symExprConst 1 w).All fun e => Represents e w fun _ => 1#w := by
  apply symExprConst_represents
  apply BitVec.eq_of_toNat_eq
  have hone : (1 : BitVec 64).toNat = 1 := rfl
  rw [BitVec.toNat_setWidth, hone, BitVec.toNat_ofNat]

/-- **The flags after an instruction are those of the exact results.** -/
theorem update_knows (insn : X86ArithInsn) (hleft : Represents left w x) (hright : Represents right w y) :
    (insn.update left right).Triple (DSECtx.Knows ctx.asIn) fun _ =>
      DSECtx.Knows (insn.knownAfter x y ctx) := by
  have hboth := (symExprClone_represents hleft).both (symExprClone_represents hright)
  have hinput := symExprClone_represents hleft
  have hone := symExprConst_one w
  have hzero : (symExprConst 0 w).All fun e => Represents e w fun _ => 0#w :=
    symExprConst_represents (BitVec.setWidth_zero _ _)
  cases insn with
  | cmp =>
    refine exprStep_then hboth fun operands ⟨hx, hy⟩ => ?_
    refine exprStep_then (symExprSub_represents hx hy) fun result hresult => ?_
    exact setArithmeticFlags_knows .cmp hleft hright hresult
  | sub =>
    refine .bind (Q := fun _ => DSECtx.Knows (knownAfter .sub x y ctx)) ?_ fun _ => .pure fun _ h => h
    refine exprStep_then hboth fun operands ⟨hx, hy⟩ => ?_
    refine exprStep_then (symExprSub_represents hleft hright) fun result hresult => ?_
    exact .bind (setArithmeticFlags_knows .sub hx hy hresult) fun _ => .pure fun _ h => h
  | add =>
    refine .bind (Q := fun _ => DSECtx.Knows (knownAfter .add x y ctx)) ?_ fun _ => .pure fun _ h => h
    refine exprStep_then hboth fun operands ⟨hx, hy⟩ => ?_
    refine exprStep_then (symExprAdd_represents hleft hright) fun result hresult => ?_
    exact .bind (setArithmeticFlags_knows .add hx hy hresult) fun _ => .pure fun _ h => h
  | neg =>
    rw [update, hleft.width]
    refine .bind (Q := fun _ => DSECtx.Knows (knownAfter .neg x y ctx)) ?_ fun _ => .pure fun _ h => h
    refine exprStep_then hinput fun input hinput => ?_
    refine exprStep_then (symExprNeg_represents hleft) fun result hresult => ?_
    refine attempt_exprStep_then hzero fun zero hzero => ?_
    refine .bind (setOrInvalidate_knows .neg fun e he => ?_) fun _ => .pure fun _ h => h
    refine setArithmeticFlags_knows .neg (hzero e he) hinput (hresult.congr fun σ => ?_)
    exact (BitVec.zero_sub _).symm
  | inc =>
    rw [update, hleft.width]
    refine .bind (Q := fun _ => DSECtx.Knows (knownAfter .inc x y ctx)) ?_ fun _ => .pure fun _ h => h
    refine exprStep_then hinput fun input hinput => ?_
    refine exprStep_then hone fun one hone' => ?_
    refine exprStep_then (symExprAdd_represents hleft hone') fun result hresult => ?_
    refine attempt_exprStep_then hone fun one hone => ?_
    refine .bind (setOrInvalidate_knows .inc fun e he => ?_) fun _ => .pure fun _ h => h
    exact setArithmeticFlags_knows .inc hinput (hone e he) hresult
  | dec =>
    rw [update, hleft.width]
    refine .bind (Q := fun _ => DSECtx.Knows (knownAfter .dec x y ctx)) ?_ fun _ => .pure fun _ h => h
    refine exprStep_then hinput fun input hinput => ?_
    refine exprStep_then hone fun one hone' => ?_
    refine exprStep_then (symExprSub_represents hleft hone') fun result hresult => ?_
    refine attempt_exprStep_then hone fun one hone => ?_
    refine .bind (setOrInvalidate_knows .dec fun e he => ?_) fun _ => .pure fun _ h => h
    exact setArithmeticFlags_knows .dec hinput (hone e he) hresult

end

end X86ArithInsn

end TaintForge
