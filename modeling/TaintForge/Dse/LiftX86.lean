import TaintForge.Dse.Context

/-!
# Flags and conditions of x86 instructions

The part of `dse_lift_x86.c` that turns arithmetic into flags and flags into conditions.  The operands of
an instruction are given as they have been read.

* `x86SetArithmeticFlags`, `x86SetLogicalFlags`: the flags after an operation.
* `liftCompare`, `liftArith`, `liftUnary`: the instructions, up to where the result is committed.
* `x86ConditionExpr`: the condition of a branch.
-/

namespace TaintForge

open Fallible

/-- `x86_flag_not` -/
def x86FlagNot (value : SymExpr) : Fallible ExprCtx SymExpr := do
  let one ← symExprConst 1 1
  symExprXor value one

/-- One bit of an expression that goes on being used. -/
def bitOf (value : SymExpr) (bit : ℕ) : Fallible ExprCtx SymExpr := do
  let copy ← symExprClone value
  symExprExtract copy bit 1

/-- Bring a value to 8 bits. -/
def lowByteOf (value : SymExpr) : Fallible ExprCtx SymExpr :=
  if value.width < 8 then symExprZext value 8
  else if value.width > 8 then symExprExtract value 0 8
  else pure value

/-- `x86_even_parity` -/
def x86EvenParity (value : SymExpr) : Fallible ExprCtx SymExpr := do
  let value ← lowByteOf value
  let parity ← bitOf value 0
  let parity ← [1, 2, 3, 4, 5, 6, 7].foldlM
    (fun parity bit => do symExprXor parity (← bitOf value bit)) parity
  x86FlagNot parity

/-- Compute a flag and set it, to nothing if that fails. -/
def setFlagTo (flag : X86Flag) (x : Fallible ExprCtx SymExpr) : Fallible DSECtx Unit := do
  let value ← attempt (exprStep x)
  modify (dseSetX86Flag flag value)

/-- `x86_set_zsp_flags` -/
def x86SetZspFlags (result : SymExpr) : Fallible DSECtx Unit :=
  if result.width = 0 then modify (dseInvalidateX86Flags [.zf, .sf, .pf])
  else do
    setFlagTo .zf do
      let (copy, zero) ← (symExprClone result).both (symExprConst 0 result.width)
      symExprEq copy zero
    setFlagTo .sf (bitOf result (result.width - 1))
    setFlagTo .pf do x86EvenParity (← symExprClone result)

/-- A copy of what may be missing. -/
def cloneOf (value : Option SymExpr) : Fallible ExprCtx SymExpr := do symExprClone (← ofOption value)

/-- The difference of two bits that may be missing. -/
def xorOf (x y : Fallible ExprCtx SymExpr) : Fallible ExprCtx SymExpr := do
  let (x, y) ← x.both y
  symExprXor x y

/-- Whether the signs of the operands let an operation overflow. -/
def signsOf (subtraction : Bool) (leftXorRight : Option SymExpr) : Fallible ExprCtx SymExpr :=
  if subtraction then ofOption leftXorRight else do x86FlagNot (← ofOption leftXorRight)

/-- The overflow of an addition or a subtraction, from the signs. -/
def overflowOf (left right result : SymExpr) (subtraction : Bool) : Fallible ExprCtx SymExpr := do
  let msb := left.width - 1
  let leftSign ← attempt (bitOf left msb)
  let rightSign ← attempt (bitOf right msb)
  let resultSign ← attempt (bitOf result msb)
  let leftXorRight ← attempt (xorOf (cloneOf leftSign) (cloneOf rightSign))
  let leftXorResult ← attempt (xorOf (cloneOf leftSign) (cloneOf resultSign))
  let (signs, leftXorResult) ← (signsOf subtraction leftXorRight).both (ofOption leftXorResult)
  symExprAnd signs leftXorResult

/-- Bit 4 of the operands and the result together. -/
def auxiliaryOf (left right result : SymExpr) : Fallible ExprCtx SymExpr := do
  let auxiliary ← xorOf (xorOf (symExprClone left) (symExprClone right)) (symExprClone result)
  symExprExtract auxiliary 4 1

/-- The carry of an addition or the borrow of a subtraction. -/
def carryOf (left right result : SymExpr) (subtraction : Bool) : Fallible ExprCtx SymExpr :=
  if subtraction then do
    let (left, right) ← (symExprClone left).both (symExprClone right)
    symExprUlt left right
  else do
    let (result, left) ← (symExprClone result).both (symExprClone left)
    symExprUlt result left

/-- `x86_set_arithmetic_flags` -/
def x86SetArithmeticFlags (left right result : SymExpr) (subtraction preserveCf : Bool) :
    Fallible DSECtx Unit :=
  if left.width = 0 ∨ left.width ≠ right.width ∨ left.width ≠ result.width then
    modify (dseInvalidateX86Flags X86Flag.tracked)
  else do
    setFlagTo .of (overflowOf left right result subtraction)
    setFlagTo .af (auxiliaryOf left right result)
    setCarry
    x86SetZspFlags result
where
  setCarry : Fallible DSECtx Unit :=
    if preserveCf then pure () else setFlagTo .cf (carryOf left right result subtraction)

/-- `x86_set_logical_flags` -/
def x86SetLogicalFlags (result : SymExpr) : Fallible DSECtx Unit := do
  setFlagTo .cf (symExprConst 0 1)
  setFlagTo .of (symExprConst 0 1)
  modify (dseInvalidateX86Flags [.af])
  x86SetZspFlags result

/-! ### Instructions -/

/-- `lift_compare`, once both operands have been read. -/
def liftCompare (insn : X86Insn) (left right : SymExpr) : Fallible DSECtx Unit :=
  match insn with
  | .cmp => do
    let (x, y) ← exprStep ((symExprClone left).both (symExprClone right))
    let result ← symExprSub x y
    x86SetArithmeticFlags left right result true false
  | .test => do
    let (x, y) ← exprStep ((symExprClone left).both (symExprClone right))
    let result ← symExprAnd x y
    x86SetLogicalFlags result
  | _ => fail

/-- `mask_x86_shift_count` -/
def maskX86ShiftCount (count : SymExpr) (operandWidth : ℕ) : Fallible ExprCtx SymExpr := do
  let mask ← symExprConst (if operandWidth = 64 then 0x3f else 0x1f) count.width
  symExprAnd count mask

/-- `lift_arith` without its operands and its commit: the result, which is committed. -/
def liftArith (insn : X86Insn) (width : ℕ) (destination source : SymExpr) : Fallible DSECtx SymExpr :=
  match insn with
  | .add => do
    let (flagLeft, flagRight) ← exprStep ((symExprClone destination).both (symExprClone source))
    let result ← symExprAdd destination source
    x86SetArithmeticFlags flagLeft flagRight result false false
    return result
  | .sub => do
    let (flagLeft, flagRight) ← exprStep ((symExprClone destination).both (symExprClone source))
    let result ← symExprSub destination source
    x86SetArithmeticFlags flagLeft flagRight result true false
    return result
  | .xor => do
    let result ← symExprXor destination source
    x86SetLogicalFlags result
    return result
  | .and => do
    let result ← symExprAnd destination source
    x86SetLogicalFlags result
    return result
  | .or => do
    let result ← symExprOr destination source
    x86SetLogicalFlags result
    return result
  | .shl | .sal | .shr | .sar => do
    let source ← maskX86ShiftCount source width
    let result ←
      match insn with
      | .shr => symExprShr destination source
      | .sar => symExprSar destination source
      | _ => symExprShl destination source
    modify (dseInvalidateX86Flags X86Flag.tracked)
    return result
  | .rol | .ror => do
    let source ← maskX86ShiftCount source width
    let result ← if insn = .rol then symExprRol destination source else symExprRor destination source
    modify (dseInvalidateX86Flags [.cf, .of])
    return result
  | _ => fail

/-- `lift_unary` without its operand and its commit: the result, which is committed. -/
def liftUnary (insn : X86Insn) (width : ℕ) (oldValue : SymExpr) : Fallible DSECtx SymExpr := do
  let flagInput ← symExprClone oldValue
  match insn with
  | .not => symExprNot oldValue
  | .neg =>
    let result ← symExprNeg oldValue
    let zero ← attempt (exprStep (symExprConst 0 width))
    setOrInvalidate zero fun zero => x86SetArithmeticFlags zero flagInput result true false
    return result
  | .inc =>
    let one ← symExprConst 1 width
    let result ← symExprAdd oldValue one
    let one ← attempt (exprStep (symExprConst 1 width))
    setOrInvalidate one fun one => x86SetArithmeticFlags flagInput one result false true
    return result
  | .dec =>
    let one ← symExprConst 1 width
    let result ← symExprSub oldValue one
    let one ← attempt (exprStep (symExprConst 1 width))
    setOrInvalidate one fun one => x86SetArithmeticFlags flagInput one result true true
    return result
  | _ => fail
where
  /-- Flags of an operand that may be missing. -/
  setOrInvalidate (operand : Option SymExpr) (set : SymExpr → Fallible DSECtx Unit) :
      Fallible DSECtx Unit :=
    match operand with
    | some operand => set operand
    | none => modify (dseInvalidateX86Flags X86Flag.tracked)

/-! ### Conditions -/

/-- `x86_flag_not` of a step that may fail. -/
def notOf (x : Fallible DSECtx SymExpr) : Fallible DSECtx SymExpr := do
  let value ← x
  x86FlagNot value

/-- Two flags that are read one after the other, and combined. -/
def combine (operation : SymExpr → SymExpr → Fallible ExprCtx SymExpr) (x y : Fallible DSECtx SymExpr) :
    Fallible DSECtx SymExpr := do
  let (x, y) ← x.both y
  operation x y

/-- `x86_condition_expr` -/
def x86ConditionExpr (aux : InsnAux) : X86ConditionCode → Fallible DSECtx SymExpr
  | .o => dseGetX86Flag aux .of
  | .no => notOf (dseGetX86Flag aux .of)
  | .b => dseGetX86Flag aux .cf
  | .ae => notOf (dseGetX86Flag aux .cf)
  | .e => dseGetX86Flag aux .zf
  | .ne => notOf (dseGetX86Flag aux .zf)
  | .be => combine symExprOr (dseGetX86Flag aux .cf) (dseGetX86Flag aux .zf)
  | .a => notOf (combine symExprOr (dseGetX86Flag aux .cf) (dseGetX86Flag aux .zf))
  | .s => dseGetX86Flag aux .sf
  | .ns => notOf (dseGetX86Flag aux .sf)
  | .p => dseGetX86Flag aux .pf
  | .np => notOf (dseGetX86Flag aux .pf)
  | .l => combine symExprXor (dseGetX86Flag aux .sf) (dseGetX86Flag aux .of)
  | .ge => notOf (combine symExprXor (dseGetX86Flag aux .sf) (dseGetX86Flag aux .of))
  | .le => combineLess aux
  | .g => notOf (combineLess aux)
  | .none => fail
where
  /-- `zf`, `sf` and `of` are read in this order. -/
  combineLess (aux : InsnAux) : Fallible DSECtx SymExpr :=
    combine symExprOr (dseGetX86Flag aux .zf)
      (combine symExprXor (dseGetX86Flag aux .sf) (dseGetX86Flag aux .of))

end TaintForge
