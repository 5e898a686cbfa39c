import TaintForge.Prov.Basic
import TaintForge.Lib.Fallible

/-!
# Symbolic expressions

The nodes of `dse.c` and the functions that make them.  A node is never changed once it has been handed
out, so an expression is a tree whose nodes carry their address; two subtrees with one address are the
same node.  Reference counts are not modelled, except that a node may be shared too often.

* `SymExpr`: the nodes.
* `ExprCtx`: what allocation depends on, the limit on the nodes and the allocator.
* `symExprAdd`, …, `symExprNeg`: the constructors, which fold constants and drop neutral operands.
-/

namespace TaintForge

/-- `DSE_MAX_EXPR_NODES` -/
def dseMaxExprNodes : ℕ := 50000

/-- `mask_w` -/
def maskW (v : BitVec 64) (w : ℕ) : BitVec 64 := if w ≥ 64 then v else v &&& (1#64 <<< w - 1)

/-! ### Nodes -/

/-- `DseVarKind` -/
inductive DseVarKind where
  | generic | registerRoot | memoryRoot | addressRoot | flagRoot
  deriving DecidableEq, Repr

/-- The symbol of a variable. -/
structure SymVar where
  srcAddr : BitVec 64
  epoch : ℕ
  id : ℕ
  kind : DseVarKind
  deriving DecidableEq, Repr

/-- The operators with two operands. -/
inductive SymBinary where
  | add | sub | mul | xor | and | or | shl | lshr | ashr | concat | eq | ult | slt
  deriving DecidableEq, Repr

/-- The operators with one operand. -/
inductive SymUnary where
  | extract | zext | sext
  deriving DecidableEq, Repr

/-- What every node has: where it is, its width and whether a variable occurs in it. -/
structure SymHeader where
  addr : ℕ
  width : ℕ
  hasVar : Bool
  deriving DecidableEq, Repr

/-- A node with its operands.  The bit range of a unary node is used by an extraction only. -/
inductive SymExpr where
  | const (header : SymHeader) (value : BitVec 64)
  | var (header : SymHeader) (symbol : SymVar)
  | binary (header : SymHeader) (op : SymBinary) (a b : SymExpr)
  | unary (header : SymHeader) (op : SymUnary) (a : SymExpr) (extractHigh extractLow : ℕ)
  | ternary (header : SymHeader) (cond whenTrue whenFalse : SymExpr)
  deriving DecidableEq, Repr

namespace SymExpr

def header : SymExpr → SymHeader
  | .const h _ => h
  | .var h _ => h
  | .binary h _ _ _ => h
  | .unary h _ _ _ _ => h
  | .ternary h _ _ _ => h

def addr (e : SymExpr) : ℕ := e.header.addr

def width (e : SymExpr) : ℕ := e.header.width

def hasVar (e : SymExpr) : Bool := e.header.hasVar

/-- The value of a constant. -/
def constVal : SymExpr → Option (BitVec 64)
  | .const _ value => some value
  | _ => none

end SymExpr

/-! ### Allocation -/

/-- `g_active_expr_ctx` with the allocator.  Without a context there is no limit. -/
structure ExprCtx where
  active : Bool
  resourceLimitHit : Bool
  exprNodesCreated : ℕ
  nextAddr : ℕ
  heap : Heap

/-- `dse_mark_resource_limit` -/
def dseMarkResourceLimit (ctx : ExprCtx) : ExprCtx :=
  if ctx.active then { ctx with resourceLimitHit := true } else ctx

/-- `sizeof(SymExpr)` -/
def sizeofSymExpr : ℕ := 40

/-- `sym_expr_alloc`: the address of a new node. -/
def symExprAlloc : Fallible ExprCtx ℕ := fun ctx =>
  if ctx.active ∧ (ctx.resourceLimitHit ∨ ctx.exprNodesCreated ≥ dseMaxExprNodes) then
    (none, dseMarkResourceLimit ctx)
  else
    let (granted, heap) := ctx.heap.calloc 1 sizeofSymExpr
    if granted = false then (none, dseMarkResourceLimit { ctx with heap := heap })
    else
      (some ctx.nextAddr,
        { ctx with
          heap := heap
          nextAddr := ctx.nextAddr + 1
          exprNodesCreated := ctx.exprNodesCreated + (if ctx.active then 1 else 0) })

/-- `mk_binary` -/
def mkBinary (op : SymBinary) (width : ℕ) (left right : SymExpr) : Fallible ExprCtx SymExpr := do
  let addr ← symExprAlloc
  return .binary ⟨addr, width, left.hasVar || right.hasVar⟩ op left right

/-- `mk_unary` -/
def mkUnary (op : SymUnary) (width : ℕ) (operand : SymExpr) (high low : ℕ) :
    Fallible ExprCtx SymExpr := do
  let addr ← symExprAlloc
  return .unary ⟨addr, width, operand.hasVar⟩ op operand high low

/-- `mk_ternary` -/
def mkTernary (width : ℕ) (condition whenTrue whenFalse : SymExpr) : Fallible ExprCtx SymExpr := do
  let addr ← symExprAlloc
  return .ternary ⟨addr, width, condition.hasVar || whenTrue.hasVar || whenFalse.hasVar⟩
    condition whenTrue whenFalse

/-- `sym_expr_clone`: refused when the node is shared too often already, which the allocator's next answer
stands for. -/
def symExprClone (e : SymExpr) : Fallible ExprCtx SymExpr := fun ctx =>
  let (counted, heap) := ctx.heap.calloc 1 0
  if counted = false then (none, dseMarkResourceLimit { ctx with heap := heap })
  else (some e, { ctx with heap := heap })

/-! ### The constructors -/

/-- `sym_expr_const` -/
def symExprConst (value : BitVec 64) (width : ℕ) : Fallible ExprCtx SymExpr :=
  if width = 0 ∨ width > 64 then .fail
  else do
    let addr ← symExprAlloc
    return .const ⟨addr, width, false⟩ (maskW value width)

/-- `sym_expr_var` -/
def symExprVar (symbol : SymVar) (width : ℕ) : Fallible ExprCtx SymExpr :=
  if width = 0 ∨ width > 64 then .fail
  else do
    let addr ← symExprAlloc
    return .var ⟨addr, width, true⟩ symbol

def symExprAdd (a b : SymExpr) : Fallible ExprCtx SymExpr :=
  if a.width ≠ b.width then .fail
  else if a.constVal = some 0 then return b
  else if b.constVal = some 0 then return a
  else
    match a.constVal, b.constVal with
    | some x, some y => symExprConst (maskW (x + y) a.width) a.width
    | _, _ => mkBinary .add a.width a b

def symExprSub (a b : SymExpr) : Fallible ExprCtx SymExpr :=
  if a.width ≠ b.width then .fail
  else if b.constVal = some 0 then return a
  else
    match a.constVal, b.constVal with
    | some x, some y => symExprConst (maskW (x - y) a.width) a.width
    | _, _ => mkBinary .sub a.width a b

def symExprXor (a b : SymExpr) : Fallible ExprCtx SymExpr :=
  if a.width ≠ b.width then .fail
  else if a.constVal = some 0 then return b
  else if b.constVal = some 0 then return a
  else
    match a.constVal, b.constVal with
    | some x, some y => symExprConst (maskW (x ^^^ y) a.width) a.width
    | _, _ => mkBinary .xor a.width a b

def symExprAnd (a b : SymExpr) : Fallible ExprCtx SymExpr :=
  let all := maskW (BitVec.allOnes 64) a.width
  if a.width ≠ b.width then .fail
  else if a.constVal = some 0 then return a
  else if b.constVal = some 0 then return b
  else if a.constVal = some all then return b
  else if b.constVal = some all then return a
  else
    match a.constVal, b.constVal with
    | some x, some y => symExprConst (maskW (x &&& y) a.width) a.width
    | _, _ => mkBinary .and a.width a b

def symExprOr (left right : SymExpr) : Fallible ExprCtx SymExpr :=
  let allBits := maskW (BitVec.allOnes 64) left.width
  if left.width ≠ right.width then .fail
  else if left.constVal = some 0 then return right
  else if right.constVal = some 0 then return left
  else if left.constVal = some allBits then return left
  else if right.constVal = some allBits then return right
  else
    match left.constVal, right.constVal with
    | some x, some y => symExprConst (maskW (x ||| y) left.width) left.width
    | _, _ => mkBinary .or left.width left right

def symExprMul (a b : SymExpr) : Fallible ExprCtx SymExpr :=
  if a.width ≠ b.width then .fail
  else
    match a.constVal, b.constVal with
    | some x, some y => symExprConst (maskW (x * y) a.width) a.width
    | _, _ =>
      if a.constVal = some 0 then return a
      else if b.constVal = some 0 then return b
      else if a.constVal = some 1 then return b
      else if b.constVal = some 1 then return a
      else mkBinary .mul a.width a b

/-- The three relations, with the value they have on two constants. -/
def compareConst (operation : SymBinary) (width : ℕ) (x y : BitVec 64) : Option Bool :=
  match operation with
  | .eq => some (x == y)
  | .ult => some (x.ult y)
  | .slt =>
    let sign := 1#64 <<< (width - 1)
    some ((x ^^^ sign).ult (y ^^^ sign))
  | _ => none

/-- `sym_expr_compare` -/
def symExprCompare (operation : SymBinary) (left right : SymExpr) : Fallible ExprCtx SymExpr :=
  if left.width ≠ right.width then .fail
  else
    match left.constVal, right.constVal with
    | some x, some y =>
      match compareConst operation left.width (maskW x left.width) (maskW y left.width) with
      | some comparison => symExprConst (if comparison then 1 else 0) 1
      | none => .fail
    | _, _ => mkBinary operation 1 left right

def symExprEq (left right : SymExpr) : Fallible ExprCtx SymExpr := symExprCompare .eq left right

def symExprUlt (left right : SymExpr) : Fallible ExprCtx SymExpr := symExprCompare .ult left right

def symExprSlt (left right : SymExpr) : Fallible ExprCtx SymExpr := symExprCompare .slt left right

def symExprIte (condition whenTrue whenFalse : SymExpr) : Fallible ExprCtx SymExpr :=
  if condition.width ≠ 1 ∨ whenTrue.width ≠ whenFalse.width then .fail
  else
    match condition.constVal with
    | some c => if c &&& 1 ≠ 0 then return whenTrue else return whenFalse
    | none => mkTernary whenTrue.width condition whenTrue whenFalse

def symExprSext (a : SymExpr) (toWidth : ℕ) : Fallible ExprCtx SymExpr :=
  if toWidth > 64 ∨ toWidth < a.width then .fail
  else if toWidth = a.width then return a
  else
    match a.constVal with
    | some x =>
      let v := maskW x a.width
      let fill := maskW (BitVec.allOnes 64) toWidth &&& ~~~maskW (BitVec.allOnes 64) a.width
      let v := if a.width < 64 ∧ v >>> (a.width - 1) &&& 1 ≠ 0 then v ||| fill else v
      symExprConst (maskW v toWidth) toWidth
    | none => mkUnary .sext toWidth a 0 0

def symExprZext (a : SymExpr) (toWidth : ℕ) : Fallible ExprCtx SymExpr :=
  if toWidth > 64 ∨ toWidth < a.width then .fail
  else if toWidth = a.width then return a
  else
    match a.constVal with
    | some x => symExprConst (maskW x a.width) toWidth
    | none => mkUnary .zext toWidth a 0 0

/-- The end of the range is computed in 32 bits, and the width of the node is stored in eight. -/
def symExprExtract (a : SymExpr) (lowBit outWidth : ℕ) : Fallible ExprCtx SymExpr :=
  if outWidth = 0 ∨ (lowBit + outWidth) % 2 ^ 32 > a.width then .fail
  else if lowBit = 0 ∧ outWidth = a.width then return a
  else
    match a.constVal with
    | some x => symExprConst (maskW (x >>> lowBit) (outWidth % 2 ^ 8)) (outWidth % 2 ^ 8)
    | none => mkUnary .extract (outWidth % 2 ^ 8) a ((lowBit + outWidth - 1) % 2 ^ 32) lowBit

def symExprConcat (high low : SymExpr) : Fallible ExprCtx SymExpr :=
  let w := high.width + low.width
  if w = 0 ∨ w > 64 then .fail
  else
    match high.constVal, low.constVal with
    | some x, some y =>
      symExprConst ((maskW x high.width <<< low.width) ||| maskW y low.width) w
    | _, _ => mkBinary .concat w high low

/-- The count of a shift, brought to the width of what is shifted. -/
def fitCount (count : SymExpr) (width : ℕ) : Fallible ExprCtx SymExpr :=
  if count.width < width then symExprZext count width
  else if count.width > width then symExprExtract count 0 width
  else return count

def symExprShl (a b : SymExpr) : Fallible ExprCtx SymExpr := do
  let w := a.width
  let b ← fitCount b w
  if b.constVal = some 0 then return a
  else
    match a.constVal, b.constVal with
    | some x, some count =>
      symExprConst (if count.toNat < w then maskW (x <<< count.toNat) w else 0) w
    | _, _ => mkBinary .shl w a b

def symExprShr (a count : SymExpr) : Fallible ExprCtx SymExpr := do
  let width := a.width
  let count ← fitCount count width
  if count.constVal = some 0 then return a
  else
    match a.constVal, count.constVal with
    | some x, some shift =>
      symExprConst (if shift.toNat < width then maskW (x >>> shift.toNat) width else 0) width
    | _, _ => mkBinary .lshr width a count

def symExprSar (a count : SymExpr) : Fallible ExprCtx SymExpr := do
  let width := a.width
  let count ← fitCount count width
  if count.constVal = some 0 then return a
  else mkBinary .ashr width a count

def symExprRol (a count : SymExpr) : Fallible ExprCtx SymExpr :=
  match count.constVal with
  | none => .fail
  | some value => do
    let w := a.width
    let c := value.toNat % (if w ≠ 0 then w else 1)
    if c = 0 then return a
    else
      let copy ← symExprClone a
      let hi ← symExprExtract copy 0 (w - c)
      let lo ← symExprExtract a (w - c) c
      symExprConcat hi lo

def symExprRor (a count : SymExpr) : Fallible ExprCtx SymExpr :=
  match count.constVal with
  | none => .fail
  | some value => do
    let w := a.width
    let c := value.toNat % (if w ≠ 0 then w else 1)
    if c = 0 then return a
    else
      let copy ← symExprClone a
      let hi ← symExprExtract copy 0 c
      let lo ← symExprExtract a c (w - c)
      symExprConcat hi lo

def symExprNot (a : SymExpr) : Fallible ExprCtx SymExpr := do
  let ones ← symExprConst (maskW (BitVec.allOnes 64) a.width) a.width
  symExprXor a ones

def symExprNeg (a : SymExpr) : Fallible ExprCtx SymExpr := do
  let zero ← symExprConst 0 a.width
  symExprSub zero a

end TaintForge
