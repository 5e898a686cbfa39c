import TaintForge.Dse.SymExpr
import Mathlib.Logic.Function.Basic

/-!
# Replaying expressions on observed values

`dse_eval_expr_observed` of `dse.c` computes what an expression is when every variable has the value that
was observed for it.  An expression is a graph with shared nodes, so the values of the nodes are remembered
by address; of an `ite` only the selected branch is evaluated.

* `ReplayMemo`, `memoised`: the table of the nodes, and what is done with it at each node.
* `dseEvalExprObserved`: the evaluator.
-/

namespace TaintForge

open Function

/-- `DSE_MAX_REPLAY_DEPTH` -/
def dseMaxReplayDepth : ℕ := 4096

/-- `DSE_MAX_REPLAY_EVAL_NODES` -/
def dseMaxReplayEvalNodes : ℕ := dseMaxExprNodes

/-- `DseReplayEvalStatus`, where it is not a success. -/
inductive DseReplayEvalFailure where
  | missingBinding | invalidExpr
  deriving DecidableEq, Repr

structure DseObservedValue where
  value : BitVec 64
  width : ℕ
  deriving DecidableEq, Repr

/-- An entry is incomplete while its node is being evaluated. -/
structure DseReplayMemoEntry where
  status : Except DseReplayEvalFailure (BitVec 64)
  complete : Bool

/-- The values of the nodes so far, by address. -/
structure ReplayMemo where
  entries : ℕ → Option DseReplayMemoEntry
  size : ℕ
  heap : Heap

/-- An evaluation with the table of the nodes. -/
abbrev ReplayEval := ExceptT DseReplayEvalFailure (StateM ReplayMemo)

/-- Evaluate a node, or look it up. -/
def memoised (header : SymHeader) (depth : ℕ) (evaluate : ReplayEval (BitVec 64)) :
    ReplayEval (BitVec 64) := fun memo =>
  if header.width = 0 ∨ header.width > 64 ∨ depth > dseMaxReplayDepth then (.error .invalidExpr, memo)
  else
    match memo.entries header.addr with
    | some cached => if cached.complete then (cached.status, memo) else (.error .invalidExpr, memo)
    | none =>
      if memo.size ≥ dseMaxReplayEvalNodes then (.error .invalidExpr, memo)
      else
        let (granted, heap) := memo.heap.calloc 1 24
        if granted = false then (.error .invalidExpr, { memo with heap := heap })
        else
          let (status, memo) := evaluate
            ⟨update memo.entries header.addr (some ⟨.error .invalidExpr, false⟩), memo.size + 1, heap⟩
          let status := status.map fun value => maskW value header.width
          (status, { memo with entries := update memo.entries header.addr (some ⟨status, true⟩) })

/-! ### Operators -/

/-- Whether the widths of the operands go with the width of the node. -/
def operandsFit (op : SymBinary) (width left right : ℕ) : Bool :=
  match op with
  | .concat => left != 0 && right != 0 && left + right == width
  | .eq | .ult | .slt => width == 1 && left != 0 && left == right
  | _ => left == width && right == width

/-- An arithmetic shift on words. -/
def evalSar (width : ℕ) (left right : BitVec 64) : BitVec 64 :=
  let source := maskW left width
  let negative := source >>> (width - 1) &&& 1 ≠ 0
  if right.toNat ≥ width then if negative then maskW (BitVec.allOnes 64) width else 0
  else
    let value := source >>> right.toNat
    let retained := width - right.toNat
    let fill := maskW (BitVec.allOnes 64) width &&& ~~~maskW (BitVec.allOnes 64) retained
    maskW (if negative ∧ right ≠ 0 then value ||| fill else value) width

/-- The value of a node from the words of its operands; `operand` and `low` are their widths. -/
def evalBinary (op : SymBinary) (width operand low : ℕ) (left right : BitVec 64) : BitVec 64 :=
  match op with
  | .add => maskW (left + right) width
  | .sub => maskW (left - right) width
  | .mul => maskW (left * right) width
  | .xor => maskW (left ^^^ right) width
  | .and => maskW (left &&& right) width
  | .or => maskW (left ||| right) width
  | .shl => if right.toNat ≥ width then 0 else maskW (left <<< right.toNat) width
  | .lshr => if right.toNat ≥ width then 0 else maskW (left >>> right.toNat) width
  | .ashr => evalSar width left right
  | .concat => maskW ((left <<< low) ||| right) width
  | .eq => if left = right then 1 else 0
  | .ult => if left.ult right then 1 else 0
  | .slt =>
    let sign := 1#64 <<< (operand - 1)
    if (left ^^^ sign).ult (right ^^^ sign) then 1 else 0

/-- Whether the width of the operand, and the bit range, go with the width of the node. -/
def operandFits (op : SymUnary) (width operand low : ℕ) : Bool :=
  match op with
  | .extract => decide (low ≤ operand) && decide (width ≤ operand - low)
  | .zext | .sext => decide (operand ≤ width)

def evalUnary (op : SymUnary) (width operand low : ℕ) (left : BitVec 64) : BitVec 64 :=
  match op with
  | .extract => maskW (left >>> low) width
  | .zext => maskW left width
  | .sext =>
    let left := maskW left operand
    let left :=
      if operand < 64 ∧ left >>> (operand - 1) &&& 1 ≠ 0 then
        left ||| ~~~maskW (BitVec.allOnes 64) operand
      else left
    maskW left width

/-! ### The evaluator -/

/-- The observed value of a variable. -/
def evalVar (observedValues : ℕ → Option DseObservedValue) (width : ℕ) (symbol : SymVar) :
    ReplayEval (BitVec 64) :=
  match observedValues symbol.id with
  | none => throw .missingBinding
  | some observed =>
    if observed.width ≠ width then throw .invalidExpr else pure (maskW observed.value width)

/-- An evaluation that is tried only if the node is as it should be. -/
def evalIf (fits : Bool) (evaluate : ReplayEval (BitVec 64)) : ReplayEval (BitVec 64) :=
  if fits then evaluate else throw .invalidExpr

/-- `dse_eval_expr_observed_impl` -/
def dseEvalExprObservedImpl (observedValues : ℕ → Option DseObservedValue) :
    SymExpr → ℕ → ReplayEval (BitVec 64)
  | .const h value, depth => memoised h depth (pure (maskW value h.width))
  | .var h symbol, depth => memoised h depth (evalVar observedValues h.width symbol)
  | .binary h op a b, depth =>
    memoised h depth <| evalIf (operandsFit op h.width a.width b.width) do
      let left ← dseEvalExprObservedImpl observedValues a (depth + 1)
      let right ← dseEvalExprObservedImpl observedValues b (depth + 1)
      return evalBinary op h.width a.width b.width left right
  | .unary h op a _ low, depth =>
    memoised h depth <| evalIf (operandFits op h.width a.width low) do
      let left ← dseEvalExprObservedImpl observedValues a (depth + 1)
      return evalUnary op h.width a.width low left
  | .ternary h c t f, depth =>
    memoised h depth <| evalIf (c.width == 1 && t.width == h.width && f.width == h.width) do
      let condition ← dseEvalExprObservedImpl observedValues c (depth + 1)
      -- the other branch is left alone
      if condition &&& 1 ≠ 0 then dseEvalExprObservedImpl observedValues t (depth + 1)
      else dseEvalExprObservedImpl observedValues f (depth + 1)

/-- `dse_eval_expr_observed`: the status with the value, and the allocator. -/
def dseEvalExprObserved (observedValues : ℕ → Option DseObservedValue) (e : SymExpr) (heap : Heap) :
    Except DseReplayEvalFailure (BitVec 64) × Heap :=
  let (status, memo) := dseEvalExprObservedImpl observedValues e 0 ⟨fun _ => none, 0, heap⟩
  (status, memo.heap)

end TaintForge
