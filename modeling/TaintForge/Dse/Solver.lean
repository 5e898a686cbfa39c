import TaintForge.Dse.SymExpr

/-!
# The terms of the solver

`sym_expr_to_z3` of `dse.c` builds a term of the solver for an expression.  A term that has been built is
kept with its node, which stays alive with it, and is found again by the address of the node.

* `Z3Api`: the calls of the solver, what a term means, and `Z3Api.Lawful`: what the calls return.
* `symExprToZ3`: the translation.
-/

namespace TaintForge

/-- `DSE_MAX_Z3_CACHE_NODES` -/
def dseMaxZ3CacheNodes : ℕ := 50000

/-! ### The solver -/

/-- Values for the constants of the solver, by name and width. -/
abbrev Interp := String → (w : ℕ) → BitVec w

/-- What a term is under each interpretation: a bit vector of some width, or a truth value. -/
inductive Z3Meaning where
  | bits (w : ℕ) (value : Interp → BitVec w)
  | truth (value : Interp → Bool)

/-- The calls of the solver that are used, each a step on its context, and the meaning of what they
return.  References to terms are not counted. -/
structure Z3Api where
  Ctx : Type
  BvSort : Type
  Ast : Type
  width : BvSort → ℕ
  meaning : Ast → Z3Meaning
  mkBvSort : ℕ → Fallible Ctx BvSort
  mkUnsignedInt64 : BitVec 64 → BvSort → Fallible Ctx Ast
  mkConst : String → BvSort → Fallible Ctx Ast
  mkBvadd : Ast → Ast → Fallible Ctx Ast
  mkBvsub : Ast → Ast → Fallible Ctx Ast
  mkBvmul : Ast → Ast → Fallible Ctx Ast
  mkBvxor : Ast → Ast → Fallible Ctx Ast
  mkBvand : Ast → Ast → Fallible Ctx Ast
  mkBvor : Ast → Ast → Fallible Ctx Ast
  mkBvshl : Ast → Ast → Fallible Ctx Ast
  mkBvlshr : Ast → Ast → Fallible Ctx Ast
  mkBvashr : Ast → Ast → Fallible Ctx Ast
  mkConcat : Ast → Ast → Fallible Ctx Ast
  mkEq : Ast → Ast → Fallible Ctx Ast
  mkBvult : Ast → Ast → Fallible Ctx Ast
  mkBvslt : Ast → Ast → Fallible Ctx Ast
  mkIte : Ast → Ast → Ast → Fallible Ctx Ast
  mkZeroExt : ℕ → Ast → Fallible Ctx Ast
  mkSignExt : ℕ → Ast → Fallible Ctx Ast
  mkExtract : ℕ → ℕ → Ast → Fallible Ctx Ast

namespace Z3Api

variable (z3 : Z3Api)

/-- A call that computes an operation on two terms of one width. -/
def Computes (call : z3.Ast → z3.Ast → Fallible z3.Ctx z3.Ast)
    (operation : {w : ℕ} → BitVec w → BitVec w → BitVec w) : Prop :=
  ∀ {a b : z3.Ast} {w : ℕ} {f g : Interp → BitVec w}, z3.meaning a = .bits w f → z3.meaning b = .bits w g →
    (call a b).All fun t => z3.meaning t = .bits w fun I => operation (f I) (g I)

/-- A call that decides a relation of two terms of one width. -/
def Decides (call : z3.Ast → z3.Ast → Fallible z3.Ctx z3.Ast)
    (relation : {w : ℕ} → BitVec w → BitVec w → Bool) : Prop :=
  ∀ {a b : z3.Ast} {w : ℕ} {f g : Interp → BitVec w}, z3.meaning a = .bits w f → z3.meaning b = .bits w g →
    (call a b).All fun t => z3.meaning t = .truth fun I => relation (f I) (g I)

/-- What the solver documents of its bit vectors: the terms returned mean the operations that the calls
are named for. -/
structure Lawful : Prop where
  mkBvSort (w : ℕ) : (z3.mkBvSort w).All fun s => z3.width s = w
  mkUnsignedInt64 (value : BitVec 64) (s : z3.BvSort) :
    (z3.mkUnsignedInt64 value s).All fun t =>
      z3.meaning t = .bits (z3.width s) fun _ => value.setWidth (z3.width s)
  mkConst (name : String) (s : z3.BvSort) :
    (z3.mkConst name s).All fun t => z3.meaning t = .bits (z3.width s) fun I => I name (z3.width s)
  mkBvadd : z3.Computes z3.mkBvadd fun x y => x + y
  mkBvsub : z3.Computes z3.mkBvsub fun x y => x - y
  mkBvmul : z3.Computes z3.mkBvmul fun x y => x * y
  mkBvxor : z3.Computes z3.mkBvxor fun x y => x ^^^ y
  mkBvand : z3.Computes z3.mkBvand fun x y => x &&& y
  mkBvor : z3.Computes z3.mkBvor fun x y => x ||| y
  mkBvshl : z3.Computes z3.mkBvshl fun x y => x <<< y
  mkBvlshr : z3.Computes z3.mkBvlshr fun x y => x >>> y
  mkBvashr : z3.Computes z3.mkBvashr fun x y => x.sshiftRight' y
  mkEq : z3.Decides z3.mkEq fun x y => x == y
  mkBvult : z3.Decides z3.mkBvult fun x y => x.ult y
  mkBvslt : z3.Decides z3.mkBvslt fun x y => x.slt y
  mkConcat {a b : z3.Ast} {v w : ℕ} {f : Interp → BitVec v} {g : Interp → BitVec w} :
    z3.meaning a = .bits v f → z3.meaning b = .bits w g →
      (z3.mkConcat a b).All fun t => z3.meaning t = .bits (v + w) fun I => f I ++ g I
  mkIte {c a b : z3.Ast} {w : ℕ} {h : Interp → Bool} {f g : Interp → BitVec w} :
    z3.meaning c = .truth h → z3.meaning a = .bits w f → z3.meaning b = .bits w g →
      (z3.mkIte c a b).All fun t => z3.meaning t = .bits w fun I => if h I then f I else g I
  mkZeroExt {n v w : ℕ} {a : z3.Ast} {f : Interp → BitVec w} : z3.meaning a = .bits w f → w + n = v →
    (z3.mkZeroExt n a).All fun t => z3.meaning t = .bits v fun I => (f I).setWidth v
  mkSignExt {n v w : ℕ} {a : z3.Ast} {f : Interp → BitVec w} : z3.meaning a = .bits w f → w + n = v →
    (z3.mkSignExt n a).All fun t => z3.meaning t = .bits v fun I => (f I).signExtend v
  mkExtract {high low v w : ℕ} {a : z3.Ast} {f : Interp → BitVec w} : z3.meaning a = .bits w f →
    high < w → high + 1 = low + v →
      (z3.mkExtract high low a).All fun t => z3.meaning t = .bits v fun I => (f I).extractLsb' low v

/-- The call for an operator. -/
def mkBinary : SymBinary → z3.Ast → z3.Ast → Fallible z3.Ctx z3.Ast
  | .add => z3.mkBvadd
  | .sub => z3.mkBvsub
  | .mul => z3.mkBvmul
  | .xor => z3.mkBvxor
  | .and => z3.mkBvand
  | .or => z3.mkBvor
  | .shl => z3.mkBvshl
  | .lshr => z3.mkBvlshr
  | .ashr => z3.mkBvashr
  | .concat => z3.mkConcat
  | .eq => z3.mkEq
  | .ult => z3.mkBvult
  | .slt => z3.mkBvslt

/-- A number of a width, with its sort. -/
def mkNumber (value : BitVec 64) (w : ℕ) : Fallible z3.Ctx z3.Ast := do
  let s ← z3.mkBvSort w
  z3.mkUnsignedInt64 value s

/-- `dse_z3_bool_to_bv1_owned` -/
def boolToBv1 (relation : z3.Ast) : Fallible z3.Ctx z3.Ast := do
  let bitSort ← z3.mkBvSort 1
  let one ← z3.mkUnsignedInt64 1 bitSort
  let zero ← z3.mkUnsignedInt64 0 bitSort
  z3.mkIte relation one zero

/-- What an operator has to be called for: a relation is turned into a bit. -/
def mkOperator (op : SymBinary) (left right : z3.Ast) : Fallible z3.Ctx z3.Ast := do
  let result ← z3.mkBinary op left right
  match op with
  | .eq | .ult | .slt => z3.boolToBv1 result
  | _ => return result

end Z3Api

/-! ### The translation -/

/-- The solver with the expressions: `cache` is `z3_expr_cache`. -/
structure SolverCtx (z3 : Z3Api) where
  z3Ctx : z3.Ctx
  exprs : ExprCtx
  cache : List (SymExpr × z3.Ast)

section Translation

variable {z3 : Z3Api}

/-- A call of the solver. -/
def solverCall {α : Type} (call : Fallible z3.Ctx α) : Fallible (SolverCtx z3) α :=
  call.within (·.z3Ctx) fun z3Ctx s => { s with z3Ctx := z3Ctx }

instance : MonadLift (Fallible z3.Ctx) (Fallible (SolverCtx z3)) := ⟨solverCall⟩

/-- `dse_z3_cache_lookup` -/
def dseZ3CacheLookup (s : SolverCtx z3) (e : SymExpr) : Option z3.Ast :=
  (s.cache.find? fun entry => entry.1.addr = e.addr).map Prod.snd

def SolverCtx.markResourceLimit (s : SolverCtx z3) : SolverCtx z3 :=
  { s with exprs := { s.exprs with resourceLimitHit := true } }

/-- `dse_z3_cache_insert` and `dse_z3_cache_and_return` -/
def dseZ3CacheAndReturn (e : SymExpr) (ast : z3.Ast) : Fallible (SolverCtx z3) z3.Ast := fun s =>
  if s.cache.length ≥ dseMaxZ3CacheNodes then (none, s.markResourceLimit)
  else
    let (key, exprs) := symExprClone e s.exprs
    let s := { s with exprs := exprs }
    match key with
    | none => (none, s.markResourceLimit)
    | some key => (some ast, { s with cache := (key, ast) :: s.cache })

/-- Look a term up, or build and keep it. -/
def cachedTerm (e : SymExpr) (build : Fallible (SolverCtx z3) z3.Ast) : Fallible (SolverCtx z3) z3.Ast :=
  fun s =>
    if s.exprs.resourceLimitHit then (none, s)
    else
      match dseZ3CacheLookup s e with
      | some cached => (some cached, s)
      | none => (build >>= dseZ3CacheAndReturn e) s

/-- The name of a variable. -/
def z3VarName (id : ℕ) : String := "dse_v" ++ toString id

/-- `sym_expr_to_z3`.  The operands are all translated before a failure of one of them counts. -/
def symExprToZ3 : SymExpr → Fallible (SolverCtx z3) z3.Ast
  | .const h value => cachedTerm (.const h value) (solverCall (z3.mkNumber value h.width))
  | .var h symbol => cachedTerm (.var h symbol) do
      let s ← z3.mkBvSort h.width
      z3.mkConst (z3VarName symbol.id) s
  | .binary h op a b => cachedTerm (.binary h op a b) do
      let (left, right) ← (symExprToZ3 a).both (symExprToZ3 b)
      z3.mkOperator op left right
  | .unary h op a high low => cachedTerm (.unary h op a high low) do
      let operand ← symExprToZ3 a
      match op with
      | .zext => z3.mkZeroExt (h.width - a.width) operand
      | .sext => z3.mkSignExt (h.width - a.width) operand
      | .extract => z3.mkExtract high low operand
  | .ternary h c t f => cachedTerm (.ternary h c t f) do
      let (condition, whenTrue, whenFalse) ←
        (symExprToZ3 c).both ((symExprToZ3 t).both (symExprToZ3 f))
      let one ← z3.mkNumber 1 1
      let conditionBool ← z3.mkEq condition one
      z3.mkIte conditionBool whenTrue whenFalse

end Translation

end TaintForge
