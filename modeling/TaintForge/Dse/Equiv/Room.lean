import TaintForge.Dse.Equiv.SymExpr

/-!
# When the constructors return an expression

A constructor returns nothing if the widths do not fit, if the allocator refuses or if there are too many
nodes already.

* `ExprCtx.Room`: the allocator grants everything, and there may be some more nodes.
* `Makes n x w f`: with room for `n` nodes, `x` returns an expression of a width with a value.
* `symExprAdd_makes`, …: one node is enough for most constructors.
-/

namespace TaintForge

open Fallible

/-- There is room for `n` more nodes. -/
structure ExprCtx.Room (n : ℕ) (ctx : ExprCtx) : Prop where
  ample : ctx.heap.Ample
  notHit : ctx.resourceLimitHit = false
  nodes : ctx.exprNodesCreated + n ≤ dseMaxExprNodes

theorem ExprCtx.Room.mono {n m : ℕ} {ctx : ExprCtx} (hle : n ≤ m) (h : ctx.Room m) : ctx.Room n :=
  ⟨h.ample, h.notHit, (Nat.add_le_add_left hle _).trans h.nodes⟩

/-- A step on expressions that returns with room for `n` nodes. -/
abbrev Makes {α : Type} (n : ℕ) (x : Fallible ExprCtx α) (p : α → Prop) : Prop := Returns ExprCtx.Room n x p

theorem Makes.pure {α : Type} {n : ℕ} {p : α → Prop} {a : α} (h : p a) :
    Makes n (Pure.pure a : Fallible ExprCtx α) p :=
  Returns.pure ExprCtx.Room.mono h

theorem Makes.more {α : Type} {n m : ℕ} {x : Fallible ExprCtx α} {p : α → Prop} (hx : Makes n x p)
    (hle : n ≤ m) : Makes m x p :=
  Returns.mono hx ExprCtx.Room.mono hle

theorem symExprAlloc_makes : Makes 1 symExprAlloc fun _ => True := by
  intro rest ctx hctx
  have hnodes := hctx.nodes
  have hcalloc : ctx.heap.calloc 1 sizeofSymExpr = (true, ctx.heap.next) := hctx.ample.calloc (by decide)
  have hfree : ¬ (ctx.active = true ∧
      (ctx.resourceLimitHit = true ∨ ctx.exprNodesCreated ≥ dseMaxExprNodes)) := by
    rintro ⟨-, hhit | hmany⟩
    · rw [hctx.notHit] at hhit
      exact absurd hhit (by decide)
    · omega
  have hrun : symExprAlloc ctx = (some ctx.nextAddr,
      { ctx with
        heap := ctx.heap.next
        nextAddr := ctx.nextAddr + 1
        exprNodesCreated := ctx.exprNodesCreated + (if ctx.active then 1 else 0) }) := by
    rw [symExprAlloc, if_neg hfree, hcalloc]
    rfl
  refine ⟨_, _, hrun, trivial, hctx.ample.next, hctx.notHit, ?_⟩
  show ctx.exprNodesCreated + (if ctx.active then 1 else 0) + rest ≤ dseMaxExprNodes
  split <;> omega

/-! ### Nodes -/

section Constructors

variable {a b : SymExpr} {w v : ℕ} {f g : Valuation → BitVec w}

theorem mkBinary_makes (op : SymBinary) (w : ℕ) (a b : SymExpr) : Makes 1 (mkBinary op w a b) fun _ => True :=
  symExprAlloc_makes.bind fun _ _ => Makes.pure (n := 0) trivial

theorem mkUnary_makes (op : SymUnary) (w : ℕ) (a : SymExpr) (high low : ℕ) :
    Makes 1 (mkUnary op w a high low) fun _ => True :=
  symExprAlloc_makes.bind fun _ _ => Makes.pure (n := 0) trivial

theorem symExprConst_makes (value : BitVec 64) (hw : 1 ≤ w ∧ w ≤ 64) :
    Makes 1 (symExprConst value w) fun _ => True := by
  rw [symExprConst, if_neg (by omega)]
  exact symExprAlloc_makes.bind fun _ _ => Makes.pure (n := 0) trivial

/-- A node is shared without a new one. -/
theorem symExprClone_makes (e : SymExpr) : Makes 0 (symExprClone e) fun copy => copy = e := by
  intro rest ctx hctx
  have hcalloc : ctx.heap.calloc 1 0 = (true, ctx.heap.next) := hctx.ample.calloc (by decide)
  have hrun : symExprClone e ctx = (some e, { ctx with heap := ctx.heap.next }) := by
    rw [symExprClone, hcalloc]
    rfl
  have hnodes := hctx.nodes
  exact ⟨e, _, hrun, rfl, hctx.ample.next, hctx.notHit, (Nat.add_le_add_left (by omega) _).trans hnodes⟩

/-- Two constants are folded, or a node is made. -/
theorem foldBinary_makes (op : SymBinary) (k : BitVec 64 → BitVec 64 → BitVec 64) (hw : 1 ≤ w ∧ w ≤ 64) :
    Makes 1 (match a.constVal, b.constVal with
      | some x, some y => symExprConst (k x y) w
      | _, _ => mkBinary op w a b) fun _ => True := by
  split
  · exact symExprConst_makes _ hw
  · exact mkBinary_makes op w a b

theorem symExprAdd_makes (ha : Represents a w f) (hb : Represents b w g) :
    Makes 1 (symExprAdd a b) fun e => Represents e w fun σ => f σ + g σ := by
  have hw := ha.width_le
  refine Returns.of_all ?_ (symExprAdd_represents ha hb)
  rw [symExprAdd, ha.width, hb.width, if_neg (not_not.mpr rfl)]
  exact .ite (fun _ => Makes.pure trivial) fun _ => .ite (fun _ => Makes.pure trivial) fun _ =>
    foldBinary_makes .add _ hw

theorem symExprSub_makes (ha : Represents a w f) (hb : Represents b w g) :
    Makes 1 (symExprSub a b) fun e => Represents e w fun σ => f σ - g σ := by
  have hw := ha.width_le
  refine Returns.of_all ?_ (symExprSub_represents ha hb)
  rw [symExprSub, ha.width, hb.width, if_neg (not_not.mpr rfl)]
  exact .ite (fun _ => Makes.pure trivial) fun _ => foldBinary_makes .sub _ hw

theorem symExprXor_makes (ha : Represents a w f) (hb : Represents b w g) :
    Makes 1 (symExprXor a b) fun e => Represents e w fun σ => f σ ^^^ g σ := by
  have hw := ha.width_le
  refine Returns.of_all ?_ (symExprXor_represents ha hb)
  rw [symExprXor, ha.width, hb.width, if_neg (not_not.mpr rfl)]
  exact .ite (fun _ => Makes.pure trivial) fun _ => .ite (fun _ => Makes.pure trivial) fun _ =>
    foldBinary_makes .xor _ hw

theorem symExprAnd_makes (ha : Represents a w f) (hb : Represents b w g) :
    Makes 1 (symExprAnd a b) fun e => Represents e w fun σ => f σ &&& g σ := by
  have hw := ha.width_le
  refine Returns.of_all ?_ (symExprAnd_represents ha hb)
  rw [symExprAnd, ha.width, hb.width, if_neg (not_not.mpr rfl)]
  refine .ite (fun _ => Makes.pure trivial) fun _ => .ite (fun _ => Makes.pure trivial) fun _ => ?_
  exact .ite (fun _ => Makes.pure trivial) fun _ => .ite (fun _ => Makes.pure trivial) fun _ =>
    foldBinary_makes .and _ hw

theorem symExprOr_makes (ha : Represents a w f) (hb : Represents b w g) :
    Makes 1 (symExprOr a b) fun e => Represents e w fun σ => f σ ||| g σ := by
  have hw := ha.width_le
  refine Returns.of_all ?_ (symExprOr_represents ha hb)
  rw [symExprOr, ha.width, hb.width, if_neg (not_not.mpr rfl)]
  refine .ite (fun _ => Makes.pure trivial) fun _ => .ite (fun _ => Makes.pure trivial) fun _ => ?_
  exact .ite (fun _ => Makes.pure trivial) fun _ => .ite (fun _ => Makes.pure trivial) fun _ =>
    foldBinary_makes .or _ hw

theorem symExprCompare_makes {operation : SymBinary} (hop : operation.IsRelation) (ha : Represents a w f)
    (hb : Represents b w g) : Makes 1 (symExprCompare operation a b) fun _ => True := by
  rw [symExprCompare, ha.width, hb.width, if_neg (not_not.mpr rfl)]
  split
  · cases operation <;> first | exact absurd hop (by decide) | exact symExprConst_makes _ (by decide)
  · exact mkBinary_makes operation 1 a b

theorem symExprEq_makes (ha : Represents a w f) (hb : Represents b w g) :
    Makes 1 (symExprEq a b) fun e => Represents e 1 fun σ => BitVec.ofBool (f σ == g σ) :=
  Returns.of_all (symExprCompare_makes (by decide) ha hb) (symExprEq_represents ha hb)

theorem symExprUlt_makes (ha : Represents a w f) (hb : Represents b w g) :
    Makes 1 (symExprUlt a b) fun e => Represents e 1 fun σ => BitVec.ofBool ((f σ).ult (g σ)) :=
  Returns.of_all (symExprCompare_makes (by decide) ha hb) (symExprUlt_represents ha hb)

theorem symExprZext_makes (ha : Represents a w f) (hv : w ≤ v ∧ v ≤ 64) :
    Makes 1 (symExprZext a v) fun e => Represents e v fun σ => (f σ).setWidth v := by
  have hw := ha.width_le
  refine Returns.of_all ?_ (symExprZext_represents ha v)
  rw [symExprZext, ha.width, if_neg (by omega)]
  refine .ite (fun _ => Makes.pure trivial) fun _ => ?_
  split
  · exact symExprConst_makes _ (by omega)
  · exact mkUnary_makes .zext v a 0 0

theorem symExprExtract_makes (ha : Represents a w f) {low out : ℕ} (hout : 1 ≤ out)
    (hfits : low + out ≤ w) :
    Makes 1 (symExprExtract a low out) fun e => Represents e out fun σ => (f σ).extractLsb' low out := by
  have hw := ha.width_le
  refine Returns.of_all ?_ (symExprExtract_represents ha (by omega))
  rw [symExprExtract, ha.width, Nat.mod_eq_of_lt (show low + out < 2 ^ 32 by omega), if_neg (by omega)]
  refine .ite (fun _ => Makes.pure trivial) fun _ => ?_
  split
  · rw [Nat.mod_eq_of_lt (show out < 2 ^ 8 by omega)]
    exact symExprConst_makes _ (by omega)
  · exact mkUnary_makes .extract _ a _ low

theorem symExprConcat_makes {h : Valuation → BitVec v} (ha : Represents a w f) (hb : Represents b v h)
    (hsum : w + v ≤ 64) :
    Makes 1 (symExprConcat a b) fun e => Represents e (w + v) fun σ => f σ ++ h σ := by
  have hw := ha.width_le
  refine Returns.of_all ?_ (symExprConcat_represents ha hb)
  rw [symExprConcat, ha.width, hb.width, if_neg (by omega)]
  split
  · exact symExprConst_makes _ (by omega)
  · exact mkBinary_makes .concat (w + v) a b

theorem symExprNeg_makes (ha : Represents a w f) :
    Makes 2 (symExprNeg a) fun e => Represents e w fun σ => -f σ := by
  have hw := ha.width_le
  refine Returns.of_all ?_ (symExprNeg_represents ha)
  rw [symExprNeg, ha.width]
  have hzero := Returns.of_all (symExprConst_makes 0 hw) (symExprConst_represents rfl)
  exact hzero.bind fun zero hzero => (symExprSub_makes hzero ha).imp fun _ _ => trivial

end Constructors

end TaintForge
