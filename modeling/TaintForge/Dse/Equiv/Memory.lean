import TaintForge.Dse.Memory
import TaintForge.Dse.Equiv.Context
import TaintForge.Dse.Equiv.Replay
import TaintForge.Dse.Equiv.Room

/-!
# What one byte of the memory is

* `DSECtx.Replays`: an expression that has been found to be an observed byte.
* `LoadsByte`: the expression that stands for a byte: a constant, what was stored, or a variable.
* `dseLoadTrackedByteAt_spec`, `dseStoreTrackedByteAt_spec`: one byte is loaded or stored.
-/

namespace TaintForge

open Fallible Function DSECtx

/-! ### Bytes that are what was observed -/

/-- Under the observed values the expression is the byte. -/
def DSECtx.Replays (ctx : DSECtx) (e : SymExpr) (observedValue : BitVec 8) : Prop :=
  ∃ heap heap' value, dseEvalExprObserved ctx.observedValues e heap = (.ok value, heap') ∧
    maskW value e.width = maskW (observedValue.setWidth 64) e.width

section Replays

variable {ctx ctx' : DSECtx} {e : SymExpr} {observedValue : BitVec 8}

/-- It remains so when more variables get a value. -/
theorem DSECtx.Replays.mono (h : ctx.Replays e observedValue)
    (hbound : ∀ id value, ctx.observedValues id = some value → ctx'.observedValues id = some value) :
    ctx'.Replays e observedValue := by
  obtain ⟨heap, heap', value, heval, hvalue⟩ := h
  obtain ⟨heap₁, hagain, -⟩ :=
    dseEvalExprObserved_again hbound heval (show Heap.Ample ⟨fun _ => true⟩ from fun _ => rfl)
  exact ⟨_, heap₁, value, hagain, hvalue⟩

theorem dseReplayExpect_ok {expectedValue : BitVec 64}
    (hrun : dseReplayExpect e expectedValue ctx = (.ok, ctx')) :
    SameState ctx ctx' ∧ ∃ heap heap' value,
      dseEvalExprObserved ctx.observedValues e heap = (.ok value, heap') ∧
        maskW value e.width = maskW expectedValue e.width := by
  rw [dseReplayExpect] at hrun
  by_cases hwidth : e.width = 0 ∨ e.width > 64
  · rw [if_pos hwidth] at hrun
    cases hrun
  rw [if_neg hwidth] at hrun
  dsimp only at hrun
  rcases heval : dseEvalExprObserved ctx.observedValues e ctx.exprs.heap with ⟨failure | value, heap'⟩
  · rw [heval] at hrun
    cases failure <;> cases hrun
  · rw [heval] at hrun
    dsimp only at hrun
    by_cases hvalue : maskW value e.width ≠ maskW expectedValue e.width
    · rw [if_pos hvalue] at hrun
      cases hrun
    · rw [if_neg hvalue] at hrun
      cases hrun
      exact ⟨⟨⟨rfl, rfl, rfl, rfl, rfl, rfl, rfl, fun _ _ h => h⟩, rfl⟩, _, heap', value, heval,
        not_not.mp hvalue⟩

theorem expectOrReport_spec (hrun : expectOrReport e observedValue ctx = (some (), ctx')) :
    SameState ctx ctx' ∧ ctx.Replays e observedValue := by
  rw [expectOrReport] at hrun
  rcases hexpect : dseReplayExpect e (observedValue.setWidth 64) ctx with ⟨status, c₁⟩
  rw [hexpect] at hrun
  cases status with
  | ok =>
    cases hrun
    exact dseReplayExpect_ok hexpect
  | missingBinding | mismatch | invalidExpr => cases hrun

/-- What has been found to be the byte is found to be it again. -/
theorem expectOrReport_returns {n : ℕ} (hroom : ctx.exprs.Room n) (hwidth : 1 ≤ e.width ∧ e.width ≤ 64)
    (h : ctx.Replays e observedValue) :
    ∃ ctx', expectOrReport e observedValue ctx = (some (), ctx') ∧ ctx'.exprs.Room n ∧
      ctx'.state = ctx.state ∧ ctx'.observedValues = ctx.observedValues ∧ ctx'.roots = ctx.roots := by
  obtain ⟨heap, heap', value, heval, hvalue⟩ := h
  obtain ⟨heap₁, hagain, hample⟩ := dseEvalExprObserved_again (fun _ _ h => h) heval hroom.ample
  have hexpect : dseReplayExpect e (observedValue.setWidth 64) ctx =
      (.ok, { ctx with
        replayChecks := countEvent ctx.replayChecks
        exprs := { ctx.exprs with heap := heap₁ } }) := by
    rw [dseReplayExpect, if_neg (by omega)]
    dsimp only
    rw [hagain]
    dsimp only
    rw [if_neg (not_not.mpr hvalue)]
  refine ⟨{ ctx with
      replayChecks := countEvent ctx.replayChecks
      exprs := { ctx.exprs with heap := heap₁ } }, ?_,
    ⟨hample, hroom.notHit, hroom.nodes⟩, rfl, rfl, rfl⟩
  rw [expectOrReport, hexpect]

/-- A node without operands is evaluated on its own. -/
theorem DSECtx.Replays.of_memoised {h : SymHeader} {evaluate : ReplayEval (BitVec 64)} {value : BitVec 64}
    (himpl : dseEvalExprObservedImpl ctx.observedValues e 0 = memoised h 0 evaluate)
    (hevaluate : ∀ memo, evaluate memo = (.ok value, memo)) (hwidth : e.width = 8) (hheader : h.width = 8)
    (hvalue : maskW value 8 = observedValue.setWidth 64) : ctx.Replays e observedValue := by
  have hguard : ¬ (h.width = 0 ∨ h.width > 64 ∨ 0 > dseMaxReplayDepth) := by
    rw [hheader]
    decide
  have hcalloc : (⟨fun _ => true⟩ : Heap).calloc 1 24 = (true, Heap.next ⟨fun _ => true⟩) :=
    Heap.Ample.calloc (fun _ => rfl) (by decide)
  have hrun : dseEvalExprObserved ctx.observedValues e ⟨fun _ => true⟩ =
      (.ok (maskW value h.width), Heap.next ⟨fun _ => true⟩) := by
    rw [dseEvalExprObserved, himpl, memoised, if_neg hguard]
    dsimp only
    rw [if_neg (by decide), hcalloc, if_neg (by decide), hevaluate]
    rfl
  refine ⟨_, _, _, hrun, ?_⟩
  rw [hwidth, hheader, hvalue]

/-- A constant is the byte that it is. -/
theorem DSECtx.Replays.of_const {f : Valuation → BitVec 8} {x : BitVec 64} (he : Represents e 8 f)
    (hx : e.constVal = some x) (hvalue : ∀ σ, f σ = observedValue) : ctx.Replays e observedValue := by
  have hword : x = observedValue.word := by
    rw [← hvalue fun _ w => 0#w]
    exact he.word_eq hx _
  cases e with
  | const h v =>
    cases hx
    have hwidth : h.width = 8 := he.width
    refine .of_memoised rfl (fun _ => rfl) hwidth hwidth ?_
    rw [hwidth, hword, maskW_word (by decide), maskW_word (by decide)]
    rfl
  | var | binary | unary | ternary => exact absurd hx (by simp [SymExpr.constVal])

/-- A variable is the byte that was observed for it. -/
theorem DSECtx.Replays.of_var {h : SymHeader} {symbol : SymVar} (hwidth : h.width = 8)
    (hbound : ctx.observedValues symbol.id = some ⟨maskW (observedValue.setWidth 64) 8, 8⟩) :
    ctx.Replays (.var h symbol) observedValue := by
  have hmask : maskW (observedValue.setWidth 64) 8 = observedValue.setWidth 64 :=
    maskW_word (by decide) observedValue
  have heval : ∀ memo, evalVar ctx.observedValues h.width symbol memo =
      (.ok (maskW (maskW (observedValue.setWidth 64) 8) h.width), memo) := by
    intro memo
    rw [evalVar, hbound]
    dsimp only
    rw [if_neg (not_not.mpr hwidth.symm)]
    rfl
  refine .of_memoised rfl heval hwidth hwidth ?_
  rw [hwidth, hmask, hmask, hmask]

end Replays

/-! ### Loading a byte -/

theorem symExprConst_eq (value : BitVec 64) (w : ℕ) :
    (symExprConst value w).All fun e => ∃ addr, e = .const ⟨addr, w, false⟩ (maskW value w) :=
  All.ite (fun _ => .fail) fun _ => All.andThen fun addr => .pure ⟨addr, rfl⟩

/-- The expression that stands for a byte.  The variables have the values `observedValues`. -/
inductive LoadsByte (cells : ℕ → Option DseMemCell) (observedValues : ℕ → Option DseObservedValue)
    (address epoch : ℕ) (observedValue : BitVec 8) : Bool → SymExpr → Prop
  /-- A byte that is not tainted is what was observed. -/
  | untainted (addr : ℕ) : LoadsByte cells observedValues address epoch observedValue false
      (.const ⟨addr, 8, false⟩ (maskW (observedValue.setWidth 64) 8))
  /-- A byte that has been written is what was stored. -/
  | stored (cell : DseMemCell) (h : cells address = some cell) :
      LoadsByte cells observedValues address epoch observedValue true cell.expr
  /-- A byte that has never been written is a variable that has the observed value. -/
  | root (header : SymHeader) (id : ℕ) (h : cells address = none)
      (hwidth : header.width = 8)
      (hvalue : observedValues id = some ⟨maskW (observedValue.setWidth 64) 8, 8⟩) :
      LoadsByte cells observedValues address epoch observedValue true
        (.var header ⟨BitVec.ofNat 64 address, epoch, id, .memoryRoot⟩)

theorem dseLoadTrackedByteAt_spec {address epoch : ℕ} {observedValue : BitVec 8} {valueTainted : Bool}
    {ctx ctx' : DSECtx} {e : SymExpr} (hctx : ctx.WellFormed)
    (hrun : dseLoadTrackedByteAt address epoch observedValue valueTainted ctx = (some e, ctx')) :
    e.HasWidth 8 ∧
      LoadsByte ctx.state.symMem ctx'.observedValues address epoch observedValue valueTainted e ∧
      ctx'.WellFormed ∧ SameMachine ctx ctx' := by
  rw [dseLoadTrackedByteAt] at hrun
  cases valueTainted with
  | false =>
    rw [if_pos rfl] at hrun
    obtain ⟨addr, rfl⟩ := (exprStep_spec (symExprConst_eq _ 8) hrun).1
    obtain ⟨hconst, hstate⟩ := exprStep_spec (symExprConst_represents rfl) hrun
    exact ⟨hconst.hasWidth, .untainted addr, hstate.wellFormed hctx, hstate.toSameMachine⟩
  | true =>
    rw [if_neg (by decide)] at hrun
    rcases hcell : ctx.state.symMem address with _ | cell
    · rw [hcell] at hrun
      obtain ⟨⟨hroot, h, id, rfl, hvalue⟩, hc, hsame⟩ := dseNewObservedEpochVar_spec hctx hrun
      exact ⟨hroot, .root h id hcell hroot.2 hvalue, hc, hsame⟩
    · rw [hcell] at hrun
      obtain ⟨value, c₁, hclone, hrun⟩ := bind_eq_some.mp hrun
      obtain ⟨rfl, hcloned⟩ := exprStep_spec (symExprClone_eq cell.expr) hclone
      obtain ⟨_, c₂, hexpect, hreturn⟩ := bind_eq_some.mp hrun
      obtain ⟨rfl, rfl⟩ := pure_eq_some.mp hreturn
      have hstate := hcloned.trans (expectOrReport_spec hexpect).1
      exact ⟨hctx.cells _ _ hcell, .stored cell hcell, hstate.wellFormed hctx, hstate.toSameMachine⟩

/-- What is loaded has been found to be the byte. -/
theorem dseLoadTrackedByteAt_replays {address epoch : ℕ} {observedValue : BitVec 8} {valueTainted : Bool}
    {ctx ctx' : DSECtx} {e : SymExpr} (hctx : ctx.WellFormed)
    (hrun : dseLoadTrackedByteAt address epoch observedValue valueTainted ctx = (some e, ctx')) :
    ctx'.Replays e observedValue := by
  obtain ⟨hwidth, hbyte, -, -⟩ := dseLoadTrackedByteAt_spec hctx hrun
  cases hbyte with
  | untainted addr =>
    refine .of_const hwidth.represents rfl fun σ => ?_
    show BitVec.ofNat 8 ((maskW (observedValue.setWidth 64) 8).setWidth 8).toNat = observedValue
    rw [show maskW (observedValue.setWidth 64) 8 = observedValue.word from maskW_word (by decide) observedValue,
      BitVec.ofNat_toNat, BitVec.setWidth_eq, setWidth_word (by decide)]
  | stored cell hcell =>
    rw [dseLoadTrackedByteAt, if_neg (by decide), hcell] at hrun
    obtain ⟨value, c₁, hclone, hrest⟩ := bind_eq_some.mp hrun
    obtain ⟨_, c₂, hexpect, hreturn⟩ := bind_eq_some.mp hrest
    obtain ⟨rfl, rfl⟩ := pure_eq_some.mp hreturn
    obtain ⟨hstate, hreplays⟩ := expectOrReport_spec hexpect
    exact hreplays.mono hstate.bound
  | root h id hcell hw hvalue => exact .of_var hw hvalue

/-! ### Storing a byte -/

theorem setCell_wellFormed {ctx : DSECtx} (hctx : ctx.WellFormed) {cell : DseMemCell}
    (hcell : cell.expr.HasWidth 8) (address : ℕ) : (ctx.setCell address cell).WellFormed := by
  refine ⟨hctx.flags, fun other stored hstored => ?_, hctx.vars⟩
  change update ctx.state.symMem address (some cell) other = some stored at hstored
  by_cases hother : other = address
  · rw [hother, update_self] at hstored
    cases hstored
    exact hcell
  · rw [update_of_ne hother] at hstored
    exact hctx.cells other stored hstored

/-- **A byte that is stored**: the expression has been found to be the byte, and only its cell changes. -/
theorem dseStoreTrackedByteAt_spec {address : ℕ} {e : SymExpr} {writerAux : InsnAux}
    {observedValue : BitVec 8} {ctx ctx' : DSECtx}
    (hrun : dseStoreTrackedByteAt address e writerAux observedValue ctx = (some (), ctx')) :
    e.width = 8 ∧ ctx.Replays e observedValue ∧ ∃ mid, SameState ctx mid ∧
      ctx' = mid.setCell address ⟨e, writerAux.seqId, writerAux.pc⟩ := by
  rw [dseStoreTrackedByteAt] at hrun
  by_cases hwidth : e.width ≠ 8
  · rw [if_pos hwidth] at hrun
    obtain ⟨_, c₁, -, hfail⟩ := bind_eq_some.mp hrun
    exact absurd hfail fail_ne_some
  · rw [if_neg hwidth] at hrun
    obtain ⟨_, c₁, hexpect, hrun⟩ := bind_eq_some.mp hrun
    obtain ⟨hstate, hreplays⟩ := expectOrReport_spec hexpect
    obtain ⟨_, c₂, hallocate, hset⟩ := bind_eq_some.mp hrun
    cases hset
    have hlimit : ∀ ctx : DSECtx, SameState ctx ctx.markResourceLimit := fun _ =>
      ⟨⟨rfl, rfl, rfl, rfl, rfl, rfl, rfl, fun _ _ h => h⟩, rfl⟩
    have hallocated := allocate_sameState [8, 24] hlimit c₁
    rw [hallocate] at hallocated
    exact ⟨not_not.mp hwidth, hreplays, c₂, hstate.trans hallocated, rfl⟩

end TaintForge
