import TaintForge.Dse.Context
import TaintForge.Dse.Equiv.SymExpr

/-!
# What the steps on the context keep

* `DSECtx.WellFormed`: the expressions of the flags, the memory and the variables are well formed and have
  the width of what they stand for.
* `DSECtx.SameState`: a step that only counts, allocates or registers where variables come from.
* `dseNewObservedEpochVar_spec`: a new variable, and what is left alone.
-/

namespace TaintForge

open Fallible Function

/-- An expression that can be the value of something of a width. -/
def SymExpr.HasWidth (e : SymExpr) (w : ℕ) : Prop := e.WellFormed ∧ e.width = w

theorem SymExpr.HasWidth.represents {e : SymExpr} {w : ℕ} (h : e.HasWidth w) :
    Represents e w (e.bits w) :=
  .of_width h.1 h.2

theorem Represents.hasWidth {e : SymExpr} {w : ℕ} {f : Valuation → BitVec w} (h : Represents e w f) :
    e.HasWidth w :=
  ⟨h.wellFormed, h.width⟩

/-- The variable of a key, with some number. -/
def SymExpr.IsVarOf (e : SymExpr) (key : DseVarKey) : Prop :=
  ∃ h id, e = .var h ⟨key.source, key.epoch, id, key.kind⟩

namespace DSECtx

/-- What is kept in the tables of the context has the right width. -/
structure WellFormed (ctx : DSECtx) : Prop where
  flags : ∀ flag e, ctx.state.x86Flags flag = some e → e.HasWidth 1
  cells : ∀ address cell, ctx.state.symMem address = some cell → cell.expr.HasWidth 8
  vars : ∀ key e, ctx.state.varCache key = some e → e.HasWidth key.width ∧ e.IsVarOf key

/-- A step that leaves flags, memory and demand alone.  It may allocate, count, make variables, bind them
to what was observed and register where they come from. -/
structure SameMachine (ctx ctx' : DSECtx) : Prop where
  flags : ctx'.state.x86Flags = ctx.state.x86Flags
  cells : ctx'.state.symMem = ctx.state.symMem
  poisoned : ctx'.x86FlagsPoisoned = ctx.x86FlagsPoisoned
  demandActive : ctx'.demandActive = ctx.demandActive
  demandSeqId : ctx'.demandSeqId = ctx.demandSeqId
  demandAll : ctx'.demandAllMemoryWrites = ctx.demandAllMemoryWrites
  demand : ctx'.demandMemoryWrites = ctx.demandMemoryWrites
  bound : ∀ id value, ctx.observedValues id = some value → ctx'.observedValues id = some value

/-- A step that makes no variable either. -/
structure SameState (ctx ctx' : DSECtx) : Prop extends SameMachine ctx ctx' where
  vars : ctx'.state.varCache = ctx.state.varCache

variable {ctx ctx' ctx'' : DSECtx}

namespace SameMachine

theorem refl (ctx : DSECtx) : SameMachine ctx ctx := ⟨rfl, rfl, rfl, rfl, rfl, rfl, rfl, fun _ _ h => h⟩

theorem trans (h : SameMachine ctx ctx') (h' : SameMachine ctx' ctx'') : SameMachine ctx ctx'' where
  flags := h'.flags.trans h.flags
  cells := h'.cells.trans h.cells
  poisoned := h'.poisoned.trans h.poisoned
  demandActive := h'.demandActive.trans h.demandActive
  demandSeqId := h'.demandSeqId.trans h.demandSeqId
  demandAll := h'.demandAll.trans h.demandAll
  demand := h'.demand.trans h.demand
  bound id value hid := h'.bound id value (h.bound id value hid)

end SameMachine

namespace SameState

theorem refl (ctx : DSECtx) : SameState ctx ctx := ⟨.refl ctx, rfl⟩

theorem trans (h : SameState ctx ctx') (h' : SameState ctx' ctx'') : SameState ctx ctx'' :=
  ⟨h.toSameMachine.trans h'.toSameMachine, h'.vars.trans h.vars⟩

theorem wellFormed (h : SameState ctx ctx') (hctx : ctx.WellFormed) : ctx'.WellFormed := by
  constructor
  · rw [h.flags]
    exact hctx.flags
  · rw [h.cells]
    exact hctx.cells
  · rw [h.vars]
    exact hctx.vars

end SameState

end DSECtx

open DSECtx

/-! ### Steps that change nothing -/

theorem exprStep_sameState {α : Type} (x : Fallible ExprCtx α) : (exprStep x).Moves SameState :=
  .within (fun _ _ => ⟨⟨rfl, rfl, rfl, rfl, rfl, rfl, rfl, fun _ _ h => h⟩, rfl⟩) x

/-- What a step on expressions returns, and what it changes. -/
theorem exprStep_spec {α : Type} {x : Fallible ExprCtx α} {p : α → Prop} (hx : x.All p)
    {ctx ctx' : DSECtx} {a : α} (hrun : exprStep x ctx = (some a, ctx')) : p a ∧ SameState ctx ctx' := by
  have hstate := exprStep_sameState x ctx
  rw [hrun] at hstate
  refine ⟨?_, hstate⟩
  have hresult : (x ctx.exprs).1 = some a := congrArg Prod.fst hrun
  exact hx ctx.exprs a (x ctx.exprs).2 (Prod.ext hresult rfl)

theorem allocate_of_refused {sizes : List ℕ} {note : DSECtx → DSECtx} {ctx : DSECtx}
    (h : (tryNew sizes ctx).1 = false) : allocate sizes note ctx = (none, note (tryNew sizes ctx).2) := by
  rw [allocate]
  dsimp only
  rw [if_pos h]

theorem allocate_of_granted {sizes : List ℕ} {note : DSECtx → DSECtx} {ctx : DSECtx}
    (h : ¬ (tryNew sizes ctx).1 = false) : allocate sizes note ctx = (some (), (tryNew sizes ctx).2) := by
  rw [allocate]
  dsimp only
  rw [if_neg h]

theorem allocate_sameState (sizes : List ℕ) {note : DSECtx → DSECtx}
    (hnote : ∀ ctx, SameState ctx (note ctx)) : (allocate sizes note).Moves SameState := by
  intro ctx
  have hnew : SameState ctx (tryNew sizes ctx).2 := ⟨⟨rfl, rfl, rfl, rfl, rfl, rfl, rfl, fun _ _ h => h⟩, rfl⟩
  by_cases hgranted : (tryNew sizes ctx).1 = false
  · rw [allocate_of_refused hgranted]
    exact hnew.trans (hnote _)
  · rw [allocate_of_granted hgranted]
    exact hnew

theorem rootsIncomplete_sameState (ctx : DSECtx) : SameState ctx ctx.rootsIncomplete :=
  ⟨⟨rfl, rfl, rfl, rfl, rfl, rfl, rfl, fun _ _ h => h⟩, rfl⟩

theorem rootsOutOfMemory_sameState (ctx : DSECtx) : SameState ctx ctx.rootsOutOfMemory :=
  ⟨⟨rfl, rfl, rfl, rfl, rfl, rfl, rfl, fun _ _ h => h⟩, rfl⟩

theorem setRoot_sameState (id : ℕ) (provenance : DseRootProvenance) (ctx : DSECtx) :
    SameState ctx (ctx.setRoot id provenance) :=
  ⟨⟨rfl, rfl, rfl, rfl, rfl, rfl, rfl, fun _ _ h => h⟩, rfl⟩

theorem dseRootOriginLineageId_sameState (origin : DseRootOrigin) :
    (dseRootOriginLineageId origin).Moves SameState := by
  intro ctx
  rw [dseRootOriginLineageId]
  by_cases hwidth : origin.width = 0 ∨ origin.width > 64
  · rw [if_pos hwidth]
    exact .refl ctx
  rw [if_neg hwidth]
  rcases ctx.roots.rootOrigins origin with _ | existing
  · dsimp only
    by_cases hid : ctx.roots.nextLineageId = 0 ∨ ctx.roots.nextLineageId ≥ 2 ^ 63
    · rw [if_pos hid]
      exact rootsOutOfMemory_sameState ctx
    · rw [if_neg hid]
      refine Moves.bind .trans (allocate_sameState _ rootsOutOfMemory_sameState) (fun _ => ?_) ctx
      refine .bind .trans (.modify fun _ => ?_) fun _ => .pure .refl _
      exact ⟨⟨rfl, rfl, rfl, rfl, rfl, rfl, rfl, fun _ _ h => h⟩, rfl⟩
  · exact .refl ctx

theorem dseRootProvenanceStoreLineage_sameState (lineage : DseRootSet) :
    (dseRootProvenanceStoreLineage lineage).Moves SameState := by
  refine .bind .trans (allocate_sameState _ rootsOutOfMemory_sameState) fun _ => .modify fun ctx => ?_
  by_cases hcomplete : lineage.complete = true
  · rw [if_pos hcomplete]
    exact .refl ctx
  · rw [if_neg hcomplete]
    exact rootsIncomplete_sameState ctx

theorem dseIncomingLineage_sameState (origin : DseRootOrigin) (aliasLineage : Option DseRootSet) :
    (dseIncomingLineage origin aliasLineage).Moves SameState := by
  rcases aliasLineage with _ | lineage
  · exact .bind .trans (dseRootOriginLineageId_sameState origin) fun _ => .pure .refl _
  · exact .pure .refl _

theorem dseRegisterRootProvenance_sameState (rootId width : ℕ) (kind : DseVarKind) (source : BitVec 64)
    (variableEpoch originVersion eventSeq byteOffset : ℕ) (aliasLineage : Option DseRootSet) :
    (dseRegisterRootProvenance rootId width kind source variableEpoch originVersion eventSeq byteOffset
      aliasLineage).Moves SameState := by
  unfold dseRegisterRootProvenance
  refine .bind .trans (dseIncomingLineage_sameState _ _) fun incoming => .bind .trans (.read .refl)
    fun ctx => ?_
  rcases ctx.roots.rootProvenance rootId with _ | existing
  · exact .bind .trans (allocate_sameState _ rootsOutOfMemory_sameState) fun _ =>
      .bind .trans (dseRootProvenanceStoreLineage_sameState incoming) fun _ =>
        .modify (setRoot_sameState rootId _)
  · dsimp only
    by_cases hsame : existing.sameSource kind source variableEpoch originVersion width byteOffset = false
    · rw [if_pos hsame]
      exact .bind .trans (.modify rootsIncomplete_sameState) fun _ => .fail .refl
    · rw [if_neg hsame]
      exact .bind .trans (.modify (setRoot_sameState rootId _)) fun _ =>
        .bind .trans (dseRootProvenanceStoreLineage_sameState _) fun _ =>
          .modify (setRoot_sameState rootId _)

/-! ### Variables -/

theorem dseRecordReplayMissing_sameState (ctx : DSECtx) : SameState ctx (dseRecordReplayMissing ctx) :=
  ⟨⟨rfl, rfl, rfl, rfl, rfl, rfl, rfl, fun _ _ h => h⟩, rfl⟩

theorem dseRecordReplayMismatch_sameState (ctx : DSECtx) : SameState ctx (dseRecordReplayMismatch ctx) :=
  ⟨⟨rfl, rfl, rfl, rfl, rfl, rfl, rfl, fun _ _ h => h⟩, rfl⟩

theorem dseMarkPathFailure_sameState (ctx : DSECtx) : SameState ctx (dseMarkPathFailure ctx) :=
  ⟨⟨rfl, rfl, rfl, rfl, rfl, rfl, rfl, fun _ _ h => h⟩, rfl⟩

theorem dseBindObservedVar_sameState (var : SymExpr) (observedValue : BitVec 64) :
    (dseBindObservedVar var observedValue).Moves SameState := by
  intro ctx
  have hmissing := dseRecordReplayMissing_sameState ctx
  cases var with
  | var h symbol =>
    rw [dseBindObservedVar]
    by_cases hwidth : h.width = 0 ∨ h.width > 64
    · rw [if_pos hwidth]
      exact hmissing
    rw [if_neg hwidth]
    dsimp only
    rcases hobserved : ctx.observedValues symbol.id with _ | existing
    · have hnew : SameState ctx (tryNew [4, 16] ctx).2 :=
        ⟨⟨rfl, rfl, rfl, rfl, rfl, rfl, rfl, fun _ _ h => h⟩, rfl⟩
      by_cases hgranted : (tryNew [4, 16] ctx).1 = false
      · dsimp only
        rw [bind_of_none (allocate_of_refused hgranted)]
        exact hnew.trans ⟨⟨rfl, rfl, rfl, rfl, rfl, rfl, rfl, fun _ _ h => h⟩, rfl⟩
      · dsimp only
        rw [bind_of_some (allocate_of_granted hgranted)]
        -- the number had no value before
        refine ⟨⟨rfl, rfl, rfl, rfl, rfl, rfl, rfl, fun id value hid => ?_⟩, rfl⟩
        show update ctx.observedValues symbol.id _ id = some value
        have hother : id ≠ symbol.id := by
          rintro rfl
          rw [hobserved] at hid
          exact nomatch hid
        rw [update_of_ne hother]
        exact hid
    · dsimp only
      by_cases hw : existing.width ≠ h.width
      · rw [if_pos hw]
        exact hmissing
      rw [if_neg hw]
      by_cases hvalue : existing.value ≠ maskW observedValue h.width
      · rw [if_pos hvalue]
        exact dseRecordReplayMismatch_sameState ctx
      · rw [if_neg hvalue]
        exact .refl ctx
  | const | binary | unary | ternary => exact hmissing

theorem symExprVar_eq (symbol : SymVar) (w : ℕ) :
    (symExprVar symbol w).All fun e => ∃ addr, e = .var ⟨addr, w, true⟩ symbol :=
  All.ite (fun _ => .fail) fun _ => All.andThen fun addr => .pure ⟨addr, rfl⟩

/-- A variable of the width asked for. -/
theorem symStateNewEpochVar_spec {srcAddr : BitVec 64} {epoch width : ℕ} {kind : DseVarKind}
    {ctx ctx' : DSECtx} {root : SymExpr} (hctx : ctx.WellFormed)
    (hrun : symStateNewEpochVar srcAddr epoch width kind ctx = (some root, ctx')) :
    (root.HasWidth width ∧ root.IsVarOf ⟨srcAddr, epoch, width, kind⟩) ∧ ctx'.WellFormed ∧
      SameMachine ctx ctx' := by
  rw [symStateNewEpochVar] at hrun
  by_cases hwidth : width = 0 ∨ width > 64
  · rw [if_pos hwidth] at hrun
    exact nomatch hrun
  rw [if_neg hwidth] at hrun
  dsimp only at hrun
  rcases hcached : ctx.state.varCache ⟨srcAddr, epoch, width, kind⟩ with _ | cached
  · rw [hcached] at hrun
    -- the new variable is kept, and a copy of it returned
    obtain ⟨_, c₁, hcount, hrun⟩ := bind_eq_some.mp hrun
    cases hcount
    obtain ⟨source, c₂, hsource, hrun⟩ := bind_eq_some.mp hrun
    have hvar := (exprStep_spec (symExprVar_eq _ width) hsource).1
    obtain ⟨hsource, hmade⟩ := exprStep_spec (symExprVar_represents _ width) hsource
    obtain ⟨_, c₃, hstore, hcopy⟩ := bind_eq_some.mp hrun
    cases hstore
    obtain ⟨rfl, hcopied⟩ := exprStep_spec (symExprClone_eq source) hcopy
    have hroot : root.HasWidth width ∧ root.IsVarOf ⟨srcAddr, epoch, width, kind⟩ := by
      obtain ⟨addr, hvar⟩ := hvar
      exact ⟨hsource.hasWidth, _, _, hvar⟩
    have hstored : DSECtx.WellFormed { c₂ with state := { c₂.state with
        varCache := update c₂.state.varCache ⟨srcAddr, epoch, width, kind⟩ (some root) } } := by
      have h₂ := hmade.wellFormed ⟨hctx.flags, hctx.cells, hctx.vars⟩
      refine ⟨h₂.flags, h₂.cells, fun key e hkey => ?_⟩
      dsimp only at hkey
      rw [update_apply] at hkey
      by_cases hsame : key = ⟨srcAddr, epoch, width, kind⟩
      · rw [if_pos hsame] at hkey
        cases hkey
        rw [hsame]
        exact hroot
      · rw [if_neg hsame] at hkey
        exact h₂.vars key e hkey
    refine ⟨hroot, hcopied.wellFormed hstored, ?_⟩
    refine (SameMachine.trans ?_ hmade.toSameMachine).trans (SameMachine.trans ?_ hcopied.toSameMachine)
    · exact ⟨rfl, rfl, rfl, rfl, rfl, rfl, rfl, fun _ _ h => h⟩
    · exact ⟨rfl, rfl, rfl, rfl, rfl, rfl, rfl, fun _ _ h => h⟩
  · rw [hcached] at hrun
    -- what is kept has the width that is asked for
    obtain ⟨out, c₁, hcopy, hfit⟩ := bind_eq_some.mp hrun
    obtain ⟨hsame, hcopied⟩ := exprStep_spec (symExprClone_eq cached) hcopy
    have hout := hctx.vars _ _ hcached
    rw [← hsame] at hout
    have hwidth : out.width = width := hout.1.2
    rw [if_neg (by omega), if_neg (by omega), pure_eq_some] at hfit
    obtain ⟨rfl, rfl⟩ := hfit
    exact ⟨hout, hcopied.wellFormed hctx, hcopied.toSameMachine⟩

/-- A variable that has been bound has the value that was observed. -/
theorem dseBindObservedVar_bound {h : SymHeader} {symbol : SymVar} {observedValue : BitVec 64}
    {ctx ctx' : DSECtx} (hrun : dseBindObservedVar (.var h symbol) observedValue ctx = (some (), ctx')) :
    ctx'.observedValues symbol.id = some ⟨maskW observedValue h.width, h.width⟩ := by
  rw [dseBindObservedVar] at hrun
  by_cases hwidth : h.width = 0 ∨ h.width > 64
  · rw [if_pos hwidth] at hrun
    exact nomatch hrun
  rw [if_neg hwidth] at hrun
  dsimp only at hrun
  rcases hobserved : ctx.observedValues symbol.id with _ | existing
  · rw [hobserved] at hrun
    obtain ⟨_, c₁, -, hset⟩ := bind_eq_some.mp hrun
    cases hset
    exact update_self _ _ _
  · rw [hobserved] at hrun
    dsimp only at hrun
    by_cases hw : existing.width ≠ h.width
    · rw [if_pos hw] at hrun
      exact nomatch hrun
    rw [if_neg hw] at hrun
    by_cases hvalue : existing.value ≠ maskW observedValue h.width
    · rw [if_pos hvalue] at hrun
      exact nomatch hrun
    · rw [if_neg hvalue] at hrun
      cases hrun
      rw [hobserved, ← not_not.mp hvalue, ← not_not.mp hw]

/-- **A variable for something that is first read**: it is the one of its source and epoch, it has the
value that was observed, and the rest of the machine is left alone. -/
theorem dseNewObservedEpochVar_spec {srcAddr : BitVec 64}
    {variableEpoch originVersion eventSeq byteOffset width : ℕ} {kind : DseVarKind}
    {observedValue : BitVec 64} {aliasLineage : Option DseRootSet} {ctx ctx' : DSECtx} {root : SymExpr}
    (hctx : ctx.WellFormed)
    (hrun : dseNewObservedEpochVar srcAddr variableEpoch originVersion eventSeq byteOffset width kind
      observedValue aliasLineage ctx = (some root, ctx')) :
    (root.HasWidth width ∧ ∃ h id, root = .var h ⟨srcAddr, variableEpoch, id, kind⟩ ∧
      ctx'.observedValues id = some ⟨maskW observedValue width, width⟩) ∧
      ctx'.WellFormed ∧ SameMachine ctx ctx' := by
  obtain ⟨root', c₁, hroot, hrun⟩ := bind_eq_some.mp hrun
  obtain ⟨⟨hroot, h, id, rfl⟩, hc₁, hmade⟩ := symStateNewEpochVar_spec hctx hroot
  obtain ⟨_, c₂, hbind, hrun⟩ := bind_eq_some.mp hrun
  have hstate := dseBindObservedVar_sameState (.var h ⟨srcAddr, variableEpoch, id, kind⟩) observedValue c₁
  rw [hbind] at hstate
  have hregistered := dseRegisterRootProvenance_sameState
    (SymExpr.varId (.var h ⟨srcAddr, variableEpoch, id, kind⟩))
    (SymExpr.width (.var h ⟨srcAddr, variableEpoch, id, kind⟩)) kind srcAddr
    variableEpoch originVersion eventSeq byteOffset aliasLineage c₂
  rcases hregister : dseRegisterRootProvenance
    (SymExpr.varId (.var h ⟨srcAddr, variableEpoch, id, kind⟩))
    (SymExpr.width (.var h ⟨srcAddr, variableEpoch, id, kind⟩)) kind srcAddr variableEpoch
    originVersion eventSeq byteOffset aliasLineage c₂ with ⟨_ | _, c₃⟩
  · rw [hregister] at hrun
    exact nomatch hrun
  · rw [hregister] at hrun hregistered
    cases hrun
    have hvalue := dseBindObservedVar_bound hbind
    have hwidth : h.width = width := hroot.2
    rw [hwidth] at hvalue
    have hlater := hstate.trans hregistered
    exact ⟨⟨hroot, h, id, rfl, hregistered.bound _ _ hvalue⟩, hlater.wellFormed hc₁,
      hmade.trans hlater.toSameMachine⟩

/-- A context that knows nothing yet. -/
def emptyCtx : DSECtx where
  exprs := plainCtx
  state := ⟨fun _ => none, fun _ => none, fun _ => none, 0⟩
  observedValues _ := none
  roots := ⟨fun _ => none, fun _ => none, fun _ => none, 1, true⟩
  replayModelComplete := true
  replayMismatch := false
  replayChecks := 0
  replayFailures := 0
  replayMissingBindings := 0
  memoryModelComplete := true
  pathModelComplete := true
  pathFailures := 0
  x86FlagsPoisoned _ := false
  memoryRootEpoch := 0
  demandActive := false
  demandSeqId := 0
  demandAllMemoryWrites := false
  demandMemoryWrites := ∅

theorem emptyCtx_wellFormed : emptyCtx.WellFormed := ⟨nofun, nofun, nofun⟩

end TaintForge
