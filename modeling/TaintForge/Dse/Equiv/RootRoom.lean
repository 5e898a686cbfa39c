import TaintForge.Dse.Equiv.Context
import TaintForge.Dse.Equiv.Room

/-!
# Variables that are made

With room for its node there is a variable for everything that is read for the first time.

* `exprStep_returns`, `allocate_returns`: steps on expressions, and blocks.
* `dseRegisterRootProvenance_returns`: where a variable comes from is registered.
* `dseNewObservedEpochVar_returns`: a variable for something that is read for the first time.
-/

namespace TaintForge

open Fallible Function DSECtx

/-! ### Steps on expressions and blocks -/

theorem exprStep_returns {α : Type} {n rest : ℕ} {x : Fallible ExprCtx α} {p : α → Prop} (hx : Makes n x p)
    {ctx : DSECtx} (hroom : ctx.exprs.Room (n + rest)) :
    ∃ a exprs, exprStep x ctx = (some a, { ctx with exprs := exprs }) ∧ p a ∧ exprs.Room rest := by
  obtain ⟨a, exprs, ha, hp, hrest⟩ := hx rest ctx.exprs hroom
  refine ⟨a, exprs, ?_, hp, hrest⟩
  show (match x ctx.exprs with | (result, s) => (result, _)) = _
  rw [ha]

theorem allocate_returns {n : ℕ} (sizes : List ℕ) (hsizes : ∀ size ∈ sizes, size ≤ sizeMax)
    (note : DSECtx → DSECtx) (ctx : DSECtx) (hroom : ctx.exprs.Room n) :
    ∃ exprs, allocate sizes note ctx = (some (), { ctx with exprs := exprs }) ∧ exprs.Room n := by
  have hfold : ∀ heap : Heap, heap.Ample → ∃ heap', heap'.Ample ∧ sizes.foldl
      (fun out size => ((out.2.calloc 1 size).1 && out.1, (out.2.calloc 1 size).2))
      (true, heap) = (true, heap') := by
    induction sizes with
    | nil => exact fun heap hample => ⟨heap, hample, rfl⟩
    | cons size sizes ih =>
      intro heap hample
      have hsize : 1 * size ≤ sizeMax := by
        rw [one_mul]
        exact hsizes size List.mem_cons_self
      rw [List.foldl_cons]
      dsimp only
      rw [hample.calloc hsize]
      exact ih (fun other hother => hsizes other (List.mem_cons_of_mem _ hother)) heap.next hample.next
  obtain ⟨heap', hample, hgranted⟩ := hfold ctx.exprs.heap hroom.ample
  refine ⟨{ ctx.exprs with heap := heap' }, ?_, hample, hroom.notHit, hroom.nodes⟩
  have hnew : tryNew sizes ctx = (true, { ctx with exprs := { ctx.exprs with heap := heap' } }) := by
    exact congrArg (fun out => (out.1, { ctx with exprs := { ctx.exprs with heap := out.2 } })) hgranted
  rw [allocate, hnew]
  rfl

/-! ### A new variable -/

/-- The numbers that are left for variables: they have no value, and nothing is registered for them. -/
structure DSECtx.FreshIds (ctx : DSECtx) : Prop where
  unbound : ∀ id, ctx.state.varCounter ≤ id → ctx.observedValues id = none
  unregistered : ∀ id, ctx.state.varCounter ≤ id → ctx.roots.rootProvenance id = none

/-- A step that makes no variable and gives none a value. -/
structure DSECtx.SameVars (ctx ctx' : DSECtx) : Prop where
  cache : ctx'.state.varCache = ctx.state.varCache
  counter : ctx'.state.varCounter = ctx.state.varCounter
  values : ctx'.observedValues = ctx.observedValues
  roots : ctx'.roots = ctx.roots

theorem DSECtx.SameVars.trans {ctx ctx' ctx'' : DSECtx} (h : SameVars ctx ctx') (h' : SameVars ctx' ctx'') :
    SameVars ctx ctx'' :=
  ⟨h'.cache.trans h.cache, h'.counter.trans h.counter, h'.values.trans h.values, h'.roots.trans h.roots⟩

theorem DSECtx.FreshIds.keep {ctx ctx' : DSECtx} (h : ctx.FreshIds) (hsame : SameVars ctx ctx') :
    ctx'.FreshIds := by
  refine ⟨fun id hid => ?_, fun id hid => ?_⟩
  · rw [hsame.values]
    exact h.unbound id (hsame.counter ▸ hid)
  · rw [hsame.roots]
    exact h.unregistered id (hsame.counter ▸ hid)

theorem dseIncomingLineage_returns {n : ℕ} {ctx : DSECtx} (hroom : ctx.exprs.Room n) (origin : DseRootOrigin)
    (hwidth : 1 ≤ origin.width ∧ origin.width ≤ 64)
    (hlineage : 0 < ctx.roots.nextLineageId ∧ ctx.roots.nextLineageId < 2 ^ 63) :
    ∃ lineage exprs roots, dseIncomingLineage origin none ctx =
        (some lineage, { ctx with exprs := exprs, roots := roots }) ∧ exprs.Room n ∧
      lineage.ids.length ≤ 1 ∧ roots.rootProvenance = ctx.roots.rootProvenance ∧
      ctx.roots.nextLineageId ≤ roots.nextLineageId ∧ roots.nextLineageId ≤ ctx.roots.nextLineageId + 1 := by
  have hshort : ∀ id, (dseRootSetAdd ⟨[], true⟩ id).ids.length ≤ 1 := by
    intro id
    rw [dseRootSetAdd]
    split
    · exact Nat.zero_le _
    · rw [if_neg (by decide)]
      exact le_rfl
  have hid : ∃ id exprs roots, dseRootOriginLineageId origin ctx =
        (some id, { ctx with exprs := exprs, roots := roots }) ∧ exprs.Room n ∧
      roots.rootProvenance = ctx.roots.rootProvenance ∧
      ctx.roots.nextLineageId ≤ roots.nextLineageId ∧ roots.nextLineageId ≤ ctx.roots.nextLineageId + 1 := by
    rw [dseRootOriginLineageId, if_neg (by omega)]
    cases hknown : ctx.roots.rootOrigins origin with
    | some existing => exact ⟨existing, ctx.exprs, ctx.roots, rfl, hroom, rfl, le_rfl, Nat.le_succ _⟩
    | none =>
      dsimp only
      rw [if_neg (by omega)]
      obtain ⟨exprs, hallocate, hrest⟩ :=
        allocate_returns [32, 8, 8, 40] (by decide) DSECtx.rootsOutOfMemory ctx hroom
      rw [bind_of_some hallocate]
      exact ⟨_, exprs, _, rfl, hrest, rfl, Nat.le_succ _, le_rfl⟩
  obtain ⟨id, exprs, roots, hrun, hrest⟩ := hid
  refine ⟨_, exprs, roots, ?_, hrest.1, hshort id, hrest.2⟩
  show (dseRootOriginLineageId origin >>= _) ctx = _
  rw [bind_of_some hrun]
  rfl

theorem dseRootProvenanceStoreLineage_returns {n : ℕ} (ctx : DSECtx) (hroom : ctx.exprs.Room n)
    {lineage : DseRootSet} (hids : lineage.ids.length ≤ 1) :
    ∃ exprs roots, dseRootProvenanceStoreLineage lineage ctx =
        (some (), { ctx with exprs := exprs, roots := roots }) ∧ exprs.Room n ∧
      roots.rootProvenance = ctx.roots.rootProvenance ∧ roots.nextLineageId = ctx.roots.nextLineageId := by
  have hsizes : ∀ size ∈ (if lineage.ids = [] then [] else [lineage.ids.length * 8]), size ≤ sizeMax := by
    split
    · exact fun _ h => nomatch h
    · intro size hsize
      rw [List.mem_singleton.mp hsize]
      exact le_trans (show lineage.ids.length * 8 ≤ 8 by omega) (by decide)
  obtain ⟨exprs, hallocate, hrest⟩ := allocate_returns _ hsizes DSECtx.rootsOutOfMemory ctx hroom
  cases hcomplete : lineage.complete with
  | true =>
    refine ⟨exprs, ctx.roots, ?_, hrest, rfl, rfl⟩
    rw [dseRootProvenanceStoreLineage, bind_of_some hallocate]
    show (some (), if lineage.complete then _ else _) = _
    rw [hcomplete]
    rfl
  | false =>
    refine ⟨exprs, { ctx.roots with complete := false }, ?_, hrest, rfl, rfl⟩
    rw [dseRootProvenanceStoreLineage, bind_of_some hallocate]
    show (some (), if lineage.complete then _ else _) = _
    rw [hcomplete]
    rfl

/-- A variable for which nothing is registered yet is registered. -/
theorem dseRegisterRootProvenance_returns {n width : ℕ} (rootId : ℕ) (kind : DseVarKind) (source : BitVec 64)
    (variableEpoch originVersion eventSeq byteOffset : ℕ) (ctx : DSECtx) (hroom : ctx.exprs.Room n)
    (hwidth : 1 ≤ width ∧ width ≤ 64) (hnew : ctx.roots.rootProvenance rootId = none)
    (hlineage : 0 < ctx.roots.nextLineageId ∧ ctx.roots.nextLineageId < 2 ^ 63) :
    ∃ ctx', dseRegisterRootProvenance rootId width kind source variableEpoch originVersion eventSeq
        byteOffset none ctx = (some (), ctx') ∧ ctx'.exprs.Room n ∧ ctx'.state = ctx.state ∧
      ctx'.observedValues = ctx.observedValues ∧
      (∀ other, other ≠ rootId → ctx'.roots.rootProvenance other = ctx.roots.rootProvenance other) ∧
      ctx.roots.nextLineageId ≤ ctx'.roots.nextLineageId ∧
      ctx'.roots.nextLineageId ≤ ctx.roots.nextLineageId + 1 := by
  obtain ⟨lineage, exprs₁, roots₁, hincoming, hroom₁, hids, hkept₁, hlow, hhigh⟩ :=
    dseIncomingLineage_returns hroom ⟨source, originVersion, width, byteOffset, kind⟩ hwidth hlineage
  obtain ⟨exprs₂, hallocate, hroom₂⟩ := allocate_returns [4, 80] (by decide) DSECtx.rootsOutOfMemory
    { ctx with exprs := exprs₁, roots := roots₁ } hroom₁
  obtain ⟨exprs₃, roots₃, hstore, hroom₃, hkept₃, hnext₃⟩ := dseRootProvenanceStoreLineage_returns
    { ctx with exprs := exprs₂, roots := roots₁ } hroom₂ hids
  have hnone : roots₁.rootProvenance rootId = none := by rw [hkept₁, hnew]
  refine ⟨{ ctx with
      exprs := exprs₃
      roots :=
        { roots₃ with
          rootProvenance := update roots₃.rootProvenance rootId (some ⟨kind, source, variableEpoch,
            originVersion, eventSeq, eventSeq, width, byteOffset, lineage⟩) } },
    ?_, hroom₃, rfl, rfl, fun other hother => ?_, ?_⟩
  · unfold dseRegisterRootProvenance
    rw [bind_of_some hincoming, bind_of_some (show Fallible.read _ = _ from rfl)]
    dsimp only
    rw [hnone]
    dsimp only
    rw [bind_of_some hallocate, bind_of_some hstore]
    rfl
  · show update roots₃.rootProvenance rootId _ other = _
    rw [update_of_ne hother, hkept₃]
    exact congrFun hkept₁ other
  · have hnext : roots₃.nextLineageId = roots₁.nextLineageId := hnext₃
    show _ ≤ roots₃.nextLineageId ∧ roots₃.nextLineageId ≤ _
    rw [hnext]
    exact ⟨hlow, hhigh⟩

/-- What a step does to the tables of the variables if it makes no variable but that of a key. -/
structure DSECtx.OneVar (key : DseVarKey) (ctx ctx' : DSECtx) : Prop where
  vars : ∀ other, other ≠ key → ctx'.state.varCache other = ctx.state.varCache other
  fresh : ctx.FreshIds → ctx'.FreshIds
  lineage : ctx.roots.nextLineageId ≤ ctx'.roots.nextLineageId ∧
    ctx'.roots.nextLineageId ≤ ctx.roots.nextLineageId + 1

theorem symExprVar_makes (symbol : SymVar) {w : ℕ} (hw : 1 ≤ w ∧ w ≤ 64) :
    Makes 1 (symExprVar symbol w) fun e => ∃ addr, e = .var ⟨addr, w, true⟩ symbol := by
  refine Returns.of_all ?_ (symExprVar_eq symbol w)
  rw [symExprVar, if_neg (by omega)]
  exact symExprAlloc_makes.bind fun _ _ => Makes.pure (n := 0) trivial

/-- A variable with the next number, which is kept for its key. -/
theorem symStateNewEpochVar_returns {rest : ℕ} {srcAddr : BitVec 64} {epoch width : ℕ} {kind : DseVarKind}
    {ctx : DSECtx} (hroom : ctx.exprs.Room (1 + rest)) (hwidth : 1 ≤ width ∧ width ≤ 64)
    (hnew : ctx.state.varCache ⟨srcAddr, epoch, width, kind⟩ = none) :
    ∃ addr ctx', symStateNewEpochVar srcAddr epoch width kind ctx =
        (some (.var ⟨addr, width, true⟩ ⟨srcAddr, epoch, ctx.state.varCounter, kind⟩), ctx') ∧
      ctx'.exprs.Room rest ∧ ctx'.observedValues = ctx.observedValues ∧ ctx'.roots = ctx.roots ∧
      ctx'.state.varCounter = ctx.state.varCounter + 1 ∧
      ∀ other, other ≠ ⟨srcAddr, epoch, width, kind⟩ →
        ctx'.state.varCache other = ctx.state.varCache other := by
  let counted : SymState := { ctx.state with varCounter := ctx.state.varCounter + 1 }
  obtain ⟨source, exprs₁, hsource, ⟨addr, rfl⟩, hroom₁⟩ := exprStep_returns
    (symExprVar_makes ⟨srcAddr, epoch, ctx.state.varCounter, kind⟩ hwidth)
    (show DSECtx.exprs { ctx with state := counted } |>.Room (1 + rest) from hroom)
  let root : SymExpr := .var ⟨addr, width, true⟩ ⟨srcAddr, epoch, ctx.state.varCounter, kind⟩
  let kept : SymState :=
    { counted with varCache := update ctx.state.varCache ⟨srcAddr, epoch, width, kind⟩ (some root) }
  obtain ⟨copy, exprs₂, hclone, rfl, hroom₂⟩ := exprStep_returns (symExprClone_makes root)
    (show DSECtx.exprs { ctx with state := kept, exprs := exprs₁ } |>.Room (0 + rest) from
      (Nat.zero_add rest).symm ▸ hroom₁)
  refine ⟨addr, { ctx with state := kept, exprs := exprs₂ }, ?_, hroom₂, rfl, rfl, rfl,
    fun other hother => update_of_ne hother _ _⟩
  rw [symStateNewEpochVar, if_neg (by omega)]
  dsimp only
  rw [hnew]
  dsimp only
  rw [bind_of_some (show Fallible.modify _ _ = _ from rfl)]
  refine (bind_of_some hsource).trans ?_
  rw [bind_of_some (show Fallible.modify _ _ = _ from rfl)]
  exact hclone

/-- A variable without a value gets one. -/
theorem dseBindObservedVar_returns {n : ℕ} (h : SymHeader) (symbol : SymVar) (observedValue : BitVec 64)
    {ctx : DSECtx} (hroom : ctx.exprs.Room n) (hwidth : 1 ≤ h.width ∧ h.width ≤ 64)
    (hnew : ctx.observedValues symbol.id = none) :
    ∃ ctx', dseBindObservedVar (.var h symbol) observedValue ctx = (some (), ctx') ∧ ctx'.exprs.Room n ∧
      ctx'.state = ctx.state ∧ ctx'.roots = ctx.roots ∧
      ∀ other, other ≠ symbol.id → ctx'.observedValues other = ctx.observedValues other := by
  obtain ⟨exprs, hallocate, hrest⟩ := allocate_returns [4, 16] (by decide)
    (fun ctx => dseRecordReplayMissing ctx.markResourceLimit) ctx hroom
  refine ⟨{ ctx with
      exprs := exprs
      observedValues := update ctx.observedValues symbol.id (some ⟨maskW observedValue h.width, h.width⟩) },
    ?_, hrest, rfl, rfl, fun other hother => update_of_ne hother _ _⟩
  rw [dseBindObservedVar, if_neg (by omega)]
  dsimp only
  rw [hnew]
  dsimp only
  rw [bind_of_some hallocate]
  rfl

/-- **A variable for something that is read for the first time.** -/
theorem dseNewObservedEpochVar_returns {rest variableEpoch width : ℕ} {srcAddr : BitVec 64}
    {kind : DseVarKind} {ctx : DSECtx} (originVersion eventSeq byteOffset : ℕ) (observedValue : BitVec 64)
    (hroom : ctx.exprs.Room (1 + rest))
    (hwidth : 1 ≤ width ∧ width ≤ 64)
    (hnew : ctx.state.varCache ⟨srcAddr, variableEpoch, width, kind⟩ = none) (hfresh : ctx.FreshIds)
    (hlineage : 0 < ctx.roots.nextLineageId ∧ ctx.roots.nextLineageId < 2 ^ 63) :
    ∃ root ctx', dseNewObservedEpochVar srcAddr variableEpoch originVersion eventSeq byteOffset width kind
        observedValue none ctx = (some root, ctx') ∧ ctx'.exprs.Room rest ∧
      OneVar ⟨srcAddr, variableEpoch, width, kind⟩ ctx ctx' := by
  have hid := hfresh.unbound ctx.state.varCounter le_rfl
  have hroot := hfresh.unregistered ctx.state.varCounter le_rfl
  obtain ⟨addr, c₁, hstate, hroom₁, hvalues₁, hroots₁, hcounter, hvars⟩ :=
    symStateNewEpochVar_returns hroom hwidth hnew
  obtain ⟨c₂, hbind, hroom₂, hstate₂, hroots₂, hvalues₂⟩ := dseBindObservedVar_returns ⟨addr, width, true⟩
    ⟨srcAddr, variableEpoch, ctx.state.varCounter, kind⟩ observedValue hroom₁ hwidth (hvalues₁ ▸ hid)
  have hsame : c₂.roots = ctx.roots := hroots₂.trans hroots₁
  obtain ⟨c₃, hregister, hroom₃, hstate₃, hvalues₃, hothers, hlow, hhigh⟩ := dseRegisterRootProvenance_returns
    ctx.state.varCounter kind srcAddr variableEpoch originVersion eventSeq byteOffset c₂ hroom₂ hwidth
    (hsame.symm ▸ hroot) (hsame.symm ▸ hlineage)
  rw [hsame] at hothers hlow hhigh
  have hnext : c₃.state.varCounter = ctx.state.varCounter + 1 := by rw [hstate₃, hstate₂, hcounter]
  refine ⟨.var ⟨addr, width, true⟩ ⟨srcAddr, variableEpoch, ctx.state.varCounter, kind⟩, c₃, ?_, hroom₃,
    fun other hother => ?_, fun _ => ⟨fun id hle => ?_, fun id hle => ?_⟩, hlow, hhigh⟩
  · refine (bind_of_some hstate).trans ((bind_of_some hbind).trans ?_)
    dsimp only [SymExpr.varId, SymExpr.width, SymExpr.header]
    rw [hregister]
  · rw [hstate₃, hstate₂, hvars other hother]
  · rw [hnext] at hle
    have hother : id ≠ ctx.state.varCounter := by omega
    rw [hvalues₃, hvalues₂ id hother, hvalues₁]
    exact hfresh.unbound id (Nat.le_of_succ_le hle)
  · rw [hnext] at hle
    rw [hothers id (by omega)]
    exact hfresh.unregistered id (Nat.le_of_succ_le hle)

end TaintForge
