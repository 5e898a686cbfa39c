import TaintForge.Dse.Equiv.CollectedLineage
import TaintForge.Dse.Equiv.Context
import Mathlib.Data.Set.BooleanAlgebra
import Mathlib.Order.CompletePartialOrder

/-!
# The lineages along a run

A run makes variables and gives each of them a lineage.  Lineages that are collected anywhere along a run and
are complete have all that the variables depend on, and two of them without a common id are those of
expressions without a common variable.

* `dseNewObservedEpochVar_lineages`: what making a variable does to the lineages.
* `RootStep`: how the tables of the variables change, with what the value of each variable depends on.
* `RootsSound`, `rootRun_sound`: what the tables say of it.
* `rootLineage_complete`: the lineages that are collected along a run.
* `dseRegRootByte_steps`: the bytes of a register are made by such steps.
-/

namespace TaintForge

open Fallible Function

/-! ### The lineage of a variable -/

/-- The lineage that is kept for a variable. -/
def lineageOf (ctx : DSECtx) (id : ℕ) : Option DseRootSet := (ctx.roots.rootProvenance id).map (·.lineage)

/-- The lineage that a variable has once another one has been added. -/
def joinLineage (existing : Option DseRootSet) (incoming : DseRootSet) : DseRootSet :=
  match existing with
  | none => incoming
  | some existing => (existing.ids ++ incoming.ids).foldl dseRootSetAdd
      ⟨[], existing.complete && incoming.complete⟩

/-- The ids that have been given out are not zero. -/
def OriginsSound (ctx : DSECtx) : Prop := ∀ origin id, ctx.roots.rootOrigins origin = some id → id ≠ 0

/-- A step that leaves the lineages alone; ids may be given out. -/
structure SameLineages (ctx ctx' : DSECtx) : Prop where
  lineages : lineageOf ctx' = lineageOf ctx
  origins : OriginsSound ctx → OriginsSound ctx'
  kept : ∀ origin id, ctx.roots.rootOrigins origin = some id → ctx'.roots.rootOrigins origin = some id

variable {ctx ctx' ctx'' : DSECtx}

namespace SameLineages

theorem refl (ctx : DSECtx) : SameLineages ctx ctx := ⟨rfl, id, fun _ _ h => h⟩

theorem trans (h : SameLineages ctx ctx') (h' : SameLineages ctx' ctx'') : SameLineages ctx ctx'' :=
  ⟨h'.lineages.trans h.lineages, fun hctx => h'.origins (h.origins hctx),
    fun origin id horigin => h'.kept origin id (h.kept origin id horigin)⟩

/-- A step that changes nothing but whether the tables are complete. -/
theorem of_tables (hprovenance : ctx'.roots.rootProvenance = ctx.roots.rootProvenance)
    (horigins : ctx'.roots.rootOrigins = ctx.roots.rootOrigins) : SameLineages ctx ctx' := by
  refine ⟨?_, ?_, ?_⟩
  · unfold lineageOf
    rw [hprovenance]
  · unfold OriginsSound
    rw [horigins]
    exact id
  · rw [horigins]
    exact fun _ _ h => h

theorem of_roots (h : ctx'.roots = ctx.roots) : SameLineages ctx ctx' := of_tables (by rw [h]) (by rw [h])

end SameLineages

theorem exprStep_sameLineages {α : Type} (x : Fallible ExprCtx α) : (exprStep x).Moves SameLineages :=
  .within (fun _ _ => .of_roots rfl) x

theorem rootsIncomplete_sameLineages (ctx : DSECtx) : SameLineages ctx ctx.rootsIncomplete :=
  .of_tables rfl rfl

theorem rootsOutOfMemory_sameLineages (ctx : DSECtx) : SameLineages ctx ctx.rootsOutOfMemory :=
  .of_tables rfl rfl

theorem allocate_sameLineages (sizes : List ℕ) {note : DSECtx → DSECtx}
    (hnote : ∀ ctx, SameLineages ctx (note ctx)) : (allocate sizes note).Moves SameLineages := by
  intro ctx
  have hnew : SameLineages ctx (tryNew sizes ctx).2 := .of_roots rfl
  by_cases hgranted : (tryNew sizes ctx).1 = false
  · rw [allocate_of_refused hgranted]
    exact hnew.trans (hnote _)
  · rw [allocate_of_granted hgranted]
    exact hnew

/-- The id of an origin is the one that is kept for it. -/
theorem dseRootOriginLineageId_spec (origin : DseRootOrigin) (ctx : DSECtx) :
    SameLineages ctx (dseRootOriginLineageId origin ctx).2 ∧
      ∀ id, (dseRootOriginLineageId origin ctx).1 = some id →
        (dseRootOriginLineageId origin ctx).2.roots.rootOrigins origin = some id := by
  rw [dseRootOriginLineageId]
  by_cases hwidth : origin.width = 0 ∨ origin.width > 64
  · rw [if_pos hwidth]
    exact ⟨.refl ctx, fun id h => by cases h⟩
  rw [if_neg hwidth]
  rcases hexisting : ctx.roots.rootOrigins origin with _ | existing
  · dsimp only
    by_cases hid : ctx.roots.nextLineageId = 0 ∨ ctx.roots.nextLineageId ≥ 2 ^ 63
    · rw [if_pos hid]
      exact ⟨rootsOutOfMemory_sameLineages ctx, fun id h => by cases h⟩
    rw [if_neg hid]
    have hnew : SameLineages ctx (tryNew [32, 8, 8, 40] ctx).2 := .of_roots rfl
    by_cases hgranted : (tryNew [32, 8, 8, 40] ctx).1 = false
    · rw [bind_of_none (allocate_of_refused hgranted)]
      exact ⟨hnew.trans (rootsOutOfMemory_sameLineages _), fun id h => by cases h⟩
    · rw [bind_of_some (allocate_of_granted hgranted)]
      refine ⟨⟨rfl, fun horigins other id hother => ?_, fun other id hother => ?_⟩, fun id h => ?_⟩
      · -- the id that is given out is not zero
        replace hother : update ctx.roots.rootOrigins origin (some ctx.roots.nextLineageId) other = some id :=
          hother
        rw [update_apply] at hother
        split at hother
        · obtain rfl := Option.some.inj hother
          exact fun hzero => hid (Or.inl hzero)
        · exact horigins other id hother
      · show update ctx.roots.rootOrigins origin (some ctx.roots.nextLineageId) other = some id
        have hne : other ≠ origin := by
          rintro rfl
          rw [hexisting] at hother
          cases hother
        rw [update_of_ne hne]
        exact hother
      · obtain rfl := Option.some.inj h
        exact update_self _ _ _
  · refine ⟨.refl ctx, fun id h => ?_⟩
    obtain rfl := Option.some.inj h
    exact hexisting

theorem storeLineage_sameLineages (lineage : DseRootSet) :
    (dseRootProvenanceStoreLineage lineage).Moves SameLineages := by
  refine .bind .trans (allocate_sameLineages _ rootsOutOfMemory_sameLineages) fun _ => .modify fun ctx => ?_
  by_cases hcomplete : lineage.complete = true
  · rw [if_pos hcomplete]
    exact .refl ctx
  · rw [if_neg hcomplete]
    exact rootsIncomplete_sameLineages ctx

theorem lineageOf_setRoot (ctx : DSECtx) (id : ℕ) (provenance : DseRootProvenance) :
    lineageOf (ctx.setRoot id provenance) = update (lineageOf ctx) id (some provenance.lineage) := by
  ext1 other
  show (update ctx.roots.rootProvenance id (some provenance) other).map _ = _
  rw [update_apply, update_apply]
  split
  · rfl
  · rfl

/-- A variable whose lineage stays the same. -/
theorem setRoot_sameLineages {id : ℕ} {provenance : DseRootProvenance}
    (h : lineageOf ctx id = some provenance.lineage) : SameLineages ctx (ctx.setRoot id provenance) := by
  refine ⟨?_, fun horigins => horigins, fun _ _ horigin => horigin⟩
  rw [lineageOf_setRoot, ← h, update_eq_self]

/-- What is added to the lineage of a variable. -/
inductive Incoming (ctx' : DSECtx) (origin : DseRootOrigin) : Option DseRootSet → DseRootSet → Prop
  /-- The lineage of something else. -/
  | copy (lineage : DseRootSet) : Incoming ctx' origin (some lineage) lineage
  /-- The id of where it comes from. -/
  | origin (id : ℕ) (h : ctx'.roots.rootOrigins origin = some id) (hne : id ≠ 0) :
      Incoming ctx' origin none ⟨[id], true⟩

theorem dseIncomingLineage_spec (horigins : OriginsSound ctx) {origin : DseRootOrigin}
    {aliasLineage result : Option DseRootSet}
    (hrun : dseIncomingLineage origin aliasLineage ctx = (result, ctx')) :
    SameLineages ctx ctx' ∧ ∀ incoming, result = some incoming → Incoming ctx' origin aliasLineage incoming := by
  rcases aliasLineage with _ | lineage
  · obtain ⟨hsame, hid⟩ := dseRootOriginLineageId_spec origin ctx
    rw [dseIncomingLineage] at hrun
    rcases hfound : dseRootOriginLineageId origin ctx with ⟨_ | id, mid⟩
    · rw [hfound] at hsame
      rw [bind_of_none hfound] at hrun
      cases hrun
      exact ⟨hsame, nofun⟩
    · rw [hfound] at hsame hid
      rw [bind_of_some hfound] at hrun
      cases hrun
      refine ⟨hsame, fun incoming h => ?_⟩
      have hkept := hid id rfl
      have hne := hsame.origins horigins origin id hkept
      have hadd : dseRootSetAdd ⟨[], true⟩ id = ⟨[id], true⟩ := by
        rw [dseRootSetAdd, if_neg (fun h => h.elim hne List.not_mem_nil), if_neg (by decide)]
        rfl
      obtain rfl := Option.some.inj h
      rw [hadd]
      exact .origin id hkept hne
  · cases hrun
    refine ⟨.refl ctx, fun incoming h => ?_⟩
    obtain rfl := Option.some.inj h
    exact .copy _

/-- A step gives a variable a lineage, or leaves the lineages alone. -/
structure Registers (id : ℕ) (lineage : DseRootSet) (ctx : DSECtx) (run : Option Unit × DSECtx) : Prop where
  origins : OriginsSound ctx → OriginsSound run.2
  kept : ∀ origin id, ctx.roots.rootOrigins origin = some id → run.2.roots.rootOrigins origin = some id
  refused : run.1 = none → lineageOf run.2 = lineageOf ctx
  done : run.1 = some () → lineageOf run.2 = update (lineageOf ctx) id (some lineage)

namespace Registers

theorem refuse (h : SameLineages ctx ctx') (id : ℕ) (lineage : DseRootSet) :
    Registers id lineage ctx (none, ctx') :=
  ⟨h.origins, h.kept, fun _ => h.lineages, nofun⟩

theorem setRoot (id : ℕ) (provenance : DseRootProvenance) (ctx : DSECtx) :
    Registers id provenance.lineage ctx (Fallible.modify (·.setRoot id provenance) ctx) :=
  ⟨fun h => h, fun _ _ h => h, nofun, fun _ => lineageOf_setRoot ctx id provenance⟩

/-- Something that leaves the lineages alone may come first. -/
theorem after {id : ℕ} {lineage : DseRootSet} {run : Option Unit × DSECtx} (h : SameLineages ctx ctx')
    (hrun : Registers id lineage ctx' run) : Registers id lineage ctx run := by
  refine ⟨fun horigins => hrun.origins (h.origins horigins), fun origin id horigin => ?_,
    fun hnone => (hrun.refused hnone).trans h.lineages, fun hdone => ?_⟩
  · exact hrun.kept origin id (h.kept origin id horigin)
  · rw [hrun.done hdone, h.lineages]

theorem andThen {id : ℕ} {lineage : DseRootSet} {x : Fallible DSECtx Unit} {f : Unit → Fallible DSECtx Unit}
    (hx : x.Moves SameLineages) (hf : ∀ ctx, Registers id lineage ctx (f () ctx)) (ctx : DSECtx) :
    Registers id lineage ctx ((x >>= f) ctx) := by
  have hmoved := hx ctx
  rcases hrun : x ctx with ⟨_ | _, mid⟩
  · rw [hrun] at hmoved
    rw [bind_of_none hrun]
    exact .refuse hmoved id lineage
  · rw [hrun] at hmoved
    rw [bind_of_some hrun]
    exact (hf mid).after hmoved

end Registers

theorem Incoming.mono {origin : DseRootOrigin} {aliasLineage : Option DseRootSet} {incoming : DseRootSet}
    (h : Incoming ctx origin aliasLineage incoming)
    (hkept : ∀ origin id, ctx.roots.rootOrigins origin = some id → ctx'.roots.rootOrigins origin = some id) :
    Incoming ctx' origin aliasLineage incoming := by
  cases h with
  | copy lineage => exact .copy _
  | origin id horigin hne => exact .origin id (hkept _ _ horigin) hne

/-- **Registering a variable**: its lineage is joined with what it is given, or no lineage changes. -/
theorem dseRegisterRootProvenance_lineages (horigins : OriginsSound ctx) {rootId width : ℕ}
    {kind : DseVarKind} {source : BitVec 64} {variableEpoch originVersion eventSeq byteOffset : ℕ}
    {aliasLineage : Option DseRootSet} {result : Option Unit}
    (hrun : dseRegisterRootProvenance rootId width kind source variableEpoch originVersion eventSeq byteOffset
      aliasLineage ctx = (result, ctx')) :
    OriginsSound ctx' ∧ (result = none → lineageOf ctx' = lineageOf ctx) ∧
      (result = some () → ∃ incoming,
        Incoming ctx' ⟨source, originVersion, width, byteOffset, kind⟩ aliasLineage incoming ∧
          lineageOf ctx' =
            update (lineageOf ctx) rootId (some (joinLineage (lineageOf ctx rootId) incoming))) := by
  rw [dseRegisterRootProvenance] at hrun
  rcases hincoming : dseIncomingLineage ⟨source, originVersion, width, byteOffset, kind⟩ aliasLineage ctx with
    ⟨_ | incoming, mid⟩
  · obtain ⟨hsame, -⟩ := dseIncomingLineage_spec horigins hincoming
    rw [bind_of_none hincoming] at hrun
    cases hrun
    exact ⟨hsame.origins horigins, fun _ => hsame.lineages, nofun⟩
  obtain ⟨hmid, hspec⟩ := dseIncomingLineage_spec horigins hincoming
  rw [bind_of_some hincoming, bind_of_some (show Fallible.read mid = (some mid, mid) from rfl)] at hrun
  have hregisters : Registers rootId (joinLineage (lineageOf mid rootId) incoming) mid (result, ctx') := by
    rw [← hrun]
    unfold lineageOf
    cases hexisting : mid.roots.rootProvenance rootId with
    | none =>
      exact .andThen (allocate_sameLineages _ rootsOutOfMemory_sameLineages)
        (.andThen (storeLineage_sameLineages incoming) fun ctx => .setRoot rootId
          ⟨kind, source, variableEpoch, originVersion, eventSeq, eventSeq, width, byteOffset, incoming⟩ ctx) mid
    | some existing =>
      dsimp only
      split
      · exact .refuse (rootsIncomplete_sameLineages mid) _ _
      · -- the numbers of the events are stored before the lineage is
        refine Registers.after (setRoot_sameLineages (?_ : lineageOf _ rootId = some _)) (.andThen
          (storeLineage_sameLineages _) (fun ctx => .setRoot rootId { existing with
            firstEventSeq := min eventSeq existing.firstEventSeq
            lastEventSeq := max eventSeq existing.lastEventSeq
            lineage := joinLineage (some existing.lineage) incoming } ctx) _)
        unfold lineageOf
        rw [hexisting]
        rfl
  refine ⟨hregisters.origins (hmid.origins horigins), fun h => (hregisters.refused h).trans hmid.lineages,
    fun h => ⟨incoming, (hspec incoming rfl).mono hregisters.kept, ?_⟩⟩
  rw [hregisters.done h, hmid.lineages]

theorem symStateNewEpochVar_sameLineages (srcAddr : BitVec 64) (epoch width : ℕ) (kind : DseVarKind) :
    (symStateNewEpochVar srcAddr epoch width kind).Moves SameLineages := by
  intro ctx
  rw [symStateNewEpochVar]
  split
  · exact .refl ctx
  · dsimp only
    split
    · refine Moves.bind .trans (exprStep_sameLineages _) (fun out => ?_) ctx
      split
      · exact exprStep_sameLineages _
      · split
        · exact exprStep_sameLineages _
        · exact .pure .refl out
    · refine Moves.bind .trans (.modify fun _ => .of_roots rfl) (fun _ => ?_) ctx
      refine .bind .trans (exprStep_sameLineages _) fun source => ?_
      exact .bind .trans (.modify fun _ => .of_roots rfl) fun _ => exprStep_sameLineages _

theorem dseBindObservedVar_sameLineages (var : SymExpr) (observedValue : BitVec 64) :
    (dseBindObservedVar var observedValue).Moves SameLineages := by
  intro ctx
  cases var with
  | var h symbol =>
    rw [dseBindObservedVar]
    split
    · exact .of_roots rfl
    · dsimp only
      split
      · split
        · exact .of_roots rfl
        · split
          · exact .of_roots rfl
          · exact .refl ctx
      · have hroom : (allocate [4, 16] fun ctx => dseRecordReplayMissing ctx.markResourceLimit).Moves
            SameLineages := allocate_sameLineages _ fun _ => .of_roots rfl
        refine Moves.bind .trans hroom (fun _ => ?_) ctx
        exact .modify fun _ => .of_roots rfl
  | const | binary | unary | ternary => exact .of_roots rfl

/-- **Making a variable**: its lineage is joined with what it is given, or no lineage changes. -/
theorem dseNewObservedEpochVar_lineages (horigins : OriginsSound ctx) {srcAddr : BitVec 64}
    {variableEpoch originVersion eventSeq byteOffset width : ℕ} {kind : DseVarKind} {observedValue : BitVec 64}
    {aliasLineage : Option DseRootSet} {result : Option SymExpr}
    (hrun : dseNewObservedEpochVar srcAddr variableEpoch originVersion eventSeq byteOffset width kind
      observedValue aliasLineage ctx = (result, ctx')) :
    OriginsSound ctx' ∧ (result = none → lineageOf ctx' = lineageOf ctx) ∧
      ∀ root, result = some root → ∃ incoming,
        Incoming ctx' ⟨srcAddr, originVersion, root.width, byteOffset, kind⟩ aliasLineage incoming ∧
          lineageOf ctx' =
            update (lineageOf ctx) root.varId (some (joinLineage (lineageOf ctx root.varId) incoming)) := by
  rw [dseNewObservedEpochVar] at hrun
  have hmade := symStateNewEpochVar_sameLineages srcAddr variableEpoch width kind ctx
  rcases hnew : symStateNewEpochVar srcAddr variableEpoch width kind ctx with ⟨_ | root, made⟩
  · rw [hnew] at hmade
    rw [bind_of_none hnew] at hrun
    cases hrun
    exact ⟨hmade.origins horigins, fun _ => hmade.lineages, nofun⟩
  rw [hnew] at hmade
  rw [bind_of_some hnew] at hrun
  have hbound := dseBindObservedVar_sameLineages root observedValue made
  rcases hbind : dseBindObservedVar root observedValue made with ⟨_ | _, bound⟩
  · rw [hbind] at hbound
    replace hrun := (bind_of_none hbind).symm.trans hrun
    cases hrun
    have hsame := hmade.trans hbound
    exact ⟨hsame.origins horigins, fun _ => hsame.lineages, nofun⟩
  rw [hbind] at hbound
  replace hrun := (bind_of_some hbind).symm.trans hrun
  have hsame := hmade.trans hbound
  rcases hregister : dseRegisterRootProvenance root.varId root.width kind srcAddr variableEpoch originVersion
      eventSeq byteOffset aliasLineage bound with ⟨_ | _, last⟩
  · obtain ⟨hlast, hrefused, -⟩ := dseRegisterRootProvenance_lineages (hsame.origins horigins) hregister
    rw [hregister] at hrun
    cases hrun
    have hmark := rootsIncomplete_sameLineages last
    exact ⟨hmark.origins hlast, fun _ => hmark.lineages.trans ((hrefused rfl).trans hsame.lineages), nofun⟩
  · obtain ⟨hlast, -, hdone⟩ := dseRegisterRootProvenance_lineages (hsame.origins horigins) hregister
    rw [hregister] at hrun
    cases hrun
    refine ⟨hlast, nofun, fun other hother => ?_⟩
    obtain rfl := Option.some.inj hother
    rw [← hsame.lineages]
    exact hdone rfl

/-! ### Runs -/

/-- The ids that the value of each variable depends on. -/
abbrev Lineages := ℕ → Set ℕ

variable {L L' L'' : Lineages}

/-- What the value of a new variable depends on, with the lineage that the variable is given. -/
inductive DependsOn (ctx ctx' : DSECtx) (L : Lineages) (origin : DseRootOrigin) :
    Option DseRootSet → Set ℕ → Prop
  /-- It is a value of its own. -/
  | self (id : ℕ) (h : ctx'.roots.rootOrigins origin = some id) : DependsOn ctx ctx' L origin none {id}
  /-- It is the value of an expression, whose lineage it is given. -/
  | expr (e : SymExpr) (he : Coherent e.subterms) (hne : (dseExprCollectRootLineage ctx e).ids ≠ []) :
      DependsOn ctx ctx' L origin (some (dseExprCollectRootLineage ctx e))
        {id | ∃ symbol ∈ e.symbols, id ∈ L symbol.id}
  /-- It may depend on anything. -/
  | unknown (lineage : DseRootSet) (h : lineage.complete = false) :
      DependsOn ctx ctx' L origin (some lineage) Set.univ

/-- The lineages once a variable has been made, if it has been. -/
def Lineages.record (L : Lineages) (result : Option SymExpr) (dependsOn : Set ℕ) : Lineages :=
  match result with
  | none => L
  | some root => update L root.varId (L root.varId ∪ dependsOn)

/-- How the tables of the variables change: a variable is made, or they are left alone. -/
inductive RootStep : DSECtx × Lineages → DSECtx × Lineages → Prop
  | other {ctx ctx' : DSECtx} (L : Lineages) (h : ctx'.roots = ctx.roots) : RootStep (ctx, L) (ctx', L)
  | make {ctx ctx' : DSECtx} (L : Lineages) {srcAddr : BitVec 64}
      {variableEpoch originVersion eventSeq byteOffset width : ℕ} {kind : DseVarKind}
      {observedValue : BitVec 64} {aliasLineage : Option DseRootSet} {result : Option SymExpr}
      {dependsOn : Set ℕ}
      (h : dseNewObservedEpochVar srcAddr variableEpoch originVersion eventSeq byteOffset width kind
        observedValue aliasLineage ctx = (result, ctx'))
      (hdepends : ∀ root, result = some root → DependsOn ctx ctx' L
        ⟨srcAddr, originVersion, root.width, byteOffset, kind⟩ aliasLineage dependsOn) :
      RootStep (ctx, L) (ctx', L.record result dependsOn)

/-- A lineage that is complete has all that a value depends on. -/
def LineageSound (lineage : DseRootSet) (dependsOn : Set ℕ) : Prop :=
  lineage.complete = true → lineage.ids ≠ [] ∧ 0 ∉ lineage.ids ∧ ∀ id ∈ dependsOn, id ∈ lineage.ids

/-- The lineages that are kept are sound. -/
structure RootsSound (ctx : DSECtx) (L : Lineages) : Prop where
  origins : OriginsSound ctx
  kept : ∀ id lineage, lineageOf ctx id = some lineage → LineageSound lineage (L id)
  absent : ∀ id, lineageOf ctx id = none → L id = ∅

theorem rootsSound_start (h : ctx.roots = .start) : RootsSound ctx fun _ => ∅ := by
  have hnone : ∀ id, lineageOf ctx id = none := fun id => by
    unfold lineageOf
    rw [h]
    rfl
  refine ⟨fun origin id horigin => ?_, fun id lineage hlineage => ?_, fun _ _ => rfl⟩
  · rw [h] at horigin
    cases horigin
  · rw [hnone] at hlineage
    cases hlineage

/-- A lineage that is covered has what the variable depends on. -/
theorem RootsSound.covered (h : RootsSound ctx L) {out : DseRootSet} {id : ℕ} (hcovered : Covered ctx out id) :
    (∃ lineage, lineageOf ctx id = some lineage ∧ lineage.complete = true ∧ lineage.ids ≠ [] ∧
      0 ∉ lineage.ids ∧ lineage.ids ⊆ out.ids) ∧ ∀ x ∈ L id, x ∈ out.ids := by
  obtain ⟨provenance, hlookup, hcomplete, hids⟩ := hcovered
  have hlineage : lineageOf ctx id = some provenance.lineage := by
    unfold lineageOf
    rw [show ctx.roots.rootProvenance id = some provenance from hlookup]
    rfl
  obtain ⟨hne, hzero, hdepends⟩ := h.kept id _ hlineage hcomplete
  have hsub : provenance.lineage.ids ⊆ out.ids := fun x hx => hids x hx (ne_of_mem_of_not_mem hx hzero)
  exact ⟨⟨_, hlineage, hcomplete, hne, hzero, hsub⟩, fun x hx => hsub (hdepends x hx)⟩

/-- What a variable is given is sound. -/
theorem RootsSound.incoming (h : RootsSound ctx L) {origin : DseRootOrigin} {aliasLineage : Option DseRootSet}
    {dependsOn : Set ℕ} (hdepends : DependsOn ctx ctx' L origin aliasLineage dependsOn)
    {incoming : DseRootSet} (hincoming : Incoming ctx' origin aliasLineage incoming) :
    LineageSound incoming dependsOn := by
  intro hcomplete
  cases hdepends with
  | self id hid =>
    cases hincoming with
    | origin other hother hne =>
      obtain rfl := Option.some.inj (hother.symm.trans hid)
      refine ⟨List.cons_ne_nil _ _, fun hzero => hne (List.mem_singleton.mp hzero).symm, fun x hx => ?_⟩
      exact List.mem_singleton.mpr hx
  | expr e he hne =>
    cases hincoming
    refine ⟨hne, collect_zero ctx e, ?_⟩
    rintro x ⟨symbol, hsymbol, hx⟩
    exact (h.covered (collect_covers he hcomplete hsymbol)).2 x hx
  | unknown lineage hunknown =>
    cases hincoming
    rw [hunknown] at hcomplete
    cases hcomplete

/-- Joining lineages keeps what both depend on. -/
theorem joinLineage_sound {existing incoming : DseRootSet} {S T : Set ℕ} (hexisting : LineageSound existing S)
    (hincoming : LineageSound incoming T) : LineageSound (joinLineage (some existing) incoming) (S ∪ T) := by
  intro hcomplete
  obtain ⟨hboth, hall⟩ := DseRootSet.addAll_complete hcomplete
  obtain ⟨hleft, hright⟩ := Bool.and_eq_true_iff.mp hboth
  obtain ⟨hne, hzero, hS⟩ := hexisting hleft
  obtain ⟨-, hzero', hT⟩ := hincoming hright
  have hmem : ∀ x ∈ existing.ids ++ incoming.ids, x ∈ (joinLineage (some existing) incoming).ids := by
    intro x hx
    refine hall x hx fun hxzero => ?_
    rw [hxzero, List.mem_append] at hx
    exact hx.elim hzero hzero'
  refine ⟨fun hnil => ?_, DseRootSet.zero_notMem_addAll List.not_mem_nil _, ?_⟩
  · obtain ⟨x, hx⟩ := List.exists_mem_of_ne_nil _ hne
    have hin := hmem x (List.mem_append_left _ hx)
    rw [hnil] at hin
    exact List.not_mem_nil hin
  · rintro x (hx | hx)
    · exact hmem x (List.mem_append_left _ (hS x hx))
    · exact hmem x (List.mem_append_right _ (hT x hx))

/-- **A step keeps the tables sound.** -/
theorem RootStep.sound (h : RootsSound ctx L) (hstep : RootStep (ctx, L) (ctx', L')) : RootsSound ctx' L' := by
  cases hstep with
  | other _ hroots =>
    have hsame := SameLineages.of_roots hroots
    refine ⟨hsame.origins h.origins, fun id lineage hlineage => ?_, fun id hnone => ?_⟩
    · rw [hsame.lineages] at hlineage
      exact h.kept id lineage hlineage
    · rw [hsame.lineages] at hnone
      exact h.absent id hnone
  | @make _ _ _ _ _ _ _ _ _ _ _ _ result dependsOn hrun hdepends =>
    obtain ⟨horigins, hrefused, hmade⟩ := dseNewObservedEpochVar_lineages h.origins hrun
    cases result with
    | none =>
      refine ⟨horigins, ?_, ?_⟩
      · rw [hrefused rfl]
        exact h.kept
      · rw [hrefused rfl]
        exact h.absent
    | some root =>
      obtain ⟨incoming, hincoming, hlineages⟩ := hmade root rfl
      have hsound := h.incoming (hdepends root rfl) hincoming
      refine ⟨horigins, fun id lineage hlineage => ?_, fun id hnone => ?_⟩
      · rw [hlineages, update_apply] at hlineage
        show LineageSound lineage (update L root.varId (L root.varId ∪ dependsOn) id)
        rw [update_apply]
        split
        · rename_i hsame
          rw [if_pos hsame] at hlineage
          obtain rfl := Option.some.inj hlineage
          cases hexisting : lineageOf ctx root.varId with
          | none =>
            rw [h.absent _ hexisting, Set.empty_union]
            exact hsound
          | some existing => exact joinLineage_sound (h.kept _ existing hexisting) hsound
        · rename_i hother
          rw [if_neg hother] at hlineage
          exact h.kept id lineage hlineage
      · rw [hlineages, update_apply] at hnone
        show update L root.varId (L root.varId ∪ dependsOn) id = ∅
        rw [update_apply]
        split
        · rename_i hsame
          rw [if_pos hsame] at hnone
          cases hnone
        · rename_i hother
          rw [if_neg hother] at hnone
          exact h.absent id hnone

/-- The lineages grow, as long as they are complete. -/
def LineagesGrow (ctx ctx' : DSECtx) : Prop :=
  ∀ id lineage, lineageOf ctx id = some lineage → ∃ lineage', lineageOf ctx' id = some lineage' ∧
    (lineage'.complete = true → lineage.complete = true ∧ ∀ x ∈ lineage.ids, x ≠ 0 → x ∈ lineage'.ids)

theorem LineagesGrow.of_eq (h : lineageOf ctx' = lineageOf ctx) : LineagesGrow ctx ctx' :=
  fun _ lineage hlineage => ⟨lineage, by rw [h, hlineage], fun hc => ⟨hc, fun _ hx _ => hx⟩⟩

theorem LineagesGrow.trans (h : LineagesGrow ctx ctx') (h' : LineagesGrow ctx' ctx'') :
    LineagesGrow ctx ctx'' := by
  intro id lineage hlineage
  obtain ⟨mid, hmid, hgrow⟩ := h id lineage hlineage
  obtain ⟨last, hlast, hgrow'⟩ := h' id mid hmid
  refine ⟨last, hlast, fun hc => ?_⟩
  obtain ⟨hcomplete, hsub⟩ := hgrow' hc
  obtain ⟨hcomplete', hsub'⟩ := hgrow hcomplete
  exact ⟨hcomplete', fun x hx hne => hsub x (hsub' x hx hne) hne⟩

theorem RootStep.grow (h : RootsSound ctx L) (hstep : RootStep (ctx, L) (ctx', L')) :
    LineagesGrow ctx ctx' := by
  cases hstep with
  | other _ hroots => exact .of_eq (SameLineages.of_roots hroots).lineages
  | @make _ _ _ _ _ _ _ _ _ _ _ _ result _ hrun _ =>
    obtain ⟨-, hrefused, hmade⟩ := dseNewObservedEpochVar_lineages h.origins hrun
    cases result with
    | none => exact .of_eq (hrefused rfl)
    | some root =>
      obtain ⟨incoming, -, hlineages⟩ := hmade root rfl
      intro id lineage hlineage
      rw [hlineages, update_apply]
      split
      · rename_i hsame
        rw [hsame] at hlineage
        rw [hlineage]
        refine ⟨_, rfl, fun hc => ?_⟩
        obtain ⟨hboth, hall⟩ := DseRootSet.addAll_complete hc
        exact ⟨(Bool.and_eq_true_iff.mp hboth).1, fun x hx => hall x (List.mem_append_left _ hx)⟩
      · exact ⟨lineage, hlineage, fun hc => ⟨hc, fun _ hx _ => hx⟩⟩

/-- **A run keeps the tables sound**, and the lineages grow. -/
theorem rootRun_sound {s t : DSECtx × Lineages} (h : RootsSound s.1 s.2)
    (hrun : Relation.ReflTransGen RootStep s t) : RootsSound t.1 t.2 ∧ LineagesGrow s.1 t.1 := by
  induction hrun with
  | refl => exact ⟨h, .of_eq rfl⟩
  | tail _ hstep ih => exact ⟨hstep.sound ih.1, ih.2.trans (hstep.grow ih.1)⟩

/-- **Lineages that are collected along a run.**  A complete one has the lineage of every variable of the
expression and all that the variables depend on; expressions with lineages that do not intersect have no
variable in common, and nothing that both depend on. -/
theorem rootLineage_complete {ctx₀ : DSECtx} (hstart : ctx₀.roots = .start)
    (hrun : Relation.ReflTransGen RootStep (ctx₀, fun _ => ∅) (ctx, L))
    (hrun' : Relation.ReflTransGen RootStep (ctx, L) (ctx', L')) {e e' : SymExpr}
    (he : Coherent e.subterms) (he' : Coherent e'.subterms) :
    ((dseExprCollectRootLineage ctx e).complete = true → ∀ symbol ∈ e.symbols,
      (∃ provenance, dseRootProvenanceLookup ctx symbol.id = some provenance ∧
        provenance.lineage.complete = true ∧
        provenance.lineage.ids ⊆ (dseExprCollectRootLineage ctx e).ids) ∧
      ∀ id ∈ L symbol.id, id ∈ (dseExprCollectRootLineage ctx e).ids) ∧
    (dseRootSetsMayIntersect (dseExprCollectRootLineage ctx e) (dseExprCollectRootLineage ctx' e') = false →
      ∀ symbol ∈ e.symbols, ∀ symbol' ∈ e'.symbols,
        symbol.id ≠ symbol'.id ∧ Disjoint (L symbol.id) (L' symbol'.id)) := by
  obtain ⟨hsound, -⟩ := rootRun_sound (s := (ctx₀, fun _ => ∅)) (rootsSound_start hstart) hrun
  obtain ⟨hsound', hgrow⟩ := rootRun_sound hsound hrun'
  dsimp only at hsound hsound' hgrow
  refine ⟨fun hcomplete symbol hsymbol => ?_, fun hfalse symbol hsymbol symbol' hsymbol' => ?_⟩
  · have hcovered := collect_covers he hcomplete hsymbol
    obtain ⟨⟨lineage, hlineage, hlcomplete, -, -, hsub⟩, hdepends⟩ := hsound.covered hcovered
    refine ⟨?_, hdepends⟩
    obtain ⟨provenance, hlookup, rfl⟩ := Option.map_eq_some_iff.mp hlineage
    exact ⟨provenance, hlookup, hlcomplete, hsub⟩
  · obtain ⟨hcomplete, hcomplete', hdisjoint⟩ := dseRootSetsMayIntersect_eq_false.mp hfalse
    obtain ⟨⟨lineage, hlineage, -, hne, hzero, hsub⟩, hdepends⟩ :=
      hsound.covered (collect_covers he hcomplete hsymbol)
    obtain ⟨⟨lineage', hlineage', hlcomplete', -, -, hsub'⟩, hdepends'⟩ :=
      hsound'.covered (collect_covers he' hcomplete' hsymbol')
    refine ⟨fun hsame => ?_, Set.disjoint_left.mpr fun id hid hid' => ?_⟩
    · -- the ids that the variable had are still among those it has
      obtain ⟨x, hx⟩ := List.exists_mem_of_ne_nil _ hne
      obtain ⟨later, hlater, hkept⟩ := hgrow _ lineage hlineage
      rw [hsame, hlineage'] at hlater
      obtain rfl := Option.some.inj hlater
      have hx' := (hkept hlcomplete').2 x hx (ne_of_mem_of_not_mem hx hzero)
      exact hdisjoint x (hsub hx) (hsub' hx')
    · exact hdisjoint id (hdepends id hid) (hdepends' id hid')

/-! ### The byte of a register -/

/-- An expression in memory that has been handed out. -/
def Placed (exprs : ExprCtx) (e : SymExpr) : Prop :=
  Coherent e.subterms ∧ ∀ x ∈ e.subterms, x.addr < exprs.nextAddr

theorem symExprAlloc_addr {exprs exprs' : ExprCtx} {addr : ℕ} (h : symExprAlloc exprs = (some addr, exprs')) :
    addr = exprs.nextAddr := by
  rw [symExprAlloc] at h
  split at h
  · cases h
  · dsimp only at h
    split at h
    · cases h
    · cases h
      rfl

theorem coherent_singleton (e : SymExpr) : Coherent [e] := by
  intro x hx y hy _
  rw [List.mem_singleton.mp hx, List.mem_singleton.mp hy]

theorem symExprExtract_coherent {exprs exprs' : ExprCtx} {a e : SymExpr} {lowBit outWidth : ℕ}
    (ha : Placed exprs a) (h : symExprExtract a lowBit outWidth exprs = (some e, exprs')) :
    Coherent e.subterms := by
  rw [symExprExtract] at h
  split at h
  · cases h
  split at h
  · obtain ⟨rfl, -⟩ := pure_eq_some.mp h
    exact ha.1
  rcases hconst : a.constVal with _ | x
  · rw [hconst] at h
    obtain ⟨addr, mid, haddr, hmake⟩ := bind_eq_some.mp h
    obtain ⟨rfl, -⟩ := pure_eq_some.mp hmake
    have hnew : ∀ x ∈ a.subterms, x.addr ≠ addr := fun x hx => by
      rw [symExprAlloc_addr haddr]
      exact Nat.ne_of_lt (ha.2 x hx)
    intro x hx y hy hsame
    obtain rfl | hx := List.mem_cons.mp hx
    · obtain rfl | hy := List.mem_cons.mp hy
      · rfl
      · exact absurd hsame.symm (hnew y hy)
    · obtain rfl | hy := List.mem_cons.mp hy
      · exact absurd hsame (hnew x hx)
      · exact ha.1 x hx y hy hsame
  · rw [hconst] at h
    dsimp only at h
    rw [symExprConst] at h
    split at h
    · cases h
    · obtain ⟨addr, mid, -, hmake⟩ := bind_eq_some.mp h
      obtain ⟨rfl, -⟩ := pure_eq_some.mp hmake
      exact coherent_singleton _

theorem symExprClone_same {exprs exprs' : ExprCtx} {e copy : SymExpr}
    (h : symExprClone e exprs = (some copy, exprs')) : copy = e ∧ exprs'.nextAddr = exprs.nextAddr := by
  rw [symExprClone] at h
  dsimp only at h
  split at h
  · cases h
  · cases h
    exact ⟨rfl, rfl⟩

/-- A step on the expressions changes nothing else. -/
theorem exprStep_eq {α : Type} (x : Fallible ExprCtx α) (ctx : DSECtx) :
    exprStep x ctx = ((x ctx.exprs).1, { ctx with exprs := (x ctx.exprs).2 }) := rfl

/-- What is selected is an expression, and the tables are left alone. -/
theorem dseSelectRegisterByte_spec {current : SymExpr} {byteIndex : ℕ} {observedByte : BitVec 8}
    {result : Option SymExpr} (hcurrent : Placed ctx.exprs current)
    (hrun : dseSelectRegisterByte current byteIndex observedByte ctx = (result, ctx')) :
    ctx'.roots = ctx.roots ∧ ∀ selected, result = some selected → Coherent selected.subterms := by
  rw [dseSelectRegisterByte] at hrun
  rcases hclone : symExprClone current ctx.exprs with ⟨_ | copy, cloned⟩
  · have hstep : exprStep (symExprClone current) ctx = (none, { ctx with exprs := cloned }) := by
      rw [exprStep_eq, hclone]
    replace hrun := (bind_of_none hstep).symm.trans hrun
    cases hrun
    exact ⟨rfl, nofun⟩
  have hstep : exprStep (symExprClone current) ctx = (some copy, { ctx with exprs := cloned }) := by
    rw [exprStep_eq, hclone]
  replace hrun := (bind_of_some hstep).symm.trans hrun
  obtain ⟨rfl, hnext⟩ := symExprClone_same hclone
  have hplaced : Placed cloned copy := ⟨hcurrent.1, fun x hx => by rw [hnext]; exact hcurrent.2 x hx⟩
  rcases hextract : symExprExtract copy (8 * byteIndex) 8 cloned with ⟨_ | selected, made⟩
  · have hstep' : exprStep (symExprExtract copy (8 * byteIndex) 8) { ctx with exprs := cloned } =
        (none, { ctx with exprs := made }) := by
      rw [exprStep_eq, hextract]
    replace hrun := (bind_of_none hstep').symm.trans hrun
    cases hrun
    exact ⟨rfl, nofun⟩
  have hstep' : exprStep (symExprExtract copy (8 * byteIndex) 8) { ctx with exprs := cloned } =
      (some selected, { ctx with exprs := made }) := by
    rw [exprStep_eq, hextract]
  replace hrun := (bind_of_some hstep').symm.trans hrun
  have hcoherent := symExprExtract_coherent hplaced hextract
  dsimp only at hrun
  split at hrun
  · split at hrun
    · cases hrun
      refine ⟨rfl, fun other hother => ?_⟩
      obtain rfl := Option.some.inj hother
      exact hcoherent
    · cases hrun
      exact ⟨rfl, nofun⟩
  · cases hrun
    exact ⟨rfl, nofun⟩

/-- A variable that is a value of its own. -/
theorem exists_rootStep_self (horigins : OriginsSound ctx) (L : Lineages) {srcAddr : BitVec 64}
    {variableEpoch originVersion eventSeq byteOffset width : ℕ} {kind : DseVarKind} {observedValue : BitVec 64}
    {result : Option SymExpr}
    (hrun : dseNewObservedEpochVar srcAddr variableEpoch originVersion eventSeq byteOffset width kind
      observedValue none ctx = (result, ctx')) : ∃ L', RootStep (ctx, L) (ctx', L') := by
  cases result with
  | none =>
    have hstep : RootStep (ctx, L) (ctx', L.record none ∅) := .make L hrun nofun
    exact ⟨_, hstep⟩
  | some root =>
    obtain ⟨incoming, hincoming, -⟩ := (dseNewObservedEpochVar_lineages horigins hrun).2.2 root rfl
    cases hincoming with
    | origin id hid hne =>
      have hdepends : ∀ other, some root = some other → DependsOn ctx ctx' L
          ⟨srcAddr, originVersion, other.width, byteOffset, kind⟩ none {id} := by
        intro other hother
        obtain rfl := Option.some.inj hother
        exact .self id hid
      exact ⟨_, .make L hrun hdepends⟩

/-- What the lineage of a byte of a register is: that of an expression, or one that is not complete. -/
def IsByteAlias (ctx : DSECtx) (lineage : DseRootSet) : Prop :=
  lineage.complete = false ∨
    ∃ e : SymExpr, Coherent e.subterms ∧ lineage = dseExprCollectRootLineage ctx e ∧ lineage.ids ≠ []

theorem dseRegisterByteFallback_spec (horigins : OriginsSound ctx) (L : Lineages) (aux : InsnAux) (rid : RegId)
    (rootEpoch byteIndex : ℕ) :
    (dseRegisterByteFallback aux rid rootEpoch byteIndex ctx).1.complete = false ∧
      ∃ L', RootStep (ctx, L) ((dseRegisterByteFallback aux rid rootEpoch byteIndex ctx).2, L') := by
  unfold dseRegisterByteFallback
  dsimp only
  split
  · rename_i hrun
    exact ⟨rfl, exists_rootStep_self horigins L hrun⟩
  · rename_i hrun
    exact ⟨rfl, exists_rootStep_self horigins L hrun⟩

theorem dseCollectRegisterByteAlias_spec (horigins : OriginsSound ctx) (L : Lineages) (aux : InsnAux)
    (rid : RegId) {current : Option SymExpr} (hcurrent : ∀ e, current = some e → Placed ctx.exprs e)
    (rootEpoch naturalWidth byteIndex : ℕ) {lineage : DseRootSet}
    (hrun : dseCollectRegisterByteAlias aux rid current rootEpoch naturalWidth byteIndex ctx = (lineage, ctx')) :
    IsByteAlias ctx' lineage ∧ ∃ L', Relation.ReflTransGen RootStep (ctx, L) (ctx', L') := by
  -- a fallback after steps that leave the tables alone
  have hfallback : ∀ mid : DSECtx, mid.roots = ctx.roots →
      dseRegisterByteFallback aux rid rootEpoch byteIndex mid = (lineage, ctx') →
      IsByteAlias ctx' lineage ∧ ∃ L', Relation.ReflTransGen RootStep (ctx, L) (ctx', L') := by
    intro mid hmid hlast
    have hsame := SameLineages.of_roots hmid
    obtain ⟨hincomplete, L', hstep⟩ :=
      dseRegisterByteFallback_spec (hsame.origins horigins) L aux rid rootEpoch byteIndex
    rw [hlast] at hincomplete hstep
    exact ⟨Or.inl hincomplete, L', .tail (.single (.other L hmid)) hstep⟩
  rw [dseCollectRegisterByteAlias] at hrun
  split at hrun
  · cases hrun
    exact ⟨Or.inl rfl, L, .refl⟩
  rcases hfilter : current.filter fun current => current.width == naturalWidth with _ | e
  · rw [hfilter] at hrun
    exact hfallback ctx rfl hrun
  rw [hfilter] at hrun
  obtain ⟨he, -⟩ := Option.filter_eq_some_iff.mp hfilter
  dsimp only at hrun
  rcases hselect : dseSelectRegisterByte e byteIndex (observedRegByte aux rid byteIndex) ctx with
    ⟨_ | selected, mid⟩
  · rw [hselect] at hrun
    exact hfallback mid (dseSelectRegisterByte_spec (hcurrent e he) hselect).1 hrun
  obtain ⟨hroots, hcoherent⟩ := dseSelectRegisterByte_spec (hcurrent e he) hselect
  rw [hselect] at hrun
  dsimp only at hrun
  split at hrun
  · exact hfallback mid hroots hrun
  · rename_i hne
    cases hrun
    exact ⟨Or.inr ⟨selected, hcoherent selected rfl, rfl, hne⟩, L, .single (.other L hroots)⟩

/-- **The bytes of a register** are variables that are made as the steps of a run are. -/
theorem dseRegRootByte_steps (horigins : OriginsSound ctx) (L : Lineages) (aux : InsnAux) (rid : RegId)
    {current : Option SymExpr} (hcurrent : ∀ e, current = some e → Placed ctx.exprs e)
    (rootEpoch naturalWidth epoch : ℕ) (kind : DseVarKind) (byteIndex : ℕ) :
    ∃ L', Relation.ReflTransGen RootStep (ctx, L)
      ((dseRegRootByte aux rid current rootEpoch naturalWidth epoch kind byteIndex ctx).2, L') := by
  unfold dseRegRootByte
  dsimp only
  split
  · exact ⟨L, .single (.other L rfl)⟩
  split
  · rcases hcollect : dseCollectRegisterByteAlias aux rid current rootEpoch naturalWidth byteIndex ctx with
      ⟨lineage, mid⟩
    obtain ⟨hbyte, L', hsteps⟩ :=
      dseCollectRegisterByteAlias_spec horigins L aux rid hcurrent rootEpoch naturalWidth byteIndex hcollect
    dsimp only
    obtain hunknown | ⟨e, he, rfl, hne⟩ := hbyte
    · exact ⟨_, hsteps.tail (.make L' rfl fun _ _ => .unknown lineage hunknown)⟩
    · exact ⟨_, hsteps.tail (.make L' rfl fun _ _ => .expr e he hne)⟩
  · obtain ⟨L', hstep⟩ := exists_rootStep_self horigins L (Prod.mk.eta.symm :
      dseNewObservedEpochVar (regSourceId rid byteIndex) epoch epoch aux.seqId byteIndex 8 kind
        ((observedRegByte aux rid byteIndex).setWidth 64) none ctx = _)
    exact ⟨L', .single hstep⟩

/-! ### Two variables -/

/-- The context once the variables of two bytes of memory have been made. -/
def twoByteCtx : DSECtx :=
  (dseNewObservedEpochVar 0x1001 1 1 1 0 8 .memoryRoot 9 none
    (dseNewObservedEpochVar 0x1000 1 1 1 0 8 .memoryRoot 7 none emptyCtx).2).2

/-- The variable of the first byte. -/
def firstByteVar : SymExpr := .var ⟨10, 8, true⟩ ⟨0x1000, 1, 0, .memoryRoot⟩

/-- The variable of the second byte. -/
def secondByteVar : SymExpr := .var ⟨11, 8, true⟩ ⟨0x1001, 1, 1, .memoryRoot⟩

example : (dseNewObservedEpochVar 0x1001 1 1 1 0 8 .memoryRoot 9 none
    (dseNewObservedEpochVar 0x1000 1 1 1 0 8 .memoryRoot 7 none emptyCtx).2).1 = some secondByteVar := by
  decide

theorem rootLineage_complete_twoBytes :
    (dseExprCollectRootLineage twoByteCtx firstByteVar).complete = true ∧
      dseRootSetsMayIntersect (dseExprCollectRootLineage twoByteCtx firstByteVar)
        (dseExprCollectRootLineage twoByteCtx secondByteVar) = false ∧
      ∀ symbol ∈ firstByteVar.symbols, ∀ symbol' ∈ secondByteVar.symbols, symbol.id ≠ symbol'.id := by
  have hfalse : dseRootSetsMayIntersect (dseExprCollectRootLineage twoByteCtx firstByteVar)
      (dseExprCollectRootLineage twoByteCtx secondByteVar) = false := by decide
  have hstart : OriginsSound emptyCtx := (rootsSound_start rfl).origins
  obtain ⟨L, hfirst⟩ := exists_rootStep_self hstart (fun _ => ∅) (Prod.mk.eta.symm :
    dseNewObservedEpochVar 0x1000 1 1 1 0 8 .memoryRoot 7 none emptyCtx = _)
  have hmid := (hfirst.sound (rootsSound_start rfl)).origins
  obtain ⟨L', hsecond⟩ := exists_rootStep_self hmid L (Prod.mk.eta.symm :
    dseNewObservedEpochVar 0x1001 1 1 1 0 8 .memoryRoot 9 none _ = _)
  have hrun := Relation.ReflTransGen.tail (.single hfirst) hsecond
  have hcoherent : Coherent firstByteVar.subterms := coherent_singleton _
  have hcoherent' : Coherent secondByteVar.subterms := coherent_singleton _
  obtain ⟨-, hapart⟩ := rootLineage_complete rfl hrun .refl hcoherent hcoherent'
  exact ⟨by decide, hfalse, fun symbol h symbol' h' => (hapart hfalse symbol h symbol' h').1⟩

end TaintForge
