import TaintForge.Dse.Context

/-!
# The lineage of expressions

Every variable has a lineage, ids for the places its value comes from.  `dse.c` collects the lineage of an
expression from those of its variables, and gives the byte of a register that is used in an address the
lineage of the register's expression.

* `dseExprCollectRootLineage`: the lineage of an expression.
* `dseRootSetsMayIntersect`: whether two lineages may have something in common.
* `dseRegRootByte`: the byte of a register, with the lineage it is given.
-/

namespace TaintForge

/-- `DSE_MAX_ROOT_SCAN_NODES` -/
def dseMaxRootScanNodes : ℕ := 4096

/-- The tables as `dse_lift_begin` leaves them. -/
def RootTables.start : RootTables where
  rootProvenance _ := none
  rootOrigins _ := none
  lineageOrigins _ := none
  nextLineageId := 1
  complete := true

/-- `dse_root_sets_may_intersect` -/
def dseRootSetsMayIntersect (left right : DseRootSet) : Bool :=
  !left.complete || !right.complete || left.ids.any fun id => right.ids.any fun other => id == other

/-- `dse_root_provenance_lookup` -/
def dseRootProvenanceLookup (ctx : DSECtx) (rootId : ℕ) : Option DseRootProvenance :=
  ctx.roots.rootProvenance rootId

/-! ### Collecting -/

/-- What has been collected, and the addresses of the nodes that have been visited. -/
structure RootScan where
  out : DseRootSet
  visited : List ℕ

/-- Something has been left out. -/
def RootScan.leftOut (scan : RootScan) : RootScan := { scan with out := { scan.out with complete := false } }

/-- Ids are added, one after another. -/
def RootScan.add (scan : RootScan) (ids : List ℕ) : RootScan :=
  { scan with out := ids.foldl dseRootSetAdd scan.out }

/-- A node is explored when it is visited for the first time. -/
def scanNode (header : SymHeader) (depth : ℕ) (explore : RootScan → RootScan) (scan : RootScan) : RootScan :=
  if depth > dseMaxReplayDepth ∨ scan.visited.length ≥ dseMaxRootScanNodes then scan.leftOut
  else if header.addr ∈ scan.visited then scan
  else explore { scan with visited := header.addr :: scan.visited }

/-- The lineage of a variable is added. -/
def scanVar (ctx : DSECtx) (id : ℕ) (scan : RootScan) : RootScan :=
  match dseRootProvenanceLookup ctx id with
  | none => scan.leftOut.add [2 ^ 63 ||| id]
  | some provenance =>
    (if provenance.lineage.complete = false then scan.leftOut else scan).add provenance.lineage.ids

/-- `dse_expr_collect_root_lineage_impl` -/
def dseExprCollectRootLineageImpl (ctx : DSECtx) : SymExpr → ℕ → RootScan → RootScan
  | .const h _, depth => scanNode h depth id
  | .var h symbol, depth => scanNode h depth (scanVar ctx symbol.id)
  | .binary h _ a b, depth => scanNode h depth fun scan =>
      dseExprCollectRootLineageImpl ctx b (depth + 1) (dseExprCollectRootLineageImpl ctx a (depth + 1) scan)
  | .unary h _ a _ _, depth => scanNode h depth (dseExprCollectRootLineageImpl ctx a (depth + 1))
  | .ternary h c t f, depth => scanNode h depth fun scan =>
      dseExprCollectRootLineageImpl ctx f (depth + 1)
        (dseExprCollectRootLineageImpl ctx t (depth + 1) (dseExprCollectRootLineageImpl ctx c (depth + 1) scan))

/-- `dse_expr_collect_root_lineage`, which succeeds where no pointer is null. -/
def dseExprCollectRootLineage (ctx : DSECtx) (e : SymExpr) : DseRootSet :=
  (dseExprCollectRootLineageImpl ctx e 0 ⟨⟨[], true⟩, []⟩).out

/-! ### The bytes of a register -/

/-- `REG_VAR_BASE` -/
def regVarBase : BitVec 64 := 0xF000000000000000#64

/-- The source of a byte of a register. -/
def regSourceId (rid : RegId) (byteIndex : ℕ) : BitVec 64 :=
  regVarBase ||| (BitVec.ofNat 64 rid.toNat <<< 8) ||| BitVec.ofNat 64 byteIndex

/-- A byte of a register, as it was observed. -/
def observedRegByte (aux : InsnAux) (rid : RegId) (byteIndex : ℕ) : BitVec 8 :=
  (aux.regVals rid >>> (8 * byteIndex)).setWidth 8

/-- The byte of the register's expression, if that is what was observed and depends on a variable. -/
def dseSelectRegisterByte (current : SymExpr) (byteIndex : ℕ) (observedByte : BitVec 8) :
    Fallible DSECtx SymExpr := do
  let copy ← symExprClone current
  let selected ← symExprExtract copy (8 * byteIndex) 8
  fun ctx =>
    let (status, heap) := dseEvalExprObserved ctx.observedValues selected ctx.exprs.heap
    let ctx := { ctx with exprs := { ctx.exprs with heap := heap } }
    match status with
    | .ok replayed =>
      if replayed.setWidth 8 = observedByte ∧ selected.hasVar = true then (some selected, ctx) else (none, ctx)
    | .error _ => (none, ctx)

/-- A register without an expression that can be used: its byte is a variable of its own, and what that
depends on is not known. -/
def dseRegisterByteFallback (aux : InsnAux) (rid : RegId) (rootEpoch byteIndex : ℕ) (ctx : DSECtx) :
    DseRootSet × DSECtx :=
  let rootEpoch := if rootEpoch = 0 then 1 else rootEpoch
  match dseNewObservedEpochVar (regSourceId rid byteIndex) rootEpoch rootEpoch aux.seqId byteIndex 8
      .registerRoot ((observedRegByte aux rid byteIndex).setWidth 64) none ctx with
  | (some fallback, ctx) => ({ dseExprCollectRootLineage ctx fallback with complete := false }, ctx)
  | (none, ctx) => (⟨[], false⟩, ctx)

/-- `dse_collect_register_byte_alias`; the expression and the epoch of the register are given. -/
def dseCollectRegisterByteAlias (aux : InsnAux) (rid : RegId) (current : Option SymExpr) (rootEpoch : ℕ)
    (naturalWidth byteIndex : ℕ) (ctx : DSECtx) : DseRootSet × DSECtx :=
  if naturalWidth = 0 ∨ naturalWidth > 64 ∨ naturalWidth % 8 ≠ 0 ∨ byteIndex ≥ naturalWidth / 8 then
    (⟨[], false⟩, ctx)
  else
    match current.filter fun current => current.width == naturalWidth with
    | none => dseRegisterByteFallback aux rid rootEpoch byteIndex ctx
    | some current =>
      match dseSelectRegisterByte current byteIndex (observedRegByte aux rid byteIndex) ctx with
      | (none, ctx) => dseRegisterByteFallback aux rid rootEpoch byteIndex ctx
      | (some selected, ctx) =>
        let lineage := dseExprCollectRootLineage ctx selected
        if lineage.ids = [] then dseRegisterByteFallback aux rid rootEpoch byteIndex ctx
        else (lineage, ctx)

/-- A byte in `dse_build_reg_root`. -/
def dseRegRootByte (aux : InsnAux) (rid : RegId) (current : Option SymExpr) (rootEpoch : ℕ)
    (naturalWidth epoch : ℕ) (kind : DseVarKind) (byteIndex : ℕ) : Fallible DSECtx SymExpr := fun ctx =>
  let concreteByte := (observedRegByte aux rid byteIndex).setWidth 64
  if (aux.regTaint rid).getLsbD byteIndex = false then exprStep (symExprConst concreteByte 8) ctx
  else
    let (aliasLineage, ctx) :=
      if kind = .addressRoot then
        let (lineage, ctx) := dseCollectRegisterByteAlias aux rid current rootEpoch naturalWidth byteIndex ctx
        (some lineage, ctx)
      else (none, ctx)
    dseNewObservedEpochVar (regSourceId rid byteIndex) epoch epoch aux.seqId byteIndex 8 kind concreteByte
      aliasLineage ctx

end TaintForge
