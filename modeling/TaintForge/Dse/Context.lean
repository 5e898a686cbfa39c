import TaintForge.Dse.Replay
import TaintForge.Dse.AuxTrace

/-!
# The context of the symbolic execution

`DSECtx` of `dse.h`: the symbolic state of flags and memory, the variables that have been made with the
values observed for them, and where they come from.

* `dseNewObservedEpochVar`: a variable for something that is first read, one for each source and epoch.
* `dseReplayExpect`: compare what an expression is under the observed values with what was recorded.
* `dseGetX86Flag`, `dseSetX86Flag`, `dseInvalidateX86Flags`: the flags.
-/

namespace TaintForge

open Function

/-! ### The state -/

/-- The flags that are tracked, `DseFlagSlot`. -/
inductive X86Flag where
  | cf | pf | af | zf | sf | of
  deriving DecidableEq, Repr

namespace X86Flag

/-- `X86_FLAG_TRACKED` -/
def tracked : List X86Flag := [cf, pf, af, zf, sf, of]

/-- `dse_x86_flag_slot` -/
def slot : X86Flag → ℕ
  | cf => 0 | pf => 1 | af => 2 | zf => 3 | sf => 4 | of => 5

/-- `dse_x86_eflags_bit` -/
def eflagsBit : X86Flag → ℕ
  | cf => 0 | pf => 2 | af => 4 | zf => 6 | sf => 7 | of => 11

end X86Flag

structure DseVarKey where
  source : BitVec 64
  epoch : ℕ
  width : ℕ
  kind : DseVarKind
  deriving DecidableEq, Repr

/-- A byte of the memory with the instruction that wrote it. -/
structure DseMemCell where
  expr : SymExpr
  writerSeq : ℕ
  writerPc : BitVec 64

/-- The tables of `SymState`; an address of the memory is a number below `2 ^ 64`. -/
structure SymState where
  x86Flags : X86Flag → Option SymExpr
  symMem : ℕ → Option DseMemCell
  varCache : DseVarKey → Option SymExpr
  varCounter : ℕ

/-- `DseRootSet`; there are at most `DSE_MAX_ROOT_LINEAGE` ids. -/
structure DseRootSet where
  ids : List ℕ
  complete : Bool

structure DseRootProvenance where
  kind : DseVarKind
  source : BitVec 64
  variableEpoch : ℕ
  originVersion : ℕ
  firstEventSeq : ℕ
  lastEventSeq : ℕ
  width : ℕ
  byteOffset : ℕ
  lineage : DseRootSet

structure DseRootOrigin where
  source : BitVec 64
  originVersion : ℕ
  width : ℕ
  byteOffset : ℕ
  kind : DseVarKind
  deriving DecidableEq, Repr

/-- Where the variables come from. -/
structure RootTables where
  rootProvenance : ℕ → Option DseRootProvenance
  rootOrigins : DseRootOrigin → Option ℕ
  lineageOrigins : ℕ → Option DseRootOrigin
  nextLineageId : ℕ
  complete : Bool

/-- `DSECtx`, as far as flags and memory go; the solver is apart. -/
structure DSECtx where
  exprs : ExprCtx
  state : SymState
  observedValues : ℕ → Option DseObservedValue
  roots : RootTables
  replayModelComplete : Bool
  replayMismatch : Bool
  replayChecks : ℕ
  replayFailures : ℕ
  replayMissingBindings : ℕ
  memoryModelComplete : Bool
  pathModelComplete : Bool
  pathFailures : ℕ
  x86FlagsPoisoned : X86Flag → Bool
  memoryRootEpoch : ℕ
  demandActive : Bool
  demandSeqId : ℕ
  demandAllMemoryWrites : Bool
  demandMemoryWrites : Finset (ℕ × ℕ)

/-- A step on the expressions. -/
def exprStep {α : Type} (x : Fallible ExprCtx α) : Fallible DSECtx α :=
  x.within (·.exprs) fun exprs ctx => { ctx with exprs := exprs }

instance : MonadLift (Fallible ExprCtx) (Fallible DSECtx) := ⟨exprStep⟩

/-- `dse_mark_resource_limit` on this context. -/
def DSECtx.markResourceLimit (ctx : DSECtx) : DSECtx :=
  { ctx with exprs := { ctx.exprs with resourceLimitHit := true } }

/-- Blocks of some sizes, all of which are asked for. -/
def tryNew (sizes : List ℕ) (ctx : DSECtx) : Bool × DSECtx :=
  let (granted, heap) := sizes.foldl
    (fun (granted, heap) size => ((heap.calloc 1 size).1 && granted, (heap.calloc 1 size).2))
    (true, ctx.exprs.heap)
  (granted, { ctx with exprs := { ctx.exprs with heap := heap } })

/-- Ask for blocks; that they cannot be had is noted. -/
def allocate (sizes : List ℕ) (note : DSECtx → DSECtx) : Fallible DSECtx Unit := fun ctx =>
  let (granted, ctx) := tryNew sizes ctx
  if granted = false then (none, note ctx) else (some (), ctx)

/-! ### Where variables come from -/

/-- `DSE_MAX_ROOT_LINEAGE` -/
def dseMaxRootLineage : ℕ := 128

/-- `dse_root_set_add` -/
def dseRootSetAdd (set : DseRootSet) (lineageId : ℕ) : DseRootSet :=
  if lineageId = 0 ∨ lineageId ∈ set.ids then set
  else if set.ids.length ≥ dseMaxRootLineage then { set with complete := false }
  else { set with ids := set.ids ++ [lineageId] }

def DSECtx.rootsIncomplete (ctx : DSECtx) : DSECtx :=
  { ctx with roots := { ctx.roots with complete := false } }

def DSECtx.rootsOutOfMemory (ctx : DSECtx) : DSECtx := ctx.rootsIncomplete.markResourceLimit

/-- `dse_root_origin_lineage_id` -/
def dseRootOriginLineageId (origin : DseRootOrigin) : Fallible DSECtx ℕ := fun ctx =>
  if origin.width = 0 ∨ origin.width > 64 then (none, ctx)
  else
    match ctx.roots.rootOrigins origin with
    | some existing => (some existing, ctx)
    | none =>
      let id := ctx.roots.nextLineageId
      if id = 0 ∨ id ≥ 2 ^ 63 then (none, ctx.rootsOutOfMemory)
      else (do
        allocate [32, 8, 8, 40] DSECtx.rootsOutOfMemory
        Fallible.modify fun ctx =>
          { ctx with roots :=
            { ctx.roots with
              rootOrigins := update ctx.roots.rootOrigins origin (some id)
              lineageOrigins := update ctx.roots.lineageOrigins id (some origin)
              nextLineageId := id + 1 } }
        return id : Fallible DSECtx ℕ) ctx

/-- `dse_root_provenance_store_lineage`: the ids are copied. -/
def dseRootProvenanceStoreLineage (lineage : DseRootSet) : Fallible DSECtx Unit := do
  allocate (if lineage.ids = [] then [] else [lineage.ids.length * 8]) DSECtx.rootsOutOfMemory
  Fallible.modify fun ctx => if lineage.complete then ctx else ctx.rootsIncomplete

/-- Whether what is registered for a variable is about the same source. -/
def DseRootProvenance.sameSource (existing : DseRootProvenance) (kind : DseVarKind) (source : BitVec 64)
    (variableEpoch originVersion width byteOffset : ℕ) : Bool :=
  existing.kind == kind && existing.source == source && existing.variableEpoch == variableEpoch &&
    existing.originVersion == originVersion && existing.width == width &&
    existing.byteOffset == byteOffset

def DSECtx.setRoot (ctx : DSECtx) (id : ℕ) (provenance : DseRootProvenance) : DSECtx :=
  { ctx with roots :=
    { ctx.roots with rootProvenance := update ctx.roots.rootProvenance id (some provenance) } }

/-- The lineage of a variable: that of another one, or an id for where it comes from. -/
def dseIncomingLineage (origin : DseRootOrigin) (aliasLineage : Option DseRootSet) :
    Fallible DSECtx DseRootSet :=
  match aliasLineage with
  | some lineage => pure lineage
  | none => do
    let lineageId ← dseRootOriginLineageId origin
    return dseRootSetAdd ⟨[], true⟩ lineageId

/-- `dse_register_root_provenance` -/
def dseRegisterRootProvenance (rootId width : ℕ) (kind : DseVarKind) (source : BitVec 64)
    (variableEpoch originVersion eventSeq byteOffset : ℕ) (aliasLineage : Option DseRootSet) :
    Fallible DSECtx Unit := do
  let incoming ← dseIncomingLineage ⟨source, originVersion, width, byteOffset, kind⟩ aliasLineage
  let ctx ← Fallible.read
  match ctx.roots.rootProvenance rootId with
  | some existing =>
    if existing.sameSource kind source variableEpoch originVersion width byteOffset = false then do
      Fallible.modify DSECtx.rootsIncomplete
      Fallible.fail
    else do
      let merged := (existing.lineage.ids ++ incoming.ids).foldl dseRootSetAdd
        ⟨[], existing.lineage.complete && incoming.complete⟩
      let existing :=
        { existing with
          firstEventSeq := min eventSeq existing.firstEventSeq
          lastEventSeq := max eventSeq existing.lastEventSeq }
      Fallible.modify (·.setRoot rootId existing)
      dseRootProvenanceStoreLineage merged
      Fallible.modify (·.setRoot rootId { existing with lineage := merged })
  | none => do
    allocate [4, 80] DSECtx.rootsOutOfMemory
    dseRootProvenanceStoreLineage incoming
    Fallible.modify (·.setRoot rootId
      ⟨kind, source, variableEpoch, originVersion, eventSeq, eventSeq, width, byteOffset, incoming⟩)

/-! ### Variables -/

/-- `sym_state_new_epoch_var` -/
def symStateNewEpochVar (srcAddr : BitVec 64) (epoch width : ℕ) (kind : DseVarKind) :
    Fallible DSECtx SymExpr := fun ctx =>
  if width = 0 ∨ width > 64 then (none, ctx)
  else
    let key : DseVarKey := ⟨srcAddr, epoch, width, kind⟩
    match ctx.state.varCache key with
    | some cached => (do
        let out ← symExprClone cached
        if out.width < width then symExprZext out width
        else if out.width > width then symExprExtract out 0 width
        else return out : Fallible DSECtx SymExpr) ctx
    | none => (do
        -- the number is used up even if the node cannot be made
        Fallible.modify fun ctx =>
          { ctx with state := { ctx.state with varCounter := ctx.state.varCounter + 1 } }
        let source ← symExprVar ⟨srcAddr, epoch, ctx.state.varCounter, kind⟩ width
        Fallible.modify fun ctx =>
          { ctx with state :=
            { ctx.state with varCache := update ctx.state.varCache key (some source) } }
        symExprClone source : Fallible DSECtx SymExpr) ctx

/-- `dse_record_replay_missing` -/
def dseRecordReplayMissing (ctx : DSECtx) : DSECtx :=
  { ctx with
    replayModelComplete := false
    replayMissingBindings := countEvent ctx.replayMissingBindings
    replayFailures := countEvent ctx.replayFailures }

/-- `dse_record_replay_mismatch` -/
def dseRecordReplayMismatch (ctx : DSECtx) : DSECtx :=
  { ctx with
    replayModelComplete := false
    replayMismatch := true
    replayFailures := countEvent ctx.replayFailures }

/-- `dse_bind_observed_var` -/
def dseBindObservedVar (var : SymExpr) (observedValue : BitVec 64) : Fallible DSECtx Unit := fun ctx =>
  match var with
  | .var h symbol =>
    if h.width = 0 ∨ h.width > 64 then (none, dseRecordReplayMissing ctx)
    else
      let observedValue := maskW observedValue h.width
      match ctx.observedValues symbol.id with
      | some existing =>
        if existing.width ≠ h.width then (none, dseRecordReplayMissing ctx)
        else if existing.value ≠ observedValue then (none, dseRecordReplayMismatch ctx)
        else (some (), ctx)
      | none => (do
          allocate [4, 16] fun ctx => dseRecordReplayMissing ctx.markResourceLimit
          Fallible.modify fun ctx =>
            { ctx with
              observedValues := update ctx.observedValues symbol.id (some ⟨observedValue, h.width⟩) } :
          Fallible DSECtx Unit) ctx
  | _ => (none, dseRecordReplayMissing ctx)

/-- The number of a variable. -/
def SymExpr.varId : SymExpr → ℕ
  | .var _ symbol => symbol.id
  | _ => 0

/-- `dse_new_observed_epoch_var` -/
def dseNewObservedEpochVar (srcAddr : BitVec 64) (variableEpoch originVersion eventSeq byteOffset : ℕ)
    (width : ℕ) (kind : DseVarKind) (observedValue : BitVec 64) (aliasLineage : Option DseRootSet) :
    Fallible DSECtx SymExpr := do
  let root ← symStateNewEpochVar srcAddr variableEpoch width kind
  dseBindObservedVar root observedValue
  fun ctx =>
    match dseRegisterRootProvenance root.varId root.width kind srcAddr variableEpoch originVersion eventSeq
        byteOffset aliasLineage ctx with
    | (some _, ctx) => (some root, ctx)
    | (none, ctx) => (none, ctx.rootsIncomplete)

/-! ### Replay checks -/

/-- `DseReplayCheckStatus` -/
inductive DseReplayCheckStatus where
  | ok | missingBinding | mismatch | invalidExpr
  deriving DecidableEq, Repr

/-- `dse_replay_expect` -/
def dseReplayExpect (e : SymExpr) (expectedValue : BitVec 64) (ctx : DSECtx) :
    DseReplayCheckStatus × DSECtx :=
  if e.width = 0 ∨ e.width > 64 then (.invalidExpr, dseRecordReplayMissing ctx)
  else
    let ctx := { ctx with replayChecks := countEvent ctx.replayChecks }
    let (status, heap) := dseEvalExprObserved ctx.observedValues e ctx.exprs.heap
    let ctx := { ctx with exprs := { ctx.exprs with heap := heap } }
    match status with
    | .error .missingBinding => (.missingBinding, dseRecordReplayMissing ctx)
    | .error .invalidExpr =>
      (.invalidExpr,
        { ctx with replayModelComplete := false, replayFailures := countEvent ctx.replayFailures })
    | .ok replayedValue =>
      if maskW replayedValue e.width ≠ maskW expectedValue e.width then
        (.mismatch, dseRecordReplayMismatch ctx)
      else (.ok, ctx)

/-! ### Flags -/

/-- `FLAG_VAR_BASE` -/
def flagVarBase : BitVec 64 := 0xE000000000000000#64

/-- `dse_mark_path_failure` -/
def dseMarkPathFailure (ctx : DSECtx) : DSECtx :=
  { ctx with pathModelComplete := false, pathFailures := countEvent ctx.pathFailures }

def DSECtx.setFlag (ctx : DSECtx) (flag : X86Flag) (value : Option SymExpr) : DSECtx :=
  { ctx with state := { ctx.state with x86Flags := update ctx.state.x86Flags flag value } }

/-- A step whose failure is one of the path. -/
def orPathFailure {α : Type} (x : Fallible DSECtx α) : Fallible DSECtx α := fun ctx =>
  match x ctx with
  | (some a, ctx) => (some a, ctx)
  | (none, ctx) => (none, dseMarkPathFailure ctx)

/-- `dse_get_x86_flag`: a flag that has not been set becomes a variable. -/
def dseGetX86Flag (aux : InsnAux) (flag : X86Flag) : Fallible DSECtx SymExpr := orPathFailure fun ctx =>
  if ctx.x86FlagsPoisoned flag then (none, ctx)
  else
    match ctx.state.x86Flags flag with
    | some value => exprStep (symExprClone value) ctx
    | none =>
      if aux.eflagsValid = false then (none, ctx)
      else (do
        let observedValue := ((aux.eflagsBefore >>> flag.eflagsBit) &&& 1#32).setWidth 64
        let root ← dseNewObservedEpochVar (flagVarBase ||| BitVec.ofNat 64 flag.slot) aux.seqId aux.seqId
          aux.seqId 0 1 .flagRoot observedValue none
        let copy ← symExprClone root
        Fallible.modify (·.setFlag flag (some copy))
        return root : Fallible DSECtx SymExpr) ctx

def DSECtx.setPoisoned (ctx : DSECtx) (flag : X86Flag) (poisoned : Bool) : DSECtx :=
  { ctx with x86FlagsPoisoned := update ctx.x86FlagsPoisoned flag poisoned }

/-- `dse_set_x86_flag`: without a value of one bit the flag is poisoned. -/
def dseSetX86Flag (flag : X86Flag) (value : Option SymExpr) (ctx : DSECtx) : DSECtx :=
  match value with
  | some value =>
    if value.width ≠ 1 then dseMarkPathFailure ((ctx.setFlag flag none).setPoisoned flag true)
    else (ctx.setFlag flag (some value)).setPoisoned flag false
  | none => dseMarkPathFailure ((ctx.setFlag flag none).setPoisoned flag true)

/-- `dse_invalidate_x86_flags` -/
def dseInvalidateX86Flags (flags : List X86Flag) (ctx : DSECtx) : DSECtx :=
  flags.foldl (fun ctx flag => (ctx.setFlag flag none).setPoisoned flag true) ctx

end TaintForge
