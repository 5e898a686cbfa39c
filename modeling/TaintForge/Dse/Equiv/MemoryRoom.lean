import TaintForge.Dse.Equiv.MemoryAccess
import TaintForge.Dse.Equiv.RootRoom

/-!
# Loads that return

With room for the nodes of its result a load returns, if each byte that was stored is what was observed, and
each byte that was not is read for the first time.

* `DSECtx.Loadable`: what a byte needs to be loaded.
* `dseLoadMem_returns`, `dseStoreMem_returns`: a load, and a store of a constant.
* `symbolic_memory`: what a load returns after stores.
-/

namespace TaintForge

open Fallible Function DSECtx

/-! ### Bytes -/

/-- What a byte needs to be loaded.  At most `before` variables are made before it. -/
inductive DSECtx.Loadable (ctx : DSECtx) (address epoch : ℕ) (observedValue : BitVec 8) (before : ℕ) :
    Bool → Prop
  | untainted : Loadable ctx address epoch observedValue before false
  /-- A byte that was stored is what was observed. -/
  | stored (cell : DseMemCell) (hcell : ctx.state.symMem address = some cell)
      (hreplays : ctx.Replays cell.expr observedValue) : Loadable ctx address epoch observedValue before true
  /-- Another byte is read for the first time. -/
  | root (hcell : ctx.state.symMem address = none)
      (hnew : ctx.state.varCache ⟨BitVec.ofNat 64 address, epoch, 8, .memoryRoot⟩ = none)
      (hfresh : ctx.FreshIds) (hlineage : 0 < ctx.roots.nextLineageId)
      (hmore : ctx.roots.nextLineageId + before < 2 ^ 63) : Loadable ctx address epoch observedValue before true

section Loadable

variable {ctx ctx' : DSECtx} {address epoch : ℕ} {observedValue : BitVec 8} {before : ℕ} {tainted : Bool}

/-- A byte can still be loaded after another one. -/
theorem DSECtx.Loadable.step {key : DseVarKey}
    (h : ctx.Loadable address epoch observedValue (before + 1) tainted) (hstep : OneVar key ctx ctx')
    (hsame : SameMachine ctx ctx') (hkey : key ≠ ⟨BitVec.ofNat 64 address, epoch, 8, .memoryRoot⟩) :
    ctx'.Loadable address epoch observedValue before tainted := by
  have hlow := hstep.lineage.1
  have hhigh := hstep.lineage.2
  cases h with
  | untainted => exact .untainted
  | stored cell hcell hreplays =>
    exact .stored cell ((congrFun hsame.cells address).trans hcell) (hreplays.mono hsame.bound)
  | root hcell hnew hfresh hlineage hmore =>
    refine .root ((congrFun hsame.cells address).trans hcell) ?_ (hstep.fresh hfresh) (by omega) (by omega)
    rw [hstep.vars _ hkey.symm, hnew]

/-- And so it can after a step that makes no variable. -/
theorem DSECtx.Loadable.keep {later : ℕ} (h : ctx.Loadable address epoch observedValue before tainted)
    (hle : later ≤ before) (hsame : SameVars ctx ctx')
    (hcell : ctx'.state.symMem address = ctx.state.symMem address) :
    ctx'.Loadable address epoch observedValue later tainted := by
  cases h with
  | untainted => exact .untainted
  | stored cell hstored hreplays =>
    refine .stored cell (hcell.trans hstored) (hreplays.mono fun id value hid => ?_)
    rw [hsame.values, hid]
  | root hnone hnew hfresh hlineage hmore =>
    have hroots := hsame.roots
    refine .root (hcell.trans hnone) ((congrFun hsame.cache _).trans hnew) (hfresh.keep hsame) ?_ ?_
    · rw [hroots]
      exact hlineage
    · rw [hroots]
      omega

/-- **A byte is loaded**, and the others can still be. -/
theorem dseLoadTrackedByteAt_returns {rest : ℕ} (hctx : ctx.WellFormed) (hroom : ctx.exprs.Room (1 + rest))
    (h : ctx.Loadable address epoch observedValue before tainted) :
    ∃ e ctx', dseLoadTrackedByteAt address epoch observedValue tainted ctx = (some e, ctx') ∧
      ctx'.exprs.Room rest ∧ ∀ other observed later t,
        BitVec.ofNat 64 other ≠ BitVec.ofNat 64 address → ctx.Loadable other epoch observed (later + 1) t →
        ctx'.Loadable other epoch observed later t := by
  cases h with
  | untainted =>
    obtain ⟨e, exprs, hconst, -, hrest⟩ :=
      exprStep_returns (symExprConst_makes (observedValue.setWidth 64) (show 1 ≤ 8 ∧ 8 ≤ 64 by decide)) hroom
    refine ⟨e, { ctx with exprs := exprs }, ?_, hrest, fun other observed later t _ h =>
      h.keep (Nat.le_succ _) ⟨rfl, rfl, rfl, rfl⟩ rfl⟩
    rw [dseLoadTrackedByteAt, if_pos rfl, hconst]
  | stored cell hcell hreplays =>
    have hwidth := hctx.cells address cell hcell
    obtain ⟨copy, exprs, hclone, hcopy, hrest⟩ := exprStep_returns (symExprClone_makes cell.expr)
      ((Nat.zero_add (1 + rest)).symm ▸ hroom)
    rw [hcopy] at hclone
    have hstill : Replays { ctx with exprs := exprs } cell.expr observedValue := hreplays
    obtain ⟨c₁, hexpect, hroom₁, hstate, hvalues, hroots⟩ :=
      expectOrReport_returns hrest hwidth.1.width_le hstill
    have hsame : SameVars ctx c₁ :=
      ⟨congrArg SymState.varCache hstate, congrArg SymState.varCounter hstate, hvalues, hroots⟩
    have hcells : c₁.state.symMem = ctx.state.symMem := congrArg SymState.symMem hstate
    refine ⟨cell.expr, c₁, ?_, hroom₁.mono (Nat.le_add_left _ _),
      fun other observed later t _ h =>
        h.keep (Nat.le_succ _) hsame (congrFun hcells _)⟩
    rw [dseLoadTrackedByteAt, if_neg (by decide), hcell]
    refine (bind_of_some hclone).trans ?_
    rw [bind_of_some hexpect]
    rfl
  | root hcell hnew hfresh hlineage hmore =>
    obtain ⟨root, c₁, hrun, hrest, hstep⟩ := dseNewObservedEpochVar_returns ctx.memoryRootEpoch epoch 0
      (observedValue.setWidth 64) hroom (by decide) hnew hfresh ⟨hlineage, by omega⟩
    have hspec := dseNewObservedEpochVar_spec hctx hrun
    refine ⟨root, c₁, ?_, hrest, fun other observed later t hother h => h.step hstep hspec.2.2 ?_⟩
    · rw [dseLoadTrackedByteAt, if_neg (by decide), hcell]
      exact hrun
    · intro hkey
      exact hother (DseVarKey.mk.inj hkey).1.symm

end Loadable

/-! ### Accesses -/

theorem byteAddress_lt (base count : ℕ) (bigEndian : Bool) (index : ℕ) :
    byteAddress base count bigEndian index < 2 ^ 64 :=
  Nat.mod_lt _ (by decide)

/-- The bytes of an access have different keys. -/
theorem ofNat_byteAddress_ne {base count index other : ℕ} {bigEndian : Bool} (hcount : count ≤ 8)
    (h : index < count) (h' : other < count) (hne : index ≠ other) :
    BitVec.ofNat 64 (byteAddress base count bigEndian index) ≠
      BitVec.ofNat 64 (byteAddress base count bigEndian other) := by
  intro hsame
  have hsame' := congrArg BitVec.toNat hsame
  rw [BitVec.toNat_ofNat, BitVec.toNat_ofNat, Nat.mod_eq_of_lt (byteAddress_lt _ _ _ _),
    Nat.mod_eq_of_lt (byteAddress_lt _ _ _ _)] at hsame'
  exact hne (byteAddress_inj hcount h h' hsame')

section Load

variable {aux : InsnAux} {count : ℕ} {bigEndian : Bool} {ctx : DSECtx}

theorem loadBytes_returns (hctx : ctx.WellFormed) (hcount : count ≤ 8) {more rest : ℕ} (hmore : more < count)
    (hroom : ctx.exprs.Room (2 * more + 1 + rest))
    (hload : ∀ index ≤ more, ctx.Loadable (byteAddress aux.memReadAddr count bigEndian index) aux.seqId
      (byteOf aux.memReadVal index) index (aux.memReadTaint.getLsbD index)) :
    ∃ e ctx', loadBytes aux count bigEndian more ctx = (some e, ctx') ∧ ctx'.exprs.Room rest ∧
      ∀ index, more < index → index < count → ∀ observed later t,
        ctx.Loadable (byteAddress aux.memReadAddr count bigEndian index) aux.seqId observed
          (later + (more + 1)) t →
        ctx'.Loadable (byteAddress aux.memReadAddr count bigEndian index) aux.seqId observed later t := by
  induction more generalizing rest with
  | zero =>
    obtain ⟨e, c₁, hrun, hrest, hothers⟩ :=
      dseLoadTrackedByteAt_returns hctx (by rwa [Nat.mul_zero, Nat.zero_add] at hroom) (hload 0 le_rfl)
    refine ⟨e, c₁, hrun, hrest, fun index hlow hhigh observed later t h => ?_⟩
    exact hothers _ _ _ _ (ofNat_byteAddress_ne hcount hhigh hmore (by omega)) h
  | succ more ih =>
    have hsum : 2 * (more + 1) + 1 + rest = 2 * more + 1 + (1 + (1 + rest)) := by omega
    rw [hsum] at hroom
    obtain ⟨result, c₁, hfirst, hroom₁, hothers₁⟩ :=
      ih (by omega) hroom fun index hindex => hload index (by omega)
    obtain ⟨hc₁, -, hresult, -⟩ := loadBytes_spec hctx hfirst
    -- the next byte
    have hnext := hothers₁ (more + 1) (Nat.lt_succ_self more) hmore (byteOf aux.memReadVal (more + 1)) 0
      (aux.memReadTaint.getLsbD (more + 1)) (by rw [Nat.zero_add]; exact hload (more + 1) le_rfl)
    obtain ⟨byte, c₂, hlast, hroom₂, hothers₂⟩ := dseLoadTrackedByteAt_returns hc₁ hroom₁ hnext
    obtain ⟨hbyte, -, -, -⟩ := dseLoadTrackedByteAt_spec hc₁ hlast
    obtain ⟨e, exprs, hconcat, -, hrest⟩ := exprStep_returns
      (symExprConcat_makes hbyte.represents hresult.represents (by omega)) hroom₂
    refine ⟨e, { c₂ with exprs := exprs }, ?_, hrest, fun index hlow hhigh observed later t h => ?_⟩
    · refine (bind_of_some hfirst).trans ?_
      exact (bind_of_some hlast).trans hconcat
    · have h₁ := hothers₁ index (by omega) hhigh observed (later + 1) t (by
        rwa [show later + 1 + (more + 1) = later + (more + 1 + 1) by omega])
      have h₂ := hothers₂ _ observed later t (ofNat_byteAddress_ne hcount hhigh hmore (by omega)) h₁
      exact h₂.keep le_rfl ⟨rfl, rfl, rfl, rfl⟩ rfl

/-- **A load returns** if its bytes can be loaded. -/
theorem dseLoadMem_returns {n : ℕ} (hn : 1 ≤ n ∧ n ≤ 8) (hctx : ctx.WellFormed) (hread : aux.hasMemRead = true)
    (hroom : ctx.exprs.Room (2 * n - 1))
    (hload : ∀ index < n, ctx.Loadable (byteAddress aux.memReadAddr n bigEndian index) aux.seqId
      (byteOf aux.memReadVal index) index (aux.memReadTaint.getLsbD index)) :
    ∃ e ctx', dseLoadMem aux (8 * n) bigEndian ctx = (some e, ctx') := by
  have hguard : ¬ (8 * n = 0 ∨ aux.hasMemRead = false) := by
    rintro (h | h)
    · omega
    · rw [hread] at h
      exact absurd h (by decide)
  have hsum : 2 * n - 1 = 2 * (n - 1) + 1 + 0 := by omega
  obtain ⟨e, ctx', hrun, -⟩ := loadBytes_returns hctx hn.2 (show n - 1 < n by omega) (hsum ▸ hroom)
    fun index hindex => hload index (by omega)
  refine ⟨e, ctx', ?_⟩
  rw [dseLoadMem, if_neg hguard, accessBytes_mul hn, hrun]

end Load

/-! ### Stores of constants -/

section Const

variable {e value : SymExpr} {ctx : DSECtx}

theorem symExprExtract_const {x : BitVec 64} (hx : value.constVal = some x) (low out : ℕ) :
    (symExprExtract value low out).All fun e => ∃ y, e.constVal = some y := by
  rw [symExprExtract, hx]
  refine .ite (fun _ => .fail) fun _ => .ite (fun _ => .pure ⟨x, hx⟩) fun _ => ?_
  refine (symExprConst_eq _ _).mono fun e hconst => ?_
  obtain ⟨addr, he⟩ := hconst
  rw [he]
  exact ⟨_, rfl⟩

theorem dseStoreTrackedByteAt_returns {n : ℕ} {observedValue : BitVec 8} (address : ℕ) (writerAux : InsnAux)
    (hroom : ctx.exprs.Room n) (he : e.HasWidth 8) (hreplays : ctx.Replays e observedValue) :
    ∃ ctx', dseStoreTrackedByteAt address e writerAux observedValue ctx = (some (), ctx') ∧
      ctx'.exprs.Room n ∧ SameVars ctx ctx' := by
  obtain ⟨c₁, hexpect, hroom₁, hstate, hvalues, hroots⟩ := expectOrReport_returns hroom he.1.width_le hreplays
  obtain ⟨exprs, hallocate, hroom₂⟩ := allocate_returns [8, 24] (by decide) DSECtx.markResourceLimit c₁ hroom₁
  have hcache : c₁.state.varCache = ctx.state.varCache := congrArg SymState.varCache hstate
  have hcounter : c₁.state.varCounter = ctx.state.varCounter := congrArg SymState.varCounter hstate
  refine ⟨DSECtx.setCell { c₁ with exprs := exprs } address ⟨e, writerAux.seqId, writerAux.pc⟩, ?_, hroom₂,
    hcache, hcounter, hvalues, hroots⟩
  rw [dseStoreTrackedByteAt, if_neg (not_not.mpr he.2), bind_of_some hexpect, bind_of_some hallocate]
  rfl

/-- A byte of a constant is stored if it is what was recorded. -/
theorem storeByte_returns {aux : InsnAux} {write : DseMemWrite} {count rest offset : ℕ} {bigEndian : Bool}
    {x : BitVec 64} (hvalue : value.WellFormed) (hx : value.constVal = some x) (hwidth : value.width = 8 * count)
    (hoffset : offset < count) (hroom : ctx.exprs.Room (1 + rest))
    (hrecorded : ∀ index < count, ∀ σ, value.byteAt index σ = byteOf write.value index) :
    ∃ ctx', storeByte aux write value count bigEndian offset ctx = (some (), ctx') ∧
      ctx'.exprs.Room rest ∧ SameVars ctx ctx' := by
  have hsource := turned_lt bigEndian hoffset
  rw [storeByte]
  dsimp only
  by_cases hrequired : dseMemoryWriteByteRequired ctx ((write.addr + offset) % 2 ^ 64) = false
  · rw [if_pos hrequired]
    exact ⟨ctx, rfl, hroom.mono (Nat.le_add_left _ _), rfl, rfl, rfl, rfl⟩
  rw [if_neg hrequired]
  obtain ⟨copy, exprs₁, hclone, hcopy, hroom₁⟩ := exprStep_returns (symExprClone_makes value)
    ((Nat.zero_add (1 + rest)).symm ▸ hroom)
  rw [hcopy] at hclone
  have hvalue' : Represents value (8 * count) (value.bits (8 * count)) := .of_width hvalue hwidth
  obtain ⟨byte, exprs₂, hextract, hbyte, hroom₂⟩ := exprStep_returns
    (symExprExtract_makes hvalue' (show 1 ≤ 8 by decide)
      (show 8 * turned count bigEndian offset + 8 ≤ 8 * count by omega))
    (show DSECtx.exprs { ctx with exprs := exprs₁ } |>.Room (1 + rest) from hroom₁)
  obtain ⟨y, hy⟩ := (exprStep_spec (symExprExtract_const hx _ _) hextract).1
  have hreplays : Replays { ctx with exprs := exprs₂ } byte (byteOf write.value (turned count bigEndian offset)) := by
    refine .of_const hbyte hy fun σ => ?_
    rw [← hrecorded _ hsource σ, SymExpr.byteAt, hwidth]
  obtain ⟨c₁, hstore, hroom₃, hsame⟩ := dseStoreTrackedByteAt_returns
    ((write.addr + offset) % 2 ^ 64) aux hroom₂ hbyte.hasWidth hreplays
  refine ⟨c₁, ?_, hroom₃, hsame.cache, hsame.counter, hsame.values, hsame.roots⟩
  refine (bind_of_some hclone).trans ((bind_of_some hextract).trans ?_)
  exact hstore

theorem storeBytes_returns {aux : InsnAux} {write : DseMemWrite} {count k rest : ℕ} {bigEndian : Bool}
    {x : BitVec 64} (hvalue : value.WellFormed) (hx : value.constVal = some x) (hwidth : value.width = 8 * count)
    (hk : k ≤ count) (hroom : ctx.exprs.Room (k + rest))
    (hrecorded : ∀ index < count, ∀ σ, value.byteAt index σ = byteOf write.value index) :
    ∃ ctx', storeBytes aux write value count bigEndian k ctx = (some (), ctx') ∧
      ctx'.exprs.Room rest ∧ SameVars ctx ctx' := by
  induction k generalizing rest with
  | zero => exact ⟨ctx, rfl, Nat.zero_add rest ▸ hroom, rfl, rfl, rfl, rfl⟩
  | succ k ih =>
    rw [Nat.add_assoc] at hroom
    obtain ⟨c₁, hfirst, hroom₁, hsame₁⟩ := ih (Nat.le_of_succ_le hk) hroom
    obtain ⟨c₂, hlast, hroom₂, hsame₂⟩ := storeByte_returns hvalue hx hwidth hk hroom₁ hrecorded
    exact ⟨c₂, (bind_of_some hfirst).trans hlast, hroom₂, hsame₁.trans hsame₂⟩

/-- **A constant is stored** if it is what was recorded. -/
theorem dseStoreMem_returns {aux : InsnAux} {write : DseMemWrite} {n rest : ℕ} (hn : 1 ≤ n ∧ n ≤ 8)
    {bigEndian : Bool} {x : BitVec 64} (hvalue : value.WellFormed) (hx : value.constVal = some x)
    (hwidth : value.width = 8 * n) (hroom : ctx.exprs.Room (n + rest)) (hwrite : aux.memWrites = [write])
    (hvalid : (aux.hasMemWrite && !aux.memWriteOverflow && aux.memWriteRange.total == 1 &&
      writeRecorded aux write n) = true)
    (hrecorded : ∀ index < n, ∀ σ, value.byteAt index σ = byteOf write.value index) :
    ∃ ctx', dseStoreMem aux value bigEndian ctx = (some (), ctx') ∧ ctx'.exprs.Room rest ∧
      SameVars ctx ctx' := by
  have hguard : ¬ (aux.hasMemWrite = false ∨ aux.memWriteOverflow ∨ aux.memWriteRange.total ≠ 1 ∨
      writeRecorded aux write n = false) := by
    simp only [Bool.and_eq_true, Bool.not_eq_true', beq_iff_eq] at hvalid
    obtain ⟨⟨⟨hhas, hover⟩, htotal⟩, hmeta⟩ := hvalid
    simp [hhas, hover, htotal, hmeta]
  rw [dseStoreMem, hwrite]
  dsimp only
  rw [hwidth, accessBytes_mul hn, if_neg hguard]
  exact storeBytes_returns hvalue hx hwidth le_rfl hroom hrecorded

end Const

end TaintForge
