import TaintForge.Dse.Slice
import TaintForge.Dse.Equiv.Memory

/-!
# Accesses to the symbolic memory

An access stores the bytes of a value that are required, and a load puts its bytes together from what is at
their addresses.

* `StoredAccess`, `lastStored`: what was stored at an address by the last access that stored something
  there.
* `StoreRun`: accesses one after the other, with other steps in between.
* `dseLoadMem_spec`, `dseFindMemRead_bytes`: a load, and a part of a recorded read.
* `ReadsByte`: what a byte is after a run.
-/

namespace TaintForge

open Fallible Function DSECtx

/-- A byte of the value of an expression. -/
def SymExpr.byteAt (value : SymExpr) (index : ℕ) (σ : Valuation) : BitVec 8 :=
  (value.bits value.width σ).extractLsb' (8 * index) 8

/-! ### What stays -/

/-- A step after which the same bytes are required, and all variables have the values they had. -/
structure DSECtx.KeepsDemand (ctx ctx' : DSECtx) : Prop where
  required : ∀ address, dseMemoryWriteByteRequired ctx' address = dseMemoryWriteByteRequired ctx address
  bound : ∀ id value, ctx.observedValues id = some value → ctx'.observedValues id = some value

section Keeps

variable {ctx ctx' ctx'' : DSECtx}

theorem DSECtx.KeepsDemand.refl (ctx : DSECtx) : KeepsDemand ctx ctx := ⟨fun _ => rfl, fun _ _ h => h⟩

theorem DSECtx.KeepsDemand.trans (h : KeepsDemand ctx ctx') (h' : KeepsDemand ctx' ctx'') :
    KeepsDemand ctx ctx'' :=
  ⟨fun address => (h'.required address).trans (h.required address),
    fun id value hid => h'.bound id value (h.bound id value hid)⟩

theorem DSECtx.SameMachine.keepsDemand (h : SameMachine ctx ctx') : KeepsDemand ctx ctx' := by
  refine ⟨fun address => ?_, h.bound⟩
  rw [dseMemoryWriteByteRequired, dseMemoryWriteByteRequired, h.demandActive, h.demandAll, h.demandSeqId,
    h.demand]

theorem setCell_keepsDemand (ctx : DSECtx) (address : ℕ) (cell : DseMemCell) :
    KeepsDemand ctx (ctx.setCell address cell) :=
  ⟨fun _ => rfl, fun _ _ h => h⟩

/-- There is an expression at the address that has the value, and has been found to be the byte. -/
def DSECtx.HoldsByte (ctx : DSECtx) (address : ℕ) (f : Valuation → BitVec 8) (observed : BitVec 8) : Prop :=
  ∃ cell, ctx.state.symMem address = some cell ∧ Represents cell.expr 8 f ∧
    ctx.Replays cell.expr observed

theorem DSECtx.HoldsByte.mono {address : ℕ} {f : Valuation → BitVec 8} {observed : BitVec 8}
    (h : ctx.HoldsByte address f observed) (hcell : ctx'.state.symMem address = ctx.state.symMem address)
    (hbound : ∀ id value, ctx.observedValues id = some value → ctx'.observedValues id = some value) :
    ctx'.HoldsByte address f observed := by
  obtain ⟨cell, hsome, hvalue, hreplays⟩ := h
  exact ⟨cell, hcell.trans hsome, hvalue, hreplays.mono hbound⟩

end Keeps

/-! ### Where the bytes are -/

/-- The index of the byte at an offset, and the offset of the byte with an index. -/
def turned (count : ℕ) (bigEndian : Bool) (index : ℕ) : ℕ := if bigEndian then count - 1 - index else index

section Turned

variable {count index : ℕ} {bigEndian : Bool}

theorem turned_lt (bigEndian : Bool) (h : index < count) : turned count bigEndian index < count := by
  cases bigEndian with
  | false => exact h
  | true =>
    show count - 1 - index < count
    omega

theorem turned_turned (bigEndian : Bool) (h : index < count) : turned count bigEndian (turned count bigEndian index) = index := by
  cases bigEndian with
  | false => rfl
  | true =>
    show count - 1 - (count - 1 - index) = index
    omega

theorem accessBytes_le (width : ℕ) : 1 ≤ accessBytes width ∧ accessBytes width ≤ 8 := by
  rw [accessBytes]
  omega

theorem accessBytes_mul {n : ℕ} (hn : 1 ≤ n ∧ n ≤ 8) : accessBytes (8 * n) = n := by
  rw [accessBytes, Nat.mul_div_cancel_left n (by decide)]
  omega

/-- The bytes of an access are at different addresses. -/
theorem byteAddress_inj {base other : ℕ} (hcount : count ≤ 8) (h : index < count) (h' : other < count)
    (hsame : byteAddress base count bigEndian index = byteAddress base count bigEndian other) :
    index = other := by
  cases bigEndian with
  | false =>
    change (base + index) % 2 ^ 64 = (base + other) % 2 ^ 64 at hsame
    omega
  | true =>
    change (base + (count - 1 - index)) % 2 ^ 64 = (base + (count - 1 - other)) % 2 ^ 64 at hsame
    omega

end Turned

/-! ### Storing -/

section Store

variable {aux : InsnAux} {write : DseMemWrite} {value : SymExpr} {count : ℕ} {bigEndian : Bool}
  {ctx ctx' : DSECtx}

/-- One byte of a value is stored, unless it is not required. -/
theorem storeByte_spec (hvalue : value.WellFormed) (hctx : ctx.WellFormed) {offset : ℕ} (hoffset : offset < count)
    (hcount : count ≤ 8)
    (hrun : storeByte aux write value count bigEndian offset ctx = (some (), ctx')) :
    (dseMemoryWriteByteRequired ctx ((write.addr + offset) % 2 ^ 64) = false → ctx' = ctx) ∧
    (dseMemoryWriteByteRequired ctx ((write.addr + offset) % 2 ^ 64) = true →
      ∃ mid byte, SameState ctx mid ∧ mid.WellFormed ∧
        ctx' = mid.setCell ((write.addr + offset) % 2 ^ 64) ⟨byte, aux.seqId, aux.pc⟩ ∧
        Represents byte 8 (value.byteAt (turned count bigEndian offset)) ∧
        mid.Replays byte (byteOf write.value (turned count bigEndian offset))) := by
  rw [storeByte] at hrun
  dsimp only at hrun
  by_cases hrequired : dseMemoryWriteByteRequired ctx ((write.addr + offset) % 2 ^ 64) = false
  · rw [if_pos hrequired] at hrun
    cases hrun
    exact ⟨fun _ => rfl, fun h => by rw [hrequired] at h; exact absurd h (by decide)⟩
  · rw [if_neg hrequired] at hrun
    refine ⟨fun h => absurd h hrequired, fun _ => ?_⟩
    have hsource := turned_lt bigEndian hoffset
    obtain ⟨copy, c₁, hclone, hrest⟩ := bind_eq_some.mp hrun
    obtain ⟨hcopy, hcloned⟩ := exprStep_spec (symExprClone_eq value) hclone
    rw [hcopy] at hrest
    obtain ⟨byte, c₂, hextract, hstore⟩ := bind_eq_some.mp hrest
    obtain ⟨hbyte, hextracted⟩ := exprStep_spec
      (symExprExtract_represents (Represents.of_wellFormed hvalue)
        (show 8 * turned count bigEndian offset + 8 < 2 ^ 32 by omega)) hextract
    obtain ⟨-, hreplays, mid, hstate, rfl⟩ := dseStoreTrackedByteAt_spec hstore
    have hsame := (hcloned.trans hextracted).trans hstate
    exact ⟨mid, byte, hsame, hsame.wellFormed hctx, rfl, hbyte, hreplays.mono hstate.bound⟩

/-- **The bytes of a value are stored**: each one that is required, and nothing else. -/
theorem storeBytes_spec (hvalue : value.WellFormed) (hctx : ctx.WellFormed) {k : ℕ} (hk : k ≤ count)
    (hcount : count ≤ 8) (hrun : storeBytes aux write value count bigEndian k ctx = (some (), ctx')) :
    ctx'.WellFormed ∧ KeepsDemand ctx ctx' ∧
      (∀ offset < k, dseMemoryWriteByteRequired ctx ((write.addr + offset) % 2 ^ 64) = true →
        ctx'.HoldsByte ((write.addr + offset) % 2 ^ 64) (value.byteAt (turned count bigEndian offset))
          (byteOf write.value (turned count bigEndian offset))) ∧
      ∀ address, (∀ offset < k, (write.addr + offset) % 2 ^ 64 = address →
          dseMemoryWriteByteRequired ctx address = false) →
        ctx'.state.symMem address = ctx.state.symMem address := by
  induction k generalizing ctx' with
  | zero =>
    cases hrun
    exact ⟨hctx, .refl ctx, fun _ h => absurd h (Nat.not_lt_zero _), fun _ _ => rfl⟩
  | succ k ih =>
    obtain ⟨_, c₁, hfirst, hlast⟩ := bind_eq_some.mp hrun
    obtain ⟨hc₁, hdemand, hstored, hkept⟩ := ih (Nat.le_of_succ_le hk) hfirst
    obtain ⟨hskip, hwrite⟩ := storeByte_spec hvalue hc₁ hk hcount hlast
    rw [hdemand.required] at hskip hwrite
    cases hrequired : dseMemoryWriteByteRequired ctx ((write.addr + k) % 2 ^ 64) with
    | false =>
      obtain rfl := hskip hrequired
      refine ⟨hc₁, hdemand, fun offset hoffset hneeded => ?_, fun address hnone => ?_⟩
      · rcases Nat.lt_succ_iff_lt_or_eq.mp hoffset with hlt | rfl
        · exact hstored offset hlt hneeded
        · rw [hrequired] at hneeded
          exact absurd hneeded (by decide)
      · exact hkept address fun offset hlt => hnone offset (Nat.lt_succ_of_lt hlt)
    | true =>
      obtain ⟨mid, byte, hstate, hmid, rfl, hbyte, hreplays⟩ := hwrite hrequired
      refine ⟨setCell_wellFormed hmid hbyte.hasWidth _,
        (hdemand.trans hstate.keepsDemand).trans (setCell_keepsDemand mid _ _),
        fun offset hoffset hneeded => ?_, fun address hnone => ?_⟩
      · rcases Nat.lt_succ_iff_lt_or_eq.mp hoffset with hlt | rfl
        · -- the last byte is at another address
          refine (hstored offset hlt hneeded).mono ?_ hstate.bound
          have hother : (write.addr + offset) % 2 ^ 64 ≠ (write.addr + k) % 2 ^ 64 := by omega
          show update mid.state.symMem _ _ _ = _
          rw [update_of_ne hother, hstate.cells]
        · exact ⟨_, update_self _ _ _, hbyte, hreplays⟩
      · have hother : address ≠ (write.addr + k) % 2 ^ 64 := by
          rintro rfl
          rw [hnone k (Nat.lt_succ_self k) rfl] at hrequired
          exact absurd hrequired (by decide)
        show update mid.state.symMem _ _ _ = _
        rw [update_of_ne hother, hstate.cells]
        exact hkept address fun offset hlt => hnone offset (Nat.lt_succ_of_lt hlt)

end Store

/-- An access that stored a value, with the bytes that were required. -/
structure StoredAccess where
  write : DseMemWrite
  value : SymExpr
  bigEndian : Bool
  required : ℕ → Bool

/-- A byte that was stored, and what was recorded for it. -/
structure StoredByte where
  value : Valuation → BitVec 8
  observed : BitVec 8

namespace StoredAccess

/-- The number of bytes. -/
def count (access : StoredAccess) : ℕ := accessBytes access.value.width

/-- The index of the byte at an address. -/
def index (access : StoredAccess) (address : ℕ) : Option ℕ :=
  (List.range access.count).find? fun index =>
    byteAddress access.write.addr access.count access.bigEndian index == address

/-- What was stored at an address. -/
def byte (access : StoredAccess) (address : ℕ) : Option StoredByte :=
  if access.required address then
    (access.index address).map fun index => ⟨access.value.byteAt index, byteOf access.write.value index⟩
  else none

theorem index_eq_some {access : StoredAccess} {address index : ℕ} :
    access.index address = some index ↔
      index < access.count ∧ byteAddress access.write.addr access.count access.bigEndian index = address := by
  have hcount := (accessBytes_le access.value.width).2
  rw [StoredAccess.index]
  constructor
  · intro h
    have hat := List.find?_some h
    exact ⟨List.mem_range.mp (List.mem_of_find?_eq_some h), beq_iff_eq.mp hat⟩
  · rintro ⟨hindex, hat⟩
    cases hfound : (List.range access.count).find? fun index =>
        byteAddress access.write.addr access.count access.bigEndian index == address with
    | none =>
      have hno := List.find?_eq_none.mp hfound index (List.mem_range.mpr hindex)
      exact absurd (beq_iff_eq.mpr hat) hno
    | some other =>
      have hother : other < access.count := List.mem_range.mp (List.mem_of_find?_eq_some hfound)
      have hat' := List.find?_some hfound
      rw [beq_iff_eq] at hat'
      rw [byteAddress_inj hcount hindex hother (hat.trans hat'.symm)]

theorem index_eq_none {access : StoredAccess} {address : ℕ} :
    access.index address = none ↔
      ∀ index < access.count, byteAddress access.write.addr access.count access.bigEndian index ≠ address := by
  rw [index, List.find?_eq_none]
  simp

end StoredAccess

/-- **An access stores its bytes**, those that are required, and leaves the rest of the memory alone. -/
theorem dseStoreMem_spec {aux : InsnAux} {write : DseMemWrite} {value : SymExpr} {bigEndian : Bool}
    {ctx ctx' : DSECtx} (hvalue : value.WellFormed) (hctx : ctx.WellFormed) (hwrite : aux.memWrites = [write])
    (hrun : dseStoreMem aux value bigEndian ctx = (some (), ctx')) :
    ctx'.WellFormed ∧ KeepsDemand ctx ctx' ∧ ∀ address,
      match StoredAccess.byte ⟨write, value, bigEndian, dseMemoryWriteByteRequired ctx⟩ address with
      | some byte => ctx'.HoldsByte address byte.value byte.observed
      | none => ctx'.state.symMem address = ctx.state.symMem address := by
  have hcount := (accessBytes_le value.width).2
  rw [dseStoreMem, hwrite] at hrun
  dsimp only at hrun
  split at hrun
  · obtain ⟨_, c₁, -, hfail⟩ := bind_eq_some.mp hrun
    exact absurd hfail fail_ne_some
  obtain ⟨hc, hdemand, hstored, hkept⟩ := storeBytes_spec hvalue hctx le_rfl hcount hrun
  refine ⟨hc, hdemand, fun address => ?_⟩
  cases hrequired : dseMemoryWriteByteRequired ctx address with
  | false =>
    have hnone : StoredAccess.byte ⟨write, value, bigEndian, dseMemoryWriteByteRequired ctx⟩ address = none :=
      if_neg (Bool.eq_false_iff.mp hrequired)
    rw [hnone]
    exact hkept address fun _ _ _ => hrequired
  | true =>
    have hbyte : StoredAccess.byte ⟨write, value, bigEndian, dseMemoryWriteByteRequired ctx⟩ address =
        (StoredAccess.index ⟨write, value, bigEndian, dseMemoryWriteByteRequired ctx⟩ address).map
          fun index => ⟨value.byteAt index, byteOf write.value index⟩ := if_pos hrequired
    rw [hbyte]
    cases hindex : StoredAccess.index ⟨write, value, bigEndian, dseMemoryWriteByteRequired ctx⟩ address with
    | none =>
      refine hkept address fun offset hoffset hat => absurd ?_
        (StoredAccess.index_eq_none.mp hindex _ (turned_lt bigEndian hoffset))
      have hback := turned_turned bigEndian hoffset
      exact (congrArg (fun o => (write.addr + o) % 2 ^ 64) hback).trans hat
    | some index =>
      obtain ⟨hlt, rfl⟩ := StoredAccess.index_eq_some.mp hindex
      have hholds := hstored _ (turned_lt bigEndian hlt) hrequired
      rw [turned_turned bigEndian (show index < accessBytes value.width from hlt)] at hholds
      exact hholds

/-! ### Runs -/

/-- What was stored at an address by the last access that stored something there; the last access comes
first. -/
def lastStored (accesses : List StoredAccess) (address : ℕ) : Option StoredByte :=
  accesses.findSome? (·.byte address)

/-- Accesses that store values, from a context on, the last one first.  The steps in between may do anything
but store. -/
inductive StoreRun (start : DSECtx) : List StoredAccess → DSECtx → Prop
  | start : StoreRun start [] start
  | store {accesses : List StoredAccess} {ctx ctx' : DSECtx} (aux : InsnAux) (write : DseMemWrite)
      (value : SymExpr) (bigEndian : Bool) (run : StoreRun start accesses ctx) (hvalue : value.WellFormed)
      (hwrite : aux.memWrites = [write]) (hrun : dseStoreMem aux value bigEndian ctx = (some (), ctx')) :
      StoreRun start (⟨write, value, bigEndian, dseMemoryWriteByteRequired ctx⟩ :: accesses) ctx'
  | other {accesses : List StoredAccess} {ctx ctx' : DSECtx} (run : StoreRun start accesses ctx)
      (hctx : ctx'.WellFormed) (hcells : ctx'.state.symMem = ctx.state.symMem)
      (hbound : ∀ id value, ctx.observedValues id = some value → ctx'.observedValues id = some value) :
      StoreRun start accesses ctx'

/-- **The memory after a run**: at each address there is what was stored last, or what was there at the
start. -/
theorem StoreRun.holds {start ctx : DSECtx} {accesses : List StoredAccess} (hstart : start.WellFormed)
    (run : StoreRun start accesses ctx) :
    ctx.WellFormed ∧ ∀ address,
      match lastStored accesses address with
      | some byte => ctx.HoldsByte address byte.value byte.observed
      | none => ctx.state.symMem address = start.state.symMem address := by
  induction run with
  | start => exact ⟨hstart, fun _ => rfl⟩
  | @store accesses ctx ctx' aux write value bigEndian _ hvalue hwrite hrun ih =>
    obtain ⟨hctx, hbefore⟩ := ih
    obtain ⟨hctx', hdemand, hbytes⟩ := dseStoreMem_spec hvalue hctx hwrite hrun
    refine ⟨hctx', fun address => ?_⟩
    have hbyte := hbytes address
    have hlast := hbefore address
    rw [lastStored, List.findSome?_cons]
    cases hstored : StoredAccess.byte ⟨write, value, bigEndian, dseMemoryWriteByteRequired ctx⟩ address with
    | some byte =>
      rw [hstored] at hbyte
      exact hbyte
    | none =>
      -- the access stored nothing here
      rw [hstored] at hbyte
      dsimp only at hbyte ⊢
      rw [lastStored] at hlast
      cases hearlier : accesses.findSome? (·.byte address) with
      | some byte =>
        rw [hearlier] at hlast
        exact hlast.mono hbyte hdemand.bound
      | none =>
        rw [hearlier] at hlast
        exact hbyte.trans hlast
  | @other accesses ctx ctx' _ hctx' hcells hbound ih =>
    refine ⟨hctx', fun address => ?_⟩
    have hlast := ih.2 address
    cases hstored : lastStored accesses address with
    | some byte =>
      rw [hstored] at hlast
      exact hlast.mono (congrFun hcells address) hbound
    | none =>
      rw [hstored] at hlast
      exact (congrFun hcells address).trans hlast

/-! ### Loading -/

theorem LoadsByte.mono {cells : ℕ → Option DseMemCell} {observedValues observedValues' : ℕ → Option DseObservedValue}
    {address epoch : ℕ} {observedValue : BitVec 8} {tainted : Bool} {e : SymExpr}
    (h : LoadsByte cells observedValues address epoch observedValue tainted e)
    (hbound : ∀ id value, observedValues id = some value → observedValues' id = some value) :
    LoadsByte cells observedValues' address epoch observedValue tainted e := by
  cases h with
  | untainted addr => exact .untainted addr
  | stored cell h => exact .stored cell h
  | root header id h hwidth hvalue => exact .root header id h hwidth (hbound _ _ hvalue)

/-- Only the cell at the address counts. -/
theorem LoadsByte.congr {cells cells' : ℕ → Option DseMemCell} {observedValues : ℕ → Option DseObservedValue}
    {address epoch : ℕ} {observedValue : BitVec 8} {tainted : Bool} {e : SymExpr}
    (h : LoadsByte cells observedValues address epoch observedValue tainted e)
    (hcell : cells address = cells' address) :
    LoadsByte cells' observedValues address epoch observedValue tainted e := by
  cases h with
  | untainted addr => exact .untainted addr
  | stored cell h => exact .stored cell (hcell.symm.trans h)
  | root header id h hwidth hvalue => exact .root header id (hcell.symm.trans h) hwidth hvalue

/-- The bytes with the indices from 0 to `more` are put together. -/
theorem loadBytes_spec {aux : InsnAux} {count : ℕ} {bigEndian : Bool} {more : ℕ} {ctx ctx' : DSECtx}
    {e : SymExpr} (hctx : ctx.WellFormed) (hrun : loadBytes aux count bigEndian more ctx = (some e, ctx')) :
    ctx'.WellFormed ∧ SameMachine ctx ctx' ∧ e.HasWidth (8 * (more + 1)) ∧ ∀ index ≤ more, ∃ byte : SymExpr,
      LoadsByte ctx.state.symMem ctx'.observedValues (byteAddress aux.memReadAddr count bigEndian index)
        aux.seqId (byteOf aux.memReadVal index) (aux.memReadTaint.getLsbD index) byte ∧
      ∀ σ, e.byteAt index σ = byte.bits 8 σ := by
  induction more generalizing ctx' e with
  | zero =>
    obtain ⟨hwidth, hbyte, hctx', hsame⟩ := dseLoadTrackedByteAt_spec hctx hrun
    refine ⟨hctx', hsame, hwidth, fun index hindex => ?_⟩
    obtain rfl := Nat.le_zero.mp hindex
    refine ⟨e, hbyte, fun σ => ?_⟩
    rw [SymExpr.byteAt, hwidth.2]
    exact BitVec.extractLsb'_eq_self
  | succ more ih =>
    obtain ⟨result, c₁, hfirst, hrest⟩ := bind_eq_some.mp hrun
    obtain ⟨hc₁, hsame₁, hresult, hbytes⟩ := ih hfirst
    obtain ⟨byte, c₂, hlast, hconcat⟩ := bind_eq_some.mp hrest
    obtain ⟨hbyte, hloads, hc₂, hsame₂⟩ := dseLoadTrackedByteAt_spec hc₁ hlast
    obtain ⟨he, hstate⟩ := exprStep_spec (symExprConcat_represents hbyte.represents hresult.represents) hconcat
    have hwidth : e.width = 8 + 8 * (more + 1) := he.width
    refine ⟨hstate.wellFormed hc₂, (hsame₁.trans hsame₂).trans hstate.toSameMachine,
      ⟨he.wellFormed, hwidth.trans (by omega)⟩, fun index hindex => ?_⟩
    have hvalue : ∀ σ, e.byteAt index σ =
        (byte.bits 8 σ ++ result.bits (8 * (more + 1)) σ).extractLsb' (8 * index) 8 := by
      intro σ
      rw [SymExpr.byteAt, hwidth, he.bits]
    rcases Nat.le_succ_iff.mp hindex with hle | rfl
    · obtain ⟨lower, hlower, hlowerValue⟩ := hbytes index hle
      refine ⟨lower, hlower.mono (fun id value h => hstate.bound _ _ (hsame₂.bound _ _ h)), fun σ => ?_⟩
      rw [hvalue, BitVec.extractLsb'_append_eq_of_add_le (by omega), ← hlowerValue σ, SymExpr.byteAt, hresult.2]
    · rw [hsame₁.cells] at hloads
      refine ⟨byte, hloads.mono hstate.bound, fun σ => ?_⟩
      rw [hvalue, BitVec.extractLsb'_append_eq_of_le (by omega), Nat.sub_self]
      exact BitVec.extractLsb'_eq_self

theorem dseLoadMem_spec {aux : InsnAux} {n : ℕ} (hn : 1 ≤ n ∧ n ≤ 8) {bigEndian : Bool} {ctx ctx' : DSECtx}
    {e : SymExpr} (hctx : ctx.WellFormed) (hrun : dseLoadMem aux (8 * n) bigEndian ctx = (some e, ctx')) :
    ctx'.WellFormed ∧ SameMachine ctx ctx' ∧ e.HasWidth (8 * n) ∧ ∀ index < n, ∃ byte : SymExpr,
      LoadsByte ctx.state.symMem ctx'.observedValues (byteAddress aux.memReadAddr n bigEndian index)
        aux.seqId (byteOf aux.memReadVal index) (aux.memReadTaint.getLsbD index) byte ∧
      ∀ σ, e.byteAt index σ = byte.bits 8 σ := by
  rw [dseLoadMem, accessBytes_mul hn] at hrun
  split at hrun
  · exact absurd hrun fail_ne_some
  · obtain ⟨hctx', hsame, hwidth, hbytes⟩ := loadBytes_spec hctx hrun
    rw [show n - 1 + 1 = n by omega] at hwidth
    exact ⟨hctx', hsame, hwidth, fun index hindex => hbytes index (by omega)⟩

/-- **A part of a recorded read** has the bytes and the taint that were recorded. -/
theorem dseFindMemRead_bytes {aux : InsnAux} {address size : ℕ} {found : DseMemRead}
    (hfound : dseFindMemRead aux address size = some found) :
    found.addr = address ∧ found.size = size ∧ ∃ addr value taint, addr ≤ address ∧
      ((∃ read ∈ aux.memReads, read.addr = addr ∧ read.value = value ∧ read.taint = taint) ∨
        aux.memReadAddr = addr ∧ aux.memReadVal = value ∧ aux.memReadTaint = taint) ∧
      ∀ index, byteOf found.value index = byteOf value (address - addr + index) ∧
        found.taint.getLsbD index = taint.getLsbD (address - addr + index) := by
  rw [dseFindMemRead] at hfound
  by_cases hsize : size > 8 ∨ accessUnusable address size = true
  · rw [if_pos hsize] at hfound
    cases hfound
  rw [if_neg hsize] at hfound
  cases hread : aux.memReads.find? fun read =>
      read.size != 0 && decide (address ≥ read.addr) && decide (address - read.addr ≤ read.size) &&
        decide (size ≤ read.size - (address - read.addr)) with
  | some read =>
    rw [hread] at hfound
    cases hfound
    have hcontains := List.find?_some hread
    simp only [Bool.and_eq_true, decide_eq_true_eq] at hcontains
    refine ⟨rfl, rfl, read.addr, read.value, read.taint, hcontains.1.1.2,
      .inl ⟨read, List.mem_of_find?_eq_some hread, rfl, rfl, rfl⟩, fun index => ⟨?_, ?_⟩⟩
    · rw [byteOf, byteOf, ← BitVec.shiftRight_add, ← Nat.mul_add]
    · exact BitVec.getLsbD_ushiftRight ..
  | none =>
    rw [hread] at hfound
    dsimp only at hfound
    by_cases hprimary : aux.memReads = [] ∧ aux.hasMemRead = true ∧ address = aux.memReadAddr
    · rw [if_pos hprimary] at hfound
      cases hfound
      refine ⟨rfl, rfl, address, aux.memReadVal, aux.memReadTaint, le_rfl,
        .inr ⟨hprimary.2.2.symm, rfl, rfl⟩, fun index => ?_⟩
      rw [Nat.sub_self, Nat.zero_add]
      exact ⟨rfl, rfl⟩
    · rw [if_neg hprimary] at hfound
      cases hfound

/-- What a byte is after a run, if `cells` was the memory at the start. -/
inductive ReadsByte (cells : ℕ → Option DseMemCell) (accesses : List StoredAccess)
    (observedValues : ℕ → Option DseObservedValue) (address epoch : ℕ) (observedValue : BitVec 8) :
    Bool → (Valuation → BitVec 8) → Prop
  /-- A byte that is not tainted is what was observed. -/
  | untainted : ReadsByte cells accesses observedValues address epoch observedValue false fun _ => observedValue
  /-- A byte that was stored is what was stored last. -/
  | stored (byte : StoredByte) (h : lastStored accesses address = some byte) :
      ReadsByte cells accesses observedValues address epoch observedValue true byte.value
  /-- Where nothing was stored, it is what was there at the start. -/
  | initial (cell : DseMemCell) (h : lastStored accesses address = none) (hcell : cells address = some cell) :
      ReadsByte cells accesses observedValues address epoch observedValue true (cell.expr.bits 8)
  /-- Where there was nothing either, it is a variable with the observed value. -/
  | root (id : ℕ) (h : lastStored accesses address = none) (hcell : cells address = none)
      (hvalue : observedValues id = some ⟨observedValue.setWidth 64, 8⟩) :
      ReadsByte cells accesses observedValues address epoch observedValue true
        fun σ => σ ⟨BitVec.ofNat 64 address, epoch, id, .memoryRoot⟩ 8

theorem maskW_byte (b : BitVec 8) : maskW (b.setWidth 64) 8 = b.setWidth 64 :=
  maskW_word (by decide) b

/-- **A byte that is loaded after a run** is what was stored last, or what was there before. -/
theorem StoreRun.readsByte {start ctx ctx' : DSECtx} {accesses : List StoredAccess} (hstart : start.WellFormed)
    (run : StoreRun start accesses ctx) {address epoch : ℕ} {observedValue : BitVec 8} {tainted : Bool}
    {byte : SymExpr}
    (hbyte : LoadsByte ctx.state.symMem ctx'.observedValues address epoch observedValue tainted byte) :
    ∃ f, ReadsByte start.state.symMem accesses ctx'.observedValues address epoch observedValue tainted f ∧
      ∀ σ, byte.bits 8 σ = f σ := by
  have hmemory := (run.holds hstart).2 address
  cases hbyte with
  | untainted addr =>
    refine ⟨_, .untainted, fun σ => ?_⟩
    show BitVec.ofNat 8 ((maskW (observedValue.setWidth 64) 8).setWidth 8).toNat = observedValue
    rw [maskW_byte, BitVec.ofNat_toNat, BitVec.setWidth_eq]
    exact setWidth_word (by decide) observedValue
  | stored cell hcell =>
    cases hlast : lastStored accesses address with
    | some stored =>
      rw [hlast] at hmemory
      obtain ⟨cell', hcell', hvalue, -⟩ := hmemory
      obtain rfl : cell = cell' := Option.some.inj (hcell.symm.trans hcell')
      exact ⟨_, .stored stored hlast, hvalue.bits⟩
    | none =>
      rw [hlast] at hmemory
      exact ⟨_, .initial cell hlast (hmemory.symm.trans hcell), fun _ => rfl⟩
  | root header id hcell hwidth hvalue =>
    cases hlast : lastStored accesses address with
    | some stored =>
      rw [hlast] at hmemory
      obtain ⟨cell', hcell', -⟩ := hmemory
      exact absurd (hcell.symm.trans hcell') (by simp)
    | none =>
      rw [hlast] at hmemory
      rw [maskW_byte] at hvalue
      refine ⟨_, .root id hlast (hmemory.symm.trans hcell) hvalue, fun σ => ?_⟩
      show BitVec.ofNat 8 (σ _ header.width).toNat = _
      rw [hwidth, BitVec.ofNat_toNat, BitVec.setWidth_eq]

end TaintForge
