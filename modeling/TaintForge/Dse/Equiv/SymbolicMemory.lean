import TaintForge.Dse.Equiv.MemoryRoom

/-!
# Loads after stores

* `load_after_stores`: a load after a run of stores, byte by byte.
* `load_after_store`: a load of what was stored.
* `symbolic_memory`: both.

A byte is one of a 64-bit address.  An access near the end of the 32-bit addresses goes on to the addresses
above, and is not seen at the low ones.
-/

namespace TaintForge

open Fallible Function DSECtx

/-- Values with the same bytes are the same. -/
theorem eq_of_bytes {n : ℕ} {x y : BitVec (8 * n)}
    (h : ∀ index < n, x.extractLsb' (8 * index) 8 = y.extractLsb' (8 * index) 8) : x = y := by
  apply BitVec.eq_of_getLsbD_eq
  intro i hi
  have hbyte := congrArg (BitVec.getLsbD · (i % 8)) (h (i / 8) (by omega))
  have hlt : i % 8 < 8 := Nat.mod_lt _ (by decide)
  rw [BitVec.getLsbD_extractLsb', BitVec.getLsbD_extractLsb', decide_eq_true hlt, Bool.true_and, Bool.true_and,
    Nat.div_add_mod] at hbyte
  exact hbyte

section Load

variable {n : ℕ} {bigEndian : Bool} {aux : InsnAux} {start ctx : DSECtx} {accesses : List StoredAccess}

/-- A load after a run: each tainted byte that was stored is observed as it was recorded, and the others can
be loaded. -/
def LoadsAfter (accesses : List StoredAccess) (ctx : DSECtx) (aux : InsnAux) (n : ℕ) (bigEndian : Bool) : Prop :=
  ∀ index < n, aux.memReadTaint.getLsbD index = true →
    match lastStored accesses (byteAddress aux.memReadAddr n bigEndian index) with
    | some byte => byteOf aux.memReadVal index = byte.observed
    | none => ctx.Loadable (byteAddress aux.memReadAddr n bigEndian index) aux.seqId
      (byteOf aux.memReadVal index) index true

theorem LoadsAfter.loadable (h : LoadsAfter accesses ctx aux n bigEndian) (hstart : start.WellFormed)
    (run : StoreRun start accesses ctx) {index : ℕ} (hindex : index < n) :
    ctx.Loadable (byteAddress aux.memReadAddr n bigEndian index) aux.seqId (byteOf aux.memReadVal index) index
      (aux.memReadTaint.getLsbD index) := by
  cases htaint : aux.memReadTaint.getLsbD index with
  | false => exact .untainted
  | true =>
    have hbyte := h index hindex htaint
    have hmemory := (run.holds hstart).2 (byteAddress aux.memReadAddr n bigEndian index)
    cases hlast : lastStored accesses (byteAddress aux.memReadAddr n bigEndian index) with
    | none =>
      rw [hlast] at hbyte
      exact hbyte
    | some byte =>
      rw [hlast] at hbyte hmemory
      obtain ⟨cell, hcell, -, hreplays⟩ := hmemory
      rw [show byteOf aux.memReadVal index = byte.observed from hbyte]
      exact .stored cell hcell hreplays

variable (aux bigEndian) in
/-- **A load after a run of stores** returns, byte by byte, what was stored last, or what was there before. -/
theorem load_after_stores (hn : 1 ≤ n ∧ n ≤ 8) (hstart : start.WellFormed) (run : StoreRun start accesses ctx)
    (hread : aux.hasMemRead = true) (hroom : ctx.exprs.Room (2 * n - 1))
    (hloads : LoadsAfter accesses ctx aux n bigEndian) :
    ∃ e ctx', dseLoadMem aux (8 * n) bigEndian ctx = (some e, ctx') ∧ e.HasWidth (8 * n) ∧
      ∀ index < n, ∃ f, ReadsByte start.state.symMem accesses ctx'.observedValues
        (byteAddress aux.memReadAddr n bigEndian index) aux.seqId (byteOf aux.memReadVal index)
        (aux.memReadTaint.getLsbD index) f ∧ ∀ σ, e.byteAt index σ = f σ := by
  have hctx := (run.holds hstart).1
  obtain ⟨e, ctx', hrun⟩ := dseLoadMem_returns hn hctx hread hroom fun index hindex =>
    hloads.loadable hstart run hindex
  obtain ⟨-, -, hwidth, hbytes⟩ := dseLoadMem_spec hn hctx hrun
  refine ⟨e, ctx', hrun, hwidth, fun index hindex => ?_⟩
  obtain ⟨byte, hbyte, hvalue⟩ := hbytes index hindex
  obtain ⟨f, hf, hbits⟩ := run.readsByte hstart hbyte
  exact ⟨f, hf, fun σ => (hvalue σ).trans (hbits σ)⟩

/-- **A load of what was stored** returns a value that is the same under every valuation. -/
theorem load_after_store (hn : 1 ≤ n ∧ n ≤ 8) (hstart : start.WellFormed) {storeAux : InsnAux}
    {write : DseMemWrite} {value : SymExpr} (hvalue : value.HasWidth (8 * n)) (hwrite : storeAux.memWrites = [write])
    (hrequired : ∀ index < n,
      dseMemoryWriteByteRequired start (byteAddress write.addr n bigEndian index) = true)
    (hstore : dseStoreMem storeAux value bigEndian start = (some (), ctx))
    (hread : aux.hasMemRead = true) (haddr : aux.memReadAddr = write.addr)
    (hbytes : ∀ index < n, aux.memReadTaint.getLsbD index = true ∧
      byteOf aux.memReadVal index = byteOf write.value index)
    (hroom : ctx.exprs.Room (2 * n - 1)) :
    ∃ e ctx', dseLoadMem aux (8 * n) bigEndian ctx = (some e, ctx') ∧ e.HasWidth (8 * n) ∧
      ∀ σ, e.bits (8 * n) σ = value.bits (8 * n) σ := by
  have run : StoreRun start [⟨write, value, bigEndian, dseMemoryWriteByteRequired start⟩] ctx :=
    .store storeAux write value bigEndian .start hvalue.1 hwrite hstore
  have hcount : accessBytes value.width = n := by rw [hvalue.2, accessBytes_mul hn]
  have hlast : ∀ index < n, lastStored [⟨write, value, bigEndian, dseMemoryWriteByteRequired start⟩]
      (byteAddress aux.memReadAddr n bigEndian index) =
        some ⟨value.byteAt index, byteOf write.value index⟩ := by
    intro index hindex
    have hat : StoredAccess.index ⟨write, value, bigEndian, dseMemoryWriteByteRequired start⟩
        (byteAddress write.addr n bigEndian index) = some index := by
      rw [StoredAccess.index_eq_some, StoredAccess.count, hcount]
      exact ⟨hindex, rfl⟩
    rw [haddr, lastStored, List.findSome?_cons, StoredAccess.byte, if_pos (hrequired index hindex), hat]
    rfl
  have hloads : LoadsAfter [⟨write, value, bigEndian, dseMemoryWriteByteRequired start⟩] ctx aux n bigEndian := by
    intro index hindex _
    rw [hlast index hindex]
    exact (hbytes index hindex).2
  obtain ⟨e, ctx', hrun, hwidth, hread⟩ := load_after_stores bigEndian aux hn hstart run hread hroom hloads
  refine ⟨e, ctx', hrun, hwidth, fun σ => eq_of_bytes fun index hindex => ?_⟩
  obtain ⟨f, hf, hvalues⟩ := hread index hindex
  have hbyte := hvalues σ
  rw [SymExpr.byteAt, hwidth.2] at hbyte
  rw [hbyte]
  rw [(hbytes index hindex).1] at hf
  -- the byte was stored, so it is neither initial nor a variable
  cases hf with
  | stored byte hstored =>
    rw [hlast index hindex] at hstored
    cases hstored
    show value.byteAt index σ = _
    rw [SymExpr.byteAt, hvalue.2]
  | initial cell hnone hcell =>
    rw [hlast index hindex] at hnone
    exact absurd hnone (by simp)
  | root id hnone hcell hid =>
    rw [hlast index hindex] at hnone
    exact absurd hnone (by simp)

end Load

/-- **The symbolic memory.**  A load of what was just stored returns a value that is the same under every
valuation.  After any run of stores a load returns, byte by byte, what was stored last at the address, or
what was there at the start, or else a variable with the observed value. -/
theorem symbolic_memory {n : ℕ} (hn : 1 ≤ n ∧ n ≤ 8) (bigEndian : Bool) {start : DSECtx}
    (hstart : start.WellFormed) :
    (∀ storeAux write value ctx aux, value.HasWidth (8 * n) → storeAux.memWrites = [write] →
      (∀ index < n, dseMemoryWriteByteRequired start (byteAddress write.addr n bigEndian index) = true) →
      dseStoreMem storeAux value bigEndian start = (some (), ctx) →
      aux.hasMemRead = true → aux.memReadAddr = write.addr →
      (∀ index < n, aux.memReadTaint.getLsbD index = true ∧
        byteOf aux.memReadVal index = byteOf write.value index) →
      ctx.exprs.Room (2 * n - 1) →
      ∃ e ctx', dseLoadMem aux (8 * n) bigEndian ctx = (some e, ctx') ∧ e.HasWidth (8 * n) ∧
        ∀ σ, e.bits (8 * n) σ = value.bits (8 * n) σ) ∧
    ∀ accesses ctx aux, StoreRun start accesses ctx → aux.hasMemRead = true → ctx.exprs.Room (2 * n - 1) →
      LoadsAfter accesses ctx aux n bigEndian →
      ∃ e ctx', dseLoadMem aux (8 * n) bigEndian ctx = (some e, ctx') ∧ e.HasWidth (8 * n) ∧
        ∀ index < n, ∃ f, ReadsByte start.state.symMem accesses ctx'.observedValues
          (byteAddress aux.memReadAddr n bigEndian index) aux.seqId (byteOf aux.memReadVal index)
          (aux.memReadTaint.getLsbD index) f ∧ ∀ σ, e.byteAt index σ = f σ := by
  constructor
  · intro storeAux write value ctx aux hvalue hwrite hrequired hstore hread haddr hbytes hroom
    exact load_after_store hn hstart hvalue hwrite hrequired hstore hread haddr hbytes hroom
  · intro accesses ctx aux run hread hroom hloads
    exact load_after_stores bigEndian aux hn hstart run hread hroom hloads

/-! ### At the end of the 32-bit addresses -/

/-- Two bytes at the last 32-bit address and the next one. -/
def lastWrite : DseMemWrite := ⟨0xFFFFFFFF, 0x2211, 2, true⟩

def lastWriteAux : InsnAux :=
  { InsnAux.zero with
    hasMemWrite := true
    memWriteAddr := 0xFFFFFFFF
    memWriteSize := 2
    memWriteRange := ⟨1, true, false, 0xFFFFFFFF, 0x100000000⟩
    memWrites := [lastWrite] }

def lastValue : SymExpr := .const ⟨2, 16, false⟩ 0x2211

/-- A load of some bytes, all of them tainted. -/
def taintedRead (address : ℕ) (value : BitVec 64) : InsnAux :=
  { InsnAux.zero with
    seqId := 1
    hasMemRead := true
    memReadAddr := address
    memReadVal := value
    memReadTaint := 0xFF }

theorem lastValue_hasWidth : lastValue.HasWidth 16 := ⟨⟨by decide, rfl, by decide⟩, rfl⟩

theorem lastValue_stored : ∃ ctx, dseStoreMem lastWriteAux lastValue false emptyCtx = (some (), ctx) ∧
    ctx.exprs.Room 8 ∧ SameVars emptyCtx ctx := by
  refine dseStoreMem_returns (n := 2) (by decide) lastValue_hasWidth.1 rfl rfl
    ⟨fun _ => rfl, rfl, by decide⟩ rfl (by decide) fun index hindex σ => ?_
  have hcases : index = 0 ∨ index = 1 := by omega
  rcases hcases with rfl | rfl <;> rfl

/-- They are read back; the byte after them is a variable. -/
theorem lastValue_read : ∃ ctx, dseStoreMem lastWriteAux lastValue false emptyCtx = (some (), ctx) ∧
    (∃ e ctx', dseLoadMem (taintedRead 0xFFFFFFFF 0x2211) 16 false ctx = (some e, ctx') ∧
      ∀ σ, e.bits 16 σ = 0x2211#16) ∧
    ∃ e ctx' f, dseLoadMem (taintedRead 0xFFFFFFFF 0x332211) 24 false ctx = (some e, ctx') ∧
      ReadsByte (fun _ => none) [⟨lastWrite, lastValue, false, dseMemoryWriteByteRequired emptyCtx⟩]
        ctx'.observedValues 0x100000001 1 0x33 true f ∧ ∀ σ, e.byteAt 2 σ = f σ := by
  obtain ⟨ctx, hstore, hroom, hsame⟩ := lastValue_stored
  have run : StoreRun emptyCtx [⟨lastWrite, lastValue, false, dseMemoryWriteByteRequired emptyCtx⟩] ctx :=
    .store lastWriteAux lastWrite lastValue false .start lastValue_hasWidth.1 rfl hstore
  have hempty : emptyCtx.FreshIds := ⟨fun _ _ => rfl, fun _ _ => rfl⟩
  refine ⟨ctx, hstore, ?_, ?_⟩
  · obtain ⟨e, ctx', hrun, -, hvalue⟩ := (symbolic_memory (n := 2) (by decide) false emptyCtx_wellFormed).1
      lastWriteAux lastWrite lastValue ctx (taintedRead 0xFFFFFFFF 0x2211) lastValue_hasWidth rfl
      (fun _ _ => rfl) hstore rfl rfl (by decide) (hroom.mono (by decide))
    exact ⟨e, ctx', hrun, fun σ => (hvalue σ).trans rfl⟩
  · obtain ⟨e, ctx', hrun, -, hbytes⟩ := (symbolic_memory (n := 3) (by decide) false emptyCtx_wellFormed).2
      _ ctx (taintedRead 0xFFFFFFFF 0x332211) run rfl (hroom.mono (by decide)) (by
        intro index hindex _
        have hcases : index = 0 ∨ index = 1 ∨ index = 2 := by omega
        rcases hcases with rfl | rfl | rfl
        · rfl
        · rfl
        · refine .root ((run.holds emptyCtx_wellFormed).2 0x100000001) ?_ (hempty.keep hsame) ?_ ?_
          · rw [hsame.cache]
            rfl
          · rw [hsame.roots]
            decide
          · rw [hsame.roots]
            decide)
    obtain ⟨f, hf, hvalue⟩ := hbytes 2 (by decide)
    exact ⟨e, ctx', f, hrun, hf, hvalue⟩

/-- The second byte is not at address 0. -/
theorem lastValue_not_wrapped : ∃ ctx, dseStoreMem lastWriteAux lastValue false emptyCtx = (some (), ctx) ∧
    ∃ e ctx', dseLoadMem (taintedRead 0 0x22) 8 false ctx = (some e, ctx') ∧
      ¬ ∀ σ, e.byteAt 0 σ = lastValue.byteAt 1 σ := by
  obtain ⟨ctx, hstore, hroom, hsame⟩ := lastValue_stored
  have run : StoreRun emptyCtx [⟨lastWrite, lastValue, false, dseMemoryWriteByteRequired emptyCtx⟩] ctx :=
    .store lastWriteAux lastWrite lastValue false .start lastValue_hasWidth.1 rfl hstore
  have hempty : emptyCtx.FreshIds := ⟨fun _ _ => rfl, fun _ _ => rfl⟩
  obtain ⟨e, ctx', hrun, -, hbytes⟩ := load_after_stores (n := 1) false (taintedRead 0 0x22) (by decide)
    emptyCtx_wellFormed run rfl (hroom.mono (by decide)) (by
      intro index hindex _
      obtain rfl : index = 0 := by omega
      refine .root ((run.holds emptyCtx_wellFormed).2 0) ?_ (hempty.keep hsame) ?_ ?_
      · rw [hsame.cache]
        rfl
      · rw [hsame.roots]
        decide
      · rw [hsame.roots]
        decide)
  refine ⟨ctx, hstore, e, ctx', hrun, fun hall => ?_⟩
  obtain ⟨f, hf, hvalue⟩ := hbytes 0 (by decide)
  have hzero : f (fun _ w => 0#w) = 0x22#8 := (hvalue _).symm.trans (hall _)
  have hnone : lastStored [⟨lastWrite, lastValue, false, dseMemoryWriteByteRequired emptyCtx⟩] 0 = none := rfl
  cases hf with
  | stored byte h => cases hnone.symm.trans h
  | initial cell h hcell => cases hcell
  | root id h hcell hid =>
    have habsurd : (0#8) = 0x22#8 := hzero
    exact absurd habsurd (by decide)

end TaintForge
