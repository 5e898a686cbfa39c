import TaintForge.Dse.Equiv.MemoryRoom
import TaintForge.Dse.Equiv.MovsReplay

/-!
# The sparse replay of a `movs`

If the ranges of a `movs` do not overlap, only the required bytes need to be replayed.

* `liftMovsElements_returns`: a replay returns if the sources of the required bytes can be loaded.
* `sparse_movs_replay`: the test for an overlap, and the replays that it licenses.
-/

namespace TaintForge

open Fallible Function DSECtx

/-! ### Replays that return -/

/-- The bytes of all elements were captured. -/
def DseStringSummary.Captured (summary : DseStringSummary) : Prop :=
  ∀ event < summary.expectedIterations, ∀ byte < summary.elementSize,
    ¬ (summary.capacity = 0 ∨ event * summary.elementSize + byte ≥ summary.bytesCaptured)

/-- What a byte of an element needs to be loaded. -/
def DSECtx.LoadableSource (ctx : DSECtx) (aux : InsnAux) (event byte before : ℕ) : Prop :=
  ctx.Loadable (aux.stringSummary.source event byte) aux.seqId
    (aux.stringSummary.values.getD (event * aux.stringSummary.elementSize + byte) 0) before
    (aux.stringSummary.valueTaint.getD (event * aux.stringSummary.elementSize + byte) false)

theorem DSECtx.Loadable.le {ctx : DSECtx} {address epoch before later : ℕ} {observedValue : BitVec 8}
    {tainted : Bool} (h : ctx.Loadable address epoch observedValue before tainted) (hle : later ≤ before) :
    ctx.Loadable address epoch observedValue later tainted :=
  h.keep hle ⟨rfl, rfl, rfl, rfl⟩ rfl

section Returns

variable {aux : InsnAux} {ctx ctx' : DSECtx} {event rest : ℕ}

theorem source_ne (hdir : aux.stringSummary.direction = 1 ∨ aux.stringSummary.direction = -1)
    (htotal : aux.stringSummary.total < 2 ^ 32) {event' byte byte' : ℕ}
    (hevent : event < aux.stringSummary.expectedIterations) (hbyte : byte < aux.stringSummary.elementSize)
    (hevent' : event' < aux.stringSummary.expectedIterations) (hbyte' : byte' < aux.stringSummary.elementSize)
    (hne : event' ≠ event ∨ byte' ≠ byte) :
    BitVec.ofNat 64 (aux.stringSummary.source event' byte') ≠
      BitVec.ofNat 64 (aux.stringSummary.source event byte) := by
  intro hsame
  have hlt : aux.stringSummary.source event byte < 2 ^ 32 := BitVec.isLt _
  have hlt' : aux.stringSummary.source event' byte' < 2 ^ 32 := BitVec.isLt _
  have haddr := congrArg BitVec.toNat hsame
  rw [BitVec.toNat_ofNat, BitVec.toNat_ofNat, Nat.mod_eq_of_lt (by omega), Nat.mod_eq_of_lt (by omega)] at haddr
  have hboth := stringByteAddress_injOn hdir htotal hevent' hbyte' hevent hbyte haddr
  omega

/-- Some bytes of an element are loaded, and the other bytes still can be. -/
theorem loadElement_returns (hdir : aux.stringSummary.direction = 1 ∨ aux.stringSummary.direction = -1)
    (htotal : aux.stringSummary.total < 2 ^ 32) (hcaptured : aux.stringSummary.Captured)
    (hevent : event < aux.stringSummary.expectedIterations) {bytes : List ℕ} (hnodup : bytes.Nodup)
    (hbytes : ∀ byte ∈ bytes, byte < aux.stringSummary.elementSize) (hctx : ctx.WellFormed)
    (hroom : ctx.exprs.Room (bytes.length + rest))
    (hload : ∀ byte ∈ bytes, ctx.LoadableSource aux event byte bytes.length) :
    ∃ element ctx', loadElement aux event bytes ctx = (some element, ctx') ∧ ctx'.exprs.Room rest ∧
      ∀ event' < aux.stringSummary.expectedIterations, ∀ byte' < aux.stringSummary.elementSize,
        (event' ≠ event ∨ byte' ∉ bytes) → ∀ later,
          ctx.LoadableSource aux event' byte' (bytes.length + later) →
          ctx'.LoadableSource aux event' byte' later := by
  induction bytes generalizing ctx with
  | nil =>
    refine ⟨[], ctx, rfl, ?_, fun event' _ byte' _ _ later h => ?_⟩
    · rwa [List.length_nil, Nat.zero_add] at hroom
    · rwa [List.length_nil, Nat.zero_add] at h
  | cons byte others ih =>
    obtain ⟨hfirst, hothers⟩ := List.nodup_cons.mp hnodup
    have hbyte := hbytes byte List.mem_cons_self
    rw [show (byte :: others).length + rest = 1 + (others.length + rest) by rw [List.length_cons]; omega] at hroom
    obtain ⟨value, c₁, hrun₁, hroom₁, hstep₁⟩ :=
      dseLoadTrackedByteAt_returns hctx hroom (hload byte List.mem_cons_self)
    obtain ⟨-, -, hc₁, -⟩ := dseLoadTrackedByteAt_spec hctx hrun₁
    have hnext : ∀ event' < aux.stringSummary.expectedIterations, ∀ byte' < aux.stringSummary.elementSize,
        (event' ≠ event ∨ byte' ≠ byte) → ∀ later, ctx.LoadableSource aux event' byte' (later + 1) →
          c₁.LoadableSource aux event' byte' later := by
      intro event' hevent' byte' hbyte' hne later h
      exact hstep₁ _ _ _ _ (source_ne hdir htotal hevent hbyte hevent' hbyte' hne) h
    obtain ⟨element, c₂, hrun₂, hroom₂, hstep₂⟩ :=
      ih hothers (fun b hb => hbytes b (List.mem_cons_of_mem _ hb)) hc₁ hroom₁ fun b hb =>
        hnext event hevent b (hbytes b (List.mem_cons_of_mem _ hb))
          (Or.inr fun hsame => hfirst (hsame ▸ hb)) _ (hload b (List.mem_cons_of_mem _ hb))
    refine ⟨(byte, value) :: element, c₂, ?_, hroom₂, fun event' hevent' byte' hbyte' hne later h => ?_⟩
    · have hcapture : loadCaptured aux event byte ctx = (some value, c₁) := by
        rw [loadCaptured, if_neg (hcaptured event hevent byte hbyte)]
        exact hrun₁
      refine (bind_of_some hcapture).trans ?_
      rw [bind_of_some hrun₂]
      rfl
    · refine hstep₂ event' hevent' byte' hbyte' ?_ later (hnext event' hevent' byte' hbyte' ?_ _ ?_)
      · exact hne.imp_right fun hmem hother => hmem (List.mem_cons_of_mem _ hother)
      · exact hne.imp_right fun hmem hsame => hmem (hsame ▸ List.mem_cons_self)
      · rwa [show others.length + later + 1 = (byte :: others).length + later by rw [List.length_cons]; omega]

/-- What is loaded has been found to be the bytes. -/
theorem loadElement_replays {bytes : List ℕ} {element : List (ℕ × SymExpr)} (hctx : ctx.WellFormed)
    (hrun : loadElement aux event bytes ctx = (some element, ctx')) :
    ∀ loaded ∈ element, ctx'.Replays loaded.2
      (aux.stringSummary.values.getD (event * aux.stringSummary.elementSize + loaded.1) 0) := by
  induction bytes generalizing ctx element with
  | nil =>
    cases hrun
    exact fun _ h => absurd h List.not_mem_nil
  | cons byte rest ih =>
    obtain ⟨value, c₁, hload, hrest⟩ := bind_eq_some.mp hrun
    obtain ⟨others, c₂, hothers, hreturn⟩ := bind_eq_some.mp hrest
    obtain ⟨rfl, rfl⟩ := pure_eq_some.mp hreturn
    obtain ⟨-, -, hc₁, -⟩ := loadCaptured_spec hctx hload
    intro loaded hmem
    rcases List.mem_cons.mp hmem with rfl | hmem
    · rw [loadCaptured] at hload
      split at hload
      · exact absurd hload fail_ne_some
      · exact (dseLoadTrackedByteAt_replays hctx hload).mono (loadElement_spec hc₁ hothers).2.1.bound
    · exact ih hc₁ hothers loaded hmem

/-- Bytes that have been found to be what was captured are stored. -/
theorem storeElement_returns {element : List (ℕ × SymExpr)} (hroom : ctx.exprs.Room rest)
    (hwidth : ∀ loaded ∈ element, loaded.2.HasWidth 8)
    (hreplays : ∀ loaded ∈ element, ctx.Replays loaded.2
      (aux.stringSummary.values.getD (event * aux.stringSummary.elementSize + loaded.1) 0)) :
    ∃ ctx', storeElement aux event element ctx = (some (), ctx') ∧ ctx'.exprs.Room rest ∧
      SameVars ctx ctx' := by
  induction element generalizing ctx with
  | nil => exact ⟨ctx, rfl, hroom, rfl, rfl, rfl, rfl⟩
  | cons loaded others ih =>
    obtain ⟨byte, value⟩ := loaded
    obtain ⟨c₁, hrun₁, hroom₁, hsame₁⟩ := dseStoreTrackedByteAt_returns
      (aux.stringSummary.destination event byte) aux hroom (hwidth _ List.mem_cons_self)
      (hreplays _ List.mem_cons_self)
    obtain ⟨c₂, hrun₂, hroom₂, hsame₂⟩ := ih hroom₁
      (fun other hother => hwidth other (List.mem_cons_of_mem _ hother)) fun other hother =>
        (hreplays other (List.mem_cons_of_mem _ hother)).mono fun id v hid => by rw [hsame₁.values, hid]
    exact ⟨c₂, (bind_of_some hrun₁).trans hrun₂, hroom₂, hsame₁.trans hsame₂⟩

/-- **An element is replayed**, and the bytes of the others can still be loaded. -/
theorem liftMovsElement_returns (hdir : aux.stringSummary.direction = 1 ∨ aux.stringSummary.direction = -1)
    (htotal : aux.stringSummary.total < 2 ^ 32) (hcaptured : aux.stringSummary.Captured)
    (hapart : aux.stringSummary.Apart) (hevent : event < aux.stringSummary.expectedIterations)
    (hctx : ctx.WellFormed) (hroom : ctx.exprs.Room (aux.stringSummary.elementSize + rest))
    (hload : ∀ byte ∈ requiredBytes ctx aux.stringSummary event,
      ctx.LoadableSource aux event byte aux.stringSummary.elementSize) :
    ∃ ctx', liftMovsElement aux event ctx = (some (), ctx') ∧ ctx'.exprs.Room rest ∧
      ∀ event' < aux.stringSummary.expectedIterations, event' ≠ event →
        ∀ byte' < aux.stringSummary.elementSize, ∀ later,
          ctx.LoadableSource aux event' byte' (aux.stringSummary.elementSize + later) →
          ctx'.LoadableSource aux event' byte' later := by
  have hlength : (requiredBytes ctx aux.stringSummary event).length ≤ aux.stringSummary.elementSize :=
    (List.length_filter_le _ _).trans_eq List.length_range
  have hbytes : ∀ byte ∈ requiredBytes ctx aux.stringSummary event, byte < aux.stringSummary.elementSize :=
    fun byte hbyte => (mem_requiredBytes.mp hbyte).1
  obtain ⟨element, c₁, hrun₁, hroom₁, hstep⟩ := loadElement_returns hdir htotal hcaptured hevent
    (requiredBytes_nodup ctx aux.stringSummary event) hbytes hctx (hroom.mono (Nat.add_le_add_right hlength rest))
    fun byte hbyte => (hload byte hbyte).le hlength
  obtain ⟨hc₁, hsame₁, -, hloaded⟩ := loadElement_spec hctx hrun₁
  obtain ⟨c₂, hrun₂, hroom₂, hsame₂⟩ := storeElement_returns hroom₁
    (fun loaded hmem => (hloaded loaded hmem).1) (loadElement_replays hctx hrun₁)
  have hrun : liftMovsElement aux event ctx = (some (), c₂) := by
    refine (bind_of_some (show Fallible.read ctx = _ from rfl)).trans ?_
    exact (bind_of_some hrun₁).trans hrun₂
  have hsize : aux.stringSummary.elementSize < 2 ^ 32 :=
    (Nat.le_mul_of_pos_left _ (by omega)).trans_lt htotal
  obtain ⟨-, -, -, hkept⟩ := liftMovsElement_spec hctx hsize hrun
  refine ⟨c₂, hrun, hroom₂, fun event' hevent' hne byte' hbyte' later h => ?_⟩
  have hafter := hstep event' hevent' byte' hbyte' (Or.inl hne) later (h.le (Nat.add_le_add_right hlength later))
  refine hafter.keep le_rfl hsame₂ ?_
  -- the source of another element is not stored to
  rw [hsame₁.cells]
  exact hkept _ fun byte hbyte => hapart event hevent byte (hbytes byte hbyte) event' hevent' byte' hbyte'

/-- **The first elements are replayed**, and the bytes of the others can still be loaded. -/
theorem liftMovsElements_returns (hdir : aux.stringSummary.direction = 1 ∨ aux.stringSummary.direction = -1)
    (htotal : aux.stringSummary.total < 2 ^ 32) (hcaptured : aux.stringSummary.Captured)
    (hapart : aux.stringSummary.Apart) {count : ℕ} (hcount : count ≤ aux.stringSummary.expectedIterations)
    (hctx : ctx.WellFormed) (hroom : ctx.exprs.Room (count * aux.stringSummary.elementSize + rest))
    (hload : ∀ event < count, ∀ byte ∈ requiredBytes ctx aux.stringSummary event,
      ctx.LoadableSource aux event byte (count * aux.stringSummary.elementSize)) :
    ∃ ctx', liftMovsElements aux count ctx = (some (), ctx') ∧ ctx'.exprs.Room rest ∧
      ∀ event, count ≤ event → event < aux.stringSummary.expectedIterations →
        ∀ byte < aux.stringSummary.elementSize, ∀ later,
          ctx.LoadableSource aux event byte (count * aux.stringSummary.elementSize + later) →
          ctx'.LoadableSource aux event byte later := by
  induction count generalizing rest with
  | zero =>
    rw [Nat.zero_mul, Nat.zero_add] at hroom
    refine ⟨ctx, rfl, hroom, fun event _ _ byte _ later h => ?_⟩
    rwa [Nat.zero_mul, Nat.zero_add] at h
  | succ count ih =>
    have hmul : (count + 1) * aux.stringSummary.elementSize =
        count * aux.stringSummary.elementSize + aux.stringSummary.elementSize := Nat.succ_mul _ _
    rw [hmul] at hload
    rw [hmul, Nat.add_assoc] at hroom
    obtain ⟨c₁, hrun₁, hroom₁, hstep₁⟩ := ih (Nat.le_of_succ_le hcount) hroom fun event hevent byte hbyte =>
      (hload event (Nat.lt_succ_of_lt hevent) byte hbyte).le (Nat.le_add_right _ _)
    obtain ⟨hc₁, hdemand, -, -⟩ :=
      liftMovsElements_spec hctx hdir htotal hapart (Nat.le_of_succ_le hcount) hrun₁
    have hload₁ : ∀ byte ∈ requiredBytes c₁ aux.stringSummary count,
        c₁.LoadableSource aux count byte aux.stringSummary.elementSize := by
      intro byte hbyte
      rw [mem_requiredBytes, hdemand.required] at hbyte
      exact hstep₁ count le_rfl hcount byte hbyte.1 _
        (hload count (Nat.lt_succ_self count) byte (mem_requiredBytes.mpr hbyte))
    obtain ⟨c₂, hrun₂, hroom₂, hstep₂⟩ :=
      liftMovsElement_returns hdir htotal hcaptured hapart hcount hc₁ hroom₁ hload₁
    refine ⟨c₂, (bind_of_some hrun₁).trans hrun₂, hroom₂, fun event hle hevent byte hbyte later h => ?_⟩
    refine hstep₂ event hevent (by omega) byte hbyte later (hstep₁ event (by omega) hevent byte hbyte _ ?_)
    rwa [← Nat.add_assoc, ← hmul]

end Returns

/-! ### The sparse replay -/

/-- With all bytes required. -/
def DSECtx.allRequired (ctx : DSECtx) : DSECtx := { ctx with demandAllMemoryWrites := true }

theorem allRequired_required (ctx : DSECtx) (address : ℕ) :
    dseMemoryWriteByteRequired ctx.allRequired address = true := by
  rw [dseMemoryWriteByteRequired]
  by_cases hactive : ctx.allRequired.demandActive = false
  · rw [if_pos hactive]
  · rw [if_neg hactive]
    exact if_pos rfl

theorem exactMovs_captured {aux : InsnAux} (h : dseAuxHasExactMovs aux = true) :
    aux.stringSummary.Captured := by
  intro event hevent byte hbyte
  simp only [dseAuxHasExactMovs, dseAuxHasExactStringKind, Bool.and_eq_true] at h
  have hlast := h.2
  rw [if_neg (by omega)] at hlast
  simp only [Bool.and_eq_true, if_true, beq_iff_eq, bne_iff_ne] at hlast
  obtain ⟨-, ⟨⟨-, hbytes⟩, -⟩, hcapacity⟩ := hlast
  have hmul : (event + 1) * aux.stringSummary.elementSize ≤
      aux.stringSummary.expectedIterations * aux.stringSummary.elementSize := Nat.mul_le_mul_right _ hevent
  rw [Nat.succ_mul] at hmul
  omega

/-- **The sparse replay of a `movs`.**  The test for an overlap fails if and only if no byte that is written
is one that is read.  Then a replay of the required bytes alone stores, at each destination that is
required, what a replay of all bytes stores; and a replay returns if the sources of the bytes that it needs
can be loaded. -/
theorem sparse_movs_replay {aux : InsnAux} (hexact : dseAuxHasExactMovs aux = true)
    (htotal : aux.stringSummary.expectedIterations * aux.stringSummary.elementSize < 2 ^ 32) :
    (dseMovsSummaryRangesOverlap aux.stringSummary = false ↔
      ∀ event < aux.stringSummary.expectedIterations, ∀ byte < aux.stringSummary.elementSize,
        ∀ event' < aux.stringSummary.expectedIterations, ∀ byte' < aux.stringSummary.elementSize,
          aux.stringSummary.destination event byte ≠ aux.stringSummary.source event' byte') ∧
    (dseMovsSummaryRangesOverlap aux.stringSummary = false → ∀ ctx : DSECtx, ctx.WellFormed →
      (∀ ctx₁ ctx₂, liftExactMovs aux ctx = (some (), ctx₁) →
        liftExactMovs aux ctx.allRequired = (some (), ctx₂) →
        ∀ event < aux.stringSummary.expectedIterations, ∀ byte < aux.stringSummary.elementSize,
          dseMemoryWriteByteRequired ctx (aux.stringSummary.destination event byte) = true →
          ∃ cell₁ cell₂, ctx₁.state.symMem (aux.stringSummary.destination event byte) = some cell₁ ∧
            ctx₂.state.symMem (aux.stringSummary.destination event byte) = some cell₂ ∧
            cell₁.expr.erase = cell₂.expr.erase ∧
            ∀ σ : Valuation, cell₁.expr.bits 8 σ.bySource = cell₂.expr.bits 8 σ.bySource) ∧
      (ctx.exprs.Room (aux.stringSummary.expectedIterations * aux.stringSummary.elementSize) →
        (∀ event < aux.stringSummary.expectedIterations, ∀ byte ∈ requiredBytes ctx aux.stringSummary event,
          ctx.LoadableSource aux event byte
            (aux.stringSummary.expectedIterations * aux.stringSummary.elementSize)) →
        ∃ ctx₁, liftExactMovs aux ctx = (some (), ctx₁))) := by
  obtain ⟨hkind, hdir⟩ := exactMovs_direction hexact
  have hoverlap := dseMovsSummaryRangesOverlap_iff hkind hdir htotal
  refine ⟨hoverlap, fun hno ctx hctx => ⟨fun ctx₁ ctx₂ hrun₁ hrun₂ event hevent byte hbyte hrequired => ?_,
    fun hroom hload => ?_⟩⟩
  · have hall : ctx.allRequired.WellFormed := ⟨hctx.flags, hctx.cells, hctx.vars⟩
    obtain ⟨cell₁, cell₂, hcell₁, hcell₂, hsame⟩ := liftExactMovs_same hctx hall rfl hdir htotal
      (hoverlap.mp hno) hrun₁ hrun₂ hevent (mem_requiredBytes.mpr ⟨hbyte, hrequired⟩)
      (mem_requiredBytes.mpr ⟨hbyte, allRequired_required ctx _⟩)
    exact ⟨cell₁, cell₂, hcell₁, hcell₂, hsame, fun σ => SymExpr.bits_bySource hsame 8 σ⟩
  · obtain ⟨ctx₁, hrun, -⟩ := liftMovsElements_returns hdir htotal (exactMovs_captured hexact)
      (hoverlap.mp hno) le_rfl hctx (show ctx.exprs.Room (_ + 0) from hroom) hload
    exact ⟨ctx₁, hrun⟩

/-- Two words, downwards from address 1 on, to addresses around 4096. -/
def wrappingMovs : InsnAux :=
  { InsnAux.zero with
    executionComplete := true
    seqId := 7
    memReadRange := ⟨2, true, false, 0, 0xFFFFFFFF⟩
    memWriteRange := ⟨2, true, false, 4094, 4097⟩
    stringSummary :=
      { DseStringSummary.zero with
        kind := .movs
        active := true
        exact := true
        hasRepPrefix := true
        elementSize := 2
        direction := -1
        expectedIterations := 2
        readEvents := 2
        writeEvents := 2
        bytesCaptured := 4
        capacity := 4
        sourceFirst := 1
        destinationFirst := 4096
        values := [0x11, 0x22, 0x33, 0x44]
        valueTaint := [true, false, true, true] } }

/-- Only the first byte of the second word is required. -/
def sparseCtx : DSECtx :=
  { emptyCtx with
    demandActive := true
    demandSeqId := 7
    demandMemoryWrites := {(7, 4094)} }

/-- The byte at the last address is moved, and it is the same if all bytes are. -/
theorem wrappingMovs_sparse : ∃ ctx₁ ctx₂, liftExactMovs wrappingMovs sparseCtx = (some (), ctx₁) ∧
    liftExactMovs wrappingMovs sparseCtx.allRequired = (some (), ctx₂) ∧
    ∃ cell₁ cell₂, ctx₁.state.symMem 4094 = some cell₁ ∧ ctx₂.state.symMem 4094 = some cell₂ ∧
      cell₁.expr.erase = cell₂.expr.erase := by
  have hwell : sparseCtx.WellFormed := ⟨nofun, nofun, nofun⟩
  have hall : sparseCtx.allRequired.WellFormed := ⟨nofun, nofun, nofun⟩
  have hroom : plainCtx.Room (2 * 2) := ⟨fun _ => rfl, rfl, by decide⟩
  have hload : ∀ ctx : DSECtx, ctx.state = emptyCtx.state → ctx.observedValues = emptyCtx.observedValues →
      ctx.roots = emptyCtx.roots → ∀ event byte, ctx.LoadableSource wrappingMovs event byte (2 * 2) := by
    intro ctx hstate hvalues hroots event byte
    have hempty : emptyCtx.LoadableSource wrappingMovs event byte (2 * 2) := by
      rw [LoadableSource]
      cases wrappingMovs.stringSummary.valueTaint.getD
        (event * wrappingMovs.stringSummary.elementSize + byte) false with
      | false => exact .untainted
      | true => exact .root rfl rfl ⟨fun _ _ => rfl, fun _ _ => rfl⟩ (by decide) (by decide)
    exact hempty.keep le_rfl ⟨congrArg SymState.varCache hstate, congrArg SymState.varCounter hstate, hvalues,
      hroots⟩ (congrFun (congrArg SymState.symMem hstate) _)
  have hreplay := sparse_movs_replay (show dseAuxHasExactMovs wrappingMovs = true by decide) (by decide)
  obtain ⟨hsame, hreturns⟩ := hreplay.2 (by decide) sparseCtx hwell
  obtain ⟨-, hreturns'⟩ := hreplay.2 (by decide) sparseCtx.allRequired hall
  obtain ⟨ctx₁, hrun₁⟩ := hreturns hroom fun event _ byte _ => hload sparseCtx rfl rfl rfl event byte
  obtain ⟨ctx₂, hrun₂⟩ := hreturns' hroom fun event _ byte _ =>
    hload sparseCtx.allRequired rfl rfl rfl event byte
  obtain ⟨cell₁, cell₂, hcell₁, hcell₂, herase, -⟩ :=
    hsame ctx₁ ctx₂ hrun₁ hrun₂ 1 (by decide) 0 (by decide) (by decide)
  exact ⟨ctx₁, ctx₂, hrun₁, hrun₂, cell₁, cell₂, hcell₁, hcell₂, herase⟩

end TaintForge
