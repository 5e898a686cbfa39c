import TaintForge.Dse.Equiv.MemoryAccess
import TaintForge.Dse.Equiv.MovsRanges

/-!
# What the elements of a `movs` store

If no byte that is written is one that is read, each required destination gets what its source was at the
start, however many of the others are required.

* `loadElement_spec`, `storeElement_spec`: one element.
* `liftMovsElements_spec`: the first elements.
* `SymExpr.erase`: an expression without the numbers that depend on what has been made before it.
* `liftExactMovs_same`: two replays of one instruction.
-/

namespace TaintForge

open Fallible Function DSECtx

/-! ### One element -/

section Element

variable {aux : InsnAux} {event : ℕ} {ctx ctx' : DSECtx}

/-- The expression that stands for a byte of an element. -/
def LoadsElementByte (aux : InsnAux) (cells : ℕ → Option DseMemCell)
    (observedValues : ℕ → Option DseObservedValue) (event byte : ℕ) (e : SymExpr) : Prop :=
  LoadsByte cells observedValues (aux.stringSummary.source event byte) aux.seqId
    (aux.stringSummary.values.getD (event * aux.stringSummary.elementSize + byte) 0)
    (aux.stringSummary.valueTaint.getD (event * aux.stringSummary.elementSize + byte) false) e

theorem loadCaptured_spec {byte : ℕ} {e : SymExpr} (hctx : ctx.WellFormed)
    (hrun : loadCaptured aux event byte ctx = (some e, ctx')) :
    e.HasWidth 8 ∧ LoadsElementByte aux ctx.state.symMem ctx'.observedValues event byte e ∧
      ctx'.WellFormed ∧ SameMachine ctx ctx' := by
  rw [loadCaptured] at hrun
  split at hrun
  · exact absurd hrun fail_ne_some
  · exact dseLoadTrackedByteAt_spec hctx hrun

/-- The bytes of an element are loaded from one memory. -/
theorem loadElement_spec {bytes : List ℕ} {element : List (ℕ × SymExpr)} (hctx : ctx.WellFormed)
    (hrun : loadElement aux event bytes ctx = (some element, ctx')) :
    ctx'.WellFormed ∧ SameMachine ctx ctx' ∧ element.map Prod.fst = bytes ∧
      ∀ loaded ∈ element, loaded.2.HasWidth 8 ∧
        LoadsElementByte aux ctx.state.symMem ctx'.observedValues event loaded.1 loaded.2 := by
  induction bytes generalizing ctx element with
  | nil =>
    cases hrun
    exact ⟨hctx, .refl _, rfl, fun _ h => absurd h List.not_mem_nil⟩
  | cons byte rest ih =>
    obtain ⟨value, c₁, hload, hrest⟩ := bind_eq_some.mp hrun
    obtain ⟨hvalue, hbyte, hc₁, hsame₁⟩ := loadCaptured_spec hctx hload
    obtain ⟨others, c₂, hothers, hreturn⟩ := bind_eq_some.mp hrest
    obtain ⟨rfl, rfl⟩ := pure_eq_some.mp hreturn
    obtain ⟨hc₂, hsame₂, hbytes, hall⟩ := ih hc₁ hothers
    refine ⟨hc₂, hsame₁.trans hsame₂, congrArg (byte :: ·) hbytes, fun loaded hmem => ?_⟩
    rcases List.mem_cons.mp hmem with rfl | hmem
    · exact ⟨hvalue, hbyte.mono hsame₂.bound⟩
    · obtain ⟨hwidth, hother⟩ := hall loaded hmem
      rw [hsame₁.cells] at hother
      exact ⟨hwidth, hother⟩

/-- The bytes of an element are stored, and nothing else. -/
theorem storeElement_spec {element : List (ℕ × SymExpr)} (hctx : ctx.WellFormed)
    (hwidth : ∀ loaded ∈ element, loaded.2.HasWidth 8)
    (hdistinct : (element.map fun loaded => aux.stringSummary.destination event loaded.1).Nodup)
    (hrun : storeElement aux event element ctx = (some (), ctx')) :
    ctx'.WellFormed ∧ KeepsDemand ctx ctx' ∧
      (∀ loaded ∈ element, ctx'.state.symMem (aux.stringSummary.destination event loaded.1) =
        some ⟨loaded.2, aux.seqId, aux.pc⟩) ∧
      ∀ address, (∀ loaded ∈ element, aux.stringSummary.destination event loaded.1 ≠ address) →
        ctx'.state.symMem address = ctx.state.symMem address := by
  induction element generalizing ctx with
  | nil =>
    cases hrun
    exact ⟨hctx, .refl _, fun _ h => absurd h List.not_mem_nil, fun _ _ => rfl⟩
  | cons loaded rest ih =>
    obtain ⟨byte, value⟩ := loaded
    obtain ⟨_, c₁, hstore, hrest⟩ := bind_eq_some.mp hrun
    obtain ⟨-, -, mid, hstate, rfl⟩ := dseStoreTrackedByteAt_spec hstore
    obtain ⟨hfirst, hothers⟩ := List.nodup_cons.mp hdistinct
    have hmid := setCell_wellFormed (hstate.wellFormed hctx)
      (show SymExpr.HasWidth (DseMemCell.expr ⟨value, aux.seqId, aux.pc⟩) 8 from hwidth _ List.mem_cons_self)
      (aux.stringSummary.destination event byte)
    obtain ⟨hctx', hdemand, hstored, hkept⟩ :=
      ih hmid (fun other hother => hwidth other (List.mem_cons_of_mem _ hother)) hothers hrest
    have hbefore := hstate.keepsDemand.trans (setCell_keepsDemand mid
      (aux.stringSummary.destination event byte) ⟨value, aux.seqId, aux.pc⟩)
    refine ⟨hctx', hbefore.trans hdemand, fun other hmem => ?_, fun address hnone => ?_⟩
    · rcases List.mem_cons.mp hmem with rfl | hmem
      · -- the other bytes are stored elsewhere
        rw [hkept _ fun later hlater hsame => hfirst (List.mem_map.mpr ⟨later, hlater, hsame⟩)]
        exact update_self _ _ _
      · exact hstored other hmem
    · rw [hkept address fun later hlater => hnone later (List.mem_cons_of_mem _ hlater)]
      show update mid.state.symMem _ _ address = _
      rw [update_of_ne (hnone _ List.mem_cons_self).symm, hstate.cells]

theorem requiredBytes_nodup (ctx : DSECtx) (summary : DseStringSummary) (event : ℕ) :
    (requiredBytes ctx summary event).Nodup :=
  List.nodup_range.filter _

theorem mem_requiredBytes {summary : DseStringSummary} {byte : ℕ} :
    byte ∈ requiredBytes ctx summary event ↔ byte < summary.elementSize ∧
      dseMemoryWriteByteRequired ctx (summary.destination event byte) = true := by
  rw [requiredBytes, List.mem_filter, List.mem_range]

/-- **One element**: each required byte is what is loaded for it, and nothing else is stored. -/
theorem liftMovsElement_spec (hctx : ctx.WellFormed) (hsize : aux.stringSummary.elementSize < 2 ^ 32)
    (hrun : liftMovsElement aux event ctx = (some (), ctx')) :
    ctx'.WellFormed ∧ KeepsDemand ctx ctx' ∧
      (∀ byte ∈ requiredBytes ctx aux.stringSummary event, ∃ cell,
        ctx'.state.symMem (aux.stringSummary.destination event byte) = some cell ∧ cell.expr.HasWidth 8 ∧
        LoadsElementByte aux ctx.state.symMem ctx'.observedValues event byte cell.expr) ∧
      ∀ address, (∀ byte ∈ requiredBytes ctx aux.stringSummary event,
          aux.stringSummary.destination event byte ≠ address) →
        ctx'.state.symMem address = ctx.state.symMem address := by
  obtain ⟨_, _, hread, hrest⟩ := bind_eq_some.mp hrun
  cases hread
  obtain ⟨element, c₁, hload, hstore⟩ := bind_eq_some.mp hrest
  obtain ⟨hc₁, hsame, hbytes, hloaded⟩ := loadElement_spec hctx hload
  have hdistinct : (element.map fun loaded => aux.stringSummary.destination event loaded.1).Nodup := by
    have hmap : (element.map fun loaded => aux.stringSummary.destination event loaded.1) =
        (requiredBytes ctx aux.stringSummary event).map (aux.stringSummary.destination event) := by
      rw [← hbytes, List.map_map]
      rfl
    rw [hmap]
    refine List.Nodup.map_on (fun b hb c hc h => ?_) (requiredBytes_nodup ctx aux.stringSummary event)
    have hb' := (mem_requiredBytes.mp hb).1
    have hc' := (mem_requiredBytes.mp hc).1
    exact dseStringEventByteAddress_injOn (by omega) (by omega) h
  obtain ⟨hctx', hdemand, hstored, hkept⟩ :=
    storeElement_spec hc₁ (fun loaded hmem => (hloaded loaded hmem).1) hdistinct hstore
  refine ⟨hctx', hsame.keepsDemand.trans hdemand, fun byte hbyte => ?_, fun address hnone => ?_⟩
  · rw [← hbytes] at hbyte
    obtain ⟨loaded, hmem, rfl⟩ := List.mem_map.mp hbyte
    obtain ⟨hwidth, hvalue⟩ := hloaded loaded hmem
    exact ⟨_, hstored loaded hmem, hwidth, hvalue.mono hdemand.bound⟩
  · rw [hkept address fun loaded hmem => hnone loaded.1 (hbytes ▸ List.mem_map_of_mem hmem), hsame.cells]

end Element

/-! ### All elements -/

section Elements

variable {aux : InsnAux} {ctx ctx' : DSECtx}

/-- No byte that is written is one that is read. -/
def DseStringSummary.Apart (summary : DseStringSummary) : Prop :=
  ∀ event < summary.expectedIterations, ∀ byte < summary.elementSize,
    ∀ event' < summary.expectedIterations, ∀ byte' < summary.elementSize,
      summary.destination event byte ≠ summary.source event' byte'

/-- **The first elements**: each required destination gets what its source was at the start. -/
theorem liftMovsElements_spec (hctx : ctx.WellFormed)
    (hdir : aux.stringSummary.direction = 1 ∨ aux.stringSummary.direction = -1)
    (htotal : aux.stringSummary.total < 2 ^ 32) (hapart : aux.stringSummary.Apart) {count : ℕ}
    (hcount : count ≤ aux.stringSummary.expectedIterations)
    (hrun : liftMovsElements aux count ctx = (some (), ctx')) :
    ctx'.WellFormed ∧ KeepsDemand ctx ctx' ∧
      (∀ event < count, ∀ byte ∈ requiredBytes ctx aux.stringSummary event, ∃ cell,
        ctx'.state.symMem (aux.stringSummary.destination event byte) = some cell ∧ cell.expr.HasWidth 8 ∧
        LoadsElementByte aux ctx.state.symMem ctx'.observedValues event byte cell.expr) ∧
      ∀ address, (∀ event < count, ∀ byte ∈ requiredBytes ctx aux.stringSummary event,
          aux.stringSummary.destination event byte ≠ address) →
        ctx'.state.symMem address = ctx.state.symMem address := by
  induction count generalizing ctx' with
  | zero =>
    cases hrun
    exact ⟨hctx, .refl ctx, fun _ h => absurd h (Nat.not_lt_zero _), fun _ _ => rfl⟩
  | succ count ih =>
    obtain ⟨_, c₁, hfirst, hlast⟩ := bind_eq_some.mp hrun
    obtain ⟨hc₁, hdemand₁, hstored₁, hkept₁⟩ := ih (Nat.le_of_succ_le hcount) hfirst
    have hsize : aux.stringSummary.elementSize ≤ aux.stringSummary.total :=
      Nat.le_mul_of_pos_left _ (by omega)
    obtain ⟨hctx', hdemand₂, hstored₂, hkept₂⟩ := liftMovsElement_spec hc₁ (by omega) hlast
    have hsame : requiredBytes c₁ aux.stringSummary count = requiredBytes ctx aux.stringSummary count := by
      rw [requiredBytes, requiredBytes]
      exact List.filter_congr fun byte _ => hdemand₁.required _
    rw [hsame] at hstored₂ hkept₂
    refine ⟨hctx', hdemand₁.trans hdemand₂, fun event hevent byte hbyte => ?_, fun address hnone => ?_⟩
    · have hbyte' := (mem_requiredBytes.mp hbyte).1
      rcases Nat.lt_succ_iff_lt_or_eq.mp hevent with hlt | rfl
      · -- a later element is stored elsewhere
        obtain ⟨cell, hcell, hwidth, hvalue⟩ := hstored₁ event hlt byte hbyte
        refine ⟨cell, ?_, hwidth, hvalue.mono hdemand₂.bound⟩
        rw [hkept₂ _ fun later hlater heq => ?_, hcell]
        have hlater' := (mem_requiredBytes.mp hlater).1
        have hevents := (stringByteAddress_injOn hdir htotal (by omega) hlater' (by omega) hbyte' heq).1
        omega
      · obtain ⟨cell, hcell, hwidth, hvalue⟩ := hstored₂ byte hbyte
        refine ⟨cell, hcell, hwidth, ?_⟩
        -- the source has not been written
        have hsource : c₁.state.symMem (aux.stringSummary.source event byte) =
            ctx.state.symMem (aux.stringSummary.source event byte) :=
          hkept₁ _ fun earlier hearlier other hother =>
            hapart earlier (by omega) other (mem_requiredBytes.mp hother).1 event hcount byte hbyte'
        exact hvalue.congr hsource
    · rw [hkept₂ address fun byte hbyte => hnone count (Nat.lt_succ_self count) byte hbyte]
      exact hkept₁ address fun event hevent => hnone event (Nat.lt_succ_of_lt hevent)

end Elements

/-! ### Two replays -/

/-- A node without its address. -/
def SymHeader.erase (h : SymHeader) : SymHeader := { h with addr := 0 }

/-- A variable without its number: where it comes from. -/
def SymVar.erase (symbol : SymVar) : SymVar := { symbol with id := 0 }

/-- An expression without the addresses of the nodes and the numbers of the variables, which depend on what
has been made before it. -/
def SymExpr.erase : SymExpr → SymExpr
  | .const h value => .const h.erase value
  | .var h symbol => .var h.erase symbol.erase
  | .binary h op a b => .binary h.erase op a.erase b.erase
  | .unary h op a high low => .unary h.erase op a.erase high low
  | .ternary h c t f => .ternary h.erase c.erase t.erase f.erase

/-- A valuation that goes by where a variable comes from. -/
def Valuation.bySource (σ : Valuation) : Valuation := fun symbol => σ symbol.erase

theorem SymExpr.width_erase (e : SymExpr) : e.erase.width = e.width := by
  cases e <;> rfl

theorem SymExpr.denote_erase (σ : Valuation) (e : SymExpr) : e.erase.denote σ = e.denote σ.bySource := by
  induction e with
  | const h value => rfl
  | var h symbol => rfl
  | binary h op a b iha ihb =>
    show op.apply h.width a.erase.width b.erase.width (a.erase.denote σ) (b.erase.denote σ) = _
    rw [a.width_erase, b.width_erase, iha, ihb]
    rfl
  | unary h op a high low iha =>
    show op.apply h.width a.erase.width low (a.erase.denote σ) = _
    rw [a.width_erase, iha]
    rfl
  | ternary h c t f ihc iht ihf =>
    show (if BitVec.ofNat 1 (c.erase.denote σ) = 1 then (BitVec.ofNat h.width (t.erase.denote σ)).toNat
      else (BitVec.ofNat h.width (f.erase.denote σ)).toNat) = _
    rw [ihc, iht, ihf]
    rfl

theorem SymExpr.bits_bySource {e e' : SymExpr} (h : e.erase = e'.erase) (w : ℕ) (σ : Valuation) :
    e.bits w σ.bySource = e'.bits w σ.bySource := by
  rw [bits, bits, ← denote_erase, ← denote_erase, h]

/-- What stands for a byte is determined by the memory and what was observed. -/
theorem LoadsByte.same {cells : ℕ → Option DseMemCell} {observedValues observedValues' : ℕ → Option DseObservedValue}
    {address epoch : ℕ} {observedValue : BitVec 8} {tainted : Bool} {e e' : SymExpr}
    (h : LoadsByte cells observedValues address epoch observedValue tainted e) (he : e.HasWidth 8)
    (h' : LoadsByte cells observedValues' address epoch observedValue tainted e') (he' : e'.HasWidth 8) :
    e.erase = e'.erase := by
  cases h with
  | untainted addr =>
    cases h' with
    | untainted addr' => rfl
  | stored cell hcell =>
    cases h' with
    | stored cell' hcell' => rw [Option.some.inj (hcell.symm.trans hcell')]
    | root header id hnone => exact absurd (hnone.symm.trans hcell) (by simp)
  | root header id hnone hwidth =>
    cases h' with
    | stored cell hcell => exact absurd (hnone.symm.trans hcell) (by simp)
    | root header' id' hnone' hwidth' =>
      obtain ⟨addr, width, hasVar⟩ := header
      obtain ⟨addr', width', hasVar'⟩ := header'
      obtain rfl : hasVar = true := he.1.2
      obtain rfl : hasVar' = true := he'.1.2
      obtain rfl : width = 8 := hwidth
      obtain rfl : width' = 8 := hwidth'
      rfl

/-- **Two replays of a `movs` from one memory** store the same at each destination that both of them
require. -/
theorem liftExactMovs_same {aux : InsnAux} {ctx₁ ctx₂ ctx₁' ctx₂' : DSECtx} (hctx₁ : ctx₁.WellFormed)
    (hctx₂ : ctx₂.WellFormed) (hmem : ctx₁.state.symMem = ctx₂.state.symMem)
    (hdir : aux.stringSummary.direction = 1 ∨ aux.stringSummary.direction = -1)
    (htotal : aux.stringSummary.total < 2 ^ 32) (hapart : aux.stringSummary.Apart)
    (hrun₁ : liftExactMovs aux ctx₁ = (some (), ctx₁')) (hrun₂ : liftExactMovs aux ctx₂ = (some (), ctx₂'))
    {event byte : ℕ} (hevent : event < aux.stringSummary.expectedIterations)
    (hbyte₁ : byte ∈ requiredBytes ctx₁ aux.stringSummary event)
    (hbyte₂ : byte ∈ requiredBytes ctx₂ aux.stringSummary event) :
    ∃ cell₁ cell₂, ctx₁'.state.symMem (aux.stringSummary.destination event byte) = some cell₁ ∧
      ctx₂'.state.symMem (aux.stringSummary.destination event byte) = some cell₂ ∧
      cell₁.expr.erase = cell₂.expr.erase := by
  obtain ⟨-, -, hstored₁, -⟩ := liftMovsElements_spec hctx₁ hdir htotal hapart le_rfl hrun₁
  obtain ⟨-, -, hstored₂, -⟩ := liftMovsElements_spec hctx₂ hdir htotal hapart le_rfl hrun₂
  obtain ⟨cell₁, hcell₁, hwidth₁, hvalue₁⟩ := hstored₁ event hevent byte hbyte₁
  obtain ⟨cell₂, hcell₂, hwidth₂, hvalue₂⟩ := hstored₂ event hevent byte hbyte₂
  rw [← hmem] at hvalue₂
  exact ⟨cell₁, cell₂, hcell₁, hcell₂, hvalue₁.same hwidth₁ hvalue₂ hwidth₂⟩

end TaintForge
