import TaintForge.Dse.Equiv.Flags

/-!
# The conditions of branches

A condition is computed from the flags; after an arithmetic instruction it is a relation between the
operands.

* `X86ConditionCode.ofFlags`, `x86ConditionExpr_reads`: the symbolic condition is read off the flags.
* `X86ArithInsn.relation`: what a condition says of the exact results.
* `relation_eq_ofFlags`, `relation_compare`: it is what the flags say, and after a comparison it compares.
* `condition_after_arithmetic`: the symbolic condition is this relation.
-/

namespace TaintForge

open Fallible Function

/-! ### Reading flags -/

namespace DSECtx

/-- Flags that are set stay, and none is given up. -/
structure Grows (ctx ctx' : DSECtx) : Prop where
  poisoned : ctx'.x86FlagsPoisoned = ctx.x86FlagsPoisoned
  slots : ∀ flag e, ctx.state.x86Flags flag = some e → ctx'.state.x86Flags flag = some e

/-- The flag has a value. -/
def Live (ctx : DSECtx) (flag : X86Flag) : Prop :=
  ctx.x86FlagsPoisoned flag = false ∧ ∃ e, ctx.state.x86Flags flag = some e

/-- The value of a flag. -/
def flagBit (ctx : DSECtx) (flag : X86Flag) (σ : Valuation) : Bool :=
  match ctx.state.x86Flags flag with
  | some e => e.bits 1 σ == 1#1
  | none => false

variable {ctx ctx' ctx'' : DSECtx}

theorem Grows.refl (ctx : DSECtx) : Grows ctx ctx := ⟨rfl, fun _ _ h => h⟩

theorem Grows.trans (h : Grows ctx ctx') (h' : Grows ctx' ctx'') : Grows ctx ctx'' :=
  ⟨h'.poisoned.trans h.poisoned, fun flag e he => h'.slots flag e (h.slots flag e he)⟩

theorem SameMachine.grows (h : SameMachine ctx ctx') : Grows ctx ctx' := by
  refine ⟨h.poisoned, fun flag e he => ?_⟩
  rw [h.flags]
  exact he

theorem Live.of_grows {flag : X86Flag} (h : ctx.Live flag) (hgrows : Grows ctx ctx') : ctx'.Live flag := by
  obtain ⟨hpoisoned, e, he⟩ := h
  exact ⟨hgrows.poisoned ▸ hpoisoned, e, hgrows.slots flag e he⟩

/-- What is known of a flag is its value, if it has one in the end. -/
theorem flagBit_of_isBit {flag : X86Flag} {b : Valuation → Bool}
    (h : IsBit b (ctx.state.x86Flags flag) (ctx.x86FlagsPoisoned flag)) (hgrows : Grows ctx ctx')
    (hlive : ctx'.Live flag) (σ : Valuation) : ctx'.flagBit flag σ = b σ := by
  rcases h with hpoisoned | ⟨e, hslot, he⟩
  · have hfalse := hlive.1
    rw [hgrows.poisoned, hpoisoned] at hfalse
    exact absurd hfalse (by decide)
  · rw [flagBit, hgrows.slots flag e hslot]
    dsimp only
    rw [he.bits σ]
    cases b σ <;> rfl

end DSECtx

open DSECtx

theorem eq_ofBool_beq_one (b : BitVec 1) : b = BitVec.ofBool (b == 1#1) := by
  revert b
  decide

/-- A step that reads flags and returns a bit that depends on them. -/
def Reads (x : Fallible DSECtx SymExpr) (flags : List X86Flag) (value : (X86Flag → Bool) → Bool) : Prop :=
  ∀ ctx e ctx', ctx.WellFormed → x ctx = (some e, ctx') →
    ctx'.WellFormed ∧ Grows ctx ctx' ∧ (∀ flag ∈ flags, ctx'.Live flag) ∧
      ∀ later, Grows ctx' later → RepresentsBit e fun σ => value fun flag => later.flagBit flag σ

section Reads

variable {aux : InsnAux} {x y : Fallible DSECtx SymExpr} {flags flags' : List X86Flag}
  {v v' : (X86Flag → Bool) → Bool}

theorem orPathFailure_eq_some {α : Type} {step : Fallible DSECtx α} {ctx ctx' : DSECtx} {a : α} :
    orPathFailure step ctx = (some a, ctx') ↔ step ctx = (some a, ctx') := by
  rw [orPathFailure]
  rcases step ctx with ⟨_ | b, c⟩
  · simp
  · rfl

/-- A flag that is read has a value from then on. -/
theorem dseGetX86Flag_reads (aux : InsnAux) (flag : X86Flag) :
    Reads (dseGetX86Flag aux flag) [flag] fun value => value flag := by
  intro ctx e ctx' hctx hrun
  -- the flag has the expression that is returned
  have hslot : ctx'.WellFormed ∧ Grows ctx ctx' ∧ ctx'.x86FlagsPoisoned flag = false ∧
      ctx'.state.x86Flags flag = some e := by
    replace hrun := orPathFailure_eq_some.mp hrun
    dsimp only at hrun
    by_cases hpoisoned : ctx.x86FlagsPoisoned flag = true
    · rw [if_pos hpoisoned] at hrun
      exact nomatch hrun
    rw [if_neg hpoisoned] at hrun
    rw [Bool.not_eq_true] at hpoisoned
    rcases hslot : ctx.state.x86Flags flag with _ | value
    · rw [hslot] at hrun
      dsimp only at hrun
      by_cases hvalid : aux.eflagsValid = false
      · rw [if_pos hvalid] at hrun
        exact nomatch hrun
      rw [if_neg hvalid] at hrun
      -- a new variable, a copy of which becomes the flag
      obtain ⟨root, c, hroot, hrun⟩ := bind_eq_some.mp hrun
      obtain ⟨⟨hroot, -⟩, hc, hmachine⟩ := dseNewObservedEpochVar_spec hctx hroot
      obtain ⟨copy, d, hcopy, hrun⟩ := bind_eq_some.mp hrun
      obtain ⟨rfl, hsame⟩ := exprStep_spec (symExprClone_eq root) hcopy
      obtain ⟨_, d', hset, hreturn⟩ := bind_eq_some.mp hrun
      cases hset
      obtain ⟨rfl, rfl⟩ := pure_eq_some.mp hreturn
      have hd := hsame.wellFormed hc
      have hgrows := hmachine.grows.trans hsame.grows
      refine ⟨⟨fun other e he => ?_, hd.cells, hd.vars⟩, ⟨hgrows.poisoned, fun other e he => ?_⟩,
        hgrows.poisoned ▸ hpoisoned, update_self _ _ _⟩
      · replace he : update d.state.x86Flags flag (some copy) other = some e := he
        rw [update_apply] at he
        by_cases hother : other = flag
        · rw [if_pos hother] at he
          cases he
          exact hroot
        · rw [if_neg hother] at he
          exact hd.flags other e he
      · show update d.state.x86Flags flag (some copy) other = some e
        have hother : other ≠ flag := by
          rintro rfl
          rw [hslot] at he
          exact nomatch he
        rw [update_of_ne hother]
        exact hgrows.slots other e he
    · rw [hslot] at hrun
      obtain ⟨rfl, hsame⟩ := exprStep_spec (symExprClone_eq value) hrun
      exact ⟨hsame.wellFormed hctx, hsame.grows, hsame.grows.poisoned ▸ hpoisoned,
        hsame.grows.slots flag e hslot⟩
  obtain ⟨hctx', hgrows, hpoisoned, hslot⟩ := hslot
  refine ⟨hctx', hgrows, fun other hother => ?_, fun later hlater => ?_⟩
  · obtain rfl := List.mem_singleton.mp hother
    exact ⟨hpoisoned, e, hslot⟩
  · refine (hctx'.flags flag e hslot).represents.congr fun σ => ?_
    show _ = BitVec.ofBool (later.flagBit flag σ)
    rw [flagBit, hlater.slots flag e hslot]
    exact eq_ofBool_beq_one _

theorem Reads.notOf (hx : Reads x flags v) : Reads (notOf x) flags fun value => !v value := by
  intro ctx e ctx' hctx hrun
  obtain ⟨bit, c, hbit, hnot⟩ := bind_eq_some.mp hrun
  obtain ⟨hc, hgrows, hlive, hvalue⟩ := hx ctx bit c hctx hbit
  obtain ⟨-, hsame⟩ := exprStep_spec (x86FlagNot_bit (hvalue c (.refl c))) hnot
  refine ⟨hsame.wellFormed hc, hgrows.trans hsame.grows, ?_, fun later hlater => ?_⟩
  · exact fun flag hflag => (hlive flag hflag).of_grows hsame.grows
  · exact (exprStep_spec (x86FlagNot_bit (hvalue later (hsame.grows.trans hlater))) hnot).1

theorem Reads.combine {operation : SymExpr → SymExpr → Fallible ExprCtx SymExpr} {op : Bool → Bool → Bool}
    (hop : ∀ {a b : SymExpr} {f g : Valuation → Bool}, RepresentsBit a f → RepresentsBit b g →
      (operation a b).All (RepresentsBit · fun σ => op (f σ) (g σ)))
    (hx : Reads x flags v) (hy : Reads y flags' v') :
    Reads (combine operation x y) (flags ++ flags') fun value => op (v value) (v' value) := by
  intro ctx e ctx' hctx hrun
  obtain ⟨⟨a, b⟩, d, hboth, hcombine⟩ := bind_eq_some.mp hrun
  obtain ⟨c, ha, hb⟩ := both_eq_some.mp hboth
  obtain ⟨hc, hgrows, hlive, hvalue⟩ := hx ctx a c hctx ha
  obtain ⟨hd, hgrows', hlive', hvalue'⟩ := hy c b d hc hb
  have hresult := fun later (hlater : Grows d later) =>
    exprStep_spec (hop (hvalue later (hgrows'.trans hlater)) (hvalue' later hlater)) hcombine
  have hsame := (hresult d (.refl d)).2
  refine ⟨hsame.wellFormed hd, hgrows.trans (hgrows'.trans hsame.grows), fun flag hflag => ?_,
    fun later hlater => (hresult later (hsame.grows.trans hlater)).1⟩
  rcases List.mem_append.mp hflag with hflag | hflag
  · exact (hlive flag hflag).of_grows (hgrows'.trans hsame.grows)
  · exact (hlive' flag hflag).of_grows hsame.grows

end Reads

/-! ### Conditions as relations -/

/-- The flags that a condition depends on. -/
def X86ConditionCode.flags : X86ConditionCode → List X86Flag
  | .o | .no => [.of]
  | .b | .ae => [.cf]
  | .e | .ne => [.zf]
  | .be | .a => [.cf, .zf]
  | .s | .ns => [.sf]
  | .p | .np => [.pf]
  | .l | .ge => [.sf, .of]
  | .le | .g => [.zf, .sf, .of]
  | .none => []

/-- A condition, from the flags. -/
def X86ConditionCode.ofFlags (condition : X86ConditionCode) (value : X86Flag → Bool) : Bool :=
  match condition with
  | .o => value .of
  | .no => !value .of
  | .b => value .cf
  | .ae => !value .cf
  | .e => value .zf
  | .ne => !value .zf
  | .be => value .cf || value .zf
  | .a => !(value .cf || value .zf)
  | .s => value .sf
  | .ns => !value .sf
  | .p => value .pf
  | .np => !value .pf
  | .l => value .sf ^^ value .of
  | .ge => !(value .sf ^^ value .of)
  | .le => value .zf || (value .sf ^^ value .of)
  | .g => !(value .zf || (value .sf ^^ value .of))
  | .none => false

/-- A condition only depends on its flags. -/
theorem X86ConditionCode.ofFlags_congr {condition : X86ConditionCode} {v v' : X86Flag → Bool}
    (h : ∀ flag ∈ condition.flags, v flag = v' flag) : condition.ofFlags v = condition.ofFlags v' := by
  cases condition <;> simp only [flags, List.mem_cons, List.not_mem_nil, or_false, forall_eq_or_imp,
    forall_eq] at h <;> simp only [ofFlags, h]

/-- **A condition is read off the flags.** -/
theorem x86ConditionExpr_reads (aux : InsnAux) (condition : X86ConditionCode) :
    Reads (x86ConditionExpr aux condition) condition.flags condition.ofFlags := by
  have hget := dseGetX86Flag_reads aux
  have hbelow := (hget .cf).combine symExprOr_bit (hget .zf)
  have hless := (hget .sf).combine symExprXor_bit (hget .of)
  have hlessEq := (hget .zf).combine symExprOr_bit hless
  cases condition with
  | none => exact fun _ _ _ _ hrun => absurd hrun fail_ne_some
  | o => exact hget .of
  | no => exact (hget .of).notOf
  | b => exact hget .cf
  | ae => exact (hget .cf).notOf
  | e => exact hget .zf
  | ne => exact (hget .zf).notOf
  | be => exact hbelow
  | a => exact hbelow.notOf
  | s => exact hget .sf
  | ns => exact (hget .sf).notOf
  | p => exact hget .pf
  | np => exact (hget .pf).notOf
  | l => exact hless
  | ge => exact hless.notOf
  | le => exact hlessEq
  | g => exact hlessEq.notOf

namespace X86ArithInsn

/-- **What a condition says after an instruction**, of the exact results; `carry` is the carry flag
before. -/
def relation (insn : X86ArithInsn) (condition : X86ConditionCode) {w : ℕ} (x y : BitVec w)
    (carry : Bool) : Bool :=
  let signed := insn.signedResult x y
  let result := BitVec.ofInt w signed
  let below := if insn.keepsCarry then carry else decide (¬ FitsUnsigned w (insn.unsignedResult x y))
  match condition with
  | .o => ¬ FitsSigned w signed
  | .no => FitsSigned w signed
  | .b => below
  | .ae => !below
  | .e => result == 0#w
  | .ne => !(result == 0#w)
  | .be => below || result == 0#w
  | .a => !(below || result == 0#w)
  | .s => result.msb
  | .ns => !result.msb
  | .p => evenParity result
  | .np => !evenParity result
  | .l => signed < 0
  | .ge => 0 ≤ signed
  | .le => signed ≤ 0
  | .g => 0 < signed
  | .none => false

/-- A comparison of two operands. -/
def comparison (condition : X86ConditionCode) {w : ℕ} (x y : BitVec w) : Option Bool :=
  match condition with
  | .e => x == y
  | .ne => x != y
  | .b => x.ult y
  | .ae => y.ule x
  | .be => x.ule y
  | .a => y.ult x
  | .l => x.slt y
  | .ge => y.sle x
  | .le => x.sle y
  | .g => y.slt x
  | _ => none

section Relation

variable (insn : X86ArithInsn) {w : ℕ} (hw : 1 < w) (x y : BitVec w)

include hw

theorem toNat_one_of_lt : (1#w).toNat = 1 := by
  rw [BitVec.toNat_ofNat, Nat.mod_eq_of_lt (Nat.one_lt_two_pow (by omega))]

theorem toInt_one_of_lt : (1#w).toInt = 1 := by
  have hdouble : 2 ^ w = 2 * 2 ^ (w - 1) := by
    rw [← Nat.pow_succ']
    congr 1
    omega
  have hlarge : 2 ≤ 2 ^ (w - 1) := Nat.le_self_pow (by omega) 2
  rw [BitVec.toInt_eq_toNat_cond, toNat_one_of_lt hw, if_pos (by omega)]
  rfl

theorem exactSigned_operands :
    exactSigned insn.subtraction (insn.operands x y).1 (insn.operands x y).2 = insn.signedResult x y := by
  cases insn with
  | cmp | sub | add => rfl
  | neg =>
    show (0#w).toInt - x.toInt = -x.toInt
    rw [BitVec.toInt_zero, zero_sub]
  | inc =>
    show x.toInt + (1#w).toInt = _
    rw [toInt_one_of_lt hw]
    rfl
  | dec =>
    show x.toInt - (1#w).toInt = _
    rw [toInt_one_of_lt hw]
    rfl

theorem exactUnsigned_operands :
    exactUnsigned insn.subtraction (insn.operands x y).1 (insn.operands x y).2 =
      insn.unsignedResult x y := by
  cases insn with
  | cmp | sub | add => rfl
  | neg =>
    show ((0#w).toNat : ℤ) - x.toNat = -x.toNat
    rw [BitVec.toNat_zero, Nat.cast_zero, zero_sub]
  | inc =>
    show (x.toNat : ℤ) + (1#w).toNat = _
    rw [toNat_one_of_lt hw]
    rfl
  | dec =>
    show (x.toNat : ℤ) - (1#w).toNat = _
    rw [toNat_one_of_lt hw]
    rfl

/-- **The relation is what the flags say.** -/
theorem relation_eq_ofFlags (condition : X86ConditionCode) (carry : Bool) :
    insn.relation condition x y carry =
      condition.ofFlags fun flag => if insn.keepsCarry ∧ flag = .cf then carry else insn.flag x y flag := by
  have hsigned := insn.exactSigned_operands hw x y
  have hunsigned := insn.exactUnsigned_operands hw x y
  have hrange := exactSigned_range insn.subtraction (show 1 ≤ w by omega) (insn.operands x y).1
    (insn.operands x y).2
  have hresult := ofInt_exactSigned insn.subtraction (insn.operands x y).1 (insn.operands x y).2
  rw [hsigned] at hrange hresult
  have hless := sign_xor_overflow (by omega) hrange.1 hrange.2
  have hlessEq := zero_or_negative hrange.2
  have hof : insn.flag x y .of = decide (¬ FitsSigned w (insn.signedResult x y)) := by
    show decide _ = _
    rw [hsigned]
  have hcf : insn.flag x y .cf = decide (¬ FitsUnsigned w (insn.unsignedResult x y)) := by
    show decide _ = _
    rw [hunsigned]
  have hzf : insn.flag x y .zf = (BitVec.ofInt w (insn.signedResult x y) == 0#w) := by
    rw [hresult]
    rfl
  have hsf : insn.flag x y .sf = (BitVec.ofInt w (insn.signedResult x y)).msb := by
    rw [hresult]
    rfl
  have hpf : insn.flag x y .pf = evenParity (BitVec.ofInt w (insn.signedResult x y)) := by
    rw [hresult]
    rfl
  cases condition <;>
    simp only [relation, X86ConditionCode.ofFlags, reduceCtorEq, and_false, and_true, if_false, hof, hcf,
      hzf, hsf, hpf, hless, hlessEq, ← decide_not, not_not, not_lt, not_le]

end Relation

/-- **After a comparison the conditions compare the operands.** -/
theorem relation_compare {insn : X86ArithInsn} (hinsn : insn = .cmp ∨ insn = .sub) {w : ℕ} (x y : BitVec w)
    {condition : X86ConditionCode} {b : Bool} (hb : comparison condition x y = some b)
    (carry : Bool) : insn.relation condition x y carry = b := by
  have hbelow : decide (¬ FitsUnsigned w (x.toNat - y.toNat)) = x.ult y := borrow_sub.symm
  have hequal : (BitVec.ofInt w (x.toInt - y.toInt) == 0#w) = (x == y) := by
    rw [ofInt_toInt_sub, zero_sub_iff]
  have hbelowEq : (decide (¬ FitsUnsigned w (x.toNat - y.toNat)) ||
      BitVec.ofInt w (x.toInt - y.toInt) == 0#w) = x.ule y := by
    rw [hbelow, hequal, ult_or_eq]
  have hrelation : insn.relation condition x y carry = relation .cmp condition x y carry := by
    rcases hinsn with rfl | rfl <;> rfl
  rw [hrelation]
  cases condition with
  | e =>
    cases hb
    exact hequal
  | ne =>
    cases hb
    exact congrArg (!·) hequal
  | b =>
    cases hb
    exact hbelow
  | ae =>
    cases hb
    exact (congrArg (!·) hbelow).trans (BitVec.ule_eq_not_ult y x).symm
  | be =>
    cases hb
    exact hbelowEq
  | a =>
    cases hb
    refine (congrArg (!·) hbelowEq).trans ?_
    rw [BitVec.ule_eq_not_ult, Bool.not_not]
  | l =>
    cases hb
    show decide (x.toInt - y.toInt < 0) = decide (x.toInt < y.toInt)
    exact decide_eq_decide.mpr (by omega)
  | ge =>
    cases hb
    show decide (0 ≤ x.toInt - y.toInt) = decide (y.toInt ≤ x.toInt)
    exact decide_eq_decide.mpr (by omega)
  | le =>
    cases hb
    show decide (x.toInt - y.toInt ≤ 0) = decide (x.toInt ≤ y.toInt)
    exact decide_eq_decide.mpr (by omega)
  | g =>
    cases hb
    show decide (0 < x.toInt - y.toInt) = decide (y.toInt < x.toInt)
    exact decide_eq_decide.mpr (by omega)
  | o | no | s | ns | p | np | none => cases hb

end X86ArithInsn

/-- **The condition of a branch after an arithmetic instruction is the relation of its operands**: after a
comparison they are compared, and an instruction that leaves the carry flag alone leaves it as it was. -/
theorem condition_after_arithmetic (insn : X86ArithInsn) (condition : X86ConditionCode) {left right : SymExpr}
    {w : ℕ} (hw : 1 < w) {x y : Valuation → BitVec w} (hleft : Represents left w x)
    (hright : Represents right w y) {ctx ctx₁ ctx₂ : DSECtx} (hctx : ctx.WellFormed)
    (hupdate : insn.update left right ctx = (some (), ctx₁)) {aux : InsnAux} {e : SymExpr}
    (hcondition : x86ConditionExpr aux condition ctx₁ = (some e, ctx₂)) :
    (RepresentsBit e fun σ => insn.relation condition (x σ) (y σ) (ctx₂.flagBit .cf σ)) ∧
      (insn = .cmp ∨ insn = .sub → ∀ (σ : Valuation) (b : Bool),
        X86ArithInsn.comparison condition (x σ) (y σ) = some b → e.bits 1 σ = BitVec.ofBool b) ∧
      (insn.keepsCarry → .cf ∈ condition.flags →
        ctx₁.state.x86Flags .cf = ctx.state.x86Flags .cf ∧
          ∀ c, ctx.state.x86Flags .cf = some c → ctx₂.flagBit .cf = ctx.flagBit .cf) := by
  have hknown := insn.update_knows hleft hright ctx () ctx₁ hctx.knows hupdate
  obtain ⟨-, hgrows, hlive, hvalue⟩ :=
    x86ConditionExpr_reads aux condition ctx₁ e ctx₂ hknown.wellFormed hcondition
  have hrelation : RepresentsBit e fun σ =>
      insn.relation condition (x σ) (y σ) (ctx₂.flagBit .cf σ) := by
    refine (hvalue ctx₂ (.refl ctx₂)).bit_congr fun σ => ?_
    rw [insn.relation_eq_ofFlags hw]
    apply X86ConditionCode.ofFlags_congr
    intro flag hflag
    by_cases hcarry : insn.keepsCarry ∧ flag = .cf
    · rw [if_pos hcarry, hcarry.2]
    · rw [if_neg hcarry]
      have hbit := hknown.flag flag
      rw [X86ArithInsn.knownAfter, if_neg hcarry] at hbit
      exact flagBit_of_isBit hbit hgrows (hlive flag hflag) σ
  refine ⟨hrelation, fun hinsn σ b hb => ?_, fun hkeeps hcf => ?_⟩
  · refine (hrelation.bits σ).trans (congrArg BitVec.ofBool ?_)
    exact X86ArithInsn.relation_compare hinsn (x σ) (y σ) hb _
  · have hcarry := hknown.flag .cf
    rw [X86ArithInsn.knownAfter, if_pos ⟨hkeeps, rfl⟩] at hcarry
    rcases hcarry with hpoisoned | ⟨hslot, -⟩
    · have hfalse := (hlive .cf hcf).1
      rw [hgrows.poisoned, hpoisoned] at hfalse
      exact absurd hfalse (by decide)
    · refine ⟨hslot, fun c hc => ?_⟩
      funext σ
      rw [flagBit, flagBit, hgrows.slots .cf c (hslot.trans hc), hc]

end TaintForge
