import TaintForge.Dse.Equiv.Conditions
import TaintForge.Dse.Equiv.Room

/-!
# Conditions that are computed

With room for some nodes no flag is given up, and every condition has an expression.

* `DSECtx.Clear`: room for some nodes, and no flag that has been given up.
* `X86ArithInsn.update_returns`, `x86ConditionExpr_returns`: an instruction and then a branch.
* `arithmetic_condition`: the condition of the branch is computed, and is the relation of the operands.
-/

namespace TaintForge

open Fallible Function

/-! ### Bits -/

section Bits

variable {value left right result : SymExpr} {f g : Valuation → Bool} {w : ℕ}
  {h x y : Valuation → BitVec w}

theorem x86FlagNot_makes (hvalue : RepresentsBit value f) :
    Makes 2 (x86FlagNot value) (RepresentsBit · fun σ => !f σ) := by
  refine Returns.of_all ?_ (x86FlagNot_bit hvalue)
  have hone := Returns.of_all (symExprConst_makes 1 (show 1 ≤ 1 ∧ 1 ≤ 64 by decide))
    (symExprConst_represents rfl)
  exact hone.bind fun one hone => (symExprXor_makes hvalue hone).imp fun _ _ => trivial

theorem symExprClone_keeps (hvalue : Represents value w h) :
    Makes 0 (symExprClone value) (Represents · w h) :=
  (symExprClone_makes value).imp fun _ hcopy => hcopy ▸ hvalue

theorem bitOf_makes (hvalue : Represents value w h) {bit : ℕ} (hbit : bit < w) :
    Makes 1 (bitOf value bit) (RepresentsBit · fun σ => (h σ).getLsbD bit) := by
  have hw := hvalue.width_le
  refine Returns.of_all ?_ (bitOf_bit hvalue (by omega))
  refine (symExprClone_keeps hvalue).bind (m := 1) fun copy hcopy => ?_
  exact (symExprExtract_makes hcopy le_rfl hbit).imp fun _ _ => trivial

theorem bitOf_msb_makes (hvalue : Represents value w h) :
    Makes 1 (bitOf value (w - 1)) (RepresentsBit · fun σ => (h σ).msb) := by
  have hw := hvalue.width_le
  exact Returns.of_all ((bitOf_makes hvalue (by omega)).imp fun _ _ => trivial) (bitOf_msb hvalue)

theorem lowByteOf_makes (hvalue : Represents value w h) :
    Makes 1 (lowByteOf value) fun byte => ∃ k : Valuation → BitVec 8, Represents byte 8 k := by
  have hw := hvalue.width
  have hle := hvalue.width_le
  refine .ite (fun hlt => ?_) fun hge => .ite (fun hgt => ?_) fun heq => ?_
  · exact (symExprZext_makes hvalue (by omega)).imp fun _ h => ⟨_, h⟩
  · exact (symExprExtract_makes hvalue (by decide) (by omega)).imp fun _ h => ⟨_, h⟩
  · obtain rfl : w = 8 := by omega
    exact Makes.pure ⟨_, hvalue⟩

theorem foldlM_xor_makes {byte : SymExpr} {k : Valuation → BitVec 8} (hbyte : Represents byte 8 k)
    (l : List ℕ) (hl : ∀ bit ∈ l, bit < 8) {parity : SymExpr} {p : Valuation → Bool}
    (hparity : RepresentsBit parity p) :
    Makes (2 * l.length) (l.foldlM (fun parity bit => do symExprXor parity (← bitOf byte bit)) parity)
      fun e => ∃ q : Valuation → Bool, RepresentsBit e q := by
  induction l generalizing parity p with
  | nil => exact Makes.pure ⟨_, hparity⟩
  | cons bit l ih =>
    have hstep : Makes 2 (bitOf byte bit >>= fun b => symExprXor parity b)
        fun e => ∃ q : Valuation → Bool, RepresentsBit e q := by
      refine (bitOf_makes hbyte (hl bit List.mem_cons_self)).bind (m := 1) fun b hb => ?_
      refine Returns.of_all ((symExprXor_makes hparity hb).imp fun _ _ => trivial) ?_
      exact (symExprXor_bit hparity hb).mono fun e he => ⟨_, he⟩
    have hlength : 2 * (bit :: l).length = 2 + 2 * l.length := by
      rw [List.length_cons]
      omega
    rw [hlength]
    refine hstep.bind (m := 2 * l.length) fun parity ⟨q, hparity⟩ => ?_
    exact ih (fun bit hbit => hl bit (List.mem_cons_of_mem _ hbit)) hparity

theorem x86EvenParity_makes (hvalue : Represents value w h) :
    Makes 18 (x86EvenParity value) (RepresentsBit · fun σ => evenParity (h σ)) := by
  refine Returns.of_all ?_ (x86EvenParity_bit hvalue)
  refine (lowByteOf_makes hvalue).bind (m := 17) fun byte ⟨k, hbyte⟩ => ?_
  refine (bitOf_makes hbyte (by decide)).bind (m := 16) fun parity hparity => ?_
  refine (foldlM_xor_makes hbyte [1, 2, 3, 4, 5, 6, 7] (by decide) hparity).bind (m := 2)
    fun e ⟨q, he⟩ => ?_
  exact (x86FlagNot_makes he).imp fun _ _ => trivial

theorem cloneOf_makes {value : Option SymExpr} (hvalue : ∃ e, value = some e ∧ RepresentsBit e f) :
    Makes 0 (cloneOf value) (RepresentsBit · f) := by
  obtain ⟨e, rfl, he⟩ := hvalue
  exact symExprClone_keeps he

theorem xorOf_makes {n m : ℕ} {a b : Fallible ExprCtx SymExpr} (ha : Makes n a (Represents · w x))
    (hb : Makes m b (Represents · w y)) :
    Makes (n + m + 1) (xorOf a b) (Represents · w fun σ => x σ ^^^ y σ) := by
  refine (ha.both hb).bind (m := 1) fun ab hab => ?_
  exact symExprXor_makes hab.1 hab.2

theorem xorOf_bit_makes {n m : ℕ} {a b : Fallible ExprCtx SymExpr} (ha : Makes n a (RepresentsBit · f))
    (hb : Makes m b (RepresentsBit · g)) :
    Makes (n + m + 1) (xorOf a b) (RepresentsBit · fun σ => f σ ^^ g σ) :=
  (xorOf_makes ha hb).imp fun _ he => he.congr fun _ => BitVec.ofBool_xor_ofBool

theorem signsOf_makes {differ : Option SymExpr} (hdiffer : ∃ e, differ = some e ∧ RepresentsBit e f)
    (subtraction : Bool) :
    Makes 2 (signsOf subtraction differ) fun e => ∃ q : Valuation → Bool, RepresentsBit e q := by
  have hvalue : Makes 0 (ofOption differ) (RepresentsBit · f) := .ofOption ExprCtx.Room.mono hdiffer
  cases subtraction with
  | true => exact Makes.more (hvalue.imp fun _ he => ⟨_, he⟩) (by decide)
  | false => exact hvalue.bind (m := 2) fun e he => (x86FlagNot_makes he).imp fun _ he => ⟨_, he⟩

theorem overflowOf_makes (hleft : Represents left w x) (hright : Represents right w y)
    (hresult : Represents result w h) (subtraction : Bool) :
    Makes 8 (overflowOf left right result subtraction) fun _ => True := by
  rw [overflowOf, hleft.width]
  refine (bitOf_msb_makes hleft).attempt.bind (m := 7) fun leftSign hleftSign => ?_
  refine (bitOf_msb_makes hright).attempt.bind (m := 6) fun rightSign hrightSign => ?_
  refine (bitOf_msb_makes hresult).attempt.bind (m := 5) fun resultSign hresultSign => ?_
  have hdiffer := xorOf_bit_makes (cloneOf_makes hleftSign) (cloneOf_makes hrightSign)
  have hmoved := xorOf_bit_makes (cloneOf_makes hleftSign) (cloneOf_makes hresultSign)
  refine hdiffer.attempt.bind (m := 4) fun differ hdiffer => ?_
  refine hmoved.attempt.bind (m := 3) fun moved hmoved => ?_
  have hsecond : Makes 0 (ofOption moved) _ := .ofOption ExprCtx.Room.mono hmoved
  refine ((signsOf_makes hdiffer subtraction).both hsecond).bind (m := 1) fun ab hab => ?_
  obtain ⟨⟨q, hq⟩, hb⟩ := hab
  exact (symExprAnd_makes hq hb).imp fun _ _ => trivial

theorem auxiliaryOf_makes (hw : 8 ≤ w) (hleft : Represents left w x) (hright : Represents right w y)
    (hresult : Represents result w h) : Makes 3 (auxiliaryOf left right result) fun _ => True := by
  have hoperands := xorOf_makes (symExprClone_keeps hleft) (symExprClone_keeps hright)
  refine (xorOf_makes hoperands (symExprClone_keeps hresult)).bind (m := 1) fun auxiliary haux => ?_
  exact (symExprExtract_makes haux (by decide) (by omega)).imp fun _ _ => trivial

theorem carryOf_makes (hleft : Represents left w x) (hright : Represents right w y)
    (hresult : Represents result w h) (subtraction : Bool) :
    Makes 1 (carryOf left right result subtraction) fun _ => True := by
  cases subtraction with
  | true =>
    refine ((symExprClone_keeps hleft).both (symExprClone_keeps hright)).bind (m := 1) fun ab hab => ?_
    exact (symExprUlt_makes hab.1 hab.2).imp fun _ _ => trivial
  | false =>
    refine ((symExprClone_keeps hresult).both (symExprClone_keeps hleft)).bind (m := 1) fun ab hab => ?_
    exact (symExprUlt_makes hab.1 hab.2).imp fun _ _ => trivial

end Bits

/-! ### Flags -/

/-- There is room for some nodes, and no flag has been given up. -/
structure DSECtx.Clear (n : ℕ) (ctx : DSECtx) : Prop where
  room : ctx.exprs.Room n
  poisoned : ∀ flag, ctx.x86FlagsPoisoned flag = false

theorem DSECtx.Clear.mono {n m : ℕ} {ctx : DSECtx} (hle : n ≤ m) (h : ctx.Clear m) : ctx.Clear n :=
  ⟨h.room.mono hle, h.poisoned⟩

/-- A step that returns with room for `n` nodes and gives up no flag. -/
abbrev Sets {α : Type} (n : ℕ) (x : Fallible DSECtx α) (p : α → Prop) : Prop := Returns DSECtx.Clear n x p

theorem Makes.lift {α : Type} {n : ℕ} {x : Fallible ExprCtx α} {p : α → Prop} (hx : Makes n x p) :
    Sets n (exprStep x) p := by
  intro rest ctx hctx
  obtain ⟨a, exprs, ha, hp, hrest⟩ := hx rest ctx.exprs hctx.room
  refine ⟨a, { ctx with exprs := exprs }, ?_, hp, hrest, hctx.poisoned⟩
  show (match x ctx.exprs with | (result, s) => (result, _)) = _
  rw [ha]

theorem setFlagTo_sets {n : ℕ} (flag : X86Flag) {x : Fallible ExprCtx SymExpr} {b : Valuation → Bool}
    (hx : Makes n x (RepresentsBit · b)) : Sets n (setFlagTo flag x) fun _ => True := by
  refine (Makes.lift hx).attempt.bind (m := 0) fun value ⟨e, hvalue, he⟩ => ?_
  subst hvalue
  intro rest ctx hctx
  refine ⟨(), dseSetX86Flag flag (some e) ctx, rfl, trivial, ?_⟩
  rw [dseSetX86Flag, if_neg (not_not.mpr he.width)]
  refine ⟨Nat.zero_add rest ▸ hctx.room, fun other => ?_⟩
  show update ctx.x86FlagsPoisoned flag false other = false
  by_cases hother : other = flag
  · rw [hother, update_self]
  · rw [update_of_ne hother]
    exact hctx.poisoned other

section Update

variable {left right result : SymExpr} {w : ℕ} {x y : Valuation → BitVec w}

theorem zero_makes (hw : 1 ≤ w ∧ w ≤ 64) : Makes 1 (symExprConst 0 w) (Represents · w fun _ => 0#w) :=
  Returns.of_all (symExprConst_makes 0 hw) (symExprConst_represents (BitVec.setWidth_zero _ _))

theorem one_makes (hw : 1 ≤ w ∧ w ≤ 64) : Makes 1 (symExprConst 1 w) (Represents · w fun _ => 1#w) :=
  Returns.of_all (symExprConst_makes 1 hw) (X86ArithInsn.symExprConst_one w)

theorem x86SetZspFlags_sets {r : Valuation → BitVec w} (hresult : Represents result w r) :
    Sets 21 (x86SetZspFlags result) fun _ => True := by
  have hw := hresult.width_le
  rw [x86SetZspFlags, hresult.width, if_neg (by omega)]
  have hzero : Makes 2 ((symExprClone result).both (symExprConst 0 w) >>= fun ab => symExprEq ab.1 ab.2)
      (RepresentsBit · fun σ => r σ == 0#w) :=
    ((symExprClone_keeps hresult).both (zero_makes hw)).bind (m := 1) fun ab hab =>
      symExprEq_makes hab.1 hab.2
  have hparity : Makes 18 (do x86EvenParity (← symExprClone result))
      (RepresentsBit · fun σ => evenParity (r σ)) :=
    (symExprClone_keeps hresult).bind (m := 18) fun copy hcopy => x86EvenParity_makes hcopy
  refine (setFlagTo_sets .zf hzero).bind (m := 19) fun _ _ => ?_
  refine (setFlagTo_sets .sf (bitOf_msb_makes hresult)).bind (m := 18) fun _ _ => ?_
  exact setFlagTo_sets .pf hparity

theorem x86SetArithmeticFlags_sets (hw : 8 ≤ w) (hleft : Represents left w x) (hright : Represents right w y)
    (subtraction preserveCf : Bool)
    (hresult : Represents result w fun σ => wrapped subtraction (x σ) (y σ)) :
    Sets 33 (x86SetArithmeticFlags left right result subtraction preserveCf) fun _ => True := by
  unfold x86SetArithmeticFlags
  rw [hleft.width, hright.width, hresult.width, if_neg (by omega)]
  have hoverflow := Returns.of_all (overflowOf_makes hleft hright hresult subtraction)
    (overflowOf_flag hleft hright subtraction hresult)
  have hauxiliary := Returns.of_all (auxiliaryOf_makes hw hleft hright hresult)
    (auxiliaryOf_flag hleft hright subtraction hresult)
  have hcarry := Returns.of_all (carryOf_makes hleft hright hresult subtraction)
    (carryOf_flag hleft hright subtraction hresult)
  refine (setFlagTo_sets .of hoverflow).bind (m := 25) fun _ _ => ?_
  refine (setFlagTo_sets .af hauxiliary).bind (m := 22) fun _ _ => ?_
  have hset : Sets 1 (x86SetArithmeticFlags.setCarry left right result subtraction preserveCf)
      fun _ => True := by
    unfold x86SetArithmeticFlags.setCarry
    exact .ite (fun _ => .pure DSECtx.Clear.mono trivial) fun _ => setFlagTo_sets .cf hcarry
  exact hset.bind (m := 21) fun _ _ => x86SetZspFlags_sets hresult

/-- **An instruction sets its flags**, with room for 36 nodes. -/
theorem X86ArithInsn.update_returns (insn : X86ArithInsn) (hw : 8 ≤ w) (hleft : Represents left w x)
    (hright : Represents right w y) : Sets 36 (insn.update left right) fun _ => True := by
  have hle := hleft.width_le
  have hend : ∀ {n : ℕ} {α : Type} (a : α), Sets n (Pure.pure a) fun _ => True :=
    fun a => .pure DSECtx.Clear.mono trivial
  have hboth := Makes.lift ((symExprClone_keeps hleft).both (symExprClone_keeps hright))
  have hinput := Makes.lift (symExprClone_keeps hleft)
  have hone := Makes.lift (one_makes hle)
  cases insn with
  | cmp =>
    refine hboth.bind (m := 36) fun ab hab => ?_
    refine (Makes.lift (symExprSub_makes hab.1 hab.2)).bind (m := 35) fun result hresult => ?_
    exact (x86SetArithmeticFlags_sets hw hleft hright true false hresult).mono DSECtx.Clear.mono
      (by decide)
  | sub =>
    refine Returns.bind (n := 36) (m := 0) (p := fun _ => True) ?_ fun _ _ => hend ()
    refine hboth.bind (m := 36) fun ab hab => ?_
    refine (Makes.lift (symExprSub_makes hleft hright)).bind (m := 35) fun result hresult => ?_
    exact (x86SetArithmeticFlags_sets hw hab.1 hab.2 true false hresult).bind (m := 2) fun _ _ => hend _
  | add =>
    refine Returns.bind (n := 36) (m := 0) (p := fun _ => True) ?_ fun _ _ => hend ()
    refine hboth.bind (m := 36) fun ab hab => ?_
    refine (Makes.lift (symExprAdd_makes hleft hright)).bind (m := 35) fun result hresult => ?_
    exact (x86SetArithmeticFlags_sets hw hab.1 hab.2 false false hresult).bind (m := 2) fun _ _ => hend _
  | neg =>
    rw [update, hleft.width]
    refine Returns.bind (n := 36) (m := 0) (p := fun _ => True) ?_ fun _ _ => hend ()
    refine hinput.bind (m := 36) fun input hinput => ?_
    refine (Makes.lift (symExprNeg_makes hleft)).bind (m := 34) fun result hresult => ?_
    refine (Makes.lift (zero_makes hle)).attempt.bind (m := 33) fun zero hzero => ?_
    obtain ⟨e, rfl, he⟩ := hzero
    have hresult := hresult.congr fun σ => (BitVec.zero_sub (x σ)).symm
    exact (x86SetArithmeticFlags_sets hw he hinput true false hresult).bind (m := 0) fun _ _ => hend _
  | inc =>
    rw [update, hleft.width]
    refine Returns.bind (n := 36) (m := 0) (p := fun _ => True) ?_ fun _ _ => hend ()
    refine hinput.bind (m := 36) fun input hinput => ?_
    refine hone.bind (m := 35) fun one hone' => ?_
    refine (Makes.lift (symExprAdd_makes hleft hone')).bind (m := 34) fun result hresult => ?_
    refine hone.attempt.bind (m := 33) fun one hone => ?_
    obtain ⟨e, rfl, he⟩ := hone
    exact (x86SetArithmeticFlags_sets hw hinput he false true hresult).bind (m := 0) fun _ _ => hend _
  | dec =>
    rw [update, hleft.width]
    refine Returns.bind (n := 36) (m := 0) (p := fun _ => True) ?_ fun _ _ => hend ()
    refine hinput.bind (m := 36) fun input hinput => ?_
    refine hone.bind (m := 35) fun one hone' => ?_
    refine (Makes.lift (symExprSub_makes hleft hone')).bind (m := 34) fun result hresult => ?_
    refine hone.attempt.bind (m := 33) fun one hone => ?_
    obtain ⟨e, rfl, he⟩ := hone
    exact (x86SetArithmeticFlags_sets hw hinput he true true hresult).bind (m := 0) fun _ _ => hend _

end Update

/-! ### Conditions -/

/-- There is room, and some flags have values. -/
structure DSECtx.Ready (flags : List X86Flag) (n : ℕ) (ctx : DSECtx) : Prop where
  room : ctx.exprs.Room n
  wellFormed : ctx.WellFormed
  live : ∀ flag ∈ flags, ctx.Live flag

section Ready

variable {flags : List X86Flag} (aux : InsnAux)

theorem DSECtx.Ready.mono {n m : ℕ} {ctx : DSECtx} (hle : n ≤ m) (h : ctx.Ready flags m) :
    ctx.Ready flags n :=
  ⟨h.room.mono hle, h.wellFormed, h.live⟩

abbrev Gets (flags : List X86Flag) (n : ℕ) (x : Fallible DSECtx SymExpr) : Prop :=
  Returns (DSECtx.Ready flags) n x fun e => ∃ q : Valuation → Bool, RepresentsBit e q

theorem Makes.gets {n : ℕ} {x : Fallible ExprCtx SymExpr}
    (hx : Makes n x fun e => ∃ q : Valuation → Bool, RepresentsBit e q) : Gets flags n (exprStep x) := by
  intro rest ctx hctx
  obtain ⟨a, exprs, ha, hp, hrest⟩ := hx rest ctx.exprs hctx.room
  have hrun : exprStep x ctx = (some a, { ctx with exprs := exprs }) := by
    show (match x ctx.exprs with | (result, s) => (result, _)) = _
    rw [ha]
  have hsame := exprStep_sameState x ctx
  rw [hrun] at hsame
  exact ⟨a, _, hrun, hp, hrest, hsame.wellFormed hctx.wellFormed,
    fun flag hflag => (hctx.live flag hflag).of_grows hsame.grows⟩

theorem dseGetX86Flag_gets {flag : X86Flag} (hflag : flag ∈ flags) :
    Gets flags 0 (dseGetX86Flag aux flag) := by
  intro rest ctx hctx
  obtain ⟨hpoisoned, e, hslot⟩ := hctx.live flag hflag
  have hbit : ∃ q : Valuation → Bool, RepresentsBit e q :=
    ⟨_, (hctx.wellFormed.flags flag e hslot).represents.congr fun σ => eq_ofBool_beq_one _⟩
  have hcopy : Makes 0 (symExprClone e) fun e => ∃ q : Valuation → Bool, RepresentsBit e q :=
    (symExprClone_makes e).imp fun _ hcopy => hcopy ▸ hbit
  obtain ⟨copy, ctx', hrun, hresult, hrest⟩ := Makes.gets hcopy rest ctx hctx
  refine ⟨copy, ctx', orPathFailure_eq_some.mpr ?_, hresult, hrest⟩
  dsimp only
  rw [if_neg (by rw [hpoisoned]; decide), hslot]
  exact hrun

theorem notOf_gets {n : ℕ} {x : Fallible DSECtx SymExpr} (hx : Gets flags n x) :
    Gets flags (n + 2) (notOf x) :=
  hx.bind fun _ ⟨_, he⟩ => Makes.gets ((x86FlagNot_makes he).imp fun _ h => ⟨_, h⟩)

theorem combine_gets {operation : SymExpr → SymExpr → Fallible ExprCtx SymExpr} {n m : ℕ}
    (hop : ∀ {a b : SymExpr} {f g : Valuation → Bool}, RepresentsBit a f → RepresentsBit b g →
      Makes 1 (operation a b) fun e => ∃ q : Valuation → Bool, RepresentsBit e q)
    {x y : Fallible DSECtx SymExpr} (hx : Gets flags n x) (hy : Gets flags m y) :
    Gets flags (n + m + 1) (combine operation x y) := by
  refine (hx.both hy).bind (m := 1) fun ab hab => ?_
  obtain ⟨⟨f, hf⟩, g, hg⟩ := hab
  exact Makes.gets (hop hf hg)

/-- A condition whose flags have values is computed, with room for 4 nodes. -/
theorem x86ConditionExpr_returns {condition : X86ConditionCode} (hcondition : condition ≠ .none) :
    Gets condition.flags 4 (x86ConditionExpr aux condition) := by
  have hor : ∀ {a b : SymExpr} {f g : Valuation → Bool}, RepresentsBit a f → RepresentsBit b g →
      Makes 1 (symExprOr a b) fun e => ∃ q : Valuation → Bool, RepresentsBit e q := fun ha hb =>
    Returns.of_all ((symExprOr_makes ha hb).imp fun _ _ => trivial)
      ((symExprOr_bit ha hb).mono fun _ he => ⟨_, he⟩)
  have hxor : ∀ {a b : SymExpr} {f g : Valuation → Bool}, RepresentsBit a f → RepresentsBit b g →
      Makes 1 (symExprXor a b) fun e => ∃ q : Valuation → Bool, RepresentsBit e q := fun ha hb =>
    Returns.of_all ((symExprXor_makes ha hb).imp fun _ _ => trivial)
      ((symExprXor_bit ha hb).mono fun _ he => ⟨_, he⟩)
  have hget : ∀ flag, flag ∈ condition.flags → Gets condition.flags 0 (dseGetX86Flag aux flag) :=
    fun _ => dseGetX86Flag_gets aux
  have hmore : ∀ {n} {x : Fallible DSECtx SymExpr}, Gets condition.flags n x → n ≤ 4 →
      Gets condition.flags 4 x := fun hx hle => Returns.mono hx DSECtx.Ready.mono hle
  cases condition with
  | none => exact absurd rfl hcondition
  | o | b | e | s | p => exact hmore (hget _ List.mem_cons_self) (by decide)
  | no | ae | ne | ns | np => exact hmore (notOf_gets (hget _ List.mem_cons_self)) (by decide)
  | be => exact hmore (combine_gets hor (hget .cf (by decide)) (hget .zf (by decide))) (by decide)
  | a => exact hmore (notOf_gets (combine_gets hor (hget .cf (by decide)) (hget .zf (by decide)))) (by decide)
  | l => exact hmore (combine_gets hxor (hget .sf (by decide)) (hget .of (by decide))) (by decide)
  | ge => exact hmore (notOf_gets (combine_gets hxor (hget .sf (by decide)) (hget .of (by decide)))) (by decide)
  | le =>
    have hless := combine_gets hxor (hget .sf (by decide)) (hget .of (by decide))
    exact hmore (combine_gets hor (hget .zf (by decide)) hless) (by decide)
  | g =>
    have hless := combine_gets hxor (hget .sf (by decide)) (hget .of (by decide))
    exact notOf_gets (combine_gets hor (hget .zf (by decide)) hless)

end Ready

/-- **The condition of a branch after an arithmetic instruction is the relation of its operands.** After a
comparison they are compared, and an instruction that leaves the carry flag alone leaves it as it was; with
room for 40 nodes the condition is computed. -/
theorem arithmetic_condition (insn : X86ArithInsn) (condition : X86ConditionCode) {left right : SymExpr}
    {w : ℕ} (hw : 8 ≤ w) {x y : Valuation → BitVec w} (hleft : Represents left w x)
    (hright : Represents right w y) {ctx : DSECtx} (hctx : ctx.WellFormed) (aux : InsnAux) :
    (∀ ctx₁ e ctx₂, insn.update left right ctx = (some (), ctx₁) →
      x86ConditionExpr aux condition ctx₁ = (some e, ctx₂) →
        (∀ σ, e.bits 1 σ =
          BitVec.ofBool (insn.relation condition (x σ) (y σ) (ctx₂.flagBit .cf σ))) ∧
        (insn = .cmp ∨ insn = .sub → ∀ (σ : Valuation) (b : Bool),
          X86ArithInsn.comparison condition (x σ) (y σ) = some b → e.bits 1 σ = BitVec.ofBool b) ∧
        (insn.keepsCarry → .cf ∈ condition.flags →
          ctx₁.state.x86Flags .cf = ctx.state.x86Flags .cf ∧
            ∀ c, ctx.state.x86Flags .cf = some c → ctx₂.flagBit .cf = ctx.flagBit .cf)) ∧
    (condition ≠ .none → ctx.Clear 40 → (insn.keepsCarry → ctx.state.x86Flags .cf ≠ none) →
      ∃ ctx₁ e ctx₂, insn.update left right ctx = (some (), ctx₁) ∧
        x86ConditionExpr aux condition ctx₁ = (some e, ctx₂)) := by
  constructor
  · intro ctx₁ e ctx₂ hupdate hcondition
    obtain ⟨hrelation, hcompare, hcarry⟩ :=
      condition_after_arithmetic insn condition (by omega) hleft hright hctx hupdate hcondition
    exact ⟨hrelation.bits, hcompare, hcarry⟩
  · intro hcondition hclear hcf
    obtain ⟨_, ctx₁, hupdate, -, hclear₁⟩ := insn.update_returns hw hleft hright 4 ctx hclear
    have hknown := insn.update_knows hleft hright ctx () ctx₁ hctx.knows hupdate
    -- a flag that has not been given up has a value
    have hlive : ∀ flag, ctx₁.Live flag := by
      intro flag
      have hpoisoned := hclear₁.poisoned flag
      refine ⟨hpoisoned, ?_⟩
      have hflag := hknown.flag flag
      rw [X86ArithInsn.knownAfter, hpoisoned] at hflag
      by_cases hkept : insn.keepsCarry ∧ flag = .cf
      · rw [if_pos hkept] at hflag
        rcases hflag with hfalse | ⟨hslot, -⟩
        · exact absurd hfalse (by decide)
        · rw [hslot]
          exact Option.ne_none_iff_exists'.mp (hcf hkept.1)
      · rw [if_neg hkept] at hflag
        rcases hflag with hfalse | ⟨e, he, -⟩
        · exact absurd hfalse (by decide)
        · exact ⟨e, he⟩
    obtain ⟨e, ctx₂, hrun, -, -⟩ := x86ConditionExpr_returns aux hcondition 0 ctx₁
      ⟨hclear₁.room, hknown.wellFormed, fun flag _ => hlive flag⟩
    exact ⟨ctx₁, e, ctx₂, hupdate, hrun⟩

/-- A byte is compared with -128, and is not less. -/
theorem plainByte_less_than_min :
    ∃ ctx₁ e ctx₂, X86ArithInsn.cmp.update plainByte (.const ⟨2, 8, false⟩ 0x80) emptyCtx = (some (), ctx₁) ∧
      x86ConditionExpr .zero .l ctx₁ = (some e, ctx₂) ∧ ∀ σ, e.bits 1 σ = 0#1 := by
  have hleft : Represents plainByte 8 (plainByte.bits 8) := .of_width ⟨by decide, rfl⟩ rfl
  have hright : Represents (.const ⟨2, 8, false⟩ 0x80) 8 fun _ => 0x80#8 :=
    ⟨⟨by decide, rfl, by decide⟩, rfl, fun σ => rfl⟩
  have hcondition := arithmetic_condition .cmp .l (by decide) hleft hright emptyCtx_wellFormed .zero
  have hclear : emptyCtx.Clear 40 := ⟨⟨fun _ => rfl, rfl, by decide⟩, fun _ => rfl⟩
  obtain ⟨ctx₁, e, ctx₂, hupdate, hrun⟩ := hcondition.2 (by decide) hclear (by decide)
  refine ⟨ctx₁, e, ctx₂, hupdate, hrun, fun σ => ?_⟩
  refine (hcondition.1 ctx₁ e ctx₂ hupdate hrun).2.1 (.inl rfl) σ false ?_
  show some ((plainByte.bits 8 σ).slt 0x80#8) = some false
  generalize plainByte.bits 8 σ = b
  revert b
  decide

end TaintForge
