import TaintForge.Dse.Equiv.Replay
import TaintForge.Dse.Solver

/-!
# The terms of the solver mean the expressions

* `Denotes`: a term means an expression when the constants are its variables.
* `symExprToZ3_keeps`: the translation makes such terms, and keeps only such terms.
* `SolverReachable`: the states that translations lead to.
* `replay_agrees_with_solver`: a value that the evaluator returns is that of the term.
-/

namespace TaintForge

open Fallible

/-- An interpretation as a valuation of the variables. -/
def Interp.valuation (I : Interp) : Valuation := fun symbol w => I (z3VarName symbol.id) w

/-- Different variables are different constants. -/
theorem z3VarName_injective {a b : ℕ} (h : z3VarName a = z3VarName b) : a = b := by
  have hrepr : a.repr = b.repr := (String.append_right_inj _).mp h
  have hdigits := congrArg String.toList hrepr
  rw [Nat.toList_repr, Nat.toList_repr] at hdigits
  calc a = Nat.ofDigitChars 10 (Nat.toDigits 10 a) 0 :=
        (Nat.ofDigitChars_toDigits (by decide) (by decide)).symm
    _ = Nat.ofDigitChars 10 (Nat.toDigits 10 b) 0 := by rw [hdigits]
    _ = b := Nat.ofDigitChars_toDigits (by decide) (by decide)

open Classical in
/-- There is an interpretation with the observed values. -/
theorem exists_interp_agrees (observedValues : ℕ → Option DseObservedValue) :
    ∃ I : Interp, Agrees observedValues I.valuation := by
  refine ⟨fun name w => if h : ∃ id, z3VarName id = name then
    ((observedValues h.choose).elim 0 (·.value)).setWidth w else 0, fun symbol observed hobserved => ?_⟩
  have hname : ∃ id, z3VarName id = z3VarName symbol.id := ⟨symbol.id, rfl⟩
  have hid : hname.choose = symbol.id := z3VarName_injective hname.choose_spec
  show (if h : ∃ id, z3VarName id = z3VarName symbol.id then _ else _) = _
  rw [dif_pos hname, hid, hobserved]
  rfl

section Translation

variable {z3 : Z3Api}

/-- A term means an expression. -/
def Denotes (z3 : Z3Api) (e : SymExpr) (t : z3.Ast) : Prop :=
  z3.meaning t = .bits e.width fun I => e.bits e.width I.valuation

theorem Denotes.of_width {e : SymExpr} {t : z3.Ast} {w : ℕ} (hw : e.width = w)
    (h : z3.meaning t = .bits w fun I => e.bits w I.valuation) : Denotes z3 e t := by
  subst hw
  exact h

/-- The terms that are kept mean their expressions, which are among those of a pool. -/
def CacheSound (pool : List SymExpr) (s : SolverCtx z3) : Prop :=
  ∀ entry ∈ s.cache, entry.1 ∈ pool ∧ Denotes z3 entry.1 entry.2

variable {pool : List SymExpr}

/-- A call of the solver changes nothing that is kept. -/
theorem solverCall_keeps {α : Type} {call : Fallible z3.Ctx α} {p : α → Prop} (h : call.All p) :
    Keeps (CacheSound pool) (solverCall call : Fallible (SolverCtx z3) α) p :=
  Keeps.within h fun _ _ hs => hs

theorem dseZ3CacheAndReturn_keeps {e : SymExpr} (he : e ∈ pool) {t : z3.Ast} (ht : Denotes z3 e t) :
    Keeps (CacheSound pool) (dseZ3CacheAndReturn e t) (Denotes z3 e) := by
  intro s hs
  rw [dseZ3CacheAndReturn]
  split
  · exact ⟨hs, fun a ha => nomatch ha⟩
  · dsimp only
    rcases hkey : symExprClone e s.exprs with ⟨_ | key, exprs⟩
    · exact ⟨hs, fun a ha => nomatch ha⟩
    · -- the key is the node itself, with one more reference
      obtain rfl := symExprClone_eq e _ _ _ hkey
      refine ⟨fun entry hentry => ?_, fun a ha => Option.some.inj ha ▸ ht⟩
      rcases List.mem_cons.mp hentry with rfl | hold
      · exact ⟨he, ht⟩
      · exact hs entry hold

/-- A term is found or built. -/
theorem cachedTerm_keeps (hpool : Coherent pool) {e : SymExpr} (he : e ∈ pool)
    {build : Fallible (SolverCtx z3) z3.Ast} (hbuild : Keeps (CacheSound pool) build (Denotes z3 e)) :
    Keeps (CacheSound pool) (cachedTerm e build) (Denotes z3 e) := by
  intro s hs
  rw [cachedTerm]
  by_cases hlimit : s.exprs.resourceLimitHit = true
  · rw [if_pos hlimit]
    exact ⟨hs, fun a ha => nomatch ha⟩
  rw [if_neg hlimit]
  rcases hlookup : dseZ3CacheLookup s e with _ | cached
  · exact (hbuild.bind fun t ht => dseZ3CacheAndReturn_keeps he ht) s hs
  · refine ⟨hs, fun a ha => ?_⟩
    obtain rfl := Option.some.inj ha
    rw [dseZ3CacheLookup, Option.map_eq_some_iff] at hlookup
    obtain ⟨entry, hfind, rfl⟩ := hlookup
    have haddr := List.find?_some hfind
    rw [decide_eq_true_iff] at haddr
    obtain ⟨hmem, hdenotes⟩ := hs entry (List.mem_of_find?_eq_some hfind)
    rwa [hpool entry.1 hmem e he haddr] at hdenotes

/-! ### Operators -/

section Operators

variable (laws : z3.Lawful)

include laws

theorem mkNumber_means (value : BitVec 64) (w : ℕ) :
    (z3.mkNumber value w).All fun t => z3.meaning t = .bits w fun _ => value.setWidth w := by
  refine (laws.mkBvSort w).bind fun s hs => ?_
  subst hs
  exact laws.mkUnsignedInt64 value s

theorem boolToBv1_means {relation : z3.Ast} {h : Interp → Bool}
    (hrelation : z3.meaning relation = .truth h) :
    (z3.boolToBv1 relation).All fun t => z3.meaning t = .bits 1 fun I => BitVec.ofBool (h I) := by
  refine (laws.mkBvSort 1).bind fun s hs => ?_
  refine (laws.mkUnsignedInt64 1 s).bind fun one hone => ?_
  refine (laws.mkUnsignedInt64 0 s).bind fun zero hzero => ?_
  rw [hs] at hone hzero
  refine (laws.mkIte hrelation hone hzero).mono fun t ht => ht.trans ?_
  congr 1
  funext I
  cases h I <;> rfl

/-- An operation on terms of one width. -/
theorem mkOperator_arith {op : SymBinary} (hop : op.IsArith) {a b : z3.Ast} {w : ℕ}
    {f g : Interp → BitVec w} (ha : z3.meaning a = .bits w f) (hb : z3.meaning b = .bits w g) :
    (z3.mkOperator op a b).All fun t => z3.meaning t = .bits w fun I => op.onBits (f I) (g I) := by
  cases op with
  | add => exact (laws.mkBvadd ha hb).bind fun t ht => .pure ht
  | sub => exact (laws.mkBvsub ha hb).bind fun t ht => .pure ht
  | mul => exact (laws.mkBvmul ha hb).bind fun t ht => .pure ht
  | xor => exact (laws.mkBvxor ha hb).bind fun t ht => .pure ht
  | and => exact (laws.mkBvand ha hb).bind fun t ht => .pure ht
  | or => exact (laws.mkBvor ha hb).bind fun t ht => .pure ht
  | shl => exact (laws.mkBvshl ha hb).bind fun t ht => .pure ht
  | lshr => exact (laws.mkBvlshr ha hb).bind fun t ht => .pure ht
  | ashr => exact (laws.mkBvashr ha hb).bind fun t ht => .pure ht
  | concat | eq | ult | slt => exact absurd hop (by decide)

/-- A relation of terms of one width. -/
theorem mkOperator_relation {op : SymBinary} (hop : op.IsRelation) {a b : z3.Ast} {w : ℕ}
    {f g : Interp → BitVec w} (ha : z3.meaning a = .bits w f) (hb : z3.meaning b = .bits w g) :
    (z3.mkOperator op a b).All fun t =>
      z3.meaning t = .bits 1 fun I => BitVec.ofBool (op.holds (f I) (g I)) := by
  cases op with
  | eq => exact (laws.mkEq ha hb).bind fun t ht => boolToBv1_means laws ht
  | ult => exact (laws.mkBvult ha hb).bind fun t ht => boolToBv1_means laws ht
  | slt => exact (laws.mkBvslt ha hb).bind fun t ht => boolToBv1_means laws ht
  | add | sub | mul | xor | and | or | shl | lshr | ashr | concat => exact absurd hop (by decide)

/-- The operator of a node makes the term of the node. -/
theorem mkOperator_denotes {h : SymHeader} {op : SymBinary} {a b : SymExpr}
    (hwf : (SymExpr.binary h op a b).WellFormed) {left right : z3.Ast} (hleft : Denotes z3 a left)
    (hright : Denotes z3 b right) :
    (z3.mkOperator op left right).All (Denotes z3 (.binary h op a b)) := by
  obtain ⟨hw, -, hfits, ha, hb⟩ := hwf
  rw [Denotes] at hleft hright
  rcases op.isArith_or with hop | hop | rfl
  · obtain ⟨hwa, hwb⟩ := hfits.of_arith hop
    rw [hwa] at hleft
    rw [hwb] at hright
    refine (mkOperator_arith laws hop hleft hright).mono fun t ht => .of_width rfl (ht.trans ?_)
    congr 1
    ext1 I
    exact (SymExpr.bits_arith I.valuation hop rfl).symm
  · obtain ⟨hone, hsame⟩ := hfits.of_relation hop
    rw [← hsame] at hright
    refine (mkOperator_relation laws hop hleft hright).mono fun t ht => .of_width hone (ht.trans ?_)
    congr 1
    ext1 I
    exact (SymExpr.bits_relation I.valuation hop hone rfl).symm
  · refine (laws.mkConcat hleft hright).bind fun t ht => .pure (.of_width hfits (ht.trans ?_))
    congr 1
    ext1 I
    exact (SymExpr.bits_concat I.valuation hfits rfl rfl).symm

/-! ### The translation -/

/-- **The translation makes terms that mean the expressions**, and keeps such terms only. -/
theorem symExprToZ3_keeps (hpool : Coherent pool) {e : SymExpr} (hwf : e.WellFormed)
    (hsub : e.subterms ⊆ pool) :
    Keeps (CacheSound pool) (symExprToZ3 e : Fallible (SolverCtx z3) z3.Ast) (Denotes z3 e) := by
  have he : e ∈ pool := hsub e.mem_subterms_self
  induction e with
  | const h value =>
    refine cachedTerm_keeps hpool he (solverCall_keeps ?_)
    refine (mkNumber_means laws value h.width).mono fun t ht => .of_width rfl (ht.trans ?_)
    congr 1
    ext1 I
    exact ((BitVec.ofNat_toNat _ _).trans (BitVec.setWidth_eq _)).symm
  | var h symbol =>
    refine cachedTerm_keeps hpool he ?_
    refine (solverCall_keeps (laws.mkBvSort h.width)).bind fun s hs => solverCall_keeps ?_
    refine (laws.mkConst (z3VarName symbol.id) s).mono fun t ht => .of_width hs.symm (ht.trans ?_)
    congr 1
    ext1 I
    show _ = BitVec.ofNat (z3.width s) (I (z3VarName symbol.id) h.width).toNat
    rw [← hs, BitVec.ofNat_toNat, BitVec.setWidth_eq]
  | binary h op a b iha ihb =>
    obtain ⟨hsuba, hsubb⟩ := SymExpr.binary_subset hsub
    have ha := iha hwf.2.2.2.1 hsuba (hsuba a.mem_subterms_self)
    have hb := ihb hwf.2.2.2.2 hsubb (hsubb b.mem_subterms_self)
    refine cachedTerm_keeps hpool he ((ha.both hb).bind fun terms hterms => ?_)
    exact solverCall_keeps (mkOperator_denotes laws hwf hterms.1 hterms.2)
  | unary h op a high low iha =>
    have hsuba := SymExpr.unary_subset hsub
    have ha := iha hwf.2.2.2 hsuba (hsuba a.mem_subterms_self)
    have hfits := hwf.2.2.1
    refine cachedTerm_keeps hpool he (ha.bind fun operand hoperand => ?_)
    cases op with
    | extract =>
      obtain ⟨hrange, hhigh⟩ := hfits
      refine solverCall_keeps ((laws.mkExtract hoperand (by omega) hhigh).mono fun t ht => ?_)
      refine .of_width rfl (ht.trans ?_)
      congr 1
      ext1 I
      exact (SymExpr.bits_extract I.valuation high low).symm
    | zext =>
      have hle : a.width ≤ h.width := hfits
      refine solverCall_keeps ((laws.mkZeroExt hoperand (Nat.add_sub_cancel' hle)).mono fun t ht => ?_)
      refine .of_width rfl (ht.trans ?_)
      congr 1
      ext1 I
      exact (SymExpr.bits_zext I.valuation high low).symm
    | sext =>
      have hle : a.width ≤ h.width := hfits
      refine solverCall_keeps ((laws.mkSignExt hoperand (Nat.add_sub_cancel' hle)).mono fun t ht => ?_)
      refine .of_width rfl (ht.trans ?_)
      congr 1
      ext1 I
      exact (SymExpr.bits_sext I.valuation high low).symm
  | ternary h c t f ihc iht ihf =>
    obtain ⟨hw, hvar, ⟨hcw, htw, hfw⟩, hwfc, hwft, hwff⟩ := hwf
    obtain ⟨hsubc, hsubt, hsubf⟩ := SymExpr.ternary_subset hsub
    have hc := ihc hwfc hsubc (hsubc c.mem_subterms_self)
    have ht := iht hwft hsubt (hsubt t.mem_subterms_self)
    have hf := ihf hwff hsubf (hsubf f.mem_subterms_self)
    refine cachedTerm_keeps hpool he ((hc.both (ht.both hf)).bind fun terms hterms => ?_)
    obtain ⟨condition, whenTrue, whenFalse⟩ := terms
    obtain ⟨hcond, htrue, hfalse⟩ := hterms
    rw [Denotes] at hcond htrue hfalse
    rw [hcw] at hcond
    rw [htw] at htrue
    rw [hfw] at hfalse
    refine (solverCall_keeps (mkNumber_means laws 1 1)).bind fun one hone => ?_
    refine (solverCall_keeps (laws.mkEq hcond hone)).bind fun conditionBool hbool => ?_
    refine solverCall_keeps ((laws.mkIte hbool htrue hfalse).mono fun term hterm => ?_)
    refine .of_width rfl (hterm.trans ?_)
    congr 1
    ext1 I
    refine Eq.trans ?_ (SymExpr.bits_ternary I.valuation).symm
    show (if (c.bits 1 I.valuation == 1#1) = true then _ else _) = _
    simp only [beq_iff_eq]
    rfl

end Operators

/-! ### Every state of the solver -/

/-- The states of the solver: the cache is empty, other changes leave it alone, and an expression may be
translated whose nodes are in one memory with those that the cache keeps alive. -/
inductive SolverReachable : SolverCtx z3 → Prop where
  | empty {s : SolverCtx z3} : s.cache = [] → SolverReachable s
  | other {s s' : SolverCtx z3} : SolverReachable s → s'.cache = s.cache → SolverReachable s'
  | translate {s : SolverCtx z3} {e : SymExpr} : SolverReachable s → e.WellFormed →
      Coherent ((e :: s.cache.map Prod.fst).flatMap SymExpr.subterms) →
      SolverReachable (symExprToZ3 e s).2

/-- The nodes of an expression and of those that are kept. -/
theorem cacheSound_pool {s : SolverCtx z3} (hs : ∀ entry ∈ s.cache, Denotes z3 entry.1 entry.2)
    (e : SymExpr) : CacheSound ((e :: s.cache.map Prod.fst).flatMap SymExpr.subterms) s :=
  fun entry hentry => ⟨List.mem_flatMap.mpr ⟨entry.1,
    List.mem_cons_of_mem _ (List.mem_map_of_mem hentry), entry.1.mem_subterms_self⟩, hs entry hentry⟩

theorem subterms_subset_pool (s : SolverCtx z3) (e : SymExpr) :
    e.subterms ⊆ (e :: s.cache.map Prod.fst).flatMap SymExpr.subterms :=
  fun _ hx => List.mem_flatMap.mpr ⟨e, List.mem_cons_self, hx⟩

/-- **Every term that is kept means its expression.** -/
theorem SolverReachable.denotes (laws : z3.Lawful) {s : SolverCtx z3} (h : SolverReachable s) :
    ∀ entry ∈ s.cache, Denotes z3 entry.1 entry.2 := by
  induction h with
  | empty hempty =>
    rw [hempty]
    exact fun entry hentry => nomatch hentry
  | other _ hsame ih =>
    rw [hsame]
    exact ih
  | @translate s e _ hwf hshared ih =>
    have hkept := (symExprToZ3_keeps laws hshared hwf (subterms_subset_pool s e) s
      (cacheSound_pool ih e)).1
    exact fun entry hentry => (hkept entry hentry).2

/-- **The evaluator and the solver agree**: the value of an expression under the observed values is that of
its term under every interpretation with these values, of which there is one, and it is only found when
every variable it depends on has been observed. -/
theorem replay_agrees_with_solver (laws : z3.Lawful) {s : SolverCtx z3} (hs : SolverReachable s)
    {e : SymExpr} (hwf : e.WellFormed)
    (hshared : Coherent ((e :: s.cache.map Prod.fst).flatMap SymExpr.subterms))
    {observedValues : ℕ → Option DseObservedValue} {heap heap' : Heap} {value : BitVec 64}
    (heval : dseEvalExprObserved observedValues e heap = (.ok value, heap')) :
    (∀ t s', symExprToZ3 e s = (some t, s') →
      ∃ f, z3.meaning t = .bits e.width f ∧
        ∀ I : Interp, Agrees observedValues I.valuation → (f I).toNat = value.toNat) ∧
    (∃ I : Interp, Agrees observedValues I.valuation) ∧
    ∀ σ, Agrees observedValues σ → ∀ v ∈ e.visited σ,
      ∃ observed, observedValues v.2.id = some observed ∧ observed.width = v.1 := by
  have hsub := subterms_subset_pool s e
  have hvalue := dseEvalExprObserved_sound hwf
    (fun x hx y hy => hshared x (hsub hx) y (hsub hy)) heval
  refine ⟨fun t s' ht => ⟨fun I => e.bits e.width I.valuation, ?_, fun I hI => ?_⟩,
    exists_interp_agrees observedValues, fun σ hσ => (hvalue σ hσ).2⟩
  · have hterm := (symExprToZ3_keeps laws hshared hwf hsub s (cacheSound_pool (hs.denotes laws) e)).2
    exact hterm t (congrArg Prod.fst ht)
  · rw [(hvalue _ hI).1, toNat_word hwf.width_le.2]

end Translation

/-! ### A solver whose terms are their meanings -/

/-- A call for an operation on terms of one width. -/
def meaningBinary (operation : {w : ℕ} → BitVec w → BitVec w → BitVec w) :
    Z3Meaning → Z3Meaning → Fallible Unit Z3Meaning
  | .bits w f, .bits v g =>
    if w = v then pure (.bits w fun I => operation (f I) ((g I).setWidth w)) else .fail
  | _, _ => .fail

def meaningRelation (relation : {w : ℕ} → BitVec w → BitVec w → Bool) :
    Z3Meaning → Z3Meaning → Fallible Unit Z3Meaning
  | .bits w f, .bits v g =>
    if w = v then pure (.truth fun I => relation (f I) ((g I).setWidth w)) else .fail
  | _, _ => .fail

/-- The calls compute meanings. -/
def z3Meanings : Z3Api where
  Ctx := Unit
  BvSort := ℕ
  Ast := Z3Meaning
  width := id
  meaning := id
  mkBvSort w := pure w
  mkUnsignedInt64 value w := pure (.bits w fun _ => value.setWidth w)
  mkConst name w := pure (.bits w fun I => I name w)
  mkBvadd := meaningBinary fun x y => x + y
  mkBvsub := meaningBinary fun x y => x - y
  mkBvmul := meaningBinary fun x y => x * y
  mkBvxor := meaningBinary fun x y => x ^^^ y
  mkBvand := meaningBinary fun x y => x &&& y
  mkBvor := meaningBinary fun x y => x ||| y
  mkBvshl := meaningBinary fun x y => x <<< y
  mkBvlshr := meaningBinary fun x y => x >>> y
  mkBvashr := meaningBinary fun x y => x.sshiftRight' y
  mkConcat
    | .bits v f, .bits w g => pure (.bits (v + w) fun I => f I ++ g I)
    | _, _ => .fail
  mkEq := meaningRelation fun x y => x == y
  mkBvult := meaningRelation fun x y => x.ult y
  mkBvslt := meaningRelation fun x y => x.slt y
  mkIte
    | .truth h, .bits w f, .bits v g =>
      if w = v then pure (.bits w fun I => if h I then f I else (g I).setWidth w) else .fail
    | _, _, _ => .fail
  mkZeroExt
    | n, .bits w f => pure (.bits (w + n) fun I => (f I).setWidth (w + n))
    | _, _ => .fail
  mkSignExt
    | n, .bits w f => pure (.bits (w + n) fun I => (f I).signExtend (w + n))
    | _, _ => .fail
  mkExtract
    | high, low, .bits w f =>
      if low ≤ high ∧ high < w then
        pure (.bits (high + 1 - low) fun I => (f I).extractLsb' low (high + 1 - low))
      else .fail
    | _, _, _ => .fail

theorem meaningBinary_computes (operation : {w : ℕ} → BitVec w → BitVec w → BitVec w) :
    z3Meanings.Computes (meaningBinary operation) operation := by
  rintro a b w f g rfl rfl
  refine .ite (fun _ => .pure (congrArg (Z3Meaning.bits w) (funext fun I => ?_))) fun _ => .fail
  rw [BitVec.setWidth_eq]

theorem meaningRelation_decides (relation : {w : ℕ} → BitVec w → BitVec w → Bool) :
    z3Meanings.Decides (meaningRelation relation) relation := by
  rintro a b w f g rfl rfl
  refine .ite (fun _ => .pure (congrArg Z3Meaning.truth (funext fun I => ?_))) fun _ => .fail
  rw [BitVec.setWidth_eq]

theorem z3Meanings_lawful : z3Meanings.Lawful where
  mkBvSort w := .pure rfl
  mkUnsignedInt64 value w := .pure rfl
  mkConst name w := .pure rfl
  mkBvadd := meaningBinary_computes _
  mkBvsub := meaningBinary_computes _
  mkBvmul := meaningBinary_computes _
  mkBvxor := meaningBinary_computes _
  mkBvand := meaningBinary_computes _
  mkBvor := meaningBinary_computes _
  mkBvshl := meaningBinary_computes _
  mkBvlshr := meaningBinary_computes _
  mkBvashr := meaningBinary_computes _
  mkEq := meaningRelation_decides _
  mkBvult := meaningRelation_decides _
  mkBvslt := meaningRelation_decides _
  mkConcat := by
    rintro a b v w f g rfl rfl
    exact .pure rfl
  mkIte := by
    rintro c a b w h f g rfl rfl rfl
    refine .ite (fun _ => .pure (congrArg (Z3Meaning.bits w) (funext fun I => ?_))) fun _ => .fail
    rw [BitVec.setWidth_eq]
  mkZeroExt := by
    rintro n v w a f rfl rfl
    exact .pure rfl
  mkSignExt := by
    rintro n v w a f rfl rfl
    exact .pure rfl
  mkExtract := by
    rintro high low v w a f rfl hhigh hwidth
    obtain rfl : v = high + 1 - low := by omega
    exact .ite (fun _ => .pure rfl) fun _ => .fail

/-- A byte with something added, where the byte has been observed. -/
theorem plainByte_plus_seven :
    ∃ t s', symExprToZ3 (.binary ⟨3, 8, true⟩ .add plainByte (.const ⟨2, 8, false⟩ 7))
        (⟨(), plainCtx, []⟩ : SolverCtx z3Meanings) = (some t, s') ∧
      ∃ f, z3Meanings.meaning t = .bits 8 f ∧
        ∀ I : Interp, Agrees (fun id => if id = 0 then some ⟨250, 8⟩ else none) I.valuation →
          (f I).toNat = 1 := by
  have hwf : (SymExpr.binary ⟨3, 8, true⟩ .add plainByte (.const ⟨2, 8, false⟩ 7)).WellFormed := by
    simp [plainByte, SymExpr.WellFormed, SymExpr.hasVar, SymExpr.header, SymExpr.width, SymBinary.Fits]
  have hshared : Coherent (([SymExpr.binary ⟨3, 8, true⟩ .add plainByte (.const ⟨2, 8, false⟩ 7)] :
      List SymExpr).flatMap SymExpr.subterms) := by
    unfold Coherent
    decide
  refine ⟨_, _, rfl, ?_⟩
  exact (replay_agrees_with_solver z3Meanings_lawful (s := ⟨(), plainCtx, []⟩) (.empty rfl) hwf hshared
    (show dseEvalExprObserved (fun id => if id = 0 then some ⟨250, 8⟩ else none) _ plainCtx.heap =
      (.ok 1, _) from rfl)).1 _ _ rfl

end TaintForge
