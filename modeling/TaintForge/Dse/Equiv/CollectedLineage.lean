import TaintForge.Lib.Marking
import TaintForge.Dse.Equiv.Replay
import TaintForge.Dse.RootLineage

/-!
# Collecting the lineage of an expression

An expression is a graph with shared nodes, of which each is visited once.  If nothing had to be left out, the
lineage that is collected has that of each variable of the expression.

* `Scans`: what visiting an expression adds, with a rule for each way to compose visits.
* `collect_scans`: visiting an expression.
* `collect_covers`: what is in a complete lineage.
-/

namespace TaintForge

open Marking

/-! ### Sets of ids -/

namespace DseRootSet

theorem add_complete {set : DseRootSet} {id : ℕ} (h : (dseRootSetAdd set id).complete = true) :
    set.complete = true ∧ (id ≠ 0 → id ∈ (dseRootSetAdd set id).ids) := by
  unfold dseRootSetAdd at h ⊢
  split
  · rename_i hskip
    rw [if_pos hskip] at h
    refine ⟨h, fun hne => hskip.resolve_left hne⟩
  · rename_i hskip
    rw [if_neg hskip] at h
    split
    · rename_i hfull
      rw [if_pos hfull] at h
      cases h
    · rename_i hfull
      rw [if_neg hfull] at h
      exact ⟨h, fun _ => List.mem_append_right _ (List.mem_singleton_self id)⟩

theorem subset_add (set : DseRootSet) (id : ℕ) : set.ids ⊆ (dseRootSetAdd set id).ids := by
  unfold dseRootSetAdd
  split
  · exact List.Subset.refl _
  · split
    · exact List.Subset.refl _
    · exact List.subset_append_left _ _

theorem zero_notMem_add {set : DseRootSet} (h : 0 ∉ set.ids) (id : ℕ) : 0 ∉ (dseRootSetAdd set id).ids := by
  unfold dseRootSetAdd
  split
  · exact h
  · rename_i hskip
    split
    · exact h
    · intro hmem
      obtain hmem | hmem := List.mem_append.mp hmem
      · exact h hmem
      · exact hskip (Or.inl (List.mem_singleton.mp hmem).symm)

theorem subset_addAll (set : DseRootSet) (ids : List ℕ) : set.ids ⊆ (ids.foldl dseRootSetAdd set).ids := by
  induction ids generalizing set with
  | nil => exact List.Subset.refl _
  | cons id ids ih => exact List.Subset.trans (set.subset_add id) (ih _)

theorem zero_notMem_addAll {set : DseRootSet} (h : 0 ∉ set.ids) (ids : List ℕ) :
    0 ∉ (ids.foldl dseRootSetAdd set).ids := by
  induction ids generalizing set with
  | nil => exact h
  | cons id ids ih => exact ih (zero_notMem_add h id)

/-- A set that is complete has everything that was added. -/
theorem addAll_complete {set : DseRootSet} {ids : List ℕ} (h : (ids.foldl dseRootSetAdd set).complete = true) :
    set.complete = true ∧ ∀ id ∈ ids, id ≠ 0 → id ∈ (ids.foldl dseRootSetAdd set).ids := by
  induction ids generalizing set with
  | nil => exact ⟨h, fun id hid => absurd hid List.not_mem_nil⟩
  | cons id ids ih =>
    obtain ⟨hcomplete, hrest⟩ := ih h
    obtain ⟨hset, hid⟩ := add_complete hcomplete
    refine ⟨hset, List.forall_mem_cons.mpr ⟨fun hne => ?_, hrest⟩⟩
    exact subset_addAll _ ids (hid hne)

end DseRootSet

theorem dseRootSetsMayIntersect_eq_false {left right : DseRootSet} :
    dseRootSetsMayIntersect left right = false ↔
      left.complete = true ∧ right.complete = true ∧ ∀ id ∈ left.ids, id ∉ right.ids := by
  unfold dseRootSetsMayIntersect
  simp only [Bool.or_eq_false_iff, Bool.not_eq_false', List.any_eq_false, and_assoc]
  refine and_congr_right' (and_congr_right' ?_)
  constructor
  · intro h id hid hmem
    exact h id hid (List.any_eq_true.mpr ⟨id, hmem, beq_self_eq_true id⟩)
  · intro h id hid hany
    obtain ⟨other, hother, hsame⟩ := List.any_eq_true.mp hany
    obtain rfl := beq_iff_eq.mp hsame
    exact h id hid hother

/-! ### Nodes -/

namespace SymExpr

/-- The operands of a node. -/
def children : SymExpr → Set SymExpr
  | .const _ _ => ∅
  | .var _ _ => ∅
  | .binary _ _ a b => {a, b}
  | .unary _ _ a _ _ => {a}
  | .ternary _ c t f => {c, t, f}

/-- The symbols that occur in an expression. -/
def symbols (e : SymExpr) : Set SymVar := {symbol | ∃ h, SymExpr.var h symbol ∈ e.subterms}

/-- The nodes of an expression are those that can be reached from it. -/
theorem reachable_of_mem_subterms {e x : SymExpr} (h : x ∈ e.subterms) :
    Relation.ReflTransGen (fun a b => b ∈ a.children) e x := by
  induction e with
  | const header value =>
    obtain rfl := List.mem_singleton.mp h
    exact .refl
  | var header symbol =>
    obtain rfl := List.mem_singleton.mp h
    exact .refl
  | binary header op a b iha ihb =>
    rw [subterms, List.mem_cons, List.mem_append] at h
    obtain rfl | ha | hb := h
    · exact .refl
    · exact .head (Or.inl rfl) (iha ha)
    · exact .head (Or.inr rfl) (ihb hb)
  | unary header op a high low ih =>
    obtain rfl | ha := List.mem_cons.mp h
    · exact .refl
    · exact .head rfl (ih ha)
  | ternary header c t f ihc iht ihf =>
    rw [subterms, List.mem_cons, List.mem_append, List.mem_append] at h
    obtain rfl | hc | ht | hf := h
    · exact .refl
    · exact .head (Or.inl rfl) (ihc hc)
    · exact .head (Or.inr (Or.inl rfl)) (iht ht)
    · exact .head (Or.inr (Or.inr rfl)) (ihf hf)

end SymExpr

/-! ### Collecting -/

/-- The nodes that have been visited. -/
def marked (pool : List SymExpr) (visited : List ℕ) : Set SymExpr := {x | x ∈ pool ∧ x.addr ∈ visited}

/-- The lineage of a variable is complete, and has been collected. -/
def Covered (ctx : DSECtx) (out : DseRootSet) (id : ℕ) : Prop :=
  ∃ provenance, dseRootProvenanceLookup ctx id = some provenance ∧ provenance.lineage.complete = true ∧
    ∀ lineageId ∈ provenance.lineage.ids, lineageId ≠ 0 → lineageId ∈ out.ids

theorem Covered.mono {ctx : DSECtx} {out out' : DseRootSet} {id : ℕ} (h : Covered ctx out id)
    (hsub : out.ids ⊆ out'.ids) : Covered ctx out' id := by
  obtain ⟨provenance, hlookup, hcomplete, hids⟩ := h
  exact ⟨provenance, hlookup, hcomplete, fun lineageId hmem hne => hsub (hids lineageId hmem hne)⟩

/-- What visiting adds, if nothing is left out: nodes whose operands are visited as well, and whose variables
are collected. -/
structure Scans (ctx : DSECtx) (pool : List SymExpr) (scan scan' : RootScan) : Prop where
  ids : scan.out.ids ⊆ scan'.out.ids
  complete : scan'.out.complete = true → scan.out.complete = true
  nodes : scan'.out.complete = true →
    Extends SymExpr.children (marked pool scan.visited) (marked pool scan'.visited)
  covers : scan'.out.complete = true → ∀ h symbol, SymExpr.var h symbol ∈ marked pool scan'.visited →
    SymExpr.var h symbol ∉ marked pool scan.visited → Covered ctx scan'.out symbol.id

section Scans

variable {ctx : DSECtx} {pool : List SymExpr} {scan scan' scan'' : RootScan}

namespace Scans

theorem refl (scan : RootScan) : Scans ctx pool scan scan :=
  ⟨List.Subset.refl _, id, fun _ => .refl _, fun _ _ _ hmem hnot => absurd hmem hnot⟩

theorem leftOut (scan : RootScan) : Scans ctx pool scan scan.leftOut :=
  ⟨List.Subset.refl _, nofun, nofun, nofun⟩

theorem add (scan : RootScan) (ids : List ℕ) : Scans ctx pool scan (scan.add ids) :=
  ⟨scan.out.subset_addAll ids, fun h => (DseRootSet.addAll_complete h).1, fun _ => .refl _,
    fun _ _ _ hmem hnot => absurd hmem hnot⟩

theorem trans (h : Scans ctx pool scan scan') (h' : Scans ctx pool scan' scan'') :
    Scans ctx pool scan scan'' := by
  refine ⟨List.Subset.trans h.ids h'.ids, fun hc => h.complete (h'.complete hc),
    fun hc => (h.nodes (h'.complete hc)).trans (h'.nodes hc), fun hc header symbol hmem hnot => ?_⟩
  by_cases hmid : SymExpr.var header symbol ∈ marked pool scan'.visited
  · exact (h.covers (h'.complete hc) header symbol hmid hnot).mono h'.ids
  · exact h'.covers hc header symbol hmem hmid

end Scans

/-- The node that is visited is the only one at its address. -/
theorem marked_cons (hpool : Coherent pool) {e : SymExpr} (he : e ∈ pool) (visited : List ℕ) :
    marked pool (e.addr :: visited) = insert e (marked pool visited) := by
  ext x
  rw [Set.mem_insert_iff]
  constructor
  · rintro ⟨hx, haddr⟩
    obtain haddr | hmem := List.mem_cons.mp haddr
    · exact Or.inl (hpool x hx e he haddr)
    · exact Or.inr ⟨hx, hmem⟩
  · rintro (rfl | ⟨hx, hmem⟩)
    · exact ⟨he, List.mem_cons_self⟩
    · exact ⟨hx, List.mem_cons_of_mem _ hmem⟩

/-- A node that is explored after it has been marked. -/
theorem scanNode_scans (hpool : Coherent pool) {e : SymExpr} (he : e ∈ pool) (depth : ℕ)
    {explore : RootScan → RootScan} (scan : RootScan)
    (hexplore : ∀ start : RootScan, start.visited = e.addr :: scan.visited → start.out = scan.out →
      Scans ctx pool start (explore start) ∧ ((explore start).out.complete = true →
        e.children ⊆ marked pool (explore start).visited ∧
        ∀ h symbol, e = .var h symbol → Covered ctx (explore start).out symbol.id)) :
    Scans ctx pool scan (scanNode e.header depth explore scan) ∧
      ((scanNode e.header depth explore scan).out.complete = true →
        e ∈ marked pool (scanNode e.header depth explore scan).visited) := by
  unfold scanNode
  split
  · exact ⟨.leftOut scan, nofun⟩
  · split
    · rename_i hvisited
      exact ⟨.refl scan, fun _ => ⟨he, hvisited⟩⟩
    · obtain ⟨hscans, hdone⟩ := hexplore { scan with visited := e.header.addr :: scan.visited } rfl rfl
      have hnodes := hscans.nodes
      have hcovers := hscans.covers
      dsimp only at hnodes hcovers
      rw [show e.header.addr = e.addr from rfl, marked_cons hpool he] at hnodes hcovers
      refine ⟨⟨hscans.ids, hscans.complete, fun hc => (hnodes hc).explore (hdone hc).1, ?_⟩, fun hc => ?_⟩
      · intro hc header symbol hmem hnot
        by_cases hsame : e = .var header symbol
        · exact (hdone hc).2 header symbol hsame
        · exact hcovers hc header symbol hmem fun h => h.elim (fun h => hsame h.symm) hnot
      · exact (hnodes hc).subset (Set.mem_insert e _)

theorem scanVar_scans (id : ℕ) (scan : RootScan) :
    Scans ctx pool scan (scanVar ctx id scan) ∧
      ((scanVar ctx id scan).out.complete = true → Covered ctx (scanVar ctx id scan).out id) := by
  unfold scanVar
  cases hlookup : dseRootProvenanceLookup ctx id with
  | none => exact ⟨(Scans.leftOut scan).trans (.add _ _), fun h => nomatch (DseRootSet.addAll_complete h).1⟩
  | some provenance =>
    dsimp only
    split
    · exact ⟨(Scans.leftOut scan).trans (.add _ _), fun h => nomatch (DseRootSet.addAll_complete h).1⟩
    · rename_i hcomplete
      rw [Bool.not_eq_false] at hcomplete
      exact ⟨.add _ _, fun h => ⟨provenance, hlookup, hcomplete, (DseRootSet.addAll_complete h).2⟩⟩

/-- **Visiting an expression**: it is marked, unless something is left out. -/
theorem collect_scans (hpool : Coherent pool) (e : SymExpr) (he : e.subterms ⊆ pool) (depth : ℕ)
    (scan : RootScan) :
    Scans ctx pool scan (dseExprCollectRootLineageImpl ctx e depth scan) ∧
      ((dseExprCollectRootLineageImpl ctx e depth scan).out.complete = true →
        e ∈ marked pool (dseExprCollectRootLineageImpl ctx e depth scan).visited) := by
  have hmem : e ∈ pool := he e.mem_subterms_self
  induction e generalizing depth scan with
  | const header value =>
    refine scanNode_scans hpool hmem depth scan fun start _ _ => ⟨.refl start, fun _ => ?_⟩
    exact ⟨Set.empty_subset _, nofun⟩
  | var header symbol =>
    refine scanNode_scans hpool hmem depth scan fun start _ _ => ?_
    obtain ⟨hscans, hcovered⟩ : Scans ctx pool start (scanVar ctx symbol.id start) ∧ _ :=
      scanVar_scans symbol.id start
    refine ⟨hscans, fun hc => ⟨Set.empty_subset _, fun h other hother => ?_⟩⟩
    obtain ⟨-, rfl⟩ := SymExpr.var.inj hother
    exact hcovered hc
  | binary header op a b iha ihb =>
    obtain ⟨ha, hb⟩ := SymExpr.binary_subset he
    refine scanNode_scans hpool hmem depth scan fun start _ _ => ?_
    obtain ⟨hleft, hamark⟩ := iha ha (depth + 1) start (ha a.mem_subterms_self)
    obtain ⟨hright, hbmark⟩ := ihb hb (depth + 1) _ (hb b.mem_subterms_self)
    refine ⟨hleft.trans hright, fun hc => ⟨?_, nofun⟩⟩
    rintro x (rfl | rfl)
    · exact (hright.nodes hc).subset (hamark (hright.complete hc))
    · exact hbmark hc
  | unary header op a high low ih =>
    have ha := SymExpr.unary_subset he
    refine scanNode_scans hpool hmem depth scan fun start _ _ => ?_
    obtain ⟨hscans, hmark⟩ := ih ha (depth + 1) start (ha a.mem_subterms_self)
    refine ⟨hscans, fun hc => ⟨?_, nofun⟩⟩
    rintro x rfl
    exact hmark hc
  | ternary header c t f ihc iht ihf =>
    obtain ⟨hc, ht, hf⟩ := SymExpr.ternary_subset he
    refine scanNode_scans hpool hmem depth scan fun start _ _ => ?_
    obtain ⟨hcond, hcmark⟩ := ihc hc (depth + 1) start (hc c.mem_subterms_self)
    obtain ⟨htrue, htmark⟩ := iht ht (depth + 1) _ (ht t.mem_subterms_self)
    obtain ⟨hfalse, hfmark⟩ := ihf hf (depth + 1) _ (hf f.mem_subterms_self)
    refine ⟨(hcond.trans htrue).trans hfalse, fun hcomplete => ⟨?_, nofun⟩⟩
    have hmid := hfalse.complete hcomplete
    rintro x (rfl | rfl | rfl)
    · exact (hfalse.nodes hcomplete).subset ((htrue.nodes hmid).subset (hcmark (htrue.complete hmid)))
    · exact (hfalse.nodes hcomplete).subset (htmark hmid)
    · exact hfmark hcomplete

/-- **A complete lineage has that of every variable** of the expression. -/
theorem collect_covers {e : SymExpr} (he : Coherent e.subterms)
    (hcomplete : (dseExprCollectRootLineage ctx e).complete = true) {symbol : SymVar}
    (hsymbol : symbol ∈ e.symbols) : Covered ctx (dseExprCollectRootLineage ctx e) symbol.id := by
  obtain ⟨hscans, hmark⟩ : Scans ctx e.subterms ⟨⟨[], true⟩, []⟩ (dseExprCollectRootLineageImpl ctx e 0 _) ∧ _ :=
    collect_scans he e (List.Subset.refl _) 0 _
  obtain ⟨header, hvar⟩ := hsymbol
  have hempty : marked e.subterms [] = ∅ := Set.eq_empty_of_forall_notMem fun x hx => List.not_mem_nil hx.2
  have hnodes := hscans.nodes hcomplete
  have hcovers := hscans.covers hcomplete header symbol
  dsimp only at hnodes hcovers
  rw [hempty] at hnodes hcovers
  have hvisited := hnodes.reaches (hmark hcomplete) (SymExpr.reachable_of_mem_subterms hvar)
  exact hcovers hvisited (Set.notMem_empty _)

end Scans

/-! ### No id is zero -/

theorem scanNode_zero {header : SymHeader} {depth : ℕ} {explore : RootScan → RootScan}
    (hexplore : ∀ scan : RootScan, 0 ∉ scan.out.ids → 0 ∉ (explore scan).out.ids) (scan : RootScan)
    (h : 0 ∉ scan.out.ids) : 0 ∉ (scanNode header depth explore scan).out.ids := by
  unfold scanNode
  split
  · exact h
  · split
    · exact h
    · exact hexplore _ h

theorem scanVar_zero (ctx : DSECtx) (id : ℕ) (scan : RootScan) (h : 0 ∉ scan.out.ids) :
    0 ∉ (scanVar ctx id scan).out.ids := by
  unfold scanVar
  split
  · apply DseRootSet.zero_notMem_addAll
    exact h
  · apply DseRootSet.zero_notMem_addAll
    split <;> exact h

theorem collect_zero (ctx : DSECtx) (e : SymExpr) : 0 ∉ (dseExprCollectRootLineage ctx e).ids := by
  have hscan : ∀ depth (scan : RootScan), 0 ∉ scan.out.ids →
      0 ∉ (dseExprCollectRootLineageImpl ctx e depth scan).out.ids := by
    induction e with
    | const header value => exact fun depth => scanNode_zero fun _ h => h
    | var header symbol => exact fun depth => scanNode_zero (scanVar_zero ctx symbol.id)
    | binary header op a b iha ihb => exact fun depth => scanNode_zero fun _ h => ihb _ _ (iha _ _ h)
    | unary header op a high low ih => exact fun depth => scanNode_zero (ih (depth + 1))
    | ternary header c t f ihc iht ihf =>
      exact fun depth => scanNode_zero fun _ h => ihf _ _ (iht _ _ (ihc _ _ h))
  exact hscan 0 _ List.not_mem_nil

end TaintForge
