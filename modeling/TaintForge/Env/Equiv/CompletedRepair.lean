import TaintForge.Env.Equiv.RepairConfinement

/-!
# What a completed application has done

The inspection passes a plan exactly when no directory it is to make is something else already, and the
report of a completed run has one result for each decision of the plan.

* `preflight_isOk_iff`: which plans pass the inspection.
* `Reports`: a result reports what became of a decision.
* `applyItems_updates`: which results the changes replace.
* `completed_reports`: the report of a completed run and the tree it leaves.
-/

namespace TaintForge

/-! ### The inspection -/

section Inspection

variable {sha256 : PyStr → PyStr} {config : RepairPlannerConfig} {report : RequirementReport}
  {source digest : PyStr} {p : RepairPlan} {fs : Rootfs}

/-- No directory above the target of an automatic decision is a link or a file. -/
def AncestorsClear (fs : Rootfs) (p : RepairPlan) : Prop :=
  ∀ d ∈ p.decisions, d.automaticAllowed → ∀ q, q <+: guestComponents d.resource →
    q ≠ guestComponents d.resource → fs.node? q = none ∨ fs.IsDir q

/-- No target of an automatic decision is a link or a file. -/
def TargetsClear (fs : Rootfs) (p : RepairPlan) : Prop :=
  ∀ d ∈ p.decisions, d.automaticAllowed →
    fs.node? (guestComponents d.resource) = none ∨ fs.IsDir (guestComponents d.resource)

/-- **Below clear ancestors the inspection passes exactly when the targets are clear too.** -/
theorem preflight_isOk_iff (hplan : plan sha256 config report source digest = .ok p)
    (hclear : AncestorsClear fs p) (dryRun : Bool) :
    (preflight {} (fun _ => false) fs dryRun p).isOk ↔ TargetsClear fs p := by
  constructor
  · intro h d hd hauto
    cases hpre : preflight {} (fun _ => false) fs dryRun p with
    | error error =>
      rw [hpre] at h
      exact absurd h (by nofun)
    | ok out =>
      obtain ⟨prepared, results⟩ := out
      obtain ⟨guestPath, hguest⟩ := preflight_valid hpre hd hauto
      have hmem := mem_below_self [] (guestComponents_of_valid hguest).2.2
      rw [List.nil_append] at hmem
      rcases preflight_covers hpre hd hauto _ hmem with h | h | h
      · exact Or.inr h
      · exact absurd h List.not_mem_nil
      · exact Or.inl ((preflight_buildable hpre).free _ h).2.1
  · intro htargets
    obtain ⟨prepared, results, hpre⟩ := preflight_passes (fun _ => false) fs dryRun [] (by
      intro d hd hauto
      obtain ⟨r, -, hrauto, -, hrequirement⟩ := exists_automatic hplan hd hauto
      refine ⟨applicable_of_automatic hrauto hrequirement, by simp, ?_⟩
      intro q hq
      have hpre := (prefix_of_mem_below hq).1
      rw [List.nil_append] at hpre
      by_cases htarget : q = guestComponents d.resource
      · rw [htarget]
        exact htargets d hd hauto
      · exact hclear d hd hauto q hpre htarget)
    show (preflightFrom {} (fun _ => false) fs dryRun [] p.decisions).isOk
    rw [hpre]
    rfl

end Inspection

/-! ### The report -/

/-- A result tells what became of a decision. -/
structure Reports (d : RepairDecision) (r : RepairDecisionResult) : Prop where
  decisionId : r.decisionId = d.decisionId
  requirementId : r.requirementId = d.requirementId
  action : r.action = d.action.value
  resource : r.resource = d.resource
  selected : d.automaticAllowed → r.status = .applied ∨ r.status = .alreadySatisfied
  passed : ¬ d.automaticAllowed → r.status = .notSelected

theorem reports_notSelected {d : RepairDecision} (h : ¬ d.automaticAllowed) :
    Reports d (notSelected d) :=
  ⟨rfl, rfl, rfl, rfl, fun hauto => absurd hauto h, fun _ => rfl⟩

theorem reports_result {item : PreparedDirectoryRepair} (hauto : item.decision.automaticAllowed)
    (hsat : item.alreadySatisfied) (dryRun : Bool) : Reports item.decision (item.result dryRun) where
  decisionId := rfl
  requirementId := rfl
  action := rfl
  resource := rfl
  selected _ := Or.inr (if_pos hsat)
  passed h := absurd hauto h

theorem reports_applied {item : PreparedDirectoryRepair} (hauto : item.decision.automaticAllowed)
    (actuallyCreated : List GuestPath) : Reports item.decision (item.applied actuallyCreated) where
  decisionId := rfl
  requirementId := rfl
  action := rfl
  resource := rfl
  selected _ := by
    by_cases hnone : actuallyCreated.isEmpty
    · exact Or.inr (if_pos hnone)
    · exact Or.inl (if_neg hnone)
  passed h := absurd hauto h

/-- A result of the inspection belongs to a decision that is passed over or prepared. -/
def Inspects (dryRun : Bool) (prepared : List PreparedDirectoryRepair) (d : RepairDecision)
    (r : RepairDecisionResult) : Prop :=
  (¬ d.automaticAllowed ∧ r = notSelected d) ∨
    (d.automaticAllowed ∧ ∃ item ∈ prepared, item.decision = d ∧ r = item.result dryRun)

theorem Inspects.decisionId {dryRun : Bool} {prepared : List PreparedDirectoryRepair}
    {d : RepairDecision} {r : RepairDecisionResult} (h : Inspects dryRun prepared d r) :
    r.decisionId = d.decisionId := by
  rcases h with ⟨-, rfl⟩ | ⟨-, item, -, rfl, rfl⟩
  · rfl
  · rfl

variable {config : RepairApplierConfig} {fails : Faults} {fs : Rootfs}

/-- The inspection has one result for each decision, in the same order. -/
theorem preflight_inspects {dryRun : Bool} {decisions : List RepairDecision}
    {virtual : List GuestPath} {prepared : List PreparedDirectoryRepair}
    {results : List RepairDecisionResult}
    (h : preflightFrom config fails fs dryRun virtual decisions = .ok (prepared, results)) :
    List.Forall₂ (Inspects dryRun prepared) decisions results ∧
      ∀ item ∈ prepared, item.decision ∈ decisions ∧ item.decision.automaticAllowed := by
  induction decisions generalizing virtual prepared results with
  | nil =>
    cases h
    exact ⟨.nil, by simp⟩
  | cons decision rest ih =>
    rcases preflightFrom_cons h with ⟨hnot, results', rfl, hrest⟩ |
      ⟨hauto, item, prepared', results', hitem, rfl, rfl, hrest⟩
    · obtain ⟨hall, hitems⟩ := ih hrest
      refine ⟨.cons (Or.inl ⟨hnot, rfl⟩) hall, fun i hi => ?_⟩
      exact ⟨List.mem_cons_of_mem _ (hitems i hi).1, (hitems i hi).2⟩
    · obtain ⟨hall, hitems⟩ := ih hrest
      obtain ⟨hdecision, -⟩ := prepareDirectory_ok hitem
      constructor
      · refine .cons (Or.inr ⟨hauto, item, List.mem_cons_self, hdecision, rfl⟩) (hall.imp ?_)
        intro d r hr
        exact hr.imp_right fun ⟨hd, i, hi, heq⟩ => ⟨hd, i, List.mem_cons_of_mem _ hi, heq⟩
      · intro i hi
        rcases List.mem_cons.mp hi with rfl | hi
        · rw [hdecision]
          exact ⟨List.mem_cons_self, hauto⟩
        · exact ⟨List.mem_cons_of_mem _ (hitems i hi).1, (hitems i hi).2⟩

/-- After the changes a result is the one of a repair that was carried out, or it is as before and no
repair of its decision was left to do. -/
theorem applyItems_updates {umask : ℕ} {items : List PreparedDirectoryRepair}
    {byDecision byDecision' : PyStr → Option RepairDecisionResult} {s t : ApplyState}
    (h : applyItems fails umask items byDecision s = (.ok byDecision', t)) (id : PyStr) :
    (byDecision' id = byDecision id ∧
      ∀ item ∈ items, item.decision.decisionId = id → item.alreadySatisfied) ∨
    ∃ item ∈ items, item.decision.decisionId = id ∧
      ∃ actuallyCreated, byDecision' id = some (item.applied actuallyCreated) := by
  induction items generalizing byDecision s with
  | nil =>
    cases h
    exact Or.inl ⟨rfl, by simp⟩
  | cons item rest ih =>
    unfold applyItems at h
    split at h
    · rename_i hsat
      rcases ih h with ⟨hsame, hall⟩ | ⟨i, hi, hid, hnew⟩
      · refine Or.inl ⟨hsame, fun i hi hid => ?_⟩
        rcases List.mem_cons.mp hi with rfl | hi
        · exact hsat
        · exact hall i hi hid
      · exact Or.inr ⟨i, List.mem_cons_of_mem _ hi, hid, hnew⟩
    · revert h
      generalize makeDirectories fails umask item.mode item.createPaths s = out
      rcases out with ⟨error | actuallyCreated, u⟩
      · intro h
        cases congrArg Prod.fst h
      · intro h
        rcases ih h with ⟨hsame, hall⟩ | ⟨i, hi, hid, hnew⟩
        · by_cases hid : item.decision.decisionId = id
          · refine Or.inr ⟨item, List.mem_cons_self, hid, actuallyCreated, ?_⟩
            rw [hsame, hid, Function.update_self]
          · rw [Function.update_of_ne (Ne.symm hid)] at hsame
            refine Or.inl ⟨hsame, fun i hi hid' => ?_⟩
            rcases List.mem_cons.mp hi with rfl | hi
            · exact absurd hid' hid
            · exact hall i hi hid'
        · exact Or.inr ⟨i, List.mem_cons_of_mem _ hi, hid, hnew⟩

variable {sha256 : PyStr → PyStr} {umask : ℕ} {p : RepairPlan} {requirementsSha256 : PyStr}
  {rootfs : RootfsEntry} {dryRun : Bool} {prepared : List PreparedDirectoryRepair}
  {results : List RepairDecisionResult}

/-- The changes of a run that was not stopped. -/
theorem applyPrepared_ok {final : List RepairDecisionResult} {s t : ApplyState}
    (h : applyPrepared fails umask prepared results s = (.ok final, t)) :
    ∃ byDecision, applyItems fails umask prepared (resultsById results) s = (.ok byDecision, t) ∧
      final = results.filterMap fun r => byDecision r.decisionId := by
  unfold applyPrepared at h
  revert h
  generalize applyItems fails umask prepared (resultsById results) s = out
  rcases out with ⟨error | byDecision, u⟩
  · exact fun h => absurd (congrArg Prod.fst h) (by nofun)
  · intro h
    obtain rfl : u = t := congrArg Prod.snd h
    exact ⟨byDecision, rfl, (Except.ok.inj (congrArg Prod.fst h)).symm⟩

/-- The results of a run that was not stopped report on the decisions of the plan. -/
theorem Runs.reports
    (hruns : Runs sha256 config fails p requirementsSha256 rootfs dryRun fs prepared results)
    {final : List RepairDecisionResult} {s t : ApplyState}
    (h : applyPrepared fails umask prepared results s = (.ok final, t)) :
    List.Forall₂ Reports p.decisions final := by
  obtain ⟨-, hids, -⟩ := RepairPlan.load_ok hruns.loads
  obtain ⟨hinspects, hitems⟩ := preflight_inspects hruns.passes
  obtain ⟨hresultIds, -⟩ := preflight_results hruns.passes
  have hnodup : (results.map RepairDecisionResult.decisionId).Nodup := by
    rw [hresultIds]
    exact hids
  obtain ⟨byDecision, hout, rfl⟩ := applyPrepared_ok h
  have hfound : ∀ d ∈ p.decisions, ∀ r ∈ results, Inspects false prepared d r →
      ∃ r', byDecision r.decisionId = some r' ∧ Reports d r' := by
    intro d hd r hr hinspect
    rw [hinspect.decisionId]
    -- Two decisions of the plan with one identifier are the same.
    have hsame : ∀ item ∈ prepared, item.decision.decisionId = d.decisionId → item.decision = d :=
      fun item hitem heq => List.inj_on_of_nodup_map hids (hitems item hitem).1 hd heq
    rcases applyItems_updates hout d.decisionId with ⟨hkept, hsat⟩ | ⟨item, hitem, hid, paths, hnew⟩
    · have hinitial := resultsById_of_mem hnodup hr
      rw [hinspect.decisionId] at hinitial
      refine ⟨r, hkept.trans hinitial, ?_⟩
      rcases hinspect with ⟨hnot, rfl⟩ | ⟨hauto, item, hitem, rfl, rfl⟩
      · exact reports_notSelected hnot
      · exact reports_result hauto (hsat item hitem rfl) false
    · obtain rfl := hsame item hitem hid
      exact ⟨_, hnew, reports_applied (hitems item hitem).2 paths⟩
  have hall : ∀ (decisions : List RepairDecision) (rs : List RepairDecisionResult),
      (∀ d ∈ decisions, d ∈ p.decisions) → (∀ r ∈ rs, r ∈ results) →
      List.Forall₂ (Inspects false prepared) decisions rs →
      List.Forall₂ Reports decisions (rs.filterMap fun r => byDecision r.decisionId) := by
    intro decisions rs hd hr hinspects
    induction hinspects with
    | nil => exact .nil
    | @cons d r decisions rs hhead _ ih =>
      obtain ⟨r', hr', hreports⟩ := hfound d (hd d List.mem_cons_self) r (hr r List.mem_cons_self) hhead
      have hcons : (r :: rs).filterMap (fun r => byDecision r.decisionId) =
          r' :: rs.filterMap fun r => byDecision r.decisionId := List.filterMap_cons_some hr'
      rw [hcons]
      apply List.Forall₂.cons hreports
      exact ih (fun e he => hd e (List.mem_cons_of_mem _ he)) fun e he => hr e (List.mem_cons_of_mem _ he)
  exact hall p.decisions results (fun _ h => h) (fun _ h => h) hinspects

/-- The tree after a run that was not stopped has the directory of each automatic decision. -/
theorem Runs.isDir_target
    (hruns : Runs sha256 config fails p requirementsSha256 rootfs dryRun fs prepared results)
    {final : List RepairDecisionResult} {t : ApplyState}
    (h : applyPrepared fails umask prepared results ⟨fs, [], []⟩ = (.ok final, t))
    {d : RepairDecision} (hd : d ∈ p.decisions) (hauto : d.automaticAllowed) :
    t.fs.IsDir (guestComponents d.resource) := by
  obtain ⟨byDecision, hout, -⟩ := applyPrepared_ok h
  have hspec := hruns.changes umask
  rw [hout] at hspec
  exact (completed_of_finished hruns hspec.2 rfl).1 d hd hauto

/-- **The report of a completed run has a result for each decision, and the tree it leaves has the
directory of each automatic one.** -/
theorem completed_reports {planSha256 : PyStr} {report : RepairApplicationReport} {after : Rootfs}
    (hreport : (applyFile sha256 config fails umask p planSha256 requirementsSha256 rootfs dryRun).result =
      .ok report)
    (hafter : (applyFile sha256 config fails umask p planSha256 requirementsSha256 rootfs dryRun).rootfs =
      .directory after)
    (hstate : report.state = .completed) :
    p.load sha256 = .ok p ∧ requirementsSha256 = p.sourceSha256 ∧ report.planSha256 = planSha256 ∧
      report.requirementsSha256 = requirementsSha256 ∧ report.dryRun = false ∧
      List.Forall₂ Reports p.decisions report.results ∧
      ∀ d ∈ p.decisions, d.automaticAllowed → after.IsDir (guestComponents d.resource) := by
  rcases applyFile_cases sha256 config fails umask p planSha256 requirementsSha256 rootfs dryRun with
    ⟨-, -, hdry, -⟩ | ⟨fs, prepared, results, hruns, heq⟩
  · rw [hdry report hreport] at hstate
    exact absurd hstate (by nofun)
  · rw [heq] at hreport hafter
    unfold runPrepared at hreport hafter
    cases happly : applyPrepared fails umask prepared results ⟨fs, [], []⟩ with
    | mk out t =>
    rw [happly] at hreport hafter
    cases out with
    | error error => exact absurd hreport (by nofun)
    | ok final =>
      dsimp only [finish] at hreport hafter
      split at hreport
      · exact absurd hreport (by nofun)
      · rename_i hsave
        rw [if_neg hsave] at hafter
        cases hreport
        cases hafter
        refine ⟨hruns.loads, hruns.requirements, rfl, rfl, rfl, hruns.reports happly, ?_⟩
        exact fun d hd hauto => hruns.isDir_target happly hd hauto

/-- A run in which no call fails by itself is completed. -/
theorem Runs.completes {config : RepairApplierConfig}
    (hruns : Runs sha256 config (fun _ => false) p requirementsSha256 rootfs dryRun fs prepared results)
    (umask : ℕ) (planSha256 : PyStr) :
    ∃ report after,
      (applyFile sha256 config (fun _ => false) umask p planSha256 requirementsSha256 rootfs dryRun).result =
        .ok report ∧
      (applyFile sha256 config (fun _ => false) umask p planSha256 requirementsSha256 rootfs dryRun).rootfs =
        .directory after ∧
      report.state = .completed := by
  rcases applyFile_cases sha256 config (fun _ => false) umask p planSha256 requirementsSha256 rootfs
    dryRun with ⟨-, -, -, hnot⟩ | ⟨fs', prepared', results', hruns', heq⟩
  · exact absurd ⟨fs, prepared, results, hruns⟩ hnot
  · rw [heq]
    rcases runPrepared_cases umask hruns' (blankReport planSha256 requirementsSha256) with
      ⟨t, before, path, after, error, hstop, -⟩ | ⟨t, final, -, -, hout⟩
    · rcases hstop.cause with ⟨hfail, -⟩ | ⟨-, hfail, -⟩
      · exact absurd hfail (by nofun)
      · exact absurd hfail (by nofun)
    · rw [hout]
      exact ⟨_, _, rfl, rfl, rfl⟩

end TaintForge
