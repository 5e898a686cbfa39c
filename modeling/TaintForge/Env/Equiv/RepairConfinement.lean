import TaintForge.Env.RepairPlanner
import TaintForge.Env.Equiv.RepairApplier

/-!
# Where the applier makes directories

The planner and the applier look at the same path strings, and both compare them with `/proc`, `/sys`
and `/dev` as strings.  A path of two leading slashes keeps them in its normal form, so it passes the
comparison, and the directories are made from its components.

* `verdict_automatic`, `mem_plan_decisions`: the automatic decisions of a plan.
* `preflight_passes`: the inspection accepts them when nothing stands in the way.
* `applyFile_made`: what is made, and in which directories.
* `repairs_confined_iff`: the directories stay where they should exactly when no authorised path spells
  a pseudo-filesystem with two slashes.
-/

namespace TaintForge

/-! ### The automatic decisions -/

section Planner

variable {config : RepairPlannerConfig}

/-- The requirements that the planner authorises a repair of. -/
def automaticRequirement (config : RepairPlannerConfig) (r : RuntimeRequirement) : Bool :=
  r.repairable && r.kind == .filesystem && r.status == .unmet &&
    (validateGuestPath r.resource).isNone && r.operation == py "directory_exists" &&
    r.resource != [slash] && !isPseudoFilesystemPath r.resource &&
    decide (config.minimumAutoConfidence ≤ r.confidence)

/-- A manual verdict never authorises a repair. -/
theorem manual_automatic (priority : RepairPriority) (reason : PyStr) :
    (manual priority reason).automaticAllowed = false := rfl

theorem planDirectory_automatic (r : RuntimeRequirement) (priority : RepairPriority) :
    (planDirectory config r priority).automaticAllowed =
      (r.status == .unmet && r.resource != [slash] && !isPseudoFilesystemPath r.resource &&
        decide (config.minimumAutoConfidence ≤ r.confidence)) := by
  unfold planDirectory
  split
  · rename_i h
    rcases h with h | h
    · simp [h]
    · simp [h]
  · rename_i h
    rw [not_or, Bool.not_eq_true] at h
    have hne : (r.resource != [slash]) = true := bne_iff_ne.mpr h.1
    rw [hne, h.2, Bool.not_false, Bool.and_true, Bool.and_true]

theorem planFilesystem_automatic (r : RuntimeRequirement) (priority : RepairPriority) :
    (planFilesystem config r priority).automaticAllowed =
      ((validateGuestPath r.resource).isNone && r.operation == py "directory_exists" &&
        (planDirectory config r priority).automaticAllowed) := by
  unfold planFilesystem
  split
  · rename_i h
    simp [h, manual_automatic]
  · rename_i h
    by_cases hop : r.operation = py "directory_exists"
    · rw [if_pos hop]
      simp [h, hop]
    · rw [if_neg hop]
      have hfalse : (r.operation == py "directory_exists") = false := beq_eq_false_iff_ne.mpr hop
      rw [hfalse]
      split
      · simp
      · split
        · simp
        · split
          · simp
          · split
            · simp
            · simp [manual]

theorem planNetwork_automatic (r : RuntimeRequirement) (priority : RepairPriority) :
    (planNetwork config r priority).automaticAllowed = false := by
  unfold planNetwork
  split
  · rfl
  · rfl

theorem planLibrary_automatic (r : RuntimeRequirement) (priority : RepairPriority) :
    (planLibrary r priority).automaticAllowed = false := rfl

theorem planExecution_automatic (r : RuntimeRequirement) (priority : RepairPriority) :
    (planExecution r priority).automaticAllowed = false := by
  unfold planExecution
  split
  · rfl
  · rfl

/-- **A requirement gets an automatic decision exactly when it meets these conditions.** -/
theorem verdict_automatic (r : RuntimeRequirement) :
    (verdict config r).automaticAllowed = automaticRequirement config r := by
  unfold verdict automaticRequirement
  dsimp only
  split
  · rename_i h
    simp [h.1]
  · split
    · rename_i h
      rw [Bool.not_eq_true] at h
      simp [h, manual_automatic]
    · rename_i h
      rw [not_not] at h
      split
      · rename_i hkind
        rw [planFilesystem_automatic, planDirectory_automatic, h, hkind]
        simp only [beq_self_eq_true, Bool.true_and]
        ac_rfl
      · rename_i hkind
        simp [hkind]
      · rename_i hkind
        simp [hkind, planNetwork_automatic]
      · rename_i hkind
        simp [hkind, planLibrary_automatic]
      · rename_i hkind
        simp [hkind, planExecution_automatic]
      · rename_i hkind
        simp [hkind, manual_automatic]

/-- The conditions one by one. -/
theorem automaticRequirement_iff {r : RuntimeRequirement} :
    automaticRequirement config r ↔
      r.repairable ∧ r.kind = .filesystem ∧ r.status = .unmet ∧
        validateGuestPath r.resource = none ∧ r.operation = py "directory_exists" ∧
        r.resource ≠ [slash] ∧ isPseudoFilesystemPath r.resource = false ∧
        config.minimumAutoConfidence ≤ r.confidence := by
  simp only [automaticRequirement, Bool.and_eq_true, beq_iff_eq, Option.isNone_iff_eq_none,
    bne_iff_ne, Bool.not_eq_true', decide_eq_true_eq, and_assoc]

/-- What an automatic verdict asks for. -/
theorem verdict_of_automatic {r : RuntimeRequirement} (h : automaticRequirement config r) :
    (verdict config r).action = .createDirectory ∧
      (verdict config r).disposition = .autoCandidate ∧
      (verdict config r).parameters =
        [(py "mode", .str (py "0755")), (py "parents", .bool true)] := by
  obtain ⟨hrep, hkind, hstatus, hpath, hop, hslash, hpseudo, hconf⟩ := automaticRequirement_iff.mp h
  have hrule : verdict config r = planDirectory config r (priorityFromBlocking r.blocking) := by
    unfold verdict planFilesystem
    dsimp only
    rw [if_neg (by simp [hstatus]), if_neg (not_not.mpr hrep), hkind, hpath]
    exact if_pos hop
  have hguard : ¬ (r.resource = [slash] ∨ isPseudoFilesystemPath r.resource = true) := by
    rw [hpseudo]
    simp [hslash]
  have hautomatic : (r.status == RequirementStatus.unmet &&
      decide (config.minimumAutoConfidence ≤ r.confidence)) = true := by
    simp [hstatus, hconf]
  rw [hrule]
  unfold planDirectory
  rw [if_neg hguard]
  dsimp only
  rw [hautomatic]
  exact ⟨rfl, rfl, rfl⟩

variable {sha256 : PyStr → PyStr}

/-- The fields of a decision that come from its requirement and its verdict. -/
theorem planRequirement_ok {r : RuntimeRequirement} {d : RepairDecision}
    (h : planRequirement sha256 config r = .ok d) :
    d.resource = r.resource ∧ d.automaticAllowed = automaticRequirement config r ∧
      d.action = (verdict config r).action ∧ d.disposition = (verdict config r).disposition ∧
      d.parameters = (verdict config r).parameters := by
  unfold planRequirement makeDecision at h
  split at h
  · cases h
  · split at h
    · cases h
    · cases h
      exact ⟨rfl, verdict_automatic r, rfl, rfl, rfl⟩

theorem mem_planRequirements {requirements : List RuntimeRequirement}
    {decisions : List RepairDecision}
    (h : planRequirements sha256 config requirements = .ok decisions) :
    (∀ d ∈ decisions, ∃ r ∈ requirements, planRequirement sha256 config r = .ok d) ∧
      ∀ r ∈ requirements, ∃ d ∈ decisions, planRequirement sha256 config r = .ok d := by
  induction requirements generalizing decisions with
  | nil =>
    cases h
    simp
  | cons r rest ih =>
    unfold planRequirements at h
    split at h
    · cases h
    · rename_i d hd
      split at h
      · cases h
      · rename_i others hothers
        cases h
        obtain ⟨hfrom, hto⟩ := ih hothers
        constructor
        · intro e he
          rcases List.mem_cons.mp he with rfl | he
          · exact ⟨r, List.mem_cons_self, hd⟩
          · obtain ⟨s, hs, hplan⟩ := hfrom e he
            exact ⟨s, List.mem_cons_of_mem _ hs, hplan⟩
        · intro s hs
          rcases List.mem_cons.mp hs with rfl | hs
          · exact ⟨d, List.mem_cons_self, hd⟩
          · obtain ⟨e, he, hplan⟩ := hto s hs
            exact ⟨e, List.mem_cons_of_mem _ he, hplan⟩

/-- The decisions of a plan are those of the requirements of the report. -/
theorem mem_plan_decisions {report : RequirementReport} {source digest : PyStr} {p : RepairPlan}
    (h : plan sha256 config report source digest = .ok p) :
    (∀ d ∈ p.decisions, ∃ r ∈ report.requirements, planRequirement sha256 config r = .ok d) ∧
      ∀ r ∈ report.requirements, ∃ d ∈ p.decisions, planRequirement sha256 config r = .ok d := by
  unfold plan at h
  split at h
  · cases h
  · rename_i decisions hdecisions
    cases h
    obtain ⟨hfrom, hto⟩ := mem_planRequirements hdecisions
    refine ⟨fun d hd => hfrom d ((List.mem_insertionSort _).mp hd), fun r hr => ?_⟩
    obtain ⟨d, hd, hplan⟩ := hto r hr
    exact ⟨d, (List.mem_insertionSort _).mpr hd, hplan⟩

end Planner

/-! ### The two validations of a path -/

theorem validateGuestPath_none {path : PyStr} (h : validateGuestPath path = none) :
    0 ∉ path ∧ [slash] <+: path ∧ py ".." ∉ (purePosixPath path).parts ∧
      ((purePosixPath path).asPosix = PyStr.rstripOf slash path ∨ path = [slash]) := by
  unfold validateGuestPath at h
  split at h
  · cases h
  · rename_i hnul
    split at h
    · cases h
    · rename_i habs
      split at h
      · cases h
      · rename_i hparent
        split at h
        · cases h
        · rename_i hnormal
          refine ⟨hnul, by simpa using habs, hparent, ?_⟩
          by_cases hpath : path = [slash]
          · exact Or.inr hpath
          · exact Or.inl (not_not.mp fun hne => hnormal ⟨hne, hpath⟩)

/-- **The applier accepts the path of every automatic decision.** -/
theorem applier_accepts {config : RepairPlannerConfig} {r : RuntimeRequirement}
    (h : automaticRequirement config r) :
    ({} : RepairApplierConfig).validateGuestPath r.resource =
      .ok (purePosixPath r.resource).asPosix := by
  obtain ⟨-, -, -, hpath, -, hslash, hpseudo, -⟩ := automaticRequirement_iff.mp h
  obtain ⟨hnul, habs, hparent, hnormal⟩ := validateGuestPath_none hpath
  have hnormal' := hnormal.resolve_right hslash
  unfold RepairApplierConfig.validateGuestPath
  rw [if_neg hnul, if_neg (by simpa using habs), if_neg hslash, if_neg hparent,
    if_neg (not_not.mpr hnormal'), if_neg]
  intro hdenied
  obtain ⟨dir, hdir, hbeneath⟩ := List.any_eq_true.mp hdenied
  -- The path only has more slashes at its end than its normal form.
  obtain ⟨n, hn⟩ := PyStr.eq_rstripOf_append slash r.resource
  rw [← hnormal'] at hn
  have hpath' : beneath dir r.resource := by
    rw [hn]
    exact beneath_append_slashes n hbeneath
  have hany : isPseudoFilesystemPath r.resource = true := List.any_eq_true.mpr ⟨dir, hdir, hpath'⟩
  rw [hpseudo] at hany
  exact absurd hany (by nofun)

/-! ### The inspection passes when nothing stands in the way -/

/-- Every path on the way down is a directory or free. -/
def Unobstructed (fs : Rootfs) (components : List PyStr) : Prop :=
  ∀ p ∈ below [] components, fs.node? p = none ∨ fs.IsDir p

theorem Rootfs.missing_of_unobstructed {fs : Rootfs} {rev : List PyStr}
    (h : ∀ q, q <:+ rev → q ≠ [] → fs.node? q.reverse = none ∨ fs.IsDir q.reverse) :
    fs.missing rev = .enoent := by
  induction rev with
  | nil => rfl
  | cons name above ih =>
    have habove : fs.missing above = .enoent :=
      ih fun q hq hne => h q (hq.trans (List.suffix_cons name above)) hne
    unfold Rootfs.missing
    rcases h (name :: above) List.suffix_rfl (by simp) with hnone | ⟨mode, hdir⟩
    · rw [hnone]
      exact habove
    · rw [hdir]

theorem mem_below_of_isPrefix {components : List PyStr} {current q : GuestPath}
    (h : q <+: current ++ components) (hlen : current.length < q.length) :
    q ∈ below current components := by
  induction components generalizing current with
  | nil =>
    rw [List.append_nil] at h
    have hle := h.length_le
    omega
  | cons component rest ih =>
    rw [← List.singleton_append, ← List.append_assoc] at h
    by_cases hlong : (current ++ [component]).length < q.length
    · exact List.mem_cons_of_mem _ (ih h hlong)
    · have hpre : current ++ [component] <+: current ++ [component] ++ rest :=
        List.prefix_append _ _
      have heq : q.length = (current ++ [component]).length := by
        rw [List.length_append, List.length_singleton] at hlong ⊢
        omega
      rw [(List.prefix_of_prefix_length_le h hpre heq.le).eq_of_length heq]
      exact List.mem_cons_self

theorem walkComponents_passes {fails : Faults} {fs : Rootfs} {decisionId : PyStr}
    (virtual : List GuestPath) (components : List PyStr) (current : GuestPath)
    (hclear : ∀ p, ¬ fails (.lstat decisionId p))
    (h : ∀ p, p <+: current ++ components → p ≠ [] → fs.node? p = none ∨ fs.IsDir p) :
    ∃ out, walkComponents fails fs decisionId virtual current components = .ok out := by
  induction components generalizing current with
  | nil => exact ⟨[], rfl⟩
  | cons component rest ih =>
    have hassoc : current ++ [component] ++ rest = current ++ component :: rest := by simp
    obtain ⟨out, hout⟩ := ih (current ++ [component]) (by rwa [hassoc])
    unfold walkComponents
    dsimp only
    split
    · exact ⟨out, hout⟩
    · rw [if_neg (hclear _)]
      have hpre : current ++ [component] <+: current ++ component :: rest := ⟨rest, hassoc⟩
      rcases h _ hpre (by simp) with hnone | ⟨mode, hdir⟩
      · have hmissing : fs.missing (current ++ [component]).reverse = .enoent := by
          apply Rootfs.missing_of_unobstructed
          intro q hq hne
          apply h
          · have hrev : q.reverse <+: current ++ [component] := by
              rw [← List.reverse_suffix, List.reverse_reverse]
              exact hq
            exact hrev.trans hpre
          · simpa using hne
        have hstat : fs.lstat (current ++ [component]) = .error .enoent := by
          unfold Rootfs.lstat
          rw [hnone, ← hmissing]
        rw [hstat, hout]
        exact ⟨_, rfl⟩
      · have hstat : fs.lstat (current ++ [component]) = .ok (.dir mode) := by
          unfold Rootfs.lstat
          rw [hdir]
        rw [hstat]
        exact ⟨out, hout⟩

/-- A decision that the applier can carry out. -/
structure Applicable (config : RepairApplierConfig) (d : RepairDecision) : Prop where
  disposition : d.disposition = .autoCandidate
  action : d.action = .createDirectory
  parents : d.parameter (py "parents") = .bool true
  mode : d.parameter (py "mode") = .str (py "0755")
  path : ∃ guestPath, config.validateGuestPath d.resource = .ok guestPath

theorem prepareDirectory_passes {config : RepairApplierConfig} {fails : Faults} {fs : Rootfs}
    (virtual : List GuestPath) {d : RepairDecision} (hd : Applicable config d)
    (hclear : ∀ p, ¬ fails (.lstat d.decisionId p))
    (h : Unobstructed fs (guestComponents d.resource)) :
    ∃ item, prepareDirectory config fails fs virtual d = .ok item := by
  obtain ⟨guestPath, hguest⟩ := hd.path
  obtain ⟨out, hout⟩ := walkComponents_passes virtual (guestComponents guestPath) [] hclear (by
      rw [(guestComponents_of_valid hguest).1, List.nil_append]
      intro p hp hne
      exact h p (mem_below_of_isPrefix (by simpa using hp) (List.length_pos_iff.mpr hne)))
  unfold prepareDirectory
  rw [hguest, hd.parents, hd.mode]
  dsimp only
  rw [show parseMode d.decisionId (.str (py "0755")) = .ok 0o755 from rfl]
  dsimp only
  rw [hout]
  exact ⟨_, rfl⟩

/-- **The inspection passes a plan whose automatic decisions can be carried out and lead nowhere
else.** -/
theorem preflight_passes (fails : Faults) (fs : Rootfs) (dryRun : Bool) (virtual : List GuestPath)
    {decisions : List RepairDecision}
    (hall : ∀ d ∈ decisions, d.automaticAllowed → Applicable {} d ∧
      (∀ p, ¬ fails (.lstat d.decisionId p)) ∧ Unobstructed fs (guestComponents d.resource)) :
    ∃ prepared results,
      preflightFrom {} fails fs dryRun virtual decisions = .ok (prepared, results) := by
  induction decisions generalizing virtual with
  | nil => exact ⟨[], [], rfl⟩
  | cons d rest ih =>
    have hrest : ∀ e ∈ rest, e.automaticAllowed → _ := fun e he =>
      hall e (List.mem_cons_of_mem _ he)
    unfold preflightFrom
    by_cases hauto : d.automaticAllowed
    · rw [if_neg (not_not.mpr hauto)]
      obtain ⟨happ, hclear, hfree⟩ := hall d List.mem_cons_self hauto
      obtain ⟨item, hitem⟩ := prepareDirectory_passes virtual happ hclear hfree
      obtain ⟨prepared, results, hpre⟩ := ih (virtual ++ item.createPaths) hrest
      rw [if_neg (not_not.mpr happ.disposition), if_neg (by rw [happ.action]; simp),
        if_pos happ.action, hitem]
      dsimp only
      rw [hpre]
      exact ⟨_, _, rfl⟩
    · rw [if_pos hauto]
      obtain ⟨prepared, results, hpre⟩ := ih virtual hrest
      rw [hpre]
      exact ⟨_, _, rfl⟩

/-! ### What is made -/

section Made

variable (fails : Faults) (umask : ℕ)

/-- Between two states: what was made since lies in some list of paths and was made in a directory, and
everything recorded since was made. -/
structure MadeOnly (paths : List GuestPath) (s t : ApplyState) : Prop where
  kept : ∀ m ∈ s.made, m ∈ t.made
  listed : ∀ m ∈ t.made, m ∈ s.made ∨ m.path ∈ paths ∧ m.before.IsDir m.path.dropLast
  recorded : ∀ p ∈ t.created, p ∈ s.created ∨ ∃ m ∈ t.made, m.path = p

theorem MadeOnly.refl (paths : List GuestPath) (s : ApplyState) : MadeOnly paths s s :=
  ⟨fun _ h => h, fun _ h => Or.inl h, fun _ h => Or.inl h⟩

theorem MadeOnly.trans {a b : List GuestPath} {s t u : ApplyState} (h : MadeOnly a s t)
    (h' : MadeOnly b t u) : MadeOnly (a ++ b) s u where
  kept m hm := h'.kept m (h.kept m hm)
  listed m hm := by
    rcases h'.listed m hm with hm | ⟨hmem, hdir⟩
    · exact (h.listed m hm).imp_right fun ⟨hmem, hdir⟩ => ⟨List.mem_append_left b hmem, hdir⟩
    · exact Or.inr ⟨List.mem_append_right a hmem, hdir⟩
  recorded p hp := by
    rcases h'.recorded p hp with hp | hmade
    · refine (h.recorded p hp).imp_right ?_
      rintro ⟨m, hm, rfl⟩
      exact ⟨m, h'.kept m hm, rfl⟩
    · exact Or.inr hmade

theorem MadeOnly.mono {a b : List GuestPath} {s t : ApplyState} (h : MadeOnly a s t)
    (hab : ∀ p ∈ a, p ∈ b) : MadeOnly b s t :=
  { h with
    listed := fun m hm => (h.listed m hm).imp_right fun ⟨hmem, hdir⟩ => ⟨hab _ hmem, hdir⟩ }

/-- One more directory, recorded or not. -/
theorem MadeOnly.snoc {s : ApplyState} {path : GuestPath} (hdir : s.fs.IsDir path.dropLast)
    (gs : Rootfs) {created : List GuestPath}
    (hcreated : created = s.created ∨ created = s.created ++ [path]) :
    MadeOnly [path] s ⟨gs, created, s.made ++ [⟨path, s.fs⟩]⟩ where
  kept m hm := List.mem_append_left _ hm
  listed m hm := by
    rcases List.mem_append.mp hm with hm | hm
    · exact Or.inl hm
    · rw [List.mem_singleton] at hm
      subst hm
      exact Or.inr ⟨List.mem_singleton_self path, hdir⟩
  recorded p hp := by
    rcases hcreated with rfl | rfl
    · exact Or.inl hp
    · rcases List.mem_append.mp hp with hp | hp
      · exact Or.inl hp
      · rw [List.mem_singleton] at hp
        subst hp
        exact Or.inr ⟨⟨p, s.fs⟩, by simp, rfl⟩

theorem makeDirectories_made (mode : ℕ) (paths : List GuestPath) (s : ApplyState) :
    MadeOnly paths s (makeDirectories fails umask mode paths s).2 := by
  induction paths generalizing s with
  | nil => exact MadeOnly.refl [] s
  | cons path rest ih =>
    unfold makeDirectories
    split
    · exact MadeOnly.refl _ s
    · split
      · split
        · exact MadeOnly.refl _ s
        · exact MadeOnly.refl _ s
        · exact MadeOnly.refl _ s
        · exact (ih s).mono fun p hp => List.mem_cons_of_mem path hp
      · exact MadeOnly.refl _ s
      · rename_i gs hgs
        have hdir := (Rootfs.mkdir_ok hgs).2.1
        have hpath : ∀ p ∈ [path], p ∈ path :: rest := by simp
        dsimp only
        split
        · exact (MadeOnly.snoc hdir _ (Or.inl rfl)).mono hpath
        · split
          · exact (MadeOnly.snoc hdir _ (Or.inl rfl)).mono hpath
          · rename_i hs hhs
            have hrest := (MadeOnly.snoc hdir hs (Or.inr rfl)).trans
              (ih ⟨hs, s.created ++ [path], s.made ++ [⟨path, s.fs⟩]⟩)
            split
            · rename_i done t heq
              rw [heq] at hrest
              exact hrest
            · rename_i error t heq
              rw [heq] at hrest
              exact hrest

theorem applyItems_made (items : List PreparedDirectoryRepair)
    (byDecision : PyStr → Option RepairDecisionResult) (s : ApplyState) :
    MadeOnly (plannedDirectories items) s (applyItems fails umask items byDecision s).2 := by
  induction items generalizing byDecision s with
  | nil => exact MadeOnly.refl [] s
  | cons item rest ih =>
    have hrest : ∀ p ∈ plannedDirectories rest, p ∈ plannedDirectories (item :: rest) :=
      fun p hp => List.mem_append_right item.createPaths hp
    unfold applyItems
    split
    · exact (ih byDecision s).mono hrest
    · have hmake := makeDirectories_made fails umask item.mode item.createPaths s
      split
      · rename_i error t heq
        rw [heq] at hmake
        exact hmake.mono fun p hp => List.mem_append_left _ hp
      · rename_i done t heq
        rw [heq] at hmake
        exact hmake.trans (ih _ t)

/-- What a run makes, it had listed before. -/
theorem runPrepared_made (blank : RepairApplicationReport) (prepared : List PreparedDirectoryRepair)
    (results : List RepairDecisionResult) (fs : Rootfs) :
    ∃ t, MadeOnly (plannedDirectories prepared) ⟨fs, [], []⟩ t ∧
      (applyItems fails umask prepared (resultsById results) ⟨fs, [], []⟩).2 = t ∧
      (runPrepared fails umask blank prepared results ⟨fs, [], []⟩).made = t.made := by
  refine ⟨_, applyItems_made fails umask prepared (resultsById results) _, rfl, ?_⟩
  unfold runPrepared applyPrepared
  generalize applyItems fails umask prepared (resultsById results) ⟨fs, [], []⟩ = out
  rcases out with ⟨error | byDecision, t⟩
  · rfl
  · dsimp only
    unfold finish
    split
    · rfl
    · rfl

end Made

/-! ### Confinement -/

/-- The names of the pseudo-filesystems in the root directory. -/
def pseudoNames : List PyStr := [py "proc", py "sys", py "dev"]

/-- A directory was made on the way to an authorised path, inside the rootfs, below real directories
only, and not in a pseudo-filesystem. -/
structure Confined (p : RepairPlan) (m : Made) : Prop where
  authorised : ∃ d ∈ p.decisions, d.automaticAllowed ∧ m.path <+: guestComponents d.resource
  inside : m.path ≠ [] ∧ ∀ name ∈ m.path, IsComponent name ∧ name ≠ py ".."
  noLinks : ∀ q, q <+: m.path → q ≠ m.path → m.before.IsDir q
  notPseudo : ∀ name ∈ pseudoNames, m.path.head? ≠ some name

/-- Whatever is made with a plan of the report is confined. -/
def RepairsConfined (sha256 : PyStr → PyStr) (config : RepairPlannerConfig)
    (report : RequirementReport) : Prop :=
  ∀ source digest p, plan sha256 config report source digest = .ok p →
    ∀ fails umask planSha256 requirementsSha256 rootfs dryRun,
      ∀ m ∈ (applyFile sha256 {} fails umask p planSha256 requirementsSha256 rootfs dryRun).made,
        Confined p m

/-- The planner makes a plan of the report that can be read back. -/
def Plannable (sha256 : PyStr → PyStr) (config : RepairPlannerConfig) (report : RequirementReport) :
    Prop :=
  ∃ source digest p, plan sha256 config report source digest = .ok p ∧ p.load sha256 = .ok p

/-- The path has two slashes in front and then the name of a pseudo-filesystem. -/
def SpellsPseudo (path : PyStr) : Prop :=
  (purePosixPath path).root = [slash, slash] ∧
    ∃ name ∈ pseudoNames, (purePosixPath path).tail.head? = some name

/-- The tests of the applier cover the paths with one slash in front. -/
theorem spellsPseudo_of_head {path guestPath name : PyStr}
    (h : ({} : RepairApplierConfig).validateGuestPath path = .ok guestPath) (hname : name ∈ pseudoNames)
    (hhead : (guestComponents path).head? = some name) : SpellsPseudo path := by
  obtain ⟨habs, -, -, rfl, hdenied⟩ := RepairApplierConfig.validateGuestPath_ok h
  rw [(guestComponents_of_valid h).2.1] at hhead
  have hmem : name ∈ (purePosixPath path).tail := List.mem_of_head? hhead
  rcases (root_cases path).resolve_left (root_ne_nil_of_slash habs) with hone | htwo
  · refine absurd ?_ (hdenied (slash :: name) ?_)
    · exact (beneath_iff_head (isComponent_of_mem hmem) (fun c hc => isComponent_of_mem hc) hone).mpr
        hhead
    · simp only [pseudoNames, List.mem_cons, List.not_mem_nil, or_false] at hname
      rcases hname with rfl | rfl | rfl
      · exact List.mem_cons_self
      · exact List.mem_cons_of_mem _ List.mem_cons_self
      · exact List.mem_cons_of_mem _ (List.mem_cons_of_mem _ List.mem_cons_self)
  · exact ⟨htwo, name, hname, hhead⟩

theorem Rootfs.IsDir.prefix_of {fs : Rootfs} {path q : GuestPath} (h : fs.IsDir path)
    (hq : q <+: path) : fs.IsDir q := by
  obtain ⟨rest, rfl⟩ := hq
  induction rest using List.reverseRecOn with
  | nil => rwa [List.append_nil] at h
  | append_singleton rest name ih =>
    apply ih
    obtain ⟨mode, hmode⟩ := h
    apply fs.parent_dir _ name (.dir mode)
    rw [List.append_assoc]
    exact hmode

section Confinement

variable {sha256 : PyStr → PyStr} {config : RepairPlannerConfig} {report : RequirementReport}

/-- What a run makes is confined, but for the paths that spell a pseudo-filesystem with two slashes. -/
theorem confined_of_planned {p : RepairPlan} {fails : Faults} {fs : Rootfs} {dryRun : Bool}
    {prepared : List PreparedDirectoryRepair} {results : List RepairDecisionResult}
    (hpre : preflight {} fails fs dryRun p = .ok (prepared, results))
    (hspell : ∀ d ∈ p.decisions, d.automaticAllowed → ¬ SpellsPseudo d.resource) {m : Made}
    (hpath : m.path ∈ plannedDirectories prepared) (hdir : m.before.IsDir m.path.dropLast) :
    Confined p m := by
  obtain ⟨d, hd, hauto, ⟨guestPath, hguest⟩, hbelow⟩ := preflight_sources hpre m.path hpath
  obtain ⟨hpre, hlength⟩ := prefix_of_mem_below hbelow
  rw [List.nil_append] at hpre
  rw [List.length_nil] at hlength
  have hne : m.path ≠ [] := List.length_pos_iff.mp hlength
  obtain ⟨-, hparent, -, -, -⟩ := RepairApplierConfig.validateGuestPath_ok hguest
  have htail := (guestComponents_of_valid hguest).2.1
  refine ⟨⟨d, hd, hauto, hpre⟩, ⟨hne, fun name hname => ?_⟩, fun q hq hqne => ?_,
    fun name hname hhead => ?_⟩
  · have hmem : name ∈ guestComponents d.resource := hpre.subset hname
    constructor
    · rw [htail] at hmem
      exact isComponent_of_mem hmem
    · rintro rfl
      exact hparent (List.mem_of_mem_tail hmem)
  · -- A proper prefix is a prefix of the parent, which was a directory when the path was made.
    apply hdir.prefix_of
    apply List.prefix_of_prefix_length_le hq (List.dropLast_prefix m.path)
    have hlt : q.length < m.path.length := by
      apply lt_of_le_of_ne hq.length_le
      exact fun heq => hqne (hq.eq_of_length heq)
    rw [List.length_dropLast]
    omega
  · refine hspell d hd hauto (spellsPseudo_of_head hguest hname ?_)
    obtain ⟨rest, hrest⟩ := hpre
    rw [← hrest, List.head?_append, hhead]
    rfl

/-- An automatic decision comes from a requirement that the planner authorises. -/
theorem exists_automatic {source digest : PyStr} {p : RepairPlan}
    (h : plan sha256 config report source digest = .ok p) {d : RepairDecision}
    (hd : d ∈ p.decisions) (hauto : d.automaticAllowed) :
    ∃ r ∈ report.requirements, automaticRequirement config r ∧ r.resource = d.resource ∧
      planRequirement sha256 config r = .ok d := by
  obtain ⟨r, hr, hplan⟩ := (mem_plan_decisions h).1 d hd
  obtain ⟨hresource, hautomatic, -⟩ := planRequirement_ok hplan
  exact ⟨r, hr, hautomatic ▸ hauto, hresource.symm, hplan⟩

theorem applicable_of_automatic {r : RuntimeRequirement} (hauto : automaticRequirement config r)
    {d : RepairDecision} (hplan : planRequirement sha256 config r = .ok d) : Applicable {} d := by
  obtain ⟨hresource, -, haction, hdisposition, hparameters⟩ := planRequirement_ok hplan
  obtain ⟨hact, hdisp, hparam⟩ := verdict_of_automatic hauto
  refine ⟨hdisposition.trans hdisp, haction.trans hact, ?_, ?_, ?_⟩
  · rw [RepairDecision.parameter, hparameters, hparam]
    rfl
  · rw [RepairDecision.parameter, hparameters, hparam]
    rfl
  · exact ⟨_, by rw [hresource]; exact applier_accepts hauto⟩

/-- In an empty rootfs every authorised directory is really made. -/
theorem made_of_automatic {source digest : PyStr} {p : RepairPlan}
    (h : plan sha256 config report source digest = .ok p) (hload : p.load sha256 = .ok p)
    {r : RuntimeRequirement} (hr : r ∈ report.requirements) (hauto : automaticRequirement config r)
    {q : GuestPath} (hq : q ∈ below [] (guestComponents r.resource)) :
    ∃ m ∈ (applyFile sha256 {} (fun _ => false) 0 p [] p.sourceSha256
      (.directory (Rootfs.bare 0o755)) false).made, m.path = q := by
  have hfree : ∀ components, Unobstructed (Rootfs.bare 0o755) components := by
    intro components path hpath
    have hlength := (prefix_of_mem_below hpath).2
    exact Or.inl (Rootfs.node?_bare (List.length_pos_iff.mp hlength))
  have hall : ∀ d ∈ p.decisions, d.automaticAllowed → Applicable {} d ∧
      (∀ path, ¬ (fun _ => false : Faults) (.lstat d.decisionId path)) ∧
      Unobstructed (Rootfs.bare 0o755) (guestComponents d.resource) := by
    intro d hd hd'
    obtain ⟨s, hs, hsauto, -, hplan⟩ := exists_automatic h hd hd'
    exact ⟨applicable_of_automatic hsauto hplan, by simp, hfree _⟩
  obtain ⟨prepared, results, hpre⟩ := preflight_passes (fun _ => false) (Rootfs.bare 0o755) false []
    hall
  have hruns : Runs sha256 {} (fun _ => false) p p.sourceSha256 (.directory (Rootfs.bare 0o755)) false
      (Rootfs.bare 0o755) prepared results := ⟨hload, rfl, rfl, rfl, hpre⟩
  have hq' : q ∈ plannedDirectories prepared := by
    obtain ⟨d, hd, hplan⟩ := (mem_plan_decisions h).2 r hr
    obtain ⟨hresource, hautomatic, -⟩ := planRequirement_ok hplan
    rw [← hresource] at hq
    rcases preflight_covers hpre hd (hautomatic.trans hauto) q hq with hdir | hnil | hmem
    · obtain ⟨mode, hmode⟩ := hdir
      rw [Rootfs.node?_bare (List.length_pos_iff.mp (prefix_of_mem_below hq).2)] at hmode
      cases hmode
    · exact absurd hnil List.not_mem_nil
    · exact hmem
  rcases applyFile_cases sha256 {} (fun _ => false) 0 p [] p.sourceSha256
    (.directory (Rootfs.bare 0o755)) false with
    ⟨-, -, -, hnot⟩ | ⟨fs, prepared', results', hruns', heq⟩
  · exact absurd ⟨_, _, _, hruns⟩ hnot
  · cases RootfsEntry.directory.inj hruns'.directory
    have hsame := hruns'.passes.symm.trans hruns.passes
    simp only [Except.ok.injEq, Prod.mk.injEq] at hsame
    obtain ⟨rfl, rfl⟩ := hsame
    obtain ⟨t, hmade, ht, hout⟩ := runPrepared_made (fun _ => false) 0
      (blankReport [] p.sourceSha256) prepared' results' (Rootfs.bare 0o755)
    have hspec := hruns'.changes 0
    rw [heq, hout]
    subst ht
    revert hmade
    revert hspec
    generalize applyItems (fun _ => false) 0 prepared' (resultsById results')
      ⟨Rootfs.bare 0o755, [], []⟩ = out
    rcases out with ⟨error | byDecision, t⟩
    · rintro ⟨before, path, after, hstop⟩ -
      rcases hstop.cause with ⟨hfail, -⟩ | ⟨-, hfail, -⟩
      · cases hfail
      · cases hfail
    · rintro ⟨-, hfinished⟩ hmade
      have hcreated : q ∈ t.created := by
        rw [hfinished.created]
        exact hq'
      exact (hmade.recorded q hcreated).resolve_left List.not_mem_nil

/-- **The directories that the applier makes for a report stay on the authorised paths, inside the
rootfs, away from links and outside `/proc`, `/sys` and `/dev`, for every rootfs, failure and report
that can be planned, exactly when no authorised path spells one of these with two slashes.** -/
theorem repairs_confined_iff (sha256 : PyStr → PyStr) (config : RepairPlannerConfig)
    (report : RequirementReport) :
    RepairsConfined sha256 config report ↔
      (Plannable sha256 config report →
        ∀ r ∈ report.requirements, automaticRequirement config r → ¬ SpellsPseudo r.resource) := by
  constructor
  · rintro hconfined ⟨source, digest, p, hplan, hload⟩ r hr hauto ⟨-, name, hname, hhead⟩
    have htail := (guestComponents_of_valid (applier_accepts hauto)).2.1
    have hfirst : [name] ∈ below [] (guestComponents r.resource) := by
      rw [htail]
      cases hcomponents : (purePosixPath r.resource).tail with
      | nil =>
        rw [hcomponents] at hhead
        exact absurd hhead (by nofun)
      | cons first rest =>
        rw [hcomponents] at hhead
        cases hhead
        exact List.mem_cons_self
    obtain ⟨m, hm, hpath⟩ := made_of_automatic hplan hload hr hauto hfirst
    refine (hconfined source digest p hplan _ _ _ _ _ _ m hm).notPseudo name hname ?_
    rw [hpath]
    rfl
  · intro hspell source digest p hplan fails umask planSha256 requirementsSha256 rootfs dryRun m hm
    rcases applyFile_cases sha256 {} fails umask p planSha256 requirementsSha256 rootfs dryRun with
      ⟨-, hnone, -⟩ | ⟨fs, prepared, results, hruns, heq⟩
    · rw [hnone] at hm
      exact absurd hm List.not_mem_nil
    · obtain ⟨t, hmade, -, hout⟩ := runPrepared_made fails umask
        (blankReport planSha256 requirementsSha256) prepared results fs
      rw [heq, hout] at hm
      obtain ⟨hpath, hdir⟩ := (hmade.listed m hm).resolve_left List.not_mem_nil
      refine confined_of_planned hruns.passes ?_ hpath hdir
      intro d hd hauto
      obtain ⟨r, hr, hrauto, hresource, -⟩ := exists_automatic hplan hd hauto
      rw [← hresource]
      exact hspell ⟨source, digest, p, hplan, hruns.loads⟩ r hr hrauto

end Confinement

/-! ### A directory in a pseudo-filesystem -/

/-- The report of a sample that looked for the directory `//proc`. -/
def procReport : RequirementReport where
  requirements :=
    [{ requirementId := py "req_358955bb11e1be19"
       kind := .filesystem
       resource := py "//proc"
       operation := py "directory_exists"
       status := .unmet
       blocking := .likely
       confidence := 1
       repairable := true
       details := [] }]
  warnings := []

def procPlanner : RepairPlannerConfig where
  minimumAutoConfidence := 19 / 20
  urlsplit _ := none

/-- The digest that the identifier of its decision is made from. -/
def procSha256 (text : PyStr) : PyStr :=
  if text = py "req_358955bb11e1be19" ++ [0] ++ py "create_directory" ++ [0] ++ py "auto_candidate" ++
      [0] ++ py "//proc" then
    py "6720d3ff147183bab0b2e61ac61f4f2a7df2e148953c2e7c72a5b16e619f8ee9"
  else []

/-- Whether a plan is made and can be read back. -/
def readsBack (sha256 : PyStr → PyStr) : Except RepairPlanningError RepairPlan → Bool
  | .error _ => false
  | .ok p => (p.load sha256).isOk

theorem exists_of_readsBack {sha256 : PyStr → PyStr} {made : Except RepairPlanningError RepairPlan}
    (h : readsBack sha256 made) : ∃ p, made = .ok p ∧ p.load sha256 = .ok p := by
  cases made with
  | error error => exact absurd h (by nofun)
  | ok p =>
    cases hload : p.load sha256 with
    | error error =>
      simp only [readsBack, hload] at h
      exact absurd h (by nofun)
    | ok loaded =>
      obtain ⟨rfl, -, -⟩ := RepairPlan.load_ok hload
      exact ⟨loaded, rfl, hload⟩

/-- The planner authorises `//proc`, and the applier makes the directory `proc` of the rootfs. -/
theorem two_slashes_make_proc : ¬ RepairsConfined procSha256 procPlanner procReport := by
  intro hconfined
  have hreads : readsBack procSha256 (plan procSha256 procPlanner procReport
      (py "requirements.json") (List.replicate 64 0x30)) := by decide +kernel
  obtain ⟨p, hplan, hload⟩ := exists_of_readsBack hreads
  obtain ⟨m, hm, hpath⟩ := made_of_automatic hplan hload List.mem_cons_self (by decide +kernel)
    (q := [py "proc"]) (by decide)
  refine (hconfined _ _ p hplan _ _ _ _ _ _ m hm).notPseudo (py "proc") List.mem_cons_self ?_
  rw [hpath]
  rfl

end TaintForge
