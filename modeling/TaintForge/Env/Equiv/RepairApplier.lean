import TaintForge.Env.RepairApplier

/-!
# Applying a repair plan is a transaction

The inspection lists directories that can be made one after another.  Making them stops at the first
call that fails, and the rollback removes what was recorded.

* `Buildable`, `TreeGrown`: lists of directories that can be made in order, and a tree with them.
* `preflight_buildable`: the inspection lists such a list.
* `Finished`, `Stopped`: the two ways in which the changes end.
* `rollback_restores`: a rollback without errors removes exactly what was recorded.
* `applyFile_transactional`: the call is a transaction unless the directory whose `chmod` failed lies
  in a directory that was there before.
-/

namespace TaintForge

/-! ### Lists of directories -/

/-- The paths from below `current` down along some components. -/
def below : GuestPath → List PyStr → List GuestPath
  | _, [] => []
  | current, component :: rest => (current ++ [component]) :: below (current ++ [component]) rest

/-- The paths are free, and each lies in a directory of the tree or in one of the paths before it. -/
def Buildable (fs : Rootfs) : List GuestPath → List GuestPath → Prop
  | _, [] => True
  | done, path :: rest =>
    path ≠ [] ∧ fs.node? path = none ∧ path ∉ done ∧
      (fs.IsDir path.dropLast ∨ path.dropLast ∈ done) ∧ Buildable fs (done ++ [path]) rest

theorem buildable_append {fs : Rootfs} {done a b : List GuestPath} :
    Buildable fs done (a ++ b) ↔ Buildable fs done a ∧ Buildable fs (done ++ a) b := by
  induction a generalizing done with
  | nil => simp [Buildable]
  | cons path a ih =>
    rw [List.cons_append]
    simp only [Buildable, ih, List.append_assoc, List.singleton_append]
    constructor
    · rintro ⟨h1, h2, h3, h4, h5, h6⟩
      exact ⟨⟨h1, h2, h3, h4, h5⟩, h6⟩
    · rintro ⟨⟨h1, h2, h3, h4, h5⟩, h6⟩
      exact ⟨h1, h2, h3, h4, h5, h6⟩

theorem Buildable.free {fs : Rootfs} {done paths : List GuestPath} (h : Buildable fs done paths) :
    ∀ path ∈ paths, path ≠ [] ∧ fs.node? path = none ∧ path ∉ done := by
  induction paths generalizing done with
  | nil => simp
  | cons path rest ih =>
    obtain ⟨hne, hfree, hnew, -, hrest⟩ := h
    intro q hq
    rcases List.mem_cons.mp hq with rfl | hq
    · exact ⟨hne, hfree, hnew⟩
    · obtain ⟨h1, h2, h3⟩ := ih hrest q hq
      exact ⟨h1, h2, fun hd => h3 (List.mem_append_left _ hd)⟩

theorem Buildable.nodup {fs : Rootfs} {done paths : List GuestPath} (h : Buildable fs done paths) :
    paths.Nodup := by
  induction paths generalizing done with
  | nil => exact List.nodup_nil
  | cons path rest ih =>
    obtain ⟨-, -, -, -, hrest⟩ := h
    rw [List.nodup_cons]
    refine ⟨fun hmem => (hrest.free path hmem).2.2 ?_, ih hrest⟩
    simp

/-- The last path of a list has none of the others below it. -/
theorem Buildable.no_child_of_last {fs : Rootfs} {paths : List GuestPath} {path : GuestPath}
    (h : Buildable fs [] (paths ++ [path])) (name : PyStr) : path ++ [name] ∉ paths := by
  intro hmem
  obtain ⟨before, after, rfl⟩ := List.append_of_mem hmem
  rw [buildable_append] at h
  obtain ⟨hpaths, hlast⟩ := h
  obtain ⟨-, hfree, hnew, -, -⟩ := hlast
  have hchild := (buildable_append.mp hpaths).2
  have hparent := hchild.2.2.2.1
  rw [List.dropLast_concat] at hparent
  rcases hparent with ⟨mode, hdir⟩ | hdone
  · rw [hfree] at hdir
    cases hdir
  · apply hnew
    rw [List.nil_append] at hdone ⊢
    exact List.mem_append_left _ hdone

/-- A tree that grew by some directories. -/
structure TreeGrown (fs gs : Rootfs) (dirs : List GuestPath) : Prop where
  buildable : Buildable fs [] dirs
  isDir : ∀ path ∈ dirs, gs.IsDir path
  same : ∀ path, path ∉ dirs → gs.node? path = fs.node? path

theorem TreeGrown.refl (fs : Rootfs) : TreeGrown fs fs [] :=
  ⟨trivial, by simp, fun _ _ => rfl⟩

theorem TreeGrown.isDir_of_isDir {fs gs : Rootfs} {dirs : List GuestPath} (h : TreeGrown fs gs dirs)
    {path : GuestPath} (hdir : fs.IsDir path) : gs.IsDir path := by
  by_cases hmem : path ∈ dirs
  · exact h.isDir path hmem
  · obtain ⟨mode, hmode⟩ := hdir
    exact ⟨mode, by rw [h.same path hmem, hmode]⟩

/-- Another directory, in whatever steps it was made. -/
theorem TreeGrown.snoc {fs gs hs : Rootfs} {dirs : List GuestPath} {path : GuestPath} (h : TreeGrown fs gs dirs)
    (hbuild : Buildable fs dirs [path]) {mode : ℕ}
    (hnode : ∀ p, hs.node? p = if p = path then some (.dir mode) else gs.node? p) :
    TreeGrown fs hs (dirs ++ [path]) where
  buildable := buildable_append.mpr ⟨h.buildable, by rwa [List.nil_append]⟩
  isDir p hp := by
    by_cases heq : p = path
    · exact ⟨mode, by rw [hnode, if_pos heq]⟩
    · have hmem : p ∈ dirs := by simpa [heq] using hp
      obtain ⟨m, hm⟩ := h.isDir p hmem
      exact ⟨m, by rw [hnode, if_neg heq, hm]⟩
  same p hp := by
    have hne : p ≠ path := fun heq => hp (by simp [heq])
    rw [hnode, if_neg hne]
    exact h.same p fun hmem => hp (List.mem_append_left _ hmem)

/-- The directories that a tree grew by are the new ones. -/
theorem TreeGrown.mem_iff {fs gs : Rootfs} {dirs : List GuestPath} (h : TreeGrown fs gs dirs)
    (path : GuestPath) : path ∈ dirs ↔ gs.IsDir path ∧ ¬ fs.IsDir path := by
  constructor
  · intro hmem
    refine ⟨h.isDir path hmem, ?_⟩
    rintro ⟨mode, hmode⟩
    rw [(h.buildable.free path hmem).2.1] at hmode
    cases hmode
  · rintro ⟨⟨mode, hmode⟩, hnot⟩
    by_contra hmem
    exact hnot ⟨mode, by rw [← h.same path hmem, hmode]⟩

/-! ### The inspection -/

theorem Rootfs.lstat_ok {fs : Rootfs} {path : GuestPath} {node : Node}
    (h : fs.lstat path = .ok node) : fs.node? path = some node := by
  unfold Rootfs.lstat at h
  split at h
  · cases h
    assumption
  · cases h

theorem Rootfs.lstat_error {fs : Rootfs} {path : GuestPath} {errno : Errno}
    (h : fs.lstat path = .error errno) : fs.node? path = none := by
  unfold Rootfs.lstat at h
  split at h
  · cases h
  · assumption

section Walk

variable {fails : Faults} {fs : Rootfs} {decisionId : PyStr} {virtual : List GuestPath}

/-- The ways in which a step of the walk goes on. -/
theorem walkComponents_cons {current : GuestPath} {component : PyStr} {rest : List PyStr}
    {out : List GuestPath}
    (h : walkComponents fails fs decisionId virtual current (component :: rest) = .ok out) :
    ((current ++ [component] ∈ virtual ∨
        current ++ [component] ∉ virtual ∧ fs.IsDir (current ++ [component])) ∧
      walkComponents fails fs decisionId virtual (current ++ [component]) rest = .ok out) ∨
    (current ++ [component] ∉ virtual ∧ fs.node? (current ++ [component]) = none ∧
      ∃ created, out = (current ++ [component]) :: created ∧
        walkComponents fails fs decisionId virtual (current ++ [component]) rest = .ok created) := by
  unfold walkComponents at h
  dsimp only at h
  split at h
  · rename_i hvirtual
    exact Or.inl ⟨Or.inl hvirtual, h⟩
  · rename_i hvirtual
    split at h
    · cases h
    · split at h
      · rename_i hstat
        split at h
        · rename_i created hcreated
          cases h
          exact Or.inr ⟨hvirtual, Rootfs.lstat_error hstat, created, rfl, hcreated⟩
        · cases h
      · cases h
      · cases h
      · split at h
        · cases h
        · cases h
      · rename_i mode hstat
        exact Or.inl ⟨Or.inr ⟨hvirtual, mode, Rootfs.lstat_ok hstat⟩, h⟩

/-- What the walk lists can be made on top of the directories that are already going to be made. -/
theorem walkComponents_buildable {components : List PyStr} {current : GuestPath}
    {done out : List GuestPath}
    (h : walkComponents fails fs decisionId virtual current components = .ok out)
    (hcurrent : fs.IsDir current ∨ current ∈ done) (hvirtual : ∀ p ∈ virtual, p ∈ done)
    (hshort : ∀ p ∈ done, p ∈ virtual ∨ p.length ≤ current.length) : Buildable fs done out := by
  induction components generalizing current done out with
  | nil =>
    cases h
    trivial
  | cons component rest ih =>
    have hlen : (current ++ [component]).length = current.length + 1 := by simp
    rcases walkComponents_cons h with ⟨hplace, hrest⟩ | ⟨hnew, hfree, created, rfl, hrest⟩
    · refine ih hrest ?_ hvirtual fun p hp => (hshort p hp).imp_right (by omega)
      rcases hplace with hmem | ⟨-, hdir⟩
      · exact Or.inr (hvirtual _ hmem)
      · exact Or.inl hdir
    · refine ⟨by simp, hfree, fun hmem => ?_, by rwa [List.dropLast_concat], ?_⟩
      · -- The paths on the way here are shorter than this one.
        rcases hshort _ hmem with h | h
        · exact hnew h
        · omega
      · apply ih hrest
        · exact Or.inr (by simp)
        · exact fun p hp => List.mem_append_left _ (hvirtual p hp)
        · intro p hp
          rcases List.mem_append.mp hp with hp | hp
          · exact (hshort p hp).imp_right (by omega)
          · rw [List.mem_singleton] at hp
            exact Or.inr (by rw [hp])

/-- Every path of the walk is a directory, or is going to be one. -/
theorem walkComponents_covers {components : List PyStr} {current : GuestPath} {out : List GuestPath}
    (h : walkComponents fails fs decisionId virtual current components = .ok out) :
    (∀ p ∈ below current components, fs.IsDir p ∨ p ∈ virtual ∨ p ∈ out) ∧
      ∀ p ∈ out, p ∈ below current components := by
  induction components generalizing current out with
  | nil =>
    cases h
    simp [below]
  | cons component rest ih =>
    rcases walkComponents_cons h with ⟨hplace, hrest⟩ | ⟨-, -, created, rfl, hrest⟩
    · obtain ⟨hall, hsub⟩ := ih hrest
      refine ⟨fun p hp => ?_, fun p hp => List.mem_cons_of_mem _ (hsub p hp)⟩
      rcases List.mem_cons.mp hp with rfl | hp
      · rcases hplace with hmem | ⟨-, hdir⟩
        · exact Or.inr (Or.inl hmem)
        · exact Or.inl hdir
      · exact hall p hp
    · obtain ⟨hall, hsub⟩ := ih hrest
      constructor
      · intro p hp
        rcases List.mem_cons.mp hp with rfl | hp
        · exact Or.inr (Or.inr List.mem_cons_self)
        · exact (hall p hp).imp_right (Or.imp_right (List.mem_cons_of_mem _))
      · intro p hp
        rcases List.mem_cons.mp hp with rfl | hp
        · exact List.mem_cons_self
        · exact List.mem_cons_of_mem _ (hsub p hp)

end Walk

/-- The last path of the walk is the target. -/
theorem mem_below_self {components : List PyStr} (current : GuestPath) (h : components ≠ []) :
    current ++ components ∈ below current components := by
  induction components generalizing current with
  | nil => exact absurd rfl h
  | cons component rest ih =>
    by_cases hrest : rest = []
    · subst hrest
      exact List.mem_cons_self
    · apply List.mem_cons_of_mem
      have hmem := ih (current ++ [component]) hrest
      rwa [List.append_assoc, List.singleton_append] at hmem

theorem prefix_of_mem_below {components : List PyStr} {current p : GuestPath}
    (h : p ∈ below current components) : p <+: current ++ components ∧ current.length < p.length := by
  induction components generalizing current with
  | nil => exact absurd h List.not_mem_nil
  | cons component rest ih =>
    rcases List.mem_cons.mp h with rfl | h
    · refine ⟨⟨rest, by simp⟩, by simp⟩
    · obtain ⟨hpre, hlen⟩ := ih h
      rw [List.append_assoc, List.singleton_append] at hpre
      refine ⟨hpre, ?_⟩
      rw [List.length_append, List.length_singleton] at hlen
      omega

section Preflight

variable {config : RepairApplierConfig} {fails : Faults} {fs : Rootfs}

/-- What is known of a prepared repair. -/
theorem prepareDirectory_ok {virtual : List GuestPath} {decision : RepairDecision}
    {item : PreparedDirectoryRepair}
    (h : prepareDirectory config fails fs virtual decision = .ok item) :
    item.decision = decision ∧ item.alreadySatisfied = item.createPaths.isEmpty ∧
      config.validateGuestPath decision.resource = .ok item.guestPath ∧
      walkComponents fails fs decision.decisionId virtual [] (guestComponents item.guestPath) =
        .ok item.createPaths := by
  unfold prepareDirectory at h
  split at h
  · cases h
  · rename_i guestPath hguest
    split at h
    · split at h
      · cases h
      · split at h
        · cases h
        · rename_i createPaths hwalk
          cases h
          exact ⟨rfl, rfl, hguest, hwalk⟩
    · cases h

theorem RepairApplierConfig.validateGuestPath_ok {path guestPath : PyStr}
    (h : config.validateGuestPath path = .ok guestPath) :
    [slash] <+: path ∧ py ".." ∉ (purePosixPath path).parts ∧
      (purePosixPath path).asPosix = PyStr.rstripOf slash path ∧
      guestPath = (purePosixPath path).asPosix ∧
      ∀ dir ∈ config.deniedPrefixes, ¬ beneath dir guestPath := by
  unfold RepairApplierConfig.validateGuestPath at h
  split at h
  · cases h
  · split at h
    · cases h
    · rename_i habs
      split at h
      · cases h
      · split at h
        · cases h
        · rename_i hparent
          split at h
          · cases h
          · rename_i hnormal
            split at h
            · cases h
            · rename_i hdenied
              cases h
              refine ⟨?_, hparent, not_not.mp hnormal, rfl, fun dir hdir hbeneath => ?_⟩
              · simpa using habs
              · exact hdenied (List.any_eq_true.mpr ⟨dir, hdir, hbeneath⟩)

/-- A valid guest path has components, and its normal form has the same ones. -/
theorem guestComponents_of_valid {path guestPath : PyStr}
    (h : config.validateGuestPath path = .ok guestPath) :
    guestComponents guestPath = guestComponents path ∧
      guestComponents path = (purePosixPath path).tail ∧ guestComponents path ≠ [] := by
  obtain ⟨habs, -, hnormal, rfl, -⟩ := RepairApplierConfig.validateGuestPath_ok h
  have hroot := root_ne_nil_of_slash habs
  have htwo := (root_cases path).resolve_left hroot
  have hround := purePosixPath_asPosix htwo fun c hc => isComponent_of_mem hc
  have htail : guestComponents path = (purePosixPath path).tail := by
    simp [guestComponents, PurePosixPath.parts, hroot]
  refine ⟨by rw [guestComponents, guestComponents, hround], htail, ?_⟩
  rw [htail]
  intro hnil
  -- Without components the normal form would end in the slash that `rstrip` removes.
  rw [asPosix_of_root hroot, hnil] at hnormal
  have hne : PyStr.rstripOf slash path ≠ [] := by
    rw [← hnormal]
    simpa using hroot
  apply PyStr.rstripOf_getLast_ne hne
  rcases htwo with hr | hr
  · simp [← hnormal, hr]
  · simp [← hnormal, hr]

/-- The inspection goes through the decisions one by one. -/
theorem preflightFrom_cons {dryRun : Bool} {virtual : List GuestPath} {decision : RepairDecision}
    {rest : List RepairDecision} {prepared : List PreparedDirectoryRepair}
    {results : List RepairDecisionResult}
    (h : preflightFrom config fails fs dryRun virtual (decision :: rest) = .ok (prepared, results)) :
    (¬ decision.automaticAllowed ∧ ∃ results', results = notSelected decision :: results' ∧
      preflightFrom config fails fs dryRun virtual rest = .ok (prepared, results')) ∨
    (decision.automaticAllowed ∧ ∃ item prepared' results',
      prepareDirectory config fails fs virtual decision = .ok item ∧ prepared = item :: prepared' ∧
      results = item.result dryRun :: results' ∧
      preflightFrom config fails fs dryRun (virtual ++ item.createPaths) rest =
        .ok (prepared', results')) := by
  unfold preflightFrom at h
  split at h
  · rename_i hauto
    split at h
    · cases h
    · rename_i prepared' results' hrest
      cases h
      exact Or.inl ⟨hauto, results', rfl, hrest⟩
  · rename_i hauto
    split at h
    · cases h
    · split at h
      · cases h
      · split at h
        · split at h
          · cases h
          · rename_i item hitem
            split at h
            · cases h
            · rename_i prepared' results' hrest
              cases h
              exact Or.inr ⟨not_not.mp hauto, item, prepared', results', hitem, rfl, rfl, hrest⟩
        · cases h

/-- The directories that the inspection lists. -/
def plannedDirectories (prepared : List PreparedDirectoryRepair) : List GuestPath :=
  prepared.flatMap PreparedDirectoryRepair.createPaths

/-- **The inspection lists directories that can be made one after another.** -/
theorem preflight_buildable {dryRun : Bool} {decisions : List RepairDecision}
    {virtual : List GuestPath} {prepared : List PreparedDirectoryRepair}
    {results : List RepairDecisionResult}
    (h : preflightFrom config fails fs dryRun virtual decisions = .ok (prepared, results)) :
    Buildable fs virtual (plannedDirectories prepared) := by
  induction decisions generalizing virtual prepared results with
  | nil =>
    cases h
    trivial
  | cons decision rest ih =>
    rcases preflightFrom_cons h with ⟨-, results', -, hrest⟩ |
      ⟨-, item, prepared', results', hitem, rfl, -, hrest⟩
    · exact ih hrest
    · obtain ⟨-, -, -, hwalk⟩ := prepareDirectory_ok hitem
      show Buildable fs virtual (item.createPaths ++ plannedDirectories prepared')
      apply buildable_append.mpr
      refine ⟨?_, ih hrest⟩
      apply walkComponents_buildable hwalk
      · exact Or.inl fs.isDir_root
      · exact fun p hp => hp
      · exact fun p hp => Or.inl hp

/-- A repair counts as satisfied when it lists nothing, and its decision is in the plan. -/
theorem preflight_items {dryRun : Bool} {decisions : List RepairDecision}
    {virtual : List GuestPath} {prepared : List PreparedDirectoryRepair}
    {results : List RepairDecisionResult}
    (h : preflightFrom config fails fs dryRun virtual decisions = .ok (prepared, results)) :
    ∀ item ∈ prepared, item.alreadySatisfied = item.createPaths.isEmpty ∧
      item.result dryRun ∈ results ∧ item.decision ∈ decisions := by
  induction decisions generalizing virtual prepared results with
  | nil =>
    cases h
    simp
  | cons decision rest ih =>
    rcases preflightFrom_cons h with ⟨-, results', rfl, hrest⟩ |
      ⟨-, item, prepared', results', hitem, rfl, rfl, hrest⟩
    · intro item hmem
      obtain ⟨hsat, hresult, hdecision⟩ := ih hrest item hmem
      exact ⟨hsat, List.mem_cons_of_mem _ hresult, List.mem_cons_of_mem _ hdecision⟩
    · obtain ⟨hdec, hsat, -, -⟩ := prepareDirectory_ok hitem
      intro other hmem
      rcases List.mem_cons.mp hmem with rfl | hmem
      · exact ⟨hsat, List.mem_cons_self, hdec ▸ List.mem_cons_self⟩
      · obtain ⟨hsat', hresult, hdecision⟩ := ih hrest other hmem
        exact ⟨hsat', List.mem_cons_of_mem _ hresult, List.mem_cons_of_mem _ hdecision⟩

/-- The results stand for the decisions in order, and together they list what is going to be made. -/
theorem preflight_results {dryRun : Bool} {decisions : List RepairDecision}
    {virtual : List GuestPath} {prepared : List PreparedDirectoryRepair}
    {results : List RepairDecisionResult}
    (h : preflightFrom config fails fs dryRun virtual decisions = .ok (prepared, results)) :
    results.map RepairDecisionResult.decisionId = decisions.map RepairDecision.decisionId ∧
      results.flatMap RepairDecisionResult.createdPaths = plannedDirectories prepared := by
  induction decisions generalizing virtual prepared results with
  | nil =>
    cases h
    exact ⟨rfl, rfl⟩
  | cons decision rest ih =>
    rcases preflightFrom_cons h with ⟨-, results', rfl, hrest⟩ |
      ⟨-, item, prepared', results', hitem, rfl, rfl, hrest⟩
    · obtain ⟨hids, hpaths⟩ := ih hrest
      exact ⟨congrArg (decision.decisionId :: ·) hids, hpaths⟩
    · obtain ⟨hids, hpaths⟩ := ih hrest
      obtain ⟨hdec, -, -, -⟩ := prepareDirectory_ok hitem
      constructor
      · rw [List.map_cons, List.map_cons, hids, ← hdec]
        rfl
      · exact congrArg (item.createPaths ++ ·) hpaths

/-- Every directory on the way to an automatic repair is there or is going to be made. -/
theorem preflight_covers {dryRun : Bool} {decisions : List RepairDecision}
    {virtual : List GuestPath} {prepared : List PreparedDirectoryRepair}
    {results : List RepairDecisionResult}
    (h : preflightFrom config fails fs dryRun virtual decisions = .ok (prepared, results))
    {d : RepairDecision} (hd : d ∈ decisions) (hauto : d.automaticAllowed) :
    ∀ p ∈ below [] (guestComponents d.resource),
      fs.IsDir p ∨ p ∈ virtual ∨ p ∈ plannedDirectories prepared := by
  induction decisions generalizing virtual prepared results with
  | nil => exact absurd hd List.not_mem_nil
  | cons decision rest ih =>
    rcases preflightFrom_cons h with ⟨hnot, results', -, hrest⟩ |
      ⟨-, item, prepared', results', hitem, rfl, -, hrest⟩
    · rcases List.mem_cons.mp hd with rfl | hd
      · exact absurd hauto hnot
      · exact ih hrest hd
    · obtain ⟨-, -, hguest, hwalk⟩ := prepareDirectory_ok hitem
      have hplanned : plannedDirectories (item :: prepared') =
          item.createPaths ++ plannedDirectories prepared' := rfl
      intro p hp
      rw [hplanned, List.mem_append]
      rcases List.mem_cons.mp hd with rfl | hd
      · rw [(guestComponents_of_valid hguest).1] at hwalk
        rcases (walkComponents_covers hwalk).1 p hp with h | h | h
        · exact Or.inl h
        · exact Or.inr (Or.inl h)
        · exact Or.inr (Or.inr (Or.inl h))
      · rcases ih hrest hd p hp with h | h | h
        · exact Or.inl h
        · rcases List.mem_append.mp h with h | h
          · exact Or.inr (Or.inl h)
          · exact Or.inr (Or.inr (Or.inl h))
        · exact Or.inr (Or.inr (Or.inr h))

theorem preflight_valid {dryRun : Bool} {decisions : List RepairDecision}
    {virtual : List GuestPath} {prepared : List PreparedDirectoryRepair}
    {results : List RepairDecisionResult}
    (h : preflightFrom config fails fs dryRun virtual decisions = .ok (prepared, results))
    {d : RepairDecision} (hd : d ∈ decisions) (hauto : d.automaticAllowed) :
    ∃ guestPath, config.validateGuestPath d.resource = .ok guestPath := by
  induction decisions generalizing virtual prepared results with
  | nil => exact absurd hd List.not_mem_nil
  | cons decision rest ih =>
    rcases preflightFrom_cons h with ⟨hnot, results', -, hrest⟩ |
      ⟨-, item, prepared', results', hitem, -, -, hrest⟩
    · rcases List.mem_cons.mp hd with rfl | hd
      · exact absurd hauto hnot
      · exact ih hrest hd
    · rcases List.mem_cons.mp hd with rfl | hd
      · exact ⟨_, (prepareDirectory_ok hitem).2.2.1⟩
      · exact ih hrest hd

/-- What is going to be made lies on the way to an automatic repair with a valid path. -/
theorem preflight_sources {dryRun : Bool} {decisions : List RepairDecision}
    {virtual : List GuestPath} {prepared : List PreparedDirectoryRepair}
    {results : List RepairDecisionResult}
    (h : preflightFrom config fails fs dryRun virtual decisions = .ok (prepared, results)) :
    ∀ p ∈ plannedDirectories prepared, ∃ d ∈ decisions, d.automaticAllowed ∧
      (∃ guestPath, config.validateGuestPath d.resource = .ok guestPath) ∧
      p ∈ below [] (guestComponents d.resource) := by
  induction decisions generalizing virtual prepared results with
  | nil =>
    cases h
    simp [plannedDirectories]
  | cons decision rest ih =>
    rcases preflightFrom_cons h with ⟨-, results', -, hrest⟩ |
      ⟨hauto, item, prepared', results', hitem, rfl, -, hrest⟩
    · intro p hp
      obtain ⟨d, hd, hall⟩ := ih hrest p hp
      exact ⟨d, List.mem_cons_of_mem _ hd, hall⟩
    · obtain ⟨-, -, hguest, hwalk⟩ := prepareDirectory_ok hitem
      intro p hp
      have hp' : p ∈ item.createPaths ++ plannedDirectories prepared' := hp
      rcases List.mem_append.mp hp' with hp' | hp'
      · rw [(guestComponents_of_valid hguest).1] at hwalk
        exact ⟨decision, List.mem_cons_self, hauto, ⟨_, hguest⟩,
          (walkComponents_covers hwalk).2 p hp'⟩
      · obtain ⟨d, hd, hall⟩ := ih hrest p hp'
        exact ⟨d, List.mem_cons_of_mem _ hd, hall⟩

end Preflight

/-! ### The changes -/

section Changes

variable {fails : Faults} {umask : ℕ} {fs : Rootfs}

/-- Neither call that makes a directory fails by itself. -/
def Clear (fails : Faults) (path : GuestPath) : Prop := ¬ fails (.mkdir path) ∧ ¬ fails (.chmod path)

/-- All directories were made and recorded. -/
structure Finished (fails : Faults) (fs : Rootfs) (s : ApplyState) (paths : List GuestPath)
    (t : ApplyState) : Prop where
  clear : ∀ path ∈ paths, Clear fails path
  created : t.created = s.created ++ paths
  grown : TreeGrown fs t.fs t.created

/-- The changes stopped at a directory that could not be made, or that was made but not recorded. -/
structure Stopped (fails : Faults) (fs : Rootfs) (s : ApplyState) (paths : List GuestPath)
    (t : ApplyState) (before : List GuestPath) (path : GuestPath) (after : List GuestPath) :
    Prop where
  split : paths = before ++ path :: after
  clear : ∀ p ∈ before, Clear fails p
  created : t.created = s.created ++ before
  cause : (fails (.mkdir path) ∧ TreeGrown fs t.fs t.created) ∨
    (¬ fails (.mkdir path) ∧ fails (.chmod path) ∧ TreeGrown fs t.fs (t.created ++ [path]))

theorem Finished.trans {s t u : ApplyState} {a b : List GuestPath} (h : Finished fails fs s a t)
    (h' : Finished fails fs t b u) : Finished fails fs s (a ++ b) u where
  clear p hp := by
    rcases List.mem_append.mp hp with hp | hp
    · exact h.clear p hp
    · exact h'.clear p hp
  created := by rw [h'.created, h.created, List.append_assoc]
  grown := h'.grown

theorem Finished.stop {s t u : ApplyState} {a b before after : List GuestPath} {path : GuestPath}
    (h : Finished fails fs s a t) (h' : Stopped fails fs t b u before path after) :
    Stopped fails fs s (a ++ b) u (a ++ before) path after where
  split := by rw [h'.split, List.append_assoc]
  clear p hp := by
    rcases List.mem_append.mp hp with hp | hp
    · exact h.clear p hp
    · exact h'.clear p hp
  created := by rw [h'.created, h.created, List.append_assoc]
  cause := h'.cause

theorem Stopped.extend {s t : ApplyState} {a before after : List GuestPath} {path : GuestPath}
    (h : Stopped fails fs s a t before path after) (b : List GuestPath) :
    Stopped fails fs s (a ++ b) t before path (after ++ b) :=
  { h with split := by rw [h.split, List.append_assoc, List.cons_append] }

/-- A path that can be made on top of the recorded ones is free now, and its directory is there. -/
theorem TreeGrown.ready {gs : Rootfs} {done : List GuestPath} {path : GuestPath} {rest : List GuestPath}
    (h : TreeGrown fs gs done) (hbuild : Buildable fs done (path :: rest)) :
    gs.node? path = none ∧ gs.IsDir path.dropLast := by
  obtain ⟨-, hfree, hnew, hparent, hrest⟩ := hbuild
  clear hrest
  refine ⟨by rw [h.same path hnew, hfree], ?_⟩
  rcases hparent with hdir | hmem
  · exact h.isDir_of_isDir hdir
  · exact h.isDir _ hmem

/-- **Making directories ends in one of the two ways.** -/
theorem makeDirectories_spec (fails : Faults) (umask mode : ℕ) {paths : List GuestPath} {s : ApplyState}
    (hgrown : TreeGrown fs s.fs s.created) (hbuild : Buildable fs s.created paths) :
    match makeDirectories fails umask mode paths s with
    | (.ok done, t) => done = paths ∧ Finished fails fs s paths t
    | (.error _, t) => ∃ before path after, Stopped fails fs s paths t before path after := by
  induction paths generalizing s with
  | nil => exact ⟨rfl, by simp, by simp, hgrown⟩
  | cons path rest ih =>
    have hone : Buildable fs s.created [path] :=
      (buildable_append.mp (show Buildable fs s.created ([path] ++ rest) from hbuild)).1
    obtain ⟨hfree, hparent⟩ := hgrown.ready hbuild
    unfold makeDirectories
    by_cases hmk : fails (.mkdir path)
    · rw [if_pos hmk]
      exact ⟨[], path, rest, rfl, by simp, by simp, Or.inl ⟨hmk, hgrown⟩⟩
    · rw [if_neg hmk]
      obtain ⟨gs, hgs⟩ := Rootfs.mkdir_of_free (masked umask mode) hfree hparent
      rw [hgs]
      dsimp only
      obtain ⟨-, -, hnode⟩ := Rootfs.mkdir_ok hgs
      have hmade : TreeGrown fs gs (s.created ++ [path]) := hgrown.snoc hone hnode
      by_cases hch : fails (.chmod path)
      · rw [if_pos hch]
        exact ⟨[], path, rest, rfl, by simp, by simp, Or.inr ⟨hmk, hch, hmade⟩⟩
      · rw [if_neg hch]
        obtain ⟨hs, hhs⟩ := Rootfs.chmod_of_isDir mode (hmade.isDir path (by simp))
        rw [hhs]
        dsimp only
        obtain ⟨-, hnode'⟩ := Rootfs.chmod_ok hhs
        have hnode'' : ∀ p, hs.node? p = if p = path then some (.dir mode) else s.fs.node? p := by
          intro p
          rw [hnode' p, hnode p]
          split <;> rfl
        have hset : TreeGrown fs hs (s.created ++ [path]) := hgrown.snoc hone hnode''
        have hfirst : Finished fails fs s [path] ⟨hs, s.created ++ [path], s.made ++ [⟨path, s.fs⟩]⟩ :=
          ⟨by simpa using ⟨hmk, hch⟩, rfl, hset⟩
        have hrest := ih (s := ⟨hs, s.created ++ [path], s.made ++ [⟨path, s.fs⟩]⟩) hset
          hbuild.2.2.2.2
        revert hrest
        generalize makeDirectories fails umask mode rest
          ⟨hs, s.created ++ [path], s.made ++ [⟨path, s.fs⟩]⟩ = out
        rcases out with ⟨error | done, t⟩
        · rintro ⟨before, p, after, hstop⟩
          exact ⟨_, p, after, hfirst.stop hstop⟩
        · rintro ⟨rfl, hfinished⟩
          exact ⟨rfl, hfirst.trans hfinished⟩

/-- Each repair keeps the paths that its result lists. -/
def SamePaths (byDecision byDecision' : PyStr → Option RepairDecisionResult) : Prop :=
  ∀ id, (byDecision' id).map RepairDecisionResult.createdPaths =
    (byDecision id).map RepairDecisionResult.createdPaths

/-- The changes of all repairs, in the same two ways. -/
theorem applyItems_spec (fails : Faults) (umask : ℕ) {items : List PreparedDirectoryRepair}
    (byDecision : PyStr → Option RepairDecisionResult) {s : ApplyState}
    (hgrown : TreeGrown fs s.fs s.created)
    (hbuild : Buildable fs s.created (plannedDirectories items))
    (hsat : ∀ item ∈ items, item.alreadySatisfied = item.createPaths.isEmpty)
    (hby : ∀ item ∈ items, (byDecision item.decision.decisionId).map
      RepairDecisionResult.createdPaths = some item.createPaths) :
    match applyItems fails umask items byDecision s with
    | (.ok byDecision', t) =>
      SamePaths byDecision byDecision' ∧ Finished fails fs s (plannedDirectories items) t
    | (.error _, t) =>
      ∃ before path after, Stopped fails fs s (plannedDirectories items) t before path after := by
  induction items generalizing byDecision s with
  | nil => exact ⟨fun _ => rfl, by simp [plannedDirectories], by simp [plannedDirectories], hgrown⟩
  | cons item rest ih =>
    have hplanned : plannedDirectories (item :: rest) =
        item.createPaths ++ plannedDirectories rest := rfl
    unfold applyItems
    by_cases hs : item.alreadySatisfied
    · rw [if_pos hs]
      have hnil : item.createPaths = [] := by
        have hempty := hsat item List.mem_cons_self
        rw [hs] at hempty
        exact List.isEmpty_iff.mp hempty.symm
      rw [hplanned, hnil, List.nil_append] at hbuild ⊢
      exact ih byDecision hgrown hbuild (fun i hi => hsat i (List.mem_cons_of_mem _ hi))
        fun i hi => hby i (List.mem_cons_of_mem _ hi)
    · rw [if_neg hs]
      rw [hplanned, buildable_append] at hbuild
      have hmake := makeDirectories_spec fails umask item.mode hgrown hbuild.1
      rw [hplanned]
      revert hmake
      generalize makeDirectories fails umask item.mode item.createPaths s = out
      rcases out with ⟨error | done, t⟩
      · rintro ⟨before, p, after, hstop⟩
        exact ⟨before, p, _, hstop.extend (plannedDirectories rest)⟩
      · rintro ⟨rfl, hfinished⟩
        have hbuild' : Buildable fs t.created (plannedDirectories rest) := by
          rw [hfinished.created]
          exact hbuild.2
        have hrest := ih (Function.update byDecision item.decision.decisionId
          (some (item.applied item.createPaths))) hfinished.grown hbuild'
          (fun i hi => hsat i (List.mem_cons_of_mem _ hi)) (by
            intro i hi
            by_cases hid : i.decision.decisionId = item.decision.decisionId
            · rw [hid, Function.update_self]
              have hsame := hby i (List.mem_cons_of_mem _ hi)
              rw [hid, hby item List.mem_cons_self] at hsame
              exact hsame
            · rw [Function.update_of_ne hid]
              exact hby i (List.mem_cons_of_mem _ hi))
        dsimp only
        revert hrest
        generalize applyItems fails umask rest (Function.update byDecision item.decision.decisionId
          (some (item.applied item.createPaths))) t = out
        rcases out with ⟨error | byDecision', u⟩
        · rintro ⟨before, p, after, hstop⟩
          exact ⟨_, p, after, hfinished.stop hstop⟩
        · rintro ⟨hsame, hfinished'⟩
          refine ⟨fun id => ?_, hfinished.trans hfinished'⟩
          rw [hsame id]
          by_cases hid : id = item.decision.decisionId
          · rw [hid, Function.update_self, hby item List.mem_cons_self]
            rfl
          · rw [Function.update_of_ne hid]

/-! ### The dictionary of results -/

theorem resultsById_append (results : List RepairDecisionResult) (r : RepairDecisionResult) :
    resultsById (results ++ [r]) = Function.update (resultsById results) r.decisionId (some r) := by
  simp [resultsById, List.foldl_append]

/-- Every result is found under its identifier, when the identifiers differ. -/
theorem resultsById_of_mem {results : List RepairDecisionResult}
    (hnodup : (results.map RepairDecisionResult.decisionId).Nodup) {r : RepairDecisionResult}
    (hr : r ∈ results) : resultsById results r.decisionId = some r := by
  induction results using List.reverseRecOn with
  | nil => exact absurd hr List.not_mem_nil
  | append_singleton results last ih =>
    rw [resultsById_append]
    rw [List.map_append, List.nodup_append] at hnodup
    obtain ⟨hbefore, -, hdiff⟩ := hnodup
    rcases List.mem_append.mp hr with hr | hr
    · rw [Function.update_of_ne]
      · exact ih hbefore hr
      · exact hdiff _ (List.mem_map_of_mem hr) _ (by simp)
    · rw [List.mem_singleton] at hr
      rw [hr, Function.update_self]

/-- Looking every result up again keeps the paths of the list. -/
theorem map_createdPaths_filterMap {results : List RepairDecisionResult}
    {byDecision : PyStr → Option RepairDecisionResult}
    (h : ∀ r ∈ results, (byDecision r.decisionId).map RepairDecisionResult.createdPaths =
      some r.createdPaths) :
    (results.filterMap fun r => byDecision r.decisionId).map RepairDecisionResult.createdPaths =
      results.map RepairDecisionResult.createdPaths := by
  induction results with
  | nil => rfl
  | cons r rest ih =>
    obtain ⟨found, hfound, hpaths⟩ := Option.map_eq_some_iff.mp (h r List.mem_cons_self)
    have hcons : (r :: rest).filterMap (fun x => byDecision x.decisionId) =
        found :: rest.filterMap fun x => byDecision x.decisionId := List.filterMap_cons_some hfound
    rw [hcons, List.map_cons, List.map_cons, hpaths, ih fun x hx => h x (List.mem_cons_of_mem _ hx)]

end Changes

/-! ### The rollback -/

theorem Rootfs.rmdir_enoent {fs : Rootfs} {path : GuestPath} (h : fs.rmdir path = .error .enoent) :
    fs.node? path = none := by
  unfold Rootfs.rmdir at h
  split at h
  · assumption
  · cases h
  · cases h
  · split at h
    · split at h
      · cases h
      · cases h
    · cases h

section Rollback

variable {fails : Faults}

/-- **A rollback without errors removes the paths it is given and nothing else.** -/
theorem rollback_restores {paths : List GuestPath} {fs gs : Rootfs}
    (h : rollback fails paths fs = ([], gs)) (p : GuestPath) :
    gs.node? p = if p ∈ paths then none else fs.node? p := by
  induction paths generalizing fs with
  | nil =>
    cases h
    simp
  | cons path rest ih =>
    unfold rollback at h
    split at h
    · exact absurd (congrArg Prod.fst h) (by nofun)
    · split at h
      · rename_i next hrm
        rw [ih h]
        by_cases hrest : p ∈ rest
        · simp [hrest]
        · rw [if_neg hrest, Rootfs.rmdir_ok hrm]
          simp [hrest]
      · rename_i hrm
        rw [ih h]
        by_cases hp : p = path
        · subst hp
          simp [Rootfs.rmdir_enoent hrm]
        · simp [hp]
      · exact absurd (congrArg Prod.fst h) (by nofun)

theorem rollback_faults {paths : List GuestPath} {fs gs : Rootfs}
    (h : rollback fails paths fs = ([], gs)) : ∀ p ∈ paths, ¬ fails (.rmdir p) := by
  induction paths generalizing fs with
  | nil => simp
  | cons path rest ih =>
    unfold rollback at h
    split at h
    · exact absurd (congrArg Prod.fst h) (by nofun)
    · rename_i hok
      intro p hp
      have hrest : ∀ p ∈ rest, ¬ fails (.rmdir p) := by
        split at h
        · exact ih h
        · exact ih h
        · exact absurd (congrArg Prod.fst h) (by nofun)
      rcases List.mem_cons.mp hp with rfl | hp
      · exact hok
      · exact hrest p hp

theorem rollback_removed {paths : List GuestPath} {fs gs : Rootfs}
    (h : rollback fails paths.reverse fs = ([], gs)) {p : GuestPath} (hp : p ∈ paths) :
    gs.node? p = none := by
  rw [rollback_restores h, if_pos (List.mem_reverse.mpr hp)]

theorem rollback_kept {paths : List GuestPath} {fs gs : Rootfs}
    (h : rollback fails paths.reverse fs = ([], gs)) {p : GuestPath} (hp : p ∉ paths) :
    gs.node? p = fs.node? p := by
  rw [rollback_restores h, if_neg fun hmem => hp (List.mem_reverse.mp hmem)]

/-- A rollback has no errors when the directories hold only each other and no removal fails. -/
theorem rollback_clean {fs gs : Rootfs} {dirs : List GuestPath} (hbuild : Buildable fs [] dirs)
    (hdir : ∀ p ∈ dirs, gs.IsDir p)
    (hchild : ∀ p ∈ dirs, ∀ name, gs.node? (p ++ [name]) ≠ none → p ++ [name] ∈ dirs)
    (hclear : ∀ p ∈ dirs, ¬ fails (.rmdir p)) : (rollback fails dirs.reverse gs).1 = [] := by
  induction dirs using List.reverseRecOn generalizing gs with
  | nil => rfl
  | append_singleton dirs path ih =>
    have hmem : path ∈ dirs ++ [path] := by simp
    obtain ⟨hne, -, -⟩ := hbuild.free path hmem
    -- The newest directory is empty: what lies in it would be newer.
    have hempty : ∀ name, gs.node? (path ++ [name]) = none := by
      intro name
      by_contra hnode
      rcases List.mem_append.mp (hchild path hmem name hnode) with h | h
      · exact hbuild.no_child_of_last name h
      · simp at h
    obtain ⟨hs, hhs⟩ := Rootfs.rmdir_of_empty (hdir path hmem) hne hempty
    rw [List.reverse_append, List.reverse_singleton, List.singleton_append]
    unfold rollback
    rw [if_neg (hclear path hmem), hhs]
    dsimp only
    have hnotin : path ∉ dirs := by
      have hnodup := hbuild.nodup
      rw [List.nodup_append] at hnodup
      exact fun h => hnodup.2.2 path h path (by simp) rfl
    apply ih (buildable_append.mp hbuild).1
    · intro p hp
      obtain ⟨mode, hmode⟩ := hdir p (List.mem_append_left _ hp)
      have hpne : p ≠ path := fun h => hnotin (h ▸ hp)
      exact ⟨mode, by rw [Rootfs.rmdir_ok hhs, if_neg hpne, hmode]⟩
    · intro p hp name hnode
      rw [Rootfs.rmdir_ok hhs] at hnode
      by_cases hpath : p ++ [name] = path
      · rw [if_pos hpath] at hnode
        exact absurd rfl hnode
      · rw [if_neg hpath] at hnode
        have h := hchild p (List.mem_append_left _ hp) name hnode
        simpa [hpath] using h
    · exact fun p hp => hclear p (List.mem_append_left _ hp)

/-- After a rollback without errors a tree that only grew by recorded directories is as before. -/
theorem TreeGrown.rollback_eq {fs gs hs : Rootfs} {dirs : List GuestPath} (h : TreeGrown fs gs dirs)
    (hroll : rollback fails dirs.reverse gs = ([], hs)) : hs = fs := by
  apply Rootfs.ext_node
  intro p
  by_cases hp : p ∈ dirs
  · rw [rollback_removed hroll hp, (h.buildable.free p hp).2.1]
  · rw [rollback_kept hroll hp, h.same p hp]

/-- A directory that was made and not recorded is still there after a rollback without errors, and the
directory it lies in was there before. -/
theorem TreeGrown.rollback_orphan {fs gs hs : Rootfs} {dirs : List GuestPath} {path : GuestPath}
    (h : TreeGrown fs gs (dirs ++ [path])) (hroll : rollback fails dirs.reverse gs = ([], hs)) :
    hs ≠ fs ∧ fs.IsDir path.dropLast := by
  have hmem : path ∈ dirs ++ [path] := by simp
  obtain ⟨hne, hfree, -⟩ := h.buildable.free path hmem
  have hlast := (buildable_append.mp h.buildable).2
  obtain ⟨-, -, hnotin, hparent, -⟩ := hlast
  rw [List.nil_append] at hnotin hparent
  have hstays : hs.node? path = gs.node? path := rollback_kept hroll hnotin
  obtain ⟨mode, hmode⟩ := h.isDir path hmem
  constructor
  · rintro rfl
    rw [hfree, hmode] at hstays
    cases hstays
  · rcases hparent with hdir | hdone
    · exact hdir
    · -- A removed directory cannot hold one that stays.
      have hgone : hs.node? path.dropLast = none := rollback_removed hroll hdone
      obtain ⟨m, hm⟩ := Rootfs.isDir_parent (by rw [hstays, hmode]; exact Option.some_ne_none _) hne
      rw [hgone] at hm
      cases hm

/-- And in that case the rollback has no errors, unless a removal fails by itself. -/
theorem TreeGrown.rollback_orphan_clean {fs gs : Rootfs} {dirs : List GuestPath} {path : GuestPath}
    (h : TreeGrown fs gs (dirs ++ [path])) (hparent : fs.IsDir path.dropLast)
    (hclear : ∀ p ∈ dirs, ¬ fails (.rmdir p)) : (rollback fails dirs.reverse gs).1 = [] := by
  apply rollback_clean (buildable_append.mp h.buildable).1
  · exact fun p hp => h.isDir p (List.mem_append_left _ hp)
  · intro p hp name hnode
    have hfree := h.buildable.free p (List.mem_append_left _ hp)
    by_cases hin : p ++ [name] ∈ dirs ++ [path]
    · rcases List.mem_append.mp hin with hin | hin
      · exact hin
      · -- The directory that was not recorded would lie in a new one.
        rw [List.mem_singleton] at hin
        rw [← hin, List.dropLast_concat] at hparent
        obtain ⟨m, hm⟩ := hparent
        rw [hfree.2.1] at hm
        cases hm
    · rw [h.same _ hin] at hnode
      obtain ⟨m, hm⟩ := Rootfs.isDir_parent hnode (by simp)
      rw [List.dropLast_concat, hfree.2.1] at hm
      cases hm
  · exact hclear

end Rollback

/-! ### The transaction -/

section Transaction

variable {sha256 : PyStr → PyStr} {config : RepairApplierConfig} {fails : Faults} {umask : ℕ}
  {plan : RepairPlan} {planSha256 requirementsSha256 : PyStr} {rootfs : RootfsEntry} {dryRun : Bool}

/-- What a transaction promises: an error without errors in the rollback leaves the rootfs as it was,
and a completed report tells which directories are new. -/
structure Transactional (plan : RepairPlan) (rootfs : RootfsEntry) (out : ApplyOutcome) : Prop where
  restored : ∀ error, out.result = .error error → out.rollbackErrors = [] → out.rootfs = rootfs
  completed : ∀ report, out.result = .ok report → report.state = .completed →
    ∃ fs gs, rootfs = .directory fs ∧ out.rootfs = .directory gs ∧
      (∀ d ∈ plan.decisions, d.automaticAllowed → gs.IsDir (guestComponents d.resource)) ∧
      report.results.Pairwise (fun a b => a.createdPaths.Disjoint b.createdPaths) ∧
      ∀ path, (∃ r ∈ report.results, path ∈ r.createdPaths) ↔ gs.IsDir path ∧ ¬ fs.IsDir path

/-- The call makes changes: the plan loads and belongs to the requirements, the rootfs is a directory,
and the inspection passes. -/
structure Runs (sha256 : PyStr → PyStr) (config : RepairApplierConfig) (fails : Faults)
    (plan : RepairPlan) (requirementsSha256 : PyStr) (rootfs : RootfsEntry) (dryRun : Bool)
    (fs : Rootfs) (prepared : List PreparedDirectoryRepair) (results : List RepairDecisionResult) :
    Prop where
  loads : plan.load sha256 = .ok plan
  requirements : requirementsSha256 = plan.sourceSha256
  directory : rootfs = .directory fs
  real : dryRun = false
  passes : preflight config fails fs false plan = .ok (prepared, results)

/-- A directory stays behind: the first call that fails after the inspection is the `chmod` of a
directory in one that was there before, and the removals of the rollback do not fail. -/
def LeavesOrphan (sha256 : PyStr → PyStr) (config : RepairApplierConfig) (fails : Faults)
    (plan : RepairPlan) (requirementsSha256 : PyStr) (rootfs : RootfsEntry) (dryRun : Bool) : Prop :=
  ∃ fs prepared results before path after,
    Runs sha256 config fails plan requirementsSha256 rootfs dryRun fs prepared results ∧
    plannedDirectories prepared = before ++ path :: after ∧
    (∀ p ∈ before, Clear fails p ∧ ¬ fails (.rmdir p)) ∧
    ¬ fails (.mkdir path) ∧ fails (.chmod path) ∧ fs.IsDir path.dropLast

/-- The report of a run before anything is known about it. -/
def blankReport (planSha256 requirementsSha256 : PyStr) : RepairApplicationReport where
  state := .completed
  planSha256 := planSha256
  requirementsSha256 := requirementsSha256
  dryRun := false
  results := []

/-- A call changes nothing, or it runs. -/
theorem applyFile_cases (sha256 : PyStr → PyStr) (config : RepairApplierConfig) (fails : Faults)
    (umask : ℕ) (plan : RepairPlan) (planSha256 requirementsSha256 : PyStr) (rootfs : RootfsEntry)
    (dryRun : Bool) :
    ((applyFile sha256 config fails umask plan planSha256 requirementsSha256 rootfs dryRun).rootfs =
        rootfs ∧
      (applyFile sha256 config fails umask plan planSha256 requirementsSha256 rootfs dryRun).made = [] ∧
      (∀ report, (applyFile sha256 config fails umask plan planSha256 requirementsSha256 rootfs
        dryRun).result = .ok report → report.state = .dryRun) ∧
      ¬ ∃ fs prepared results,
        Runs sha256 config fails plan requirementsSha256 rootfs dryRun fs prepared results) ∨
    ∃ fs prepared results,
      Runs sha256 config fails plan requirementsSha256 rootfs dryRun fs prepared results ∧
      applyFile sha256 config fails umask plan planSha256 requirementsSha256 rootfs dryRun =
        runPrepared fails umask (blankReport planSha256 requirementsSha256) prepared results
          ⟨fs, [], []⟩ := by
  unfold applyFile
  split
  · rename_i error herror
    refine Or.inl ⟨rfl, rfl, by nofun, ?_⟩
    rintro ⟨fs, prepared, results, hruns⟩
    rw [hruns.loads] at herror
    exact absurd herror (by nofun)
  · rename_i loaded hload
    obtain ⟨rfl, -, -⟩ := RepairPlan.load_ok hload
    split
    · rename_i hreq
      refine Or.inl ⟨rfl, rfl, by nofun, ?_⟩
      rintro ⟨fs, prepared, results, hruns⟩
      exact hreq hruns.requirements
    · rename_i hreq
      cases rootfs with
      | directory fs =>
        dsimp only [validateRootfs]
        split
        · rename_i error hpre
          refine Or.inl ⟨rfl, rfl, by nofun, ?_⟩
          rintro ⟨fs', prepared, results, hruns⟩
          have hdir := hruns.directory
          cases hdir
          rw [hruns.real] at hpre
          rw [hruns.passes] at hpre
          exact absurd hpre (by nofun)
        · rename_i prepared results hpre
          cases dryRun with
          | true =>
            rw [if_pos rfl]
            refine Or.inl ⟨?_, ?_, ?_, ?_⟩
            · unfold finish
              split <;> rfl
            · unfold finish
              split <;> rfl
            · unfold finish
              split
              · nofun
              · intro report hreport
                cases hreport
                rfl
            · rintro ⟨fs', prepared', results', hruns⟩
              exact absurd hruns.real (by nofun)
          | false =>
            rw [if_neg (by nofun)]
            exact Or.inr ⟨fs, prepared, results, ⟨hload, not_not.mp hreq, rfl, rfl, hpre⟩, rfl⟩
      | missing | symlink | notDirectory | hostRoot =>
        refine Or.inl ⟨rfl, rfl, by nofun, ?_⟩
        rintro ⟨fs, prepared, results, hruns⟩
        exact absurd hruns.directory (by nofun)

variable {fs : Rootfs} {prepared : List PreparedDirectoryRepair}
  {results : List RepairDecisionResult}

/-- The changes of a run, from what its inspection has listed. -/
theorem Runs.changes (umask : ℕ)
    (hruns : Runs sha256 config fails plan requirementsSha256 rootfs dryRun fs prepared results) :
    match applyItems fails umask prepared (resultsById results) ⟨fs, [], []⟩ with
    | (.ok byDecision, t) => SamePaths (resultsById results) byDecision ∧
      Finished fails fs ⟨fs, [], []⟩ (plannedDirectories prepared) t
    | (.error _, t) => ∃ before path after,
      Stopped fails fs ⟨fs, [], []⟩ (plannedDirectories prepared) t before path after := by
  obtain ⟨-, hids, -⟩ := RepairPlan.load_ok hruns.loads
  obtain ⟨hresultIds, -⟩ := preflight_results hruns.passes
  have hnodup : (results.map RepairDecisionResult.decisionId).Nodup := by
    rw [hresultIds]
    exact hids
  have hitems := preflight_items hruns.passes
  apply applyItems_spec fails umask (resultsById results) (s := ⟨fs, [], []⟩) (TreeGrown.refl fs)
    (preflight_buildable hruns.passes)
  · exact fun item hitem => (hitems item hitem).1
  · intro item hitem
    have hfound := resultsById_of_mem hnodup (hitems item hitem).2.1
    rw [show (item.result false).decisionId = item.decision.decisionId from rfl] at hfound
    rw [hfound]
    rfl

/-- A run ends with a rollback of what was recorded when it stopped, or with a report whose results
list what the inspection had listed. -/
theorem runPrepared_cases (umask : ℕ)
    (hruns : Runs sha256 config fails plan requirementsSha256 rootfs dryRun fs prepared results)
    (blank : RepairApplicationReport) :
    (∃ t before path after error,
      Stopped fails fs ⟨fs, [], []⟩ (plannedDirectories prepared) t before path after ∧
      runPrepared fails umask blank prepared results ⟨fs, [], []⟩ =
        handleFailure fails blank results error t) ∨
    ∃ t final, Finished fails fs ⟨fs, [], []⟩ (plannedDirectories prepared) t ∧
      final.map RepairDecisionResult.createdPaths = results.map RepairDecisionResult.createdPaths ∧
      runPrepared fails umask blank prepared results ⟨fs, [], []⟩ =
        finish fails { blank with results := final } t := by
  obtain ⟨-, hids, -⟩ := RepairPlan.load_ok hruns.loads
  obtain ⟨hresultIds, -⟩ := preflight_results hruns.passes
  have hnodup : (results.map RepairDecisionResult.decisionId).Nodup := by
    rw [hresultIds]
    exact hids
  have hspec := hruns.changes umask
  unfold runPrepared applyPrepared
  revert hspec
  generalize applyItems fails umask prepared (resultsById results) ⟨fs, [], []⟩ = out
  rcases out with ⟨error | byDecision, t⟩
  · rintro ⟨before, path, after, hstop⟩
    exact Or.inl ⟨t, before, path, after, error, hstop, rfl⟩
  · rintro ⟨hsame, hfinished⟩
    refine Or.inr ⟨t, _, hfinished, map_createdPaths_filterMap fun r hr => ?_, rfl⟩
    rw [hsame, resultsById_of_mem hnodup hr]
    rfl

/-- The report of a finished run describes the change of the tree. -/
theorem completed_of_finished
    (hruns : Runs sha256 config fails plan requirementsSha256 rootfs dryRun fs prepared results)
    {t : ApplyState} (hfinished : Finished fails fs ⟨fs, [], []⟩ (plannedDirectories prepared) t)
    {final : List RepairDecisionResult}
    (hfinal : final.map RepairDecisionResult.createdPaths =
      results.map RepairDecisionResult.createdPaths) :
    (∀ d ∈ plan.decisions, d.automaticAllowed → t.fs.IsDir (guestComponents d.resource)) ∧
      final.Pairwise (fun a b => a.createdPaths.Disjoint b.createdPaths) ∧
      ∀ path, (∃ r ∈ final, path ∈ r.createdPaths) ↔ t.fs.IsDir path ∧ ¬ fs.IsDir path := by
  have hcreated : t.created = plannedDirectories prepared := hfinished.created
  obtain ⟨-, hflat⟩ := preflight_results hruns.passes
  have hpaths : final.flatMap RepairDecisionResult.createdPaths = t.created := by
    rw [hcreated, ← hflat, List.flatMap_def, List.flatMap_def, hfinal]
  refine ⟨fun d hd hauto => ?_, ?_, fun path => ?_⟩
  · obtain ⟨guestPath, hguest⟩ : ∃ guestPath, config.validateGuestPath d.resource = .ok guestPath :=
      preflight_valid hruns.passes hd hauto
    have hne := (guestComponents_of_valid hguest).2.2
    have hmem := mem_below_self [] hne
    rw [List.nil_append] at hmem
    rcases preflight_covers hruns.passes hd hauto _ hmem with h | h | h
    · exact hfinished.grown.isDir_of_isDir h
    · exact absurd h List.not_mem_nil
    · exact hfinished.grown.isDir _ (hcreated ▸ h)
  · have hnodup := hfinished.grown.buildable.nodup
    rw [← hpaths, List.nodup_flatMap] at hnodup
    exact hnodup.2
  · rw [← hfinished.grown.mem_iff, ← hpaths, List.mem_flatMap]

/-- A list has one first element that is not clear. -/
theorem split_unique {a b c d : List GuestPath} {x y : GuestPath}
    (h : a ++ x :: b = c ++ y :: d) (ha : ∀ p ∈ a, Clear fails p) (hc : ∀ p ∈ c, Clear fails p)
    (hx : ¬ Clear fails x) (hy : ¬ Clear fails y) : a = c ∧ x = y := by
  induction a generalizing c with
  | nil =>
    cases c with
    | nil => exact ⟨rfl, (List.cons.inj h).1⟩
    | cons z c =>
      rw [List.nil_append, List.cons_append, List.cons.injEq] at h
      exact absurd (h.1 ▸ hc z List.mem_cons_self) hx
  | cons z a ih =>
    cases c with
    | nil =>
      rw [List.nil_append, List.cons_append, List.cons.injEq] at h
      exact absurd (h.1 ▸ ha z List.mem_cons_self) hy
    | cons w c =>
      rw [List.cons_append, List.cons_append, List.cons.injEq] at h
      obtain ⟨hac, hxy⟩ := ih h.2 (fun p hp => ha p (List.mem_cons_of_mem _ hp))
        fun p hp => hc p (List.mem_cons_of_mem _ hp)
      exact ⟨by rw [h.1, hac], hxy⟩

theorem handleFailure_rollback {blank : RepairApplicationReport}
    {results : List RepairDecisionResult} {error : RepairApplicationError} {t : ApplyState} (h : (handleFailure fails blank results error t).rollbackErrors = []) :
    ∃ gs, rollback fails t.created.reverse t.fs = ([], gs) ∧
      (handleFailure fails blank results error t).rootfs = .directory gs := by
  refine ⟨(rollback fails t.created.reverse t.fs).2, ?_, rfl⟩
  exact Prod.ext h rfl

/-- **Applying a repair plan is a transaction, for every plan, rootfs and failure, unless a directory
stays behind** whose `chmod` failed after its `mkdir`. -/
theorem applyFile_transactional (sha256 : PyStr → PyStr) (config : RepairApplierConfig)
    (fails : Faults) (umask : ℕ) (plan : RepairPlan) (planSha256 requirementsSha256 : PyStr)
    (rootfs : RootfsEntry) (dryRun : Bool) :
    Transactional plan rootfs
        (applyFile sha256 config fails umask plan planSha256 requirementsSha256 rootfs dryRun) ↔
      ¬ LeavesOrphan sha256 config fails plan requirementsSha256 rootfs dryRun := by
  rcases applyFile_cases sha256 config fails umask plan planSha256 requirementsSha256 rootfs dryRun with ⟨hsame, -, hdry, hnot⟩ | ⟨fs, prepared, results, hruns, heq⟩
  · constructor
    · rintro - ⟨fs, prepared, results, -, -, -, hruns, -⟩
      exact hnot ⟨fs, prepared, results, hruns⟩
    · intro _
      refine ⟨fun _ _ _ => hsame, fun report hreport hstate => ?_⟩
      rw [hdry report hreport] at hstate
      exact absurd hstate (by nofun)
  · rw [heq]
    rcases runPrepared_cases umask hruns (blankReport planSha256 requirementsSha256) with
      ⟨t, before, path, after, error, hstop, hout⟩ | ⟨t, final, hfinished, hfinal, hout⟩
    · rw [hout]
      have hcreated : t.created = before := hstop.created
      constructor
      · -- What stays behind is not what was there before.
        rintro htrans ⟨fs', prepared', results', before', path', after', hruns', hsplit, hclear, hmk,
          hch, hparent⟩
        have hfs : fs' = fs := RootfsEntry.directory.inj (hruns'.directory.symm.trans hruns.directory)
        subst hfs
        have hpre := hruns'.passes.symm.trans hruns.passes
        simp only [Except.ok.injEq, Prod.mk.injEq] at hpre
        obtain ⟨rfl, rfl⟩ := hpre
        have hfirst : ¬ Clear fails path := by
          rintro ⟨h1, h2⟩
          rcases hstop.cause with ⟨h, -⟩ | ⟨-, h, -⟩
          · exact h1 h
          · exact h2 h
        obtain ⟨rfl, rfl⟩ := split_unique (hstop.split.symm.trans hsplit) hstop.clear
          (fun p hp => (hclear p hp).1) hfirst fun h => h.2 hch
        rcases hstop.cause with ⟨h, -⟩ | ⟨-, -, hgrown⟩
        · exact hmk h
        · have hclean := hgrown.rollback_orphan_clean hparent fun p hp =>
            (hclear p (hcreated ▸ hp)).2
          obtain ⟨gs, hroll, hroot⟩ := handleFailure_rollback (show (handleFailure fails
            (blankReport planSha256 requirementsSha256) results' error t).rollbackErrors = [] from hclean)
          have hrestored := htrans.restored _ rfl hclean
          rw [hroot, hruns.directory] at hrestored
          exact (hgrown.rollback_orphan hroll).1 (RootfsEntry.directory.inj hrestored)
      · intro hno
        refine ⟨fun error' _ herrors => ?_, by nofun⟩
        obtain ⟨gs, hroll, hroot⟩ := handleFailure_rollback herrors
        rw [hroot, hruns.directory]
        rcases hstop.cause with ⟨-, hgrown⟩ | ⟨hmk, hch, hgrown⟩
        · rw [hgrown.rollback_eq hroll]
        · -- The removals did not fail, or the rollback would have reported it.
          refine absurd ⟨fs, prepared, results, before, path, after, hruns, hstop.split,
            fun p hp => ⟨hstop.clear p hp, ?_⟩, hmk, hch, (hgrown.rollback_orphan hroll).2⟩ hno
          exact rollback_faults hroll p (List.mem_reverse.mpr (hcreated.symm ▸ hp))
    · rw [hout]
      have hall := completed_of_finished hruns hfinished hfinal
      constructor
      · rintro - ⟨fs', prepared', results', before', path', after', hruns', hsplit, -, -, hch, -⟩
        have hfs : fs' = fs := RootfsEntry.directory.inj (hruns'.directory.symm.trans hruns.directory)
        subst hfs
        have hpre := hruns'.passes.symm.trans hruns.passes
        simp only [Except.ok.injEq, Prod.mk.injEq] at hpre
        obtain ⟨rfl, rfl⟩ := hpre
        exact (hfinished.clear path' (by rw [hsplit]; simp)).2 hch
      · intro _
        unfold finish
        split
        · refine ⟨fun error' _ herrors => ?_, by nofun⟩
          obtain ⟨gs, hroll, hroot⟩ := handleFailure_rollback herrors
          rw [hroot, hruns.directory, hfinished.grown.rollback_eq hroll]
        · refine ⟨by nofun, fun report hreport _ => ?_⟩
          cases hreport
          exact ⟨fs, t.fs, hruns.directory, rfl, hall⟩

end Transaction

/-! ### A directory that stays behind -/

/-- The plan for one missing directory, `/a`. -/
def onePlan : RepairPlan where
  sourceRequirements := py "requirements.json"
  sourceSha256 := List.replicate 64 0x30
  decisions :=
    [{ decisionId := py "repair_0f0d92f87bb8acb3"
       requirementId := py "req_a8456649af912291"
       requirementKind := py "filesystem"
       resource := py "/a"
       operation := py "directory_exists"
       action := .createDirectory
       disposition := .autoCandidate
       priority := .high
       risk := .low
       automaticAllowed := true
       reason := py "Creating an absent directory inside a disposable rootfs is structurally reversible."
       parameters := [(py "mode", .str (py "0755")), (py "parents", .bool true)] }]
  warnings := []

/-- The digest that the identifier of the decision is made from. -/
def oneSha256 (text : PyStr) : PyStr :=
  if text = py "req_a8456649af912291" ++ [0] ++ py "create_directory" ++ [0] ++ py "auto_candidate" ++
      [0] ++ py "/a" then
    py "0f0d92f87bb8acb394c38b5f458212a7f46afd7ad890716838f13fc56e619189"
  else []

/-- The entry at a path of what a call leaves behind. -/
def RootfsEntry.node? (entry : RootfsEntry) (path : GuestPath) : Option Node :=
  match entry with
  | .directory fs => fs.node? path
  | _ => none

/-- When `chmod` fails right after `mkdir`, the rollback has nothing to remove and the directory stays. -/
theorem chmod_failure_leaves_directory :
    ¬ Transactional onePlan (.directory (Rootfs.bare 0o755))
      (applyFile oneSha256 {} (fun op => decide (op = .chmod [py "a"])) 0o022 onePlan [] onePlan.sourceSha256
        (.directory (Rootfs.bare 0o755)) false) := by
  intro h
  have hrestored := h.restored (.cannotCreate [py "a"]) rfl rfl
  have hnode : (RootfsEntry.directory (Rootfs.bare 0o755)).node? [py "a"] = some (.dir 0o755) := by
    rw [← hrestored]
    decide
  rw [show (RootfsEntry.directory (Rootfs.bare 0o755)).node? [py "a"] = none from
    Rootfs.node?_bare (by simp)] at hnode
  exact absurd hnode (by nofun)

end TaintForge
