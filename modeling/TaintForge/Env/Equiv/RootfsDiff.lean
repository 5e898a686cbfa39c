import TaintForge.Env.RootfsDiff
import TaintForge.Lib.Except

/-!
# What a snapshot holds and what a difference accounts for

* `walkRootfs_spec`: what is appended while a tree is walked.
* `WithinDevice`: the trees whose snapshot is what it should be.
* `DiffAccounts`: a difference that accounts for every change.
* `rootfs_snapshot_exact_iff`: snapshots and differences.
-/

namespace TaintForge

/-! ### Steps that may raise, one for each item -/

/-- Every item has its result. -/
theorem exists_result_of_forall₂ {α β : Type} {R : α → β → Prop} {l : List α} {l' : List β}
    (h : List.Forall₂ R l l') {a : α} (ha : a ∈ l) : ∃ b ∈ l', (a, b) ∈ l.zip l' ∧ R a b := by
  induction h with
  | nil => exact absurd ha List.not_mem_nil
  | @cons a' b' l l' hhead htail ih =>
    rcases List.mem_cons.mp ha with rfl | ha
    · exact ⟨b', List.mem_cons_self, List.mem_cons_self, hhead⟩
    · obtain ⟨b, hb, hzip, hR⟩ := ih ha
      exact ⟨b, List.mem_cons_of_mem b' hb, List.mem_cons_of_mem (a', b') hzip, hR⟩

/-- Every result is that of an item. -/
theorem exists_item_of_forall₂ {α β : Type} {R : α → β → Prop} {l : List α} {l' : List β}
    (h : List.Forall₂ R l l') {b : β} (hb : b ∈ l') : ∃ a ∈ l, R a b := by
  obtain ⟨a, ha, -, hR⟩ := exists_result_of_forall₂ h.flip hb
  exact ⟨a, ha, hR⟩

/-! ### Paths as texts -/

/-- Different paths have different texts. -/
theorem guestPathText_inj {path path' : List PyStr} (h : ∀ name ∈ path, IsComponent name)
    (h' : ∀ name ∈ path', IsComponent name) (heq : guestPathText path = guestPathText path') :
    path = path' := by
  have hparse : ∀ parts : List PyStr, (∀ name ∈ parts, IsComponent name) →
      purePosixPath (guestPathText parts) = ⟨[slash], parts⟩ :=
    fun parts hparts => purePosixPath_asPosix (Or.inl rfl) hparts
  have hboth := hparse path h
  rw [heq, hparse path' h'] at hboth
  exact (congrArg PurePosixPath.tail hboth).symm

theorem intercalate_slash_append {path more : List PyStr} (hne : path ≠ []) (hmore : more ≠ []) :
    [slash].intercalate (path ++ more) =
      [slash].intercalate path ++ slash :: [slash].intercalate more := by
  induction path with
  | nil => exact absurd rfl hne
  | cons name path ih =>
    rw [List.cons_append]
    by_cases hpath : path = []
    · subst hpath
      rw [List.nil_append, intercalate_slash_cons name hmore, List.intercalate_singleton]
    · rw [intercalate_slash_cons name (by simp [hpath]), ih hpath, intercalate_slash_cons name hpath,
        List.append_assoc, List.cons_append]

/-- What is below an excluded path is excluded. -/
theorem pathIsExcluded_below {excluded : List PyStr} {path more : List PyStr} (hne : path ≠ [])
    (h : pathIsExcluded excluded (guestPathText path) = true) :
    pathIsExcluded excluded (guestPathText (path ++ more)) = true := by
  by_cases hmore : more = []
  · rw [hmore, List.append_nil]
    exact h
  obtain ⟨item, hitem, hbeneath⟩ := List.any_eq_true.mp h
  refine List.any_eq_true.mpr ⟨item, hitem, ?_⟩
  have htext : guestPathText (path ++ more) =
      guestPathText path ++ slash :: [slash].intercalate more := by
    have hroot : ∀ parts : List PyStr,
        guestPathText parts = slash :: [slash].intercalate parts := fun parts => by
      rw [guestPathText, asPosix_of_root (by simp)]
      rfl
    rw [hroot, hroot, intercalate_slash_append hne hmore, List.cons_append]
  rw [htext]
  simp only [beneath, Bool.or_eq_true, beq_iff_eq, List.isPrefixOf_iff_prefix] at hbeneath ⊢
  refine Or.inr ?_
  rcases hbeneath with heq | hstarts
  · rw [heq]
    exact ⟨[slash].intercalate more, by rw [List.append_assoc, List.singleton_append]⟩
  · exact hstarts.trans (List.prefix_append _ _)

/-! ### The files of a tree -/

namespace HostTree

variable (tree : HostTree)

/-- There is a file at a path. -/
def Has (path : List PyStr) (node : FileNode) : Prop := (path, node) ∈ tree.nodes

theorem has_unique {path : List PyStr} {node node' : FileNode} (h : tree.Has path node)
    (h' : tree.Has path node') : node = node' := by
  have hinj := List.inj_on_of_nodup_map tree.nodup h h' rfl
  exact congrArg Prod.snd hinj

theorem mem_children {path : List PyStr} {name : PyStr} {node : FileNode} :
    (name, node) ∈ tree.children path ↔ tree.Has (path ++ [name]) node := by
  unfold children Has
  rw [List.mem_filterMap]
  constructor
  · rintro ⟨⟨whole, child⟩, hmem, hitem⟩
    dsimp only at hitem
    rcases List.eq_nil_or_concat whole with rfl | ⟨above, last, rfl⟩
    · cases hitem
    · rw [List.concat_eq_append, List.getLast?_concat] at hitem
      dsimp only at hitem
      split at hitem
      · rename_i heq
        rw [List.dropLast_concat] at heq
        obtain ⟨rfl, rfl⟩ := Prod.mk.inj (Option.some.inj hitem)
        rw [List.concat_eq_append] at hmem
        rwa [← heq]
      · cases hitem
  · intro hmem
    refine ⟨(path ++ [name], node), hmem, ?_⟩
    simp

theorem mem_scandir {path : List PyStr} {name : PyStr} {node : FileNode} :
    (name, node) ∈ tree.scandir path ↔
      tree.listError path = none ∧ tree.Has (path ++ [name]) node := by
  unfold scandir
  split
  · rename_i hsome
    constructor
    · intro h
      exact absurd h List.not_mem_nil
    · rintro ⟨hnone, -⟩
      rw [hnone] at hsome
      cases hsome
  · rename_i hnone
    rw [tree.mem_children]
    exact ⟨fun h => ⟨Option.not_isSome_iff_eq_none.mp hnone, h⟩, fun h => h.2⟩

theorem length_le_depth {path : List PyStr} {node : FileNode} (h : tree.Has path node) :
    path.length ≤ tree.depth := by
  unfold depth
  unfold Has at h
  generalize tree.nodes = nodes at h
  induction nodes with
  | nil => exact absurd h List.not_mem_nil
  | cons first nodes ih =>
    rw [List.map_cons, List.foldr_cons]
    rcases List.mem_cons.mp h with rfl | h
    · exact Nat.le_max_left _ _
    · exact (ih h).trans (Nat.le_max_right _ _)

end HostTree

/-! ### The walk -/

section Walk

variable (sha256 : List UInt8 → PyStr) (tree : HostTree) (options : SnapshotOptions)
  (excluded : List PyStr)

/-- A name in the loop that it belongs to. -/
def visitPath (path : List PyStr) (node : FileNode) : Except RootfsDiffError SnapshotEvent :=
  if node.listedAsDir then visitDir sha256 tree options excluded path node
  else visitFile sha256 tree options excluded path node

/-- A directory in another one that is walked when that one is. -/
def Descends (path : List PyStr) (name : PyStr) : Prop :=
  tree.listError path = none ∧ ∃ node event, tree.Has (path ++ [name]) node ∧
    visitPath sha256 tree options excluded (path ++ [name]) node = .ok event ∧
    isRetained node event = true

/-- A file that is met in a directory, which is walked when another one above it is. -/
structure MetBelow (top : List PyStr) (fuel : ℕ) (path : List PyStr) (node : FileNode) : Prop where
  has : tree.Has path node
  below : top <+: path.dropLast
  near : path.length ≤ top.length + fuel
  walked : ∀ above name, top <+: above → above ++ [name] <+: path.dropLast →
    Descends sha256 tree options excluded above name
  listed : tree.listError path.dropLast = none

variable {sha256 tree options excluded}

theorem retained_listedAsDir {node : FileNode} {event : SnapshotEvent}
    (h : isRetained node event = true) : node.listedAsDir = true := by
  unfold isRetained at h
  split at h
  · rename_i hkind
    rw [FileNode.listedAsDir, hkind]
  · cases h

/-- What is met below a directory stands in it, or is met below one of its directories. -/
theorem metBelow_succ {top path : List PyStr} {fuel : ℕ} {node : FileNode} :
    MetBelow sha256 tree options excluded top (fuel + 1) path node ↔
      tree.listError top = none ∧ (∃ name, path = top ++ [name] ∧ tree.Has path node) ∨
      ∃ name, Descends sha256 tree options excluded top name ∧
        MetBelow sha256 tree options excluded (top ++ [name]) fuel path node := by
  constructor
  · intro h
    have hne := (tree.names path node h.has).1
    have hsplit := List.dropLast_append_getLast hne
    obtain ⟨rest, hrest⟩ := h.below
    cases rest with
    | nil =>
      rw [List.append_nil] at hrest
      refine Or.inl ⟨by rw [hrest]; exact h.listed, path.getLast hne, ?_, h.has⟩
      rw [hrest, hsplit]
    | cons name rest =>
      have hprefix : top ++ [name] <+: path.dropLast := ⟨rest, by rw [← hrest]; simp⟩
      refine Or.inr ⟨name, h.walked top name List.prefix_rfl hprefix, h.has, hprefix, ?_, ?_, h.listed⟩
      · have hnear := h.near
        rw [List.length_append, List.length_singleton]
        omega
      · intro above name' habove
        exact h.walked above name' ((List.prefix_append top [name]).trans habove)
  · rintro (⟨hlist, name, rfl, hhas⟩ | ⟨name, hdescends, h⟩)
    · refine ⟨hhas, by simp, by simp, ?_, by simpa using hlist⟩
      intro above name' habove hbelow
      rw [List.dropLast_concat] at hbelow
      have hlength := hbelow.length_le
      have hlength' := habove.length_le
      rw [List.length_append, List.length_singleton] at hlength
      omega
    · have hnear := h.near
      rw [List.length_append, List.length_singleton] at hnear
      refine ⟨h.has, (List.prefix_append top [name]).trans h.below, by omega, ?_, h.listed⟩
      intro above name' habove hbelow
      -- the step is at the top or below the next directory
      by_cases heq : above = top
      · subst heq
        have hsame : above ++ [name'] = above ++ [name] := by
          rcases List.prefix_or_prefix_of_prefix hbelow h.below with hle | hle
          · exact hle.eq_of_length (by simp)
          · exact (hle.eq_of_length (by simp)).symm
        obtain rfl := List.singleton_inj.mp (List.append_cancel_left hsame)
        exact hdescends
      · refine h.walked above name' ?_ hbelow
        have habove' : above <+: path.dropLast := (List.prefix_append above [name']).trans hbelow
        rcases List.prefix_or_prefix_of_prefix habove' h.below with hle | hle
        · -- nothing lies between the two
          obtain ⟨rest, rfl⟩ := habove
          have hlength := hle.length_le
          simp only [List.length_append, List.length_singleton] at hlength
          have hrest : rest ≠ [] := fun hnil => heq (by rw [hnil, List.append_nil])
          have hpos := List.length_pos_iff.mpr hrest
          exact (hle.eq_of_length (by simp; omega)) ▸ List.prefix_rfl
        · exact hle

/-- What a walk appends: one event for each file that is met. -/
structure WalkSpec (sha256 : List UInt8 → PyStr) (tree : HostTree) (options : SnapshotOptions)
    (excluded : List PyStr) (top : List PyStr) (fuel : ℕ) (events : List SnapshotEvent) : Prop where
  sound : ∀ event ∈ events, ∃ path node, MetBelow sha256 tree options excluded top fuel path node ∧
    visitPath sha256 tree options excluded path node = .ok event
  complete : ∀ path node, MetBelow sha256 tree options excluded top fuel path node →
    ∃ event ∈ events, visitPath sha256 tree options excluded path node = .ok event

/-- **One event for each file that is met.** -/
theorem walkRootfs_spec {fuel : ℕ} {top : List PyStr} {events : List SnapshotEvent}
    (h : walkRootfs sha256 tree options excluded fuel top = .ok events) :
    WalkSpec sha256 tree options excluded top fuel events := by
  induction fuel generalizing top events with
  | zero =>
    obtain rfl := Except.ok.inj h
    refine ⟨by simp, fun path node hmet => ?_⟩
    have hbelow := hmet.below.length_le
    have hpos := List.length_pos_iff.mpr (tree.names path node hmet.has).1
    rw [List.length_dropLast] at hbelow
    have hnear := hmet.near
    omega
  | succ fuel ih =>
    unfold walkRootfs at h
    dsimp only at h
    obtain ⟨dirEvents, hdirs, h⟩ := bind_eq_ok.mp h
    obtain ⟨fileEvents, hfiles, h⟩ := bind_eq_ok.mp h
    obtain ⟨below, hbelow, h⟩ := bind_eq_ok.mp h
    obtain rfl := pure_eq_ok.mp h
    have hdirs := mapM_eq_ok.mp hdirs
    have hfiles := mapM_eq_ok.mp hfiles
    have hbelow := mapM_eq_ok.mp hbelow
    -- the names of the two loops
    have hmemDirs : ∀ name node, (name, node) ∈ ((tree.scandir top).insertionSort
        fun a b => a.1 ≤ b.1).filter (fun item => item.2.listedAsDir) ↔
        (tree.listError top = none ∧ tree.Has (top ++ [name]) node) ∧ node.listedAsDir = true := by
      intro name node
      rw [List.mem_filter, List.mem_insertionSort, tree.mem_scandir]
    have hmemFiles : ∀ name node, (name, node) ∈ ((tree.scandir top).insertionSort
        fun a b => a.1 ≤ b.1).filter (fun item => !item.2.listedAsDir) ↔
        (tree.listError top = none ∧ tree.Has (top ++ [name]) node) ∧ node.listedAsDir = false := by
      intro name node
      rw [List.mem_filter, List.mem_insertionSort, tree.mem_scandir, Bool.not_eq_true']
    generalize ((tree.scandir top).insertionSort fun a b => a.1 ≤ b.1).filter
      (fun item => item.2.listedAsDir) = dirs at hdirs hbelow hmemDirs
    generalize ((tree.scandir top).insertionSort fun a b => a.1 ≤ b.1).filter
      (fun item => !item.2.listedAsDir) = files at hfiles hmemFiles
    -- the directories that are walked
    have hretained : ∀ name, (∃ node event, ((name, node), event) ∈
        (dirs.zip dirEvents).filter (fun item => isRetained item.1.2 item.2)) ↔
        Descends sha256 tree options excluded top name := by
      intro name
      constructor
      · rintro ⟨node, event, hmem⟩
        obtain ⟨hzip, hkeep⟩ := List.mem_filter.mp hmem
        obtain ⟨hlist, hhas⟩ := ((hmemDirs name node).mp (List.of_mem_zip hzip).1).1
        have hvisit := (List.forall₂_iff_zip.mp hdirs).2 hzip
        refine ⟨hlist, node, event, hhas, ?_, hkeep⟩
        rw [visitPath, if_pos (retained_listedAsDir hkeep)]
        exact hvisit
      · rintro ⟨hlist, node, event, hhas, hvisit, hkeep⟩
        have hlisted := retained_listedAsDir hkeep
        obtain ⟨event', -, hzip, hvisit'⟩ :=
          exists_result_of_forall₂ hdirs ((hmemDirs name node).mpr ⟨⟨hlist, hhas⟩, hlisted⟩)
        rw [visitPath, if_pos hlisted, hvisit'] at hvisit
        obtain rfl := Except.ok.inj hvisit
        exact ⟨node, event', List.mem_filter.mpr ⟨hzip, hkeep⟩⟩
    refine ⟨fun event hevent => ?_, fun path node hmet => ?_⟩
    · rcases List.mem_append.mp hevent with hevent | hevent
      · rcases List.mem_append.mp hevent with hevent | hevent
        · obtain ⟨⟨name, node⟩, hmem, hvisit⟩ := exists_item_of_forall₂ hdirs hevent
          obtain ⟨⟨hlist, hhas⟩, hlisted⟩ := (hmemDirs name node).mp hmem
          refine ⟨top ++ [name], node, metBelow_succ.mpr (Or.inl ⟨hlist, name, rfl, hhas⟩), ?_⟩
          rw [visitPath, if_pos hlisted]
          exact hvisit
        · obtain ⟨⟨name, node⟩, hmem, hvisit⟩ := exists_item_of_forall₂ hfiles hevent
          obtain ⟨⟨hlist, hhas⟩, hlisted⟩ := (hmemFiles name node).mp hmem
          refine ⟨top ++ [name], node, metBelow_succ.mpr (Or.inl ⟨hlist, name, rfl, hhas⟩), ?_⟩
          rw [visitPath, hlisted]
          exact hvisit
      · obtain ⟨inner, hinner, hevent⟩ := List.mem_flatten.mp hevent
        obtain ⟨⟨⟨name, dirNode⟩, dirEvent⟩, hmem, hwalk⟩ := exists_item_of_forall₂ hbelow hinner
        obtain ⟨path, node, hmet, hvisit⟩ := (ih hwalk).sound event hevent
        have hdescends := (hretained name).mp ⟨dirNode, dirEvent, hmem⟩
        exact ⟨path, node, metBelow_succ.mpr (Or.inr ⟨name, hdescends, hmet⟩), hvisit⟩
    · rcases metBelow_succ.mp hmet with ⟨hlist, name, rfl, hhas⟩ | ⟨name, hdescends, hmet⟩
      · cases hlisted : node.listedAsDir with
        | true =>
          obtain ⟨event, hevent, -, hvisit⟩ :=
            exists_result_of_forall₂ hdirs ((hmemDirs name node).mpr ⟨⟨hlist, hhas⟩, hlisted⟩)
          refine ⟨event, List.mem_append_left _ (List.mem_append_left _ hevent), ?_⟩
          rw [visitPath, if_pos hlisted]
          exact hvisit
        | false =>
          obtain ⟨event, hevent, -, hvisit⟩ :=
            exists_result_of_forall₂ hfiles ((hmemFiles name node).mpr ⟨⟨hlist, hhas⟩, hlisted⟩)
          refine ⟨event, List.mem_append_left _ (List.mem_append_right _ hevent), ?_⟩
          rw [visitPath, hlisted]
          exact hvisit
      · obtain ⟨dirNode, dirEvent, hmem⟩ := (hretained name).mpr hdescends
        obtain ⟨inner, hinner, -, hwalk⟩ := exists_result_of_forall₂ hbelow hmem
        obtain ⟨event, hevent, hvisit⟩ := (ih hwalk).complete path node hmet
        exact ⟨event, List.mem_append_right _ (List.mem_flatten.mpr ⟨inner, hinner, hevent⟩), hvisit⟩

end Walk

/-! ### Snapshots -/

/-- What is inspected without an error. -/
structure CanInspect (options : SnapshotOptions) (node : FileNode) : Prop where
  lookedUp : node.lstatError = none
  hashed : ∀ contents, node.kind = .file contents → options.hashRegularFiles = true →
    node.readError = none
  followed : ∀ target toDir, node.kind = .symlink target toDir → node.readError = none

section Snapshot

variable {sha256 : List UInt8 → PyStr} {tree : HostTree} {options : SnapshotOptions}
  {excluded : List PyStr}

theorem inspectPath_path {path : List PyStr} {node : FileNode} {entry : SnapshotEntry}
    (h : inspectPath sha256 tree options path node = .ok entry) : entry.path = guestPathText path := by
  unfold inspectPath at h
  split at h
  · cases h
  split at h
  · dsimp only at h
    split at h
    · split at h
      · cases h
      · rw [← Except.ok.inj h]
        rfl
    · rw [← Except.ok.inj h]
      rfl
  · rw [← Except.ok.inj h]
    rfl
  · split at h
    · cases h
    · rw [← Except.ok.inj h]
      rfl
  all_goals
    rw [← Except.ok.inj h]
    rfl

theorem inspectPath_isOk_iff {path : List PyStr} {node : FileNode} :
    (∃ entry, inspectPath sha256 tree options path node = .ok entry) ↔ CanInspect options node := by
  unfold inspectPath
  cases hlstat : node.lstatError with
  | some exc =>
    constructor
    · rintro ⟨entry, h⟩
      cases h
    · intro h
      rw [h.lookedUp] at hlstat
      cases hlstat
  | none =>
    dsimp only
    cases hkind : node.kind with
    | file contents =>
      dsimp only
      by_cases hhash : options.hashRegularFiles = true
      · rw [if_pos hhash]
        cases hread : node.readError with
        | some exc =>
          constructor
          · rintro ⟨entry, h⟩
            cases h
          · intro h
            rw [h.hashed contents hkind hhash] at hread
            cases hread
        | none =>
          refine iff_of_true ⟨_, rfl⟩ ⟨hlstat, fun _ _ _ => hread, fun _ _ _ => hread⟩
      · rw [if_neg hhash]
        refine iff_of_true ⟨_, rfl⟩ ⟨hlstat, fun _ _ h => absurd h hhash, ?_⟩
        intro target toDir h
        rw [hkind] at h
        cases h
    | symlink target toDir =>
      dsimp only
      cases hread : node.readError with
      | some exc =>
        constructor
        · rintro ⟨entry, h⟩
          cases h
        · intro h
          rw [h.followed target toDir hkind] at hread
          cases hread
      | none =>
        exact iff_of_true ⟨_, rfl⟩ ⟨hlstat, fun _ _ _ => hread, fun _ _ _ => hread⟩
    | dir | charDevice | blockDevice | fifo | socket | special =>
      refine iff_of_true ⟨_, rfl⟩ ⟨hlstat, ?_, ?_⟩
      · intro contents h
        rw [hkind] at h
        cases h
      · intro target toDir h
        rw [hkind] at h
        cases h

theorem handleSnapshotError_eq_ok {path : List PyStr} {raised : RootfsDiffError} {text : PyStr}
    {event : SnapshotEvent} (h : handleSnapshotError options path raised text = .ok event) :
    event = .error (guestPathText path) text := by
  unfold handleSnapshotError at h
  split at h
  · cases h
  · exact (Except.ok.inj h).symm

/-- What is recorded of a path, when nothing is raised. -/
theorem recordPath_cases {path : List PyStr} {node : FileNode} {event : SnapshotEvent}
    (h : recordPath sha256 tree options path node = .ok event) :
    (∃ entry, event = .entry entry ∧ inspectPath sha256 tree options path node = .ok entry) ∨
      ¬CanInspect options node ∧ ∃ text, event = .error (guestPathText path) text := by
  unfold recordPath at h
  split at h
  · rename_i entry hentry
    exact Or.inl ⟨entry, (Except.ok.inj h).symm, hentry⟩
  · rename_i error herror
    refine Or.inr ⟨?_, _, handleSnapshotError_eq_ok h⟩
    intro hcan
    obtain ⟨entry, hentry⟩ := inspectPath_isOk_iff.mpr hcan
    rw [herror] at hentry
    cases hentry

/-- **What comes of a file that is met**, when nothing is raised: it is excluded, or recorded, or skipped
at the boundary of the file system, or something fails. -/
theorem visitPath_cases (hstay : options.stayOnFilesystem = true) {path : List PyStr}
    {node : FileNode} {event : SnapshotEvent}
    (h : visitPath sha256 tree options excluded path node = .ok event) :
    pathIsExcluded excluded (guestPathText path) = true ∧
        event = .skipped (guestPathText path) (py "excluded") ∨
      pathIsExcluded excluded (guestPathText path) = false ∧
        ((node.listedAsDir = true → node.device = tree.rootDevice) ∧
            (∃ entry, event = .entry entry ∧ inspectPath sha256 tree options path node = .ok entry) ∨
          (node.listedAsDir = true ∧ node.lstatError = none ∧ node.device ≠ tree.rootDevice) ∧
            event = .skipped (guestPathText path) (py "filesystem_boundary") ∨
          ((node.listedAsDir = true → node.lstatError = none → node.device = tree.rootDevice) ∧
            ¬CanInspect options node) ∧ ∃ text, event = .error (guestPathText path) text) := by
  unfold visitPath visitDir visitFile at h
  cases hexcluded : pathIsExcluded excluded (guestPathText path) with
  | true =>
    simp only [hexcluded, if_true, ite_self] at h
    exact Or.inl ⟨rfl, (Except.ok.inj h).symm⟩
  | false =>
    refine Or.inr ⟨rfl, ?_⟩
    simp only [hexcluded, Bool.false_eq_true, if_false] at h
    cases hlisted : node.listedAsDir with
    | false =>
      simp only [hlisted, Bool.false_eq_true, if_false] at h
      rcases recordPath_cases h with hentry | ⟨hcannot, herror⟩
      · exact Or.inl ⟨nofun, hentry⟩
      · exact Or.inr (Or.inr ⟨⟨nofun, hcannot⟩, herror⟩)
    | true =>
      simp only [hlisted, if_true] at h
      split at h
      · rename_i exc hlstat
        refine Or.inr (Or.inr ⟨⟨?_, ?_⟩, _, handleSnapshotError_eq_ok h⟩)
        · intro _ hnone
          rw [hnone] at hlstat
          cases hlstat
        · intro hcan
          rw [hcan.lookedUp] at hlstat
          cases hlstat
      · rename_i hlstat
        split at h
        · rename_i hboundary
          exact Or.inr (Or.inl ⟨⟨rfl, hlstat, hboundary.2⟩, (Except.ok.inj h).symm⟩)
        · rename_i hboundary
          have hdevice : node.device = tree.rootDevice := by
            by_contra hne
            exact hboundary ⟨hstay, hne⟩
          rcases recordPath_cases h with hentry | ⟨hcannot, herror⟩
          · exact Or.inl ⟨fun _ => hdevice, hentry⟩
          · exact Or.inr (Or.inr ⟨⟨fun _ _ => hdevice, hcannot⟩, herror⟩)

end Snapshot

section Exact

variable (tree : HostTree) (options : SnapshotOptions) (excluded : List PyStr)

/-- A directory that is walked: it is not excluded, and a directory of the file system of the root. -/
def IsWalked (path : List PyStr) : Prop :=
  path = [] ∨ pathIsExcluded excluded (guestPathText path) = false ∧
    ∃ node, tree.Has path node ∧ node.kind = .dir ∧ node.device = tree.rootDevice ∧
      node.lstatError = none

/-- A file in a directory that is walked and can be listed. -/
structure IsMet (path : List PyStr) (node : FileNode) : Prop where
  has : tree.Has path node
  walked : ∀ above, above <+: path.dropLast → IsWalked tree excluded above
  listed : ∀ above, above <+: path.dropLast → tree.listError above = none

/-- A file that belongs to a snapshot: it is not excluded, and in the file system of the root. -/
structure Belongs (path : List PyStr) (node : FileNode) : Prop where
  has : tree.Has path node
  notExcluded : pathIsExcluded excluded (guestPathText path) = false
  device : node.device = tree.rootDevice

/-- A snapshot of exactly the files that belong to it, and of the other ones that are met as skipped. -/
structure SnapshotExact (s : Snapshot) : Prop where
  entries : ∀ text, (∃ entry, s.entries.lookup text = some entry) ↔
    ∃ path node, Belongs tree excluded path node ∧ text = guestPathText path
  skipped : ∀ path node, IsMet tree excluded path node → ¬Belongs tree excluded path node →
    ∃ reason, (guestPathText path, reason) ∈ s.skipped

/-- A tree where the files of the root's file system are readable and lie in directories of it that
are so, too, and where all else that is met in these, and is not excluded, is a directory. -/
structure WithinDevice : Prop where
  above : ∀ path node, Belongs tree excluded path node → ∀ dir, dir <+: path.dropLast →
    tree.listError dir = none ∧
      ∀ d, tree.Has dir d → d.device = tree.rootDevice ∧ d.lstatError = none
  readable : ∀ path node, Belongs tree excluded path node → CanInspect options node
  files : ∀ path node, IsMet tree excluded path node →
    pathIsExcluded excluded (guestPathText path) = false → node.device ≠ tree.rootDevice →
    node.listedAsDir = true ∧ node.lstatError = none

variable {tree options excluded} {sha256 : List UInt8 → PyStr}

/-- The directories that a walk goes into. -/
theorem descends_iff (hstay : options.stayOnFilesystem = true) {above : List PyStr} {name : PyStr} :
    Descends sha256 tree options excluded above name ↔
      tree.listError above = none ∧ IsWalked tree excluded (above ++ [name]) := by
  unfold Descends IsWalked
  rw [and_congr_right_iff]
  intro _
  constructor
  · rintro ⟨node, event, hhas, hvisit, hkeep⟩
    refine Or.inr ?_
    have hkind : node.kind = .dir ∧ ∃ entry, event = .entry entry := by
      unfold isRetained at hkeep
      split at hkeep
      · rename_i hkind
        exact ⟨hkind, _, rfl⟩
      · cases hkeep
    obtain ⟨hdir, entry, rfl⟩ := hkind
    rcases visitPath_cases hstay hvisit with ⟨-, habsurd⟩ |
      ⟨hexcluded, ⟨hdevice, _, _, hinspect⟩ | ⟨-, habsurd⟩ | ⟨-, _, habsurd⟩⟩
    · cases habsurd
    · have hcan := inspectPath_isOk_iff.mp ⟨_, hinspect⟩
      exact ⟨hexcluded, node, hhas, hdir, hdevice (retained_listedAsDir hkeep), hcan.lookedUp⟩
    · cases habsurd
    · cases habsurd
  · rintro (habsurd | ⟨hexcluded, node, hhas, hdir, hdevice, hlstat⟩)
    · simp at habsurd
    · have hlisted : node.listedAsDir = true := by
        unfold FileNode.listedAsDir
        rw [hdir]
      refine ⟨node, .entry (node.entry (above ++ [name]) (py "dir")), hhas, ?_, ?_⟩
      · have hboundary : ¬(options.stayOnFilesystem = true ∧ node.device ≠ tree.rootDevice) :=
          fun hboth => hboth.2 hdevice
        rw [visitPath, if_pos hlisted, visitDir, if_neg (by simp [hexcluded]), hlstat]
        dsimp only
        rw [if_neg hboundary, recordPath, inspectPath, hlstat]
        dsimp only
        rw [hdir]
      · unfold isRetained
        rw [hdir]

/-- What a walk from the root meets. -/
theorem metBelow_root_iff (hstay : options.stayOnFilesystem = true) {path : List PyStr}
    {node : FileNode} :
    MetBelow sha256 tree options excluded [] (tree.depth + 1) path node ↔
      IsMet tree excluded path node := by
  constructor
  · intro h
    refine ⟨h.has, ?_, ?_⟩
    · intro above habove
      rcases List.eq_nil_or_concat above with rfl | ⟨dir, name, rfl⟩
      · exact Or.inl rfl
      · rw [List.concat_eq_append] at habove ⊢
        exact ((descends_iff hstay).mp (h.walked dir name List.nil_prefix habove)).2
    · intro above habove
      obtain ⟨rest, hrest⟩ := habove
      cases rest with
      | nil =>
        rw [List.append_nil] at hrest
        rw [hrest]
        exact h.listed
      | cons name rest =>
        have hbelow : above ++ [name] <+: path.dropLast := ⟨rest, by rw [← hrest]; simp⟩
        exact ((descends_iff hstay).mp (h.walked above name List.nil_prefix hbelow)).1
  · intro h
    have hdepth := tree.length_le_depth h.has
    refine ⟨h.has, List.nil_prefix, by rw [List.length_nil]; omega, ?_, h.listed _ List.prefix_rfl⟩
    intro above name _ hbelow
    refine (descends_iff hstay).mpr ⟨h.listed above ?_, h.walked _ hbelow⟩
    exact (List.prefix_append above [name]).trans hbelow

/-- The entries are those that were appended. -/
theorem lookup_foldl_insertEntry {entries : EntryMap} {events : List SnapshotEvent} {text : PyStr} :
    (∃ entry, (events.foldl insertEntry entries).lookup text = some entry) ↔
      (∃ entry, entries.lookup text = some entry) ∨
        ∃ entry, SnapshotEvent.entry entry ∈ events ∧ entry.path = text := by
  induction events generalizing entries with
  | nil => simp
  | cons event events ih =>
    rw [List.foldl_cons, ih]
    cases event with
    | entry first =>
      have hinsert : (∃ entry, (insertEntry entries (.entry first)).lookup text = some entry) ↔
          first.path = text ∨ ∃ entry, entries.lookup text = some entry := by
        by_cases hpath : text = first.path
        · subst hpath
          rw [insertEntry, Finmap.lookup_insert]
          exact iff_of_true ⟨first, rfl⟩ (Or.inl rfl)
        · rw [insertEntry, Finmap.lookup_insert_of_ne _ hpath, or_iff_right (Ne.symm hpath)]
      rw [hinsert]
      constructor
      · rintro ((hpath | hold) | ⟨entry, hmem, hpath⟩)
        · exact Or.inr ⟨first, List.mem_cons_self, hpath⟩
        · exact Or.inl hold
        · exact Or.inr ⟨entry, List.mem_cons_of_mem _ hmem, hpath⟩
      · rintro (hold | ⟨entry, hmem, hpath⟩)
        · exact Or.inl (Or.inr hold)
        · rcases List.mem_cons.mp hmem with heq | hmem
          · obtain rfl := SnapshotEvent.entry.inj heq
            exact Or.inl (Or.inl hpath)
          · exact Or.inr ⟨entry, hmem, hpath⟩
    | skipped path reason => simp [insertEntry]
    | error path text' => simp [insertEntry]

/-- Above a file there are directories. -/
theorem HostTree.has_above {path : List PyStr} {node : FileNode} (h : tree.Has path node)
    {above : List PyStr} (habove : above <+: path.dropLast) (hne : above ≠ []) :
    ∃ dir, tree.Has above dir ∧ dir.kind = .dir := by
  obtain ⟨rest, hrest⟩ := habove
  induction rest using List.reverseRecOn generalizing path node with
  | nil =>
    rw [List.append_nil] at hrest
    have hpath := (tree.names path node h).1
    have hsplit := List.dropLast_append_getLast hpath
    rw [← hrest] at hsplit
    exact tree.parents above (path.getLast hpath) node (by rw [hsplit]; exact h) hne
  | append_singleton rest name ih =>
    -- the directory that the file lies in is one level nearer
    have hpath := (tree.names path node h).1
    have hsplit := List.dropLast_append_getLast hpath
    have hparent : path.dropLast ≠ [] := by
      rw [← hrest]
      simp
    obtain ⟨parent, hhas, -⟩ :=
      tree.parents path.dropLast (path.getLast hpath) node (by rw [hsplit]; exact h) hparent
    refine ih hhas ?_
    rw [← hrest, ← List.append_assoc, List.dropLast_concat]

/-- What `snapshot_rootfs` returns, from what is met. -/
structure SnapshotSpec (sha256 : List UInt8 → PyStr) (tree : HostTree) (options : SnapshotOptions)
    (excluded : List PyStr) (s : Snapshot) : Prop where
  visited : ∀ path node, IsMet tree excluded path node →
    ∃ event, visitPath sha256 tree options excluded path node = .ok event
  entries : ∀ text, (∃ entry, s.entries.lookup text = some entry) ↔
    ∃ path node entry, IsMet tree excluded path node ∧
      visitPath sha256 tree options excluded path node = .ok (.entry entry) ∧ entry.path = text
  skipped : ∀ text reason, (text, reason) ∈ s.skipped ↔
    ∃ path node, IsMet tree excluded path node ∧
      visitPath sha256 tree options excluded path node = .ok (.skipped text reason)

theorem snapshotRootfs_spec (hstay : options.stayOnFilesystem = true) {s : Snapshot}
    (h : snapshotRootfs sha256 tree options = .ok s) :
    ∃ excluded, normalizeExcludedPaths options.excludePaths = .ok excluded ∧
      SnapshotSpec sha256 tree options excluded s := by
  obtain ⟨excluded, hexcluded, h⟩ := bind_eq_ok.mp h
  obtain ⟨events, hevents, h⟩ := bind_eq_ok.mp h
  obtain rfl := pure_eq_ok.mp h
  have hspec := walkRootfs_spec hevents
  have hmem : ∀ event, event ∈ events ↔ ∃ path node, IsMet tree excluded path node ∧
      visitPath sha256 tree options excluded path node = .ok event := by
    intro event
    constructor
    · intro hevent
      obtain ⟨path, node, hmet, hvisit⟩ := hspec.sound event hevent
      exact ⟨path, node, (metBelow_root_iff hstay).mp hmet, hvisit⟩
    · rintro ⟨path, node, hmet, hvisit⟩
      obtain ⟨event', hevent', hvisit'⟩ :=
        hspec.complete path node ((metBelow_root_iff hstay).mpr hmet)
      rw [hvisit'] at hvisit
      rwa [← Except.ok.inj hvisit]
  refine ⟨excluded, hexcluded, ?_, ?_, ?_⟩
  · intro path node hmet
    obtain ⟨event, -, hvisit⟩ := hspec.complete path node ((metBelow_root_iff hstay).mpr hmet)
    exact ⟨event, hvisit⟩
  · intro text
    rw [lookup_foldl_insertEntry]
    constructor
    · rintro (⟨entry, habsurd⟩ | ⟨entry, hentry, hpath⟩)
      · simp at habsurd
      · obtain ⟨path, node, hmet, hvisit⟩ := (hmem _).mp hentry
        exact ⟨path, node, entry, hmet, hvisit, hpath⟩
    · rintro ⟨path, node, entry, hmet, hvisit, hpath⟩
      exact Or.inr ⟨entry, (hmem _).mpr ⟨path, node, hmet, hvisit⟩, hpath⟩
  · intro text reason
    rw [← hmem, List.mem_filterMap]
    constructor
    · rintro ⟨event, hevent, hskip⟩
      cases event with
      | skipped path reason' =>
        obtain ⟨rfl, rfl⟩ := Prod.mk.inj (Option.some.inj hskip)
        exact hevent
      | entry entry => cases hskip
      | error path text' => cases hskip
    · intro hevent
      exact ⟨_, hevent, rfl⟩

/-- The file that an event of a path is about. -/
theorem IsMet.eq_of_text {path path' : List PyStr} {node node' : FileNode}
    (h : tree.Has path node) (h' : tree.Has path' node')
    (htext : guestPathText path' = guestPathText path) : path' = path ∧ node' = node := by
  obtain rfl := guestPathText_inj (tree.names path' node' h').2 (tree.names path node h).2 htext
  exact ⟨rfl, tree.has_unique h' h⟩

/-- A file that is recorded was met, and inspected. -/
theorem SnapshotSpec.met_of_entry {s : Snapshot} (hstay : options.stayOnFilesystem = true)
    (h : SnapshotSpec sha256 tree options excluded s) {path : List PyStr} {node : FileNode}
    (hhas : tree.Has path node) {entry : SnapshotEntry}
    (hentry : s.entries.lookup (guestPathText path) = some entry) :
    IsMet tree excluded path node ∧ CanInspect options node := by
  obtain ⟨path', node', entry', hmet, hvisit, hpath⟩ := (h.entries _).mp ⟨entry, hentry⟩
  rcases visitPath_cases hstay hvisit with ⟨-, habsurd⟩ |
    ⟨-, ⟨-, _, heq, hinspect⟩ | ⟨-, habsurd⟩ | ⟨-, _, habsurd⟩⟩
  · cases habsurd
  · obtain rfl := SnapshotEvent.entry.inj heq
    rw [inspectPath_path hinspect] at hpath
    obtain ⟨rfl, rfl⟩ := IsMet.eq_of_text hhas hmet.has hpath
    exact ⟨hmet, inspectPath_isOk_iff.mp ⟨_, hinspect⟩⟩
  · cases habsurd
  · cases habsurd

/-- **When a snapshot is what it should be.** -/
theorem snapshotExact_iff {s : Snapshot} (hstay : options.stayOnFilesystem = true)
    (h : SnapshotSpec sha256 tree options excluded s) :
    SnapshotExact tree excluded s ↔ WithinDevice tree options excluded := by
  constructor
  · intro hexact
    have hmet : ∀ path node, Belongs tree excluded path node →
        IsMet tree excluded path node ∧ CanInspect options node := by
      intro path node hbelongs
      obtain ⟨entry, hentry⟩ := (hexact.entries (guestPathText path)).mpr ⟨path, node, hbelongs, rfl⟩
      exact h.met_of_entry hstay hbelongs.has hentry
    refine ⟨?_, fun path node hbelongs => (hmet path node hbelongs).2, ?_⟩
    · intro path node hbelongs dir hdir
      refine ⟨(hmet path node hbelongs).1.listed dir hdir, fun d hd => ?_⟩
      rcases (hmet path node hbelongs).1.walked dir hdir with rfl | ⟨-, d', hd', -, hdevice, hlstat⟩
      · exact absurd rfl (tree.names [] d hd).1
      · rw [tree.has_unique hd hd']
        exact ⟨hdevice, hlstat⟩
    · intro path node hpath hexcluded hdevice
      obtain ⟨reason, hreason⟩ :=
        hexact.skipped path node hpath fun hbelongs => hdevice hbelongs.device
      obtain ⟨path', node', hmet', hvisit⟩ := (h.skipped _ _).mp hreason
      rcases visitPath_cases hstay hvisit with ⟨hexcluded', heq⟩ |
        ⟨-, ⟨-, _, habsurd, -⟩ | ⟨⟨hlisted, hlstat, -⟩, heq⟩ | ⟨-, _, habsurd⟩⟩
      · have htext := (SnapshotEvent.skipped.inj heq).1
        rw [← htext, hexcluded] at hexcluded'
        cases hexcluded'
      · cases habsurd
      · have htext := (SnapshotEvent.skipped.inj heq).1
        obtain ⟨rfl, rfl⟩ := IsMet.eq_of_text hpath.has hmet'.has htext.symm
        exact ⟨hlisted, hlstat⟩
      · cases habsurd
  · intro hwithin
    have hmet : ∀ path node, Belongs tree excluded path node → IsMet tree excluded path node := by
      intro path node hbelongs
      refine ⟨hbelongs.has, fun above habove => ?_, fun above habove =>
        (hwithin.above path node hbelongs above habove).1⟩
      by_cases hne : above = []
      · exact Or.inl hne
      obtain ⟨dir, hdir, hkind⟩ := tree.has_above hbelongs.has habove hne
      obtain ⟨hdevice, hlstat⟩ := (hwithin.above path node hbelongs above habove).2 dir hdir
      refine Or.inr ⟨?_, dir, hdir, hkind, hdevice, hlstat⟩
      -- what is below an excluded directory is excluded
      cases hexcluded : pathIsExcluded excluded (guestPathText above) with
      | false => rfl
      | true =>
        obtain ⟨more, hmore⟩ := habove.trans (List.dropLast_prefix path)
        have hbelow : pathIsExcluded excluded (guestPathText (above ++ more)) = true :=
          pathIsExcluded_below hne hexcluded
        rw [hmore, hbelongs.notExcluded] at hbelow
        cases hbelow
    refine ⟨fun text => ⟨fun hentry => ?_, ?_⟩, ?_⟩
    · obtain ⟨path, node, entry, hpath, hvisit, htext⟩ := (h.entries text).mp hentry
      rcases visitPath_cases hstay hvisit with ⟨-, habsurd⟩ |
        ⟨hexcluded, ⟨hdevice, _, heq, hinspect⟩ | ⟨-, habsurd⟩ | ⟨-, _, habsurd⟩⟩
      · cases habsurd
      · obtain rfl := SnapshotEvent.entry.inj heq
        refine ⟨path, node, ⟨hpath.has, hexcluded, ?_⟩, by rw [← htext, inspectPath_path hinspect]⟩
        by_contra hne
        exact hne (hdevice (hwithin.files path node hpath hexcluded hne).1)
      · cases habsurd
      · cases habsurd
    · rintro ⟨path, node, hbelongs, rfl⟩
      have hpath := hmet path node hbelongs
      obtain ⟨event, hvisit⟩ := h.visited path node hpath
      rcases visitPath_cases hstay hvisit with ⟨hexcluded, -⟩ |
        ⟨-, ⟨-, entry, rfl, hinspect⟩ | ⟨⟨-, -, hdevice⟩, -⟩ | ⟨⟨-, hcannot⟩, -⟩⟩
      · rw [hbelongs.notExcluded] at hexcluded
        cases hexcluded
      · exact (h.entries _).mpr ⟨path, node, entry, hpath, hvisit, inspectPath_path hinspect⟩
      · exact absurd hbelongs.device hdevice
      · exact absurd (hwithin.readable path node hbelongs) hcannot
    · intro path node hpath hnot
      obtain ⟨event, hvisit⟩ := h.visited path node hpath
      rcases visitPath_cases hstay hvisit with ⟨-, rfl⟩ | ⟨hexcluded, hcases⟩
      · exact ⟨_, (h.skipped _ _).mpr ⟨path, node, hpath, hvisit⟩⟩
      have hdevice : node.device ≠ tree.rootDevice :=
        fun heq => hnot ⟨hpath.has, hexcluded, heq⟩
      obtain ⟨hlisted, hlstat⟩ := hwithin.files path node hpath hexcluded hdevice
      rcases hcases with ⟨hroot, -⟩ | ⟨-, rfl⟩ | ⟨⟨hroot, -⟩, -⟩
      · exact absurd (hroot hlisted) hdevice
      · exact ⟨_, (h.skipped _ _).mpr ⟨path, node, hpath, hvisit⟩⟩
      · exact absurd (hroot hlisted hlstat) hdevice

end Exact

/-! ### Differences -/

/-- The same on every field that is compared. -/
structure SameFields (old new : SnapshotEntry) : Prop where
  fields : ∀ field ∈ comparedFields, field.2 old = field.2 new
  mtimeNs : old.mtimeNs = new.mtimeNs

theorem compareEntries_eq_nil {old new : SnapshotEntry} :
    compareEntries old new = [] ↔ SameFields old new := by
  unfold compareEntries
  dsimp only
  have hchanges : (comparedFields.filterMap fun field =>
      if field.2 old = field.2 new then none
      else some (FieldChange.mk field.1 (field.2 old) (field.2 new))) = [] ↔
      ∀ field ∈ comparedFields, field.2 old = field.2 new := by
    rw [List.filterMap_eq_nil_iff]
    constructor
    · intro h field hfield
      by_contra hne
      have hnone := h field hfield
      rw [if_neg hne] at hnone
      cases hnone
    · intro h field hfield
      rw [if_pos (h field hfield)]
  split
  · rename_i hboth
    constructor
    · nofun
    · intro h
      exact absurd h.mtimeNs hboth.2
  · rename_i hboth
    rw [hchanges]
    constructor
    · intro h
      refine ⟨h, ?_⟩
      by_contra hne
      exact hboth ⟨hchanges.mpr h, hne⟩
    · intro h
      exact h.fields

/-- A change seen from the other side. -/
def FieldChange.swap (change : FieldChange) : FieldChange := ⟨change.field, change.after, change.before⟩

theorem compareEntries_swap (old new : SnapshotEntry) :
    compareEntries new old = (compareEntries old new).map FieldChange.swap := by
  have hchanges : (comparedFields.filterMap fun field =>
      if field.2 new = field.2 old then none
      else some (FieldChange.mk field.1 (field.2 new) (field.2 old))) =
      (comparedFields.filterMap fun field =>
        if field.2 old = field.2 new then none
        else some (FieldChange.mk field.1 (field.2 old) (field.2 new))).map FieldChange.swap := by
    rw [List.map_filterMap]
    apply List.filterMap_congr
    intro field _
    by_cases heq : field.2 old = field.2 new
    · rw [if_pos heq, if_pos heq.symm]
      rfl
    · rw [if_neg heq, if_neg (Ne.symm heq)]
      rfl
  unfold compareEntries
  rw [hchanges]
  generalize (comparedFields.filterMap fun field =>
    if field.2 old = field.2 new then none
    else some (FieldChange.mk field.1 (field.2 old) (field.2 new))) = changes
  dsimp only
  by_cases hnil : changes = []
  · subst hnil
    by_cases htime : old.mtimeNs = new.mtimeNs
    · rw [if_neg (by simp [htime]), if_neg (by simp [htime])]
    · rw [if_pos ⟨rfl, Ne.symm htime⟩, if_pos ⟨rfl, htime⟩]
      rfl
  · rw [if_neg (by simp [hnil]), if_neg (by simp [hnil])]

/-- A modified entry seen from the other side. -/
def ModifiedEntry.swap (modified : ModifiedEntry) : ModifiedEntry where
  path := modified.path
  typeBefore := modified.typeAfter
  typeAfter := modified.typeBefore
  changes := modified.changes.map FieldChange.swap
  before := modified.after
  after := modified.before

theorem modifiedEntry_swap (old new : EntryMap) (path : PyStr) :
    modifiedEntry new old path = (modifiedEntry old new path).map ModifiedEntry.swap := by
  unfold modifiedEntry
  cases hold : old.lookup path with
  | none => cases new.lookup path <;> rfl
  | some before =>
    cases hnew : new.lookup path with
    | none => rfl
    | some after =>
      dsimp only
      rw [compareEntries_swap before after]
      by_cases hnil : compareEntries before after = []
      · rw [if_pos hnil, if_pos (by rw [hnil]; rfl)]
        rfl
      · rw [if_neg hnil, if_neg (by simpa using hnil)]
        rfl

/-- The snapshot that a difference leads to: what was deleted is taken away, and what was created or
modified is put in its place. -/
def SnapshotDiff.applyTo (diff : SnapshotDiff) (entries : EntryMap) : EntryMap :=
  (diff.created ++ diff.modified.map ModifiedEntry.after).foldl
    (fun entries entry => entries.insert entry.path entry)
    (diff.deleted.foldl (fun entries entry => entries.erase entry.path) entries)

/-- Both have nothing at a path, or entries that are the same on every field that is compared. -/
def AgreeAt (entries entries' : EntryMap) (path : PyStr) : Prop :=
  Option.Rel SameFields (entries.lookup path) (entries'.lookup path)

/-- A difference that accounts for every change. -/
structure DiffAccounts (before after : Snapshot) (diff : SnapshotDiff) : Prop where
  createdModified : List.Disjoint (diff.created.map SnapshotEntry.path)
    (diff.modified.map ModifiedEntry.path)
  createdDeleted : List.Disjoint (diff.created.map SnapshotEntry.path)
    (diff.deleted.map SnapshotEntry.path)
  modifiedDeleted : List.Disjoint (diff.modified.map ModifiedEntry.path)
    (diff.deleted.map SnapshotEntry.path)
  applied : ∀ path, AgreeAt (diff.applyTo before.entries) after.entries path
  unchanged : before.entries = after.entries →
    diff.created = [] ∧ diff.modified = [] ∧ diff.deleted = []
  reversed : (diffSnapshots after before).created = diff.deleted ∧
    (diffSnapshots after before).deleted = diff.created ∧
    (diffSnapshots after before).modified = diff.modified.map ModifiedEntry.swap

section Diff

variable {before after : Snapshot}

theorem mem_entriesAt {entries : EntryMap} {paths : Finset PyStr} {entry : SnapshotEntry} :
    entry ∈ entriesAt entries paths ↔ ∃ path ∈ paths, entries.lookup path = some entry := by
  rw [entriesAt, List.mem_filterMap]
  simp only [Finset.mem_sort]

theorem mem_created {entry : SnapshotEntry} :
    entry ∈ (diffSnapshots before after).created ↔
      after.entries.lookup entry.path = some entry ∧ before.entries.lookup entry.path = none := by
  show entry ∈ entriesAt _ _ ↔ _
  rw [mem_entriesAt]
  constructor
  · rintro ⟨path, hpath, hlookup⟩
    obtain rfl := after.keyed path entry hlookup
    rw [Finset.mem_sdiff, Finmap.mem_keys, Finmap.mem_keys, ← Finmap.lookup_eq_none] at hpath
    exact ⟨hlookup, hpath.2⟩
  · rintro ⟨hlookup, hnone⟩
    refine ⟨entry.path, ?_, hlookup⟩
    rw [Finset.mem_sdiff, Finmap.mem_keys, Finmap.mem_keys, ← Finmap.lookup_eq_none]
    exact ⟨Finmap.mem_iff.mpr ⟨entry, hlookup⟩, hnone⟩

theorem mem_deleted {entry : SnapshotEntry} :
    entry ∈ (diffSnapshots before after).deleted ↔
      before.entries.lookup entry.path = some entry ∧ after.entries.lookup entry.path = none :=
  mem_created

theorem mem_modified {modified : ModifiedEntry} :
    modified ∈ (diffSnapshots before after).modified ↔
      modifiedEntry before.entries after.entries modified.path = some modified := by
  show modified ∈ List.filterMap _ _ ↔ _
  rw [List.mem_filterMap]
  constructor
  · rintro ⟨path, -, hpath⟩
    have hsame : modified.path = path := by
      unfold modifiedEntry at hpath
      split at hpath
      · dsimp only at hpath
        split at hpath
        · cases hpath
        · rw [← Option.some.inj hpath]
      · cases hpath
    rw [hsame]
    exact hpath
  · intro hmodified
    refine ⟨modified.path, ?_, hmodified⟩
    unfold modifiedEntry at hmodified
    split at hmodified
    · rename_i old new hold hnew
      rw [Finset.mem_sort, Finset.mem_inter, Finmap.mem_keys, Finmap.mem_keys]
      exact ⟨Finmap.mem_iff.mpr ⟨old, hold⟩, Finmap.mem_iff.mpr ⟨new, hnew⟩⟩
    · cases hmodified

/-- What a modified entry was made from. -/
theorem modifiedEntry_eq_some {old new : EntryMap} {path : PyStr} {modified : ModifiedEntry} :
    modifiedEntry old new path = some modified ↔
      ∃ entry entry', old.lookup path = some entry ∧ new.lookup path = some entry' ∧
        ¬SameFields entry entry' ∧
        modified = ⟨path, entry.type, entry'.type, compareEntries entry entry', entry, entry'⟩ := by
  unfold modifiedEntry
  constructor
  · intro h
    split at h
    · rename_i entry entry' hold hnew
      dsimp only at h
      split at h
      · cases h
      · rename_i hchanged
        exact ⟨entry, entry', hold, hnew, fun hsame => hchanged (compareEntries_eq_nil.mpr hsame),
          (Option.some.inj h).symm⟩
    · cases h
  · rintro ⟨entry, entry', hold, hnew, hchanged, rfl⟩
    rw [hold, hnew]
    dsimp only
    rw [if_neg fun hnil => hchanged (compareEntries_eq_nil.mp hnil)]

theorem lookup_foldl_erase (deleted : List SnapshotEntry) (entries : EntryMap) (path : PyStr) :
    (deleted.foldl (fun entries entry => entries.erase entry.path) entries).lookup path =
      if path ∈ deleted.map SnapshotEntry.path then none else entries.lookup path := by
  induction deleted generalizing entries with
  | nil => simp
  | cons entry deleted ih =>
    rw [List.foldl_cons, ih]
    by_cases hpath : path = entry.path
    · subst hpath
      rw [Finmap.lookup_erase, ite_self, if_pos (by simp)]
    · rw [Finmap.lookup_erase_ne hpath]
      simp [hpath]

/-- Entries of another snapshot that are put in their places. -/
theorem lookup_foldl_insert {target : EntryMap} {inserted : List SnapshotEntry}
    (h : ∀ entry ∈ inserted, target.lookup entry.path = some entry) (entries : EntryMap)
    (path : PyStr) :
    (inserted.foldl (fun entries entry => entries.insert entry.path entry) entries).lookup path =
      if path ∈ inserted.map SnapshotEntry.path then target.lookup path else entries.lookup path := by
  induction inserted generalizing entries with
  | nil => simp
  | cons entry inserted ih =>
    rw [List.forall_mem_cons] at h
    rw [List.foldl_cons, ih h.2]
    by_cases hpath : path = entry.path
    · subst hpath
      rw [Finmap.lookup_insert, ← h.1, ite_self, if_pos (by simp)]
    · rw [Finmap.lookup_insert_of_ne _ hpath]
      simp [hpath]

theorem SameFields.refl (entry : SnapshotEntry) : SameFields entry entry := ⟨fun _ _ => rfl, rfl⟩

/-- **A difference accounts for every change.** -/
theorem diffSnapshots_accounts (before after : Snapshot) :
    DiffAccounts before after (diffSnapshots before after) := by
  have hmodified : ∀ modified ∈ (diffSnapshots before after).modified, ∃ entry entry',
      before.entries.lookup modified.path = some entry ∧
        after.entries.lookup modified.path = some entry' := by
    intro modified hmem
    obtain ⟨entry, entry', hold, hnew, -⟩ := modifiedEntry_eq_some.mp (mem_modified.mp hmem)
    exact ⟨entry, entry', hold, hnew⟩
  refine ⟨?_, ?_, ?_, ?_, ?_, rfl, rfl, ?_⟩
  · intro path hcreated hmem
    obtain ⟨entry, hentry, rfl⟩ := List.mem_map.mp hcreated
    obtain ⟨modified, hmodifiedMem, hpath⟩ := List.mem_map.mp hmem
    obtain ⟨old, -, hold, -⟩ := hmodified modified hmodifiedMem
    rw [hpath, (mem_created.mp hentry).2] at hold
    cases hold
  · intro path hcreated hdeleted
    obtain ⟨entry, hentry, rfl⟩ := List.mem_map.mp hcreated
    obtain ⟨entry', hentry', hpath⟩ := List.mem_map.mp hdeleted
    have hold := (mem_deleted.mp hentry').1
    rw [hpath, (mem_created.mp hentry).2] at hold
    cases hold
  · intro path hmem hdeleted
    obtain ⟨modified, hmodifiedMem, rfl⟩ := List.mem_map.mp hmem
    obtain ⟨entry, hentry, hpath⟩ := List.mem_map.mp hdeleted
    obtain ⟨-, new, -, hnew⟩ := hmodified modified hmodifiedMem
    rw [← hpath, (mem_deleted.mp hentry).2] at hnew
    cases hnew
  · intro path
    -- what is put in is of the second snapshot
    have hinserted : ∀ entry ∈ (diffSnapshots before after).created ++
        (diffSnapshots before after).modified.map ModifiedEntry.after,
        after.entries.lookup entry.path = some entry := by
      intro entry hentry
      rcases List.mem_append.mp hentry with hentry | hentry
      · exact (mem_created.mp hentry).1
      · obtain ⟨modified, hmem, rfl⟩ := List.mem_map.mp hentry
        obtain ⟨old, new, -, hnew, -, heq⟩ := modifiedEntry_eq_some.mp (mem_modified.mp hmem)
        have hafter : modified.after = new := by rw [heq]
        rw [hafter, after.keyed _ _ hnew]
        exact hnew
    rw [AgreeAt, SnapshotDiff.applyTo, lookup_foldl_insert hinserted, lookup_foldl_erase]
    split
    · cases hafter : after.entries.lookup path with
      | none => exact Option.Rel.none
      | some entry => exact Option.Rel.some (SameFields.refl entry)
    · rename_i hnot
      simp only [List.map_append, List.mem_append, List.mem_map, not_or, not_exists, not_and] at hnot
      split
      · rename_i hdeleted
        obtain ⟨entry, hentry, rfl⟩ := List.mem_map.mp hdeleted
        rw [(mem_deleted.mp hentry).2]
        exact Option.Rel.none
      · rename_i hkept
        cases hbefore : before.entries.lookup path with
        | none =>
          cases hafter : after.entries.lookup path with
          | none => exact Option.Rel.none
          | some entry =>
            obtain rfl := after.keyed path entry hafter
            exact absurd rfl (hnot.1 entry (mem_created.mpr ⟨hafter, hbefore⟩))
        | some old =>
          cases hafter : after.entries.lookup path with
          | none =>
            obtain rfl := before.keyed path old hbefore
            exact absurd (List.mem_map_of_mem (mem_deleted.mpr ⟨hbefore, hafter⟩)) hkept
          | some new =>
            apply Option.Rel.some
            by_contra hchanged
            have hmem : (⟨path, old.type, new.type, compareEntries old new, old, new⟩ : ModifiedEntry) ∈
                (diffSnapshots before after).modified :=
              mem_modified.mpr
                (modifiedEntry_eq_some.mpr ⟨old, new, hbefore, hafter, hchanged, rfl⟩)
            have hput : new ∈ (diffSnapshots before after).modified.map ModifiedEntry.after :=
              List.mem_map_of_mem hmem
            exact hnot.2 new (List.mem_map.mp hput) (after.keyed path new hafter)
  · intro heq
    refine ⟨?_, ?_, ?_⟩
    · apply List.eq_nil_iff_forall_not_mem.mpr
      intro entry hentry
      obtain ⟨hnew, hold⟩ := mem_created.mp hentry
      rw [heq, hnew] at hold
      cases hold
    · apply List.eq_nil_iff_forall_not_mem.mpr
      intro modified hmem
      obtain ⟨old, new, hold, hnew, hchanged, -⟩ := modifiedEntry_eq_some.mp (mem_modified.mp hmem)
      rw [heq, hnew] at hold
      rw [Option.some.inj hold] at hchanged
      exact hchanged (SameFields.refl old)
    · apply List.eq_nil_iff_forall_not_mem.mpr
      intro entry hentry
      obtain ⟨hold, hnew⟩ := mem_deleted.mp hentry
      rw [heq, hnew] at hold
      cases hold
  · show List.filterMap _ _ = List.map _ (List.filterMap _ _)
    rw [List.map_filterMap, Finset.inter_comm]
    apply List.filterMap_congr
    intro path _
    exact modifiedEntry_swap before.entries after.entries path

end Diff

/-- **Snapshots and differences.**  A snapshot that stays on the file system of its root holds exactly
the files that belong to it, and says of the others that are met that they are skipped, when the tree
has no single file of another file system among them; and any two snapshots have a difference that
accounts for every change. -/
theorem rootfs_snapshot_exact_iff (sha256 : List UInt8 → PyStr) (tree : HostTree)
    (options : SnapshotOptions) (hstay : options.stayOnFilesystem = true) :
    (∀ s, snapshotRootfs sha256 tree options = .ok s → ∃ excluded,
      normalizeExcludedPaths options.excludePaths = .ok excluded ∧
        (SnapshotExact tree excluded s ↔ WithinDevice tree options excluded)) ∧
      ∀ before after : Snapshot, DiffAccounts before after (diffSnapshots before after) := by
  refine ⟨fun s hs => ?_, diffSnapshots_accounts⟩
  obtain ⟨excluded, hexcluded, hspec⟩ := snapshotRootfs_spec hstay hs
  exact ⟨excluded, hexcluded, snapshotExact_iff hstay hspec⟩

/-- A regular file on a device. -/
def fileOn (device : ℕ) : FileNode where
  kind := .file []
  mode := 0o644
  uid := 0
  gid := 0
  size := 0
  mtimeNs := 0
  device := device
  inode := 1
  lstatError := none
  readError := none

/-- A root directory on the device 1, with the file `a`. -/
def singleFileTree (node : FileNode) : HostTree where
  root := purePosixPath (py "/r")
  rootDevice := 1
  rootReadError := none
  nodes := [([py "a"], node)]
  nodup := List.nodup_singleton _
  names := by
    intro path other h
    obtain ⟨rfl, -⟩ := Prod.mk.inj (List.mem_singleton.mp h)
    refine ⟨by simp, fun name hname => ?_⟩
    rw [List.mem_singleton.mp hname]
    exact ⟨by decide, by decide, by decide⟩
  parents := by
    intro path name other h hne
    have hlength := congrArg List.length (Prod.mk.inj (List.mem_singleton.mp h)).1
    rw [List.length_append] at hlength
    exact absurd (List.length_eq_zero_iff.mp (by simpa using hlength)) hne

/-- `SnapshotOptions()` -/
def defaultOptions : SnapshotOptions := ⟨true, true, [], true⟩

/-- A file on the device of the root. -/
theorem rootfs_snapshot_exact_iff_file :
    ∃ s, snapshotRootfs (fun _ => []) (singleFileTree (fileOn 1)) defaultOptions = .ok s ∧
      ∃ excluded, normalizeExcludedPaths defaultOptions.excludePaths = .ok excluded ∧
        (SnapshotExact (singleFileTree (fileOn 1)) excluded s ↔
          WithinDevice (singleFileTree (fileOn 1)) defaultOptions excluded) := by
  have hsnapshot : ∃ s,
      snapshotRootfs (fun _ => []) (singleFileTree (fileOn 1)) defaultOptions = .ok s := ⟨_, rfl⟩
  obtain ⟨s, hs⟩ := hsnapshot
  exact ⟨s, hs, (rootfs_snapshot_exact_iff (fun _ => []) (singleFileTree (fileOn 1)) defaultOptions
    rfl).1 s hs⟩

/-- A single file that is mounted from another device is taken into the snapshot. -/
theorem mounted_file_recorded :
    ∃ s entry, snapshotRootfs (fun _ => []) (singleFileTree (fileOn 2)) defaultOptions = .ok s ∧
      s.entries.lookup (py "/a") = some entry ∧ entry.device ≠ s.rootDevice ∧
      ¬SnapshotExact (singleFileTree (fileOn 2)) [] s := by
  refine ⟨_, _, rfl, rfl, by decide, ?_⟩
  intro hexact
  obtain ⟨path, node, hbelongs, -⟩ := (hexact.entries (py "/a")).mp ⟨_, rfl⟩
  have hnode : node = fileOn 2 := (Prod.mk.inj (List.mem_singleton.mp hbelongs.has)).2
  have hdevice := hbelongs.device
  rw [hnode] at hdevice
  revert hdevice
  decide

end TaintForge
