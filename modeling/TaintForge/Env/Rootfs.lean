import TaintForge.Lib.PyStr
import Mathlib.Data.Finmap

/-!
# The tree of a rootfs

Paths are the components below the rootfs, and the empty path is the rootfs itself.  Everything in the
tree lies in a directory of the tree.

* `Rootfs`: the entries, with the proof that the tree hangs together.
* `Rootfs.lstat`, `Rootfs.mkdir`, `Rootfs.chmod`, `Rootfs.rmdir`: the system calls.
-/

namespace TaintForge

/-- A path below the rootfs. -/
abbrev GuestPath := List PyStr

/-- An entry of the tree; the mode of a link is never used. -/
inductive Node
  | dir (mode : ℕ)
  | file (mode : ℕ)
  | symlink (target : PyStr)
  deriving DecidableEq

/-- How a system call fails.  `throughLink` stands for whatever the kernel says about a path that leads
through a symbolic link, and `other` for a failure that does not come from the tree. -/
inductive Errno
  | eexist | enoent | enotdir | enotempty | ebusy | throughLink | other
  deriving DecidableEq

/-- A tree of directories, files and links. -/
@[ext]
structure Rootfs where
  nodes : Finmap fun _ : GuestPath => Node
  root_dir : ∃ mode, nodes.lookup [] = some (.dir mode)
  parent_dir : ∀ path name node, nodes.lookup (path ++ [name]) = some node →
    ∃ mode, nodes.lookup path = some (.dir mode)

namespace Rootfs

/-- The entry at a path. -/
def node? (fs : Rootfs) (path : GuestPath) : Option Node := fs.nodes.lookup path

theorem ext_node {fs gs : Rootfs} (h : ∀ path, fs.node? path = gs.node? path) : fs = gs := by
  ext1
  exact Finmap.ext_lookup h

/-- There is a directory, not a link to one, at the path. -/
def IsDir (fs : Rootfs) (path : GuestPath) : Prop := ∃ mode, fs.node? path = some (.dir mode)

instance (fs : Rootfs) (path : GuestPath) : Decidable (fs.IsDir path) :=
  decidable_of_iff ((fs.node? path).any (fun node => match node with | .dir _ => true | _ => false))
    (by
      unfold IsDir
      cases fs.node? path with
      | none => simp
      | some node => cases node <;> simp)

theorem isDir_root (fs : Rootfs) : fs.IsDir [] := fs.root_dir

theorem isDir_parent {fs : Rootfs} {path : GuestPath} (h : fs.node? path ≠ none) (hne : path ≠ []) :
    fs.IsDir path.dropLast := by
  obtain ⟨node, hnode⟩ := Option.ne_none_iff_exists'.mp h
  apply fs.parent_dir path.dropLast (path.getLast hne) node
  rw [List.dropLast_append_getLast hne]
  exact hnode

/-- What a missing path runs into: the error of its nearest ancestor that exists. -/
def missing (fs : Rootfs) : List PyStr → Errno
  | [] => .enoent
  | name :: above =>
    match fs.node? (name :: above).reverse with
    | some (.file _) => .enotdir
    | some (.symlink _) => .throughLink
    | some (.dir _) => .enoent
    | none => missing fs above

/-- `os.lstat`. -/
def lstat (fs : Rootfs) (path : GuestPath) : Except Errno Node :=
  match fs.node? path with
  | some node => .ok node
  | none => .error (fs.missing path.reverse)

theorem missing_eq_enoent {fs : Rootfs} {path : GuestPath} {rev : List PyStr}
    (hrev : rev = path.reverse) (h : fs.node? path = none) (hdir : fs.IsDir path.dropLast) :
    fs.missing rev = .enoent := by
  subst hrev
  rcases List.eq_nil_or_concat path with rfl | ⟨above, name, rfl⟩
  · rfl
  · rw [List.concat_eq_append] at h hdir ⊢
    rw [List.dropLast_concat] at hdir
    rw [List.reverse_append, List.reverse_singleton, List.singleton_append]
    have hback : (name :: above.reverse).reverse = above ++ [name] := by simp
    unfold missing
    rw [hback, h]
    dsimp only
    obtain ⟨mode, hmode⟩ := hdir
    cases hr : above.reverse with
    | nil => rfl
    | cons n more =>
      unfold missing
      rw [← hr, List.reverse_reverse, hmode]

/-- A rootfs without entries. -/
def bare (mode : ℕ) : Rootfs where
  nodes := (∅ : Finmap fun _ : GuestPath => Node).insert [] (.dir mode)
  root_dir := ⟨mode, Finmap.lookup_insert _⟩
  parent_dir p name node h := by
    rw [Finmap.lookup_insert_of_ne _ (by simp), Finmap.lookup_empty] at h
    exact absurd h (by nofun)

theorem node?_bare {mode : ℕ} {path : GuestPath} (h : path ≠ []) : (bare mode).node? path = none := by
  show ((∅ : Finmap fun _ : GuestPath => Node).insert [] (.dir mode)).lookup path = none
  rw [Finmap.lookup_insert_of_ne _ h, Finmap.lookup_empty]

/-! ### Making and removing directories -/

/-- A new directory in an existing one. -/
def addDir (fs : Rootfs) (path : GuestPath) (mode : ℕ) (hnew : fs.node? path = none)
    (hparent : fs.IsDir path.dropLast) : Rootfs where
  nodes := fs.nodes.insert path (.dir mode)
  root_dir := by
    by_cases hp : path = []
    · subst hp
      obtain ⟨m, hm⟩ := fs.isDir_root
      rw [hnew] at hm
      exact absurd hm (by nofun)
    · rw [Finmap.lookup_insert_of_ne _ (Ne.symm hp)]
      exact fs.root_dir
  parent_dir p name node h := by
    by_cases heq : p ++ [name] = path
    · subst heq
      rw [List.dropLast_concat] at hparent
      obtain ⟨m, hm⟩ := hparent
      have hne : p ≠ p ++ [name] := fun h => by simpa using congrArg List.length h
      exact ⟨m, by rw [Finmap.lookup_insert_of_ne _ hne]; exact hm⟩
    · rw [Finmap.lookup_insert_of_ne _ heq] at h
      obtain ⟨m, hm⟩ := fs.parent_dir p name node h
      by_cases hp : p = path
      · subst hp
        exact ⟨mode, by rw [Finmap.lookup_insert]⟩
      · exact ⟨m, by rw [Finmap.lookup_insert_of_ne _ hp]; exact hm⟩

/-- `os.mkdir`. -/
def mkdir (fs : Rootfs) (path : GuestPath) (mode : ℕ) : Except Errno Rootfs :=
  if hnew : fs.node? path = none then
    if hparent : fs.IsDir path.dropLast then .ok (fs.addDir path mode hnew hparent)
    else .error (fs.missing path.reverse)
  else .error .eexist

/-- A directory gets another mode. -/
def setMode (fs : Rootfs) (path : GuestPath) (mode : ℕ) (h : fs.IsDir path) : Rootfs where
  nodes := fs.nodes.insert path (.dir mode)
  root_dir := by
    by_cases hp : path = []
    · subst hp
      exact ⟨mode, Finmap.lookup_insert _⟩
    · rw [Finmap.lookup_insert_of_ne _ (Ne.symm hp)]
      exact fs.root_dir
  parent_dir p name node hnode := by
    have hold : ∃ node', fs.nodes.lookup (p ++ [name]) = some node' := by
      by_cases heq : p ++ [name] = path
      · obtain ⟨m, hm⟩ := h
        exact ⟨_, by rw [heq]; exact hm⟩
      · rw [Finmap.lookup_insert_of_ne _ heq] at hnode
        exact ⟨node, hnode⟩
    obtain ⟨node', hnode'⟩ := hold
    obtain ⟨m, hm⟩ := fs.parent_dir p name node' hnode'
    by_cases hp : p = path
    · exact ⟨mode, by rw [hp]; exact Finmap.lookup_insert _⟩
    · exact ⟨m, by rw [Finmap.lookup_insert_of_ne _ hp]; exact hm⟩

/-- `os.chmod` of a directory. -/
def chmod (fs : Rootfs) (path : GuestPath) (mode : ℕ) : Except Errno Rootfs :=
  if h : fs.IsDir path then .ok (fs.setMode path mode h)
  else .error (fs.missing path.reverse)

/-- The directory has no entries. -/
def IsEmpty (fs : Rootfs) (path : GuestPath) : Prop :=
  ∀ p ∈ fs.nodes.keys, p ≠ [] → p.dropLast ≠ path

instance (fs : Rootfs) (path : GuestPath) : Decidable (fs.IsEmpty path) :=
  inferInstanceAs (Decidable (∀ p ∈ fs.nodes.keys, p ≠ [] → p.dropLast ≠ path))

/-- A directory without entries goes away. -/
def removeDir (fs : Rootfs) (path : GuestPath) (hne : path ≠ []) (hempty : fs.IsEmpty path) :
    Rootfs where
  nodes := fs.nodes.erase path
  root_dir := by
    rw [Finmap.lookup_erase_ne (Ne.symm hne)]
    exact fs.root_dir
  parent_dir p name node h := by
    by_cases heq : p ++ [name] = path
    · subst heq
      rw [Finmap.lookup_erase] at h
      exact absurd h (by nofun)
    · rw [Finmap.lookup_erase_ne heq] at h
      obtain ⟨m, hm⟩ := fs.parent_dir p name node h
      have hkey : p ++ [name] ∈ fs.nodes.keys := by
        rw [Finmap.mem_keys, ← Finmap.lookup_isSome, h]
        rfl
      have hp : p ≠ path := by
        have hparent := hempty _ hkey (by simp)
        rwa [List.dropLast_concat] at hparent
      exact ⟨m, by rw [Finmap.lookup_erase_ne hp]; exact hm⟩

/-- `os.rmdir`. -/
def rmdir (fs : Rootfs) (path : GuestPath) : Except Errno Rootfs :=
  match fs.node? path with
  | none => .error (fs.missing path.reverse)
  | some (.file _) => .error .enotdir
  | some (.symlink _) => .error .enotdir
  | some (.dir _) =>
    if hne : path ≠ [] then
      if hempty : fs.IsEmpty path then .ok (fs.removeDir path hne hempty)
      else .error .enotempty
    else .error .ebusy

/-! ### What the calls change -/

variable {fs gs : Rootfs} {path p : GuestPath} {mode : ℕ}

@[simp] theorem node?_addDir (hnew : fs.node? path = none) (hparent : fs.IsDir path.dropLast) :
    (fs.addDir path mode hnew hparent).node? p = if p = path then some (.dir mode) else fs.node? p := by
  show (fs.nodes.insert path (.dir mode)).lookup p = _
  split
  · rename_i h
    rw [h, Finmap.lookup_insert]
  · rename_i h
    rw [Finmap.lookup_insert_of_ne _ h]
    rfl

@[simp] theorem node?_setMode (h : fs.IsDir path) :
    (fs.setMode path mode h).node? p = if p = path then some (.dir mode) else fs.node? p := by
  show (fs.nodes.insert path (.dir mode)).lookup p = _
  split
  · rename_i h
    rw [h, Finmap.lookup_insert]
  · rename_i h
    rw [Finmap.lookup_insert_of_ne _ h]
    rfl

@[simp] theorem node?_removeDir (hne : path ≠ []) (hempty : fs.IsEmpty path) :
    (fs.removeDir path hne hempty).node? p = if p = path then none else fs.node? p := by
  show (fs.nodes.erase path).lookup p = _
  split
  · rename_i h
    rw [h, Finmap.lookup_erase]
  · rename_i h
    rw [Finmap.lookup_erase_ne h]
    rfl

theorem isEmpty_iff : fs.IsEmpty path ↔ ∀ name, fs.node? (path ++ [name]) = none := by
  constructor
  · intro h name
    by_contra hne
    obtain ⟨node, hnode⟩ := Option.ne_none_iff_exists'.mp hne
    refine h (path ++ [name]) ?_ (by simp) (by simp)
    rw [Finmap.mem_keys, ← Finmap.lookup_isSome]
    exact Option.isSome_iff_exists.mpr ⟨node, hnode⟩
  · intro h q hq hne hparent
    rw [Finmap.mem_keys, ← Finmap.lookup_isSome] at hq
    have hnone := h (q.getLast hne)
    rw [← hparent, List.dropLast_append_getLast hne] at hnone
    rw [show fs.nodes.lookup q = none from hnone] at hq
    exact absurd hq (by simp)

/-- A directory is made in a directory, at a path that was free. -/
theorem mkdir_ok (h : fs.mkdir path mode = .ok gs) :
    fs.node? path = none ∧ fs.IsDir path.dropLast ∧
      ∀ p, gs.node? p = if p = path then some (.dir mode) else fs.node? p := by
  unfold mkdir at h
  split at h
  · rename_i hnew
    split at h
    · rename_i hparent
      cases h
      exact ⟨hnew, hparent, fun p => node?_addDir hnew hparent⟩
    · cases h
  · cases h

theorem mkdir_of_free (mode : ℕ) (hnew : fs.node? path = none) (hparent : fs.IsDir path.dropLast) :
    ∃ gs, fs.mkdir path mode = .ok gs :=
  ⟨fs.addDir path mode hnew hparent, by simp [mkdir, hnew, hparent]⟩

theorem chmod_ok (h : fs.chmod path mode = .ok gs) :
    fs.IsDir path ∧ ∀ p, gs.node? p = if p = path then some (.dir mode) else fs.node? p := by
  unfold chmod at h
  split at h
  · rename_i hdir
    cases h
    exact ⟨hdir, fun p => node?_setMode hdir⟩
  · cases h

theorem chmod_of_isDir (mode : ℕ) (h : fs.IsDir path) : ∃ gs, fs.chmod path mode = .ok gs :=
  ⟨fs.setMode path mode h, by simp [chmod, h]⟩

theorem rmdir_ok (h : fs.rmdir path = .ok gs) :
    ∀ p, gs.node? p = if p = path then none else fs.node? p := by
  unfold rmdir at h
  split at h
  · cases h
  · cases h
  · cases h
  · split at h
    · rename_i hne
      split at h
      · rename_i hempty
        cases h
        exact fun p => node?_removeDir hne hempty
      · cases h
    · cases h

theorem rmdir_of_empty (hdir : fs.IsDir path) (hne : path ≠ [])
    (hempty : ∀ name, fs.node? (path ++ [name]) = none) : ∃ gs, fs.rmdir path = .ok gs := by
  obtain ⟨m, hm⟩ := hdir
  refine ⟨fs.removeDir path hne (isEmpty_iff.mpr hempty), ?_⟩
  simp [rmdir, hm, hne, isEmpty_iff.mpr hempty]

theorem rmdir_of_child (hdir : fs.IsDir path) {name : PyStr} (hne : path ≠ [])
    (hchild : fs.node? (path ++ [name]) ≠ none) : fs.rmdir path = .error .enotempty := by
  obtain ⟨m, hm⟩ := hdir
  have hempty : ¬ fs.IsEmpty path := fun h => hchild (isEmpty_iff.mp h name)
  simp [rmdir, hm, hne, hempty]

end Rootfs

end TaintForge
