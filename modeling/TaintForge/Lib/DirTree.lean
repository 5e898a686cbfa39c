import Mathlib.Data.List.Infix
import Mathlib.Data.List.Nodup
import TaintForge.Lib.Except

/-!
# Building a tree of directories and files

A tree starts with its root alone and grows by requests: a directory with all that lies above it, or a file
with some content in a directory that is made for it.  Nothing is ever removed, and a file is only replaced
by a file.

* `DirTree`: a tree in which every entry lies in a directory.
* `DirTree.mkdirs`, `DirTree.write`, `DirTree.put`: making directories, writing a file, a request.
* `build_eq_ok`: which requests can be made, and the tree that they make.
* `build_stable_iff`: when the order of the requests does not matter.
-/

namespace TaintForge

/-! ### Trees -/

/-- An entry of a tree. -/
inductive TreeNode (γ : Type)
  | dir
  | file (content : γ)
  deriving DecidableEq

instance {γ : Type} : (node : Option (TreeNode γ)) → Decidable (node = some .dir)
  | some .dir => isTrue rfl
  | some (.file _) => isFalse (by nofun)
  | none => isFalse (by nofun)

inductive TreeError
  | fileExists | notADirectory | isADirectory | notFound
  deriving DecidableEq

/-- A tree of directories and files. -/
@[ext]
structure DirTree (α γ : Type) where
  node : List α → Option (TreeNode γ)
  root : node [] = some .dir
  parent : ∀ path name, node (path ++ [name]) ≠ none → node path = some .dir

namespace DirTree

variable {α γ : Type}

/-- The root alone. -/
def bare : DirTree α γ where
  node path := if path.isEmpty then some .dir else none
  root := rfl
  parent path name h := absurd (by simp) h

/-- There is a file at the path. -/
def fileAt (t : DirTree α γ) (path : List α) : Bool :=
  match t.node path with
  | some (.file _) => true
  | _ => false

theorem fileAt_iff {t : DirTree α γ} {path : List α} :
    t.fileAt path = true ↔ ∃ content, t.node path = some (.file content) := by
  unfold fileAt
  split
  · rename_i content hfile
    exact iff_of_true rfl ⟨content, hfile⟩
  · rename_i hnot
    exact iff_of_false Bool.false_ne_true fun ⟨content, hfile⟩ => hnot content hfile

variable [DecidableEq α]

/-- A directory and those above it. -/
def addDirs (t : DirTree α γ) (path : List α) : DirTree α γ where
  node p := if p <+: path then some .dir else t.node p
  root := if_pos List.nil_prefix
  parent p name h := by
    by_cases hp : p <+: path
    · exact if_pos hp
    · rw [if_neg hp]
      rw [if_neg fun hbelow => hp ((List.prefix_append p [name]).trans hbelow)] at h
      exact t.parent p name h

/-- `mkdir(parents=True, exist_ok=True)`. -/
def mkdirs (t : DirTree α γ) (path : List α) : Except TreeError (DirTree α γ) :=
  if t.fileAt path then .error .fileExists
  else if path.inits.any t.fileAt then .error .notADirectory
  else .ok (t.addDirs path)

/-- A file with some content. -/
def addFile (t : DirTree α γ) (path : List α) (content : γ) (hdir : t.node path ≠ some .dir)
    (hparent : t.node path.dropLast = some .dir) : DirTree α γ where
  node p := if p = path then some (.file content) else t.node p
  root := by
    rw [if_neg]
    · exact t.root
    · rintro rfl
      exact hdir t.root
  parent p name h := by
    have hold : t.node p = some .dir := by
      by_cases hp : p ++ [name] = path
      · rw [← hp, List.dropLast_concat] at hparent
        exact hparent
      · rw [if_neg hp] at h
        exact t.parent p name h
    rw [if_neg]
    · exact hold
    · rintro rfl
      exact hdir hold

/-- `open(path, "w")` and the content. -/
def write (t : DirTree α γ) (path : List α) (content : γ) : Except TreeError (DirTree α γ) :=
  if hdir : t.node path = some .dir then .error .isADirectory
  else if hparent : t.node path.dropLast = some .dir then .ok (t.addFile path content hdir hparent)
  else .error .notFound

theorem mkdirs_eq_ok {t t' : DirTree α γ} {path : List α} :
    t.mkdirs path = .ok t' ↔ (∀ p, p <+: path → t.fileAt p = false) ∧ t.addDirs path = t' := by
  unfold mkdirs
  split
  · rename_i hfile
    refine iff_of_false (by nofun) ?_
    rintro ⟨hnone, -⟩
    rw [hnone path List.prefix_rfl] at hfile
    exact Bool.false_ne_true hfile
  · split
    · rename_i hany
      obtain ⟨p, hp, hfile⟩ := List.any_eq_true.mp hany
      refine iff_of_false (by nofun) ?_
      rintro ⟨hnone, -⟩
      rw [hnone p (List.mem_inits p path |>.mp hp)] at hfile
      exact Bool.false_ne_true hfile
    · rename_i hany
      rw [Except.ok.injEq, and_iff_right]
      intro p hp
      apply eq_false_of_ne_true
      intro hfile
      exact hany (List.any_eq_true.mpr ⟨p, List.mem_inits p path |>.mpr hp, hfile⟩)

theorem fileAt_addDirs {t : DirTree α γ} {path p : List α} :
    (t.addDirs path).fileAt p = (!decide (p <+: path) && t.fileAt p) := by
  unfold fileAt addDirs
  dsimp only
  split_ifs with hp
  · simp [hp]
  · simp [hp]

/-- A directory whose parent is made first. -/
theorem mkdirs_dropLast {t above t' : DirTree α γ} {path : List α}
    (h : t.mkdirs path.dropLast = .ok above) : above.mkdirs path = .ok t' ↔ t.mkdirs path = .ok t' := by
  obtain ⟨hnone, rfl⟩ := mkdirs_eq_ok.mp h
  have hsub := List.dropLast_prefix path
  rw [mkdirs_eq_ok, mkdirs_eq_ok]
  have htree : (t.addDirs path.dropLast).addDirs path = t.addDirs path := by
    ext1
    funext p
    show (if p <+: path then _ else if p <+: path.dropLast then _ else t.node p) = if p <+: path then _ else _
    by_cases hp : p <+: path
    · rw [if_pos hp, if_pos hp]
    · rw [if_neg hp, if_neg hp, if_neg fun hbelow => hp (hbelow.trans hsub)]
  rw [htree]
  refine and_congr_left fun _ => forall_congr' fun p => imp_congr_right fun _ => ?_
  rw [fileAt_addDirs]
  by_cases hp : p <+: path.dropLast
  · simp [hp, hnone p hp]
  · simp [hp]

theorem exists_mkdirs_dropLast {t t' : DirTree α γ} {path : List α} (h : t.mkdirs path = .ok t') :
    ∃ above, t.mkdirs path.dropLast = .ok above :=
  ⟨_, mkdirs_eq_ok.mpr
    ⟨fun p hp => (mkdirs_eq_ok.mp h).1 p (hp.trans (List.dropLast_prefix path)), rfl⟩⟩

theorem write_eq_ok {t t' : DirTree α γ} {path : List α} {content : γ} :
    t.write path content = .ok t' ↔ t.node path ≠ some .dir ∧ t.node path.dropLast = some .dir ∧
      t'.node = fun p => if p = path then some (.file content) else t.node p := by
  unfold write
  split
  · rename_i hdir
    exact iff_of_false (by nofun) fun h => h.1 hdir
  · rename_i hdir
    split
    · rename_i hparent
      rw [and_iff_right hdir, and_iff_right hparent, Except.ok.injEq]
      constructor
      · rintro rfl
        rfl
      · intro hnode
        ext1
        exact hnode.symm
    · rename_i hparent
      exact iff_of_false (by nofun) fun h => hparent h.2.1

end DirTree

/-! ### Requests -/

/-- A directory, or a file with its content. -/
inductive TreeRequest (α γ : Type)
  | dir (path : List α)
  | file (path : List α) (content : γ)
  deriving DecidableEq

namespace TreeRequest

variable {α γ : Type}

def path : TreeRequest α γ → List α
  | .dir path => path
  | .file path _ => path

def content? : TreeRequest α γ → Option γ
  | .dir _ => none
  | .file _ content => some content

@[simp] theorem path_dir {p : List α} : (TreeRequest.dir p : TreeRequest α γ).path = p := rfl

@[simp] theorem path_file {p : List α} {c : γ} : (TreeRequest.file p c).path = p := rfl

@[simp] theorem content?_dir {p : List α} : (TreeRequest.dir p : TreeRequest α γ).content? = none := rfl

@[simp] theorem content?_file {p : List α} {c : γ} : (TreeRequest.file p c).content? = some c := rfl

end TreeRequest

namespace DirTree

variable {α γ : Type} [DecidableEq α]

/-- One request. -/
def put (t : DirTree α γ) : TreeRequest α γ → Except TreeError (DirTree α γ)
  | .dir path => t.mkdirs path
  | .file path content => do
    let t ← t.mkdirs path.dropLast
    t.write path content

/-- Requests, one after the other. -/
def build (rs : List (TreeRequest α γ)) : Except TreeError (DirTree α γ) := rs.foldlM put bare

theorem build_concat {rs : List (TreeRequest α γ)} {r : TreeRequest α γ} {t : DirTree α γ} :
    build (rs ++ [r]) = .ok t ↔ ∃ before, build rs = .ok before ∧ before.put r = .ok t := by
  unfold build
  rw [List.foldlM_append, bind_eq_ok]
  simp only [List.foldlM_cons, List.foldlM_nil, bind_eq_ok, pure_eq_ok, exists_eq_right]

omit [DecidableEq α] in
/-- A prefix of the directory that a path lies in. -/
theorem isPrefix_dropLast_iff {p path : List α} (hne : path ≠ []) :
    p <+: path.dropLast ↔ p <+: path ∧ p ≠ path := by
  conv_rhs => rw [← List.dropLast_append_getLast hne, List.prefix_concat_iff]
  constructor
  · intro h
    refine ⟨Or.inr h, ?_⟩
    rintro rfl
    have hlen := h.length_le
    rw [List.length_append, List.length_singleton] at hlen
    omega
  · rintro ⟨heq | h, hnot⟩
    · exact absurd heq hnot
    · exact h

/-- **What a request needs.** -/
structure Admits (node : List α → Option (TreeNode γ)) (r : TreeRequest α γ) : Prop where
  above : ∀ p content, p <+: r.path → node p = some (.file content) → p = r.path ∧ r.content? ≠ none
  here : r.content? ≠ none → r.path ≠ [] ∧ node r.path ≠ some .dir

/-- **What a request does.** -/
def after (node : List α → Option (TreeNode γ)) (r : TreeRequest α γ) (p : List α) :
    Option (TreeNode γ) :=
  match r.content? with
  | some content => if p = r.path then some (.file content) else if p <+: r.path then some .dir else node p
  | none => if p <+: r.path then some .dir else node p

theorem after_file (node : List α → Option (TreeNode γ)) (path : List α) (content : γ) (p : List α) :
    after node (.file path content) p =
      if p = path then some (.file content) else if p <+: path then some .dir else node p := rfl

/-- A file is written after its directory is made. -/
theorem after_dropLast {node : List α → Option (TreeNode γ)} {path : List α} {content : γ} (hne : path ≠ [])
    (p : List α) :
    (if p = path then some (.file content) else if p <+: path.dropLast then some .dir else node p) =
      after node (.file path content) p := by
  rw [after_file]
  by_cases hp : p = path
  · rw [if_pos hp, if_pos hp]
  · rw [if_neg hp, if_neg hp]
    exact if_congr (by rw [isPrefix_dropLast_iff hne, and_iff_left hp]) rfl rfl

theorem put_eq_ok {t t' : DirTree α γ} {r : TreeRequest α γ} :
    t.put r = .ok t' ↔ Admits t.node r ∧ t'.node = after t.node r := by
  have hfile : ∀ p, t.fileAt p = false ↔ ∀ content, t.node p ≠ some (.file content) := fun p => by
    rw [← Bool.not_eq_true, fileAt_iff, not_exists]
  cases r with
  | dir path =>
    show t.mkdirs path = .ok t' ↔ _
    rw [mkdirs_eq_ok]
    refine and_congr ⟨fun h => ⟨fun p content hp hnode => ?_, nofun⟩, fun h p hp => ?_⟩ ?_
    · exact absurd hnode ((hfile p).mp (h p hp) content)
    · exact (hfile p).mpr fun content hnode => (h.above p content hp hnode).2 rfl
    · constructor
      · rintro rfl
        rfl
      · intro hnode
        ext1
        exact hnode.symm
  | file path content =>
    show (t.mkdirs path.dropLast >>= fun t => t.write path content) = .ok t' ↔ _
    simp only [bind_eq_ok, mkdirs_eq_ok, write_eq_ok]
    constructor
    · rintro ⟨_, ⟨hnone, rfl⟩, hdir, -, hnode⟩
      have hne : path ≠ [] := by
        rintro rfl
        exact hdir (DirTree.root _)
      have hnode' : (t.addDirs path.dropLast).node path = t.node path :=
        if_neg fun hp => ((isPrefix_dropLast_iff hne).mp hp).2 rfl
      refine ⟨⟨fun p c hp hc => ?_, fun _ => ⟨hne, by rwa [hnode'] at hdir⟩⟩, ?_⟩
      · by_contra hnot
        have hbelow := (isPrefix_dropLast_iff hne).mpr ⟨hp, fun h => hnot ⟨h, nofun⟩⟩
        exact (hfile p).mp (hnone p hbelow) c hc
      · rw [hnode]
        funext p
        exact after_dropLast hne p
    · rintro ⟨⟨habove, hhere⟩, hnode⟩
      obtain ⟨hne, hdir⟩ := hhere nofun
      have hnode' : (t.addDirs path.dropLast).node path = t.node path :=
        if_neg fun hp => ((isPrefix_dropLast_iff hne).mp hp).2 rfl
      refine ⟨_, ⟨fun p hp => ?_, rfl⟩, by rwa [hnode'], if_pos List.prefix_rfl, ?_⟩
      · obtain ⟨hbelow, hnot⟩ := (isPrefix_dropLast_iff hne).mp hp
        exact (hfile p).mpr fun c hc => hnot (habove p c hbelow hc).1
      · rw [hnode]
        funext p
        exact (after_dropLast hne p).symm

end DirTree

/-! ### The tree of a list of requests -/

section Build

variable {α γ : Type} [DecidableEq α]

/-- **Which requests can be made together**: what lies at or below the path of a file is that file. -/
def Compatible (rs : List (TreeRequest α γ)) : Prop :=
  ∀ r ∈ rs, r.content? ≠ none →
    r.path ≠ [] ∧ ∀ s ∈ rs, r.path <+: s.path → s.path = r.path ∧ s.content? ≠ none

/-- **Which requests agree**: files with one path have one content. -/
def Consistent (rs : List (TreeRequest α γ)) : Prop :=
  ∀ r ∈ rs, ∀ s ∈ rs, r.path = s.path → ∀ c d, r.content? = some c → s.content? = some d → c = d

/-- What is written last at a path. -/
def written : List (TreeRequest α γ) → List α → Option γ
  | [], _ => none
  | r :: rest, p => (written rest p).or (if r.path = p then r.content? else none)

/-- **The tree that requests make.** -/
def layout (rs : List (TreeRequest α γ)) (p : List α) : Option (TreeNode γ) :=
  match written rs p with
  | some content => some (.file content)
  | none => if p = [] ∨ ∃ r ∈ rs, p <+: r.path then some .dir else none

variable {rs rs' : List (TreeRequest α γ)} {r : TreeRequest α γ} {p : List α}

theorem written_concat :
    written (rs ++ [r]) p = (if r.path = p then r.content? else none).or (written rs p) := by
  induction rs with
  | nil => simp [written]
  | cons s rest ih => rw [List.cons_append, written, ih, written, Option.or_assoc]

/-- What is written at a path is the content of a request. -/
theorem exists_of_written {content : γ} (h : written rs p = some content) :
    ∃ r ∈ rs, r.path = p ∧ r.content? = some content := by
  induction rs with
  | nil => exact absurd h (by nofun)
  | cons s rest ih =>
    rw [written, Option.or_eq_some_iff] at h
    rcases h with h | ⟨-, h⟩
    · obtain ⟨r, hr, hpath⟩ := ih h
      exact ⟨r, List.mem_cons_of_mem s hr, hpath⟩
    · split at h
      · rename_i hpath
        exact ⟨s, List.mem_cons_self, hpath, h⟩
      · exact absurd h (by nofun)

theorem written_ne_none_iff : written rs p ≠ none ↔ ∃ r ∈ rs, r.path = p ∧ r.content? ≠ none := by
  induction rs with
  | nil => simp [written]
  | cons s rest ih =>
    rw [written, ne_eq, Option.or_eq_none_iff, not_and_or, ← ne_eq, ih, List.exists_mem_cons_iff, or_comm]
    refine or_congr_left ?_
    split
    · rename_i hpath
      exact (and_iff_right hpath).symm
    · rename_i hpath
      exact iff_of_false (fun h => h rfl) fun h => hpath h.1

theorem layout_file_iff {content : γ} : layout rs p = some (.file content) ↔ written rs p = some content := by
  unfold layout
  cases written rs p with
  | some c => simp
  | none =>
    dsimp only
    split
    · exact iff_of_false (by nofun) (by nofun)
    · exact iff_of_false (by nofun) (by nofun)

theorem layout_dir_iff :
    layout rs p = some .dir ↔ written rs p = none ∧ (p = [] ∨ ∃ r ∈ rs, p <+: r.path) := by
  unfold layout
  cases written rs p with
  | some c => exact iff_of_false (by nofun) fun h => absurd h.1 (by nofun)
  | none =>
    dsimp only
    split
    · rename_i h
      exact iff_of_true rfl ⟨rfl, h⟩
    · rename_i h
      exact iff_of_false (by nofun) fun h' => h h'.2

/-- Every request is in the tree. -/
theorem layout_path_ne_none (h : r ∈ rs) : layout rs r.path ≠ none := by
  cases hwritten : written rs r.path with
  | some content => rw [layout_file_iff.mpr hwritten]; nofun
  | none => rw [layout_dir_iff.mpr ⟨hwritten, Or.inr ⟨r, h, List.prefix_rfl⟩⟩]; nofun

omit [DecidableEq α] in
theorem Compatible.subset (h : Compatible rs) (hsub : rs' ⊆ rs) : Compatible rs' := fun r hr hfile =>
  ⟨(h r (hsub hr) hfile).1, fun s hs => (h r (hsub hr) hfile).2 s (hsub hs)⟩

/-- One more request. -/
theorem compatible_concat :
    Compatible (rs ++ [r]) ↔ Compatible rs ∧ DirTree.Admits (layout rs) r := by
  constructor
  · intro h
    have hr : r ∈ rs ++ [r] := List.mem_append_right rs (List.mem_singleton_self r)
    refine ⟨h.subset (List.subset_append_left rs [r]), ⟨fun p content hp hnode => ?_, fun hfile => ?_⟩⟩
    · have hwritten : written rs p ≠ none := by rw [layout_file_iff.mp hnode]; nofun
      obtain ⟨s, hs, rfl, hsfile⟩ := written_ne_none_iff.mp hwritten
      have hsame := (h s (List.mem_append_left [r] hs) hsfile).2 r hr hp
      exact ⟨hsame.1.symm, hsame.2⟩
    · obtain ⟨hne, hbelow⟩ := h r hr hfile
      refine ⟨hne, fun hdir => ?_⟩
      obtain ⟨hnone, hroot | ⟨s, hs, hp⟩⟩ := layout_dir_iff.mp hdir
      · exact hne hroot
      · obtain ⟨hpath, hsfile⟩ := hbelow s (List.mem_append_left [r] hs) hp
        exact written_ne_none_iff.mpr ⟨s, hs, hpath, hsfile⟩ hnone
  · rintro ⟨h, habove, hhere⟩ s hmem hsfile
    rcases List.mem_append.mp hmem with hs | hs
    · refine ⟨(h s hs hsfile).1, fun u hu hp => ?_⟩
      rcases List.mem_append.mp hu with hu | hu
      · exact (h s hs hsfile).2 u hu hp
      · obtain rfl := List.mem_singleton.mp hu
        have hwritten : written rs s.path ≠ none := written_ne_none_iff.mpr ⟨s, hs, rfl, hsfile⟩
        obtain ⟨content, hcontent⟩ := Option.ne_none_iff_exists'.mp hwritten
        have hsame := habove s.path content hp (layout_file_iff.mpr hcontent)
        exact ⟨hsame.1.symm, hsame.2⟩
    · obtain rfl := List.mem_singleton.mp hs
      obtain ⟨hne, hdir⟩ := hhere hsfile
      refine ⟨hne, fun u hu hp => ?_⟩
      rcases List.mem_append.mp hu with hu | hu
      · -- Something is in the tree at the path, and it is no directory.
        have hwritten : written rs s.path ≠ none := fun hnone =>
          hdir (layout_dir_iff.mpr ⟨hnone, Or.inr ⟨u, hu, hp⟩⟩)
        obtain ⟨v, hv, hpath, hvfile⟩ := written_ne_none_iff.mp hwritten
        rw [← hpath] at hp ⊢
        exact (h v hv hvfile).2 u hu hp
      · obtain rfl := List.mem_singleton.mp hu
        exact ⟨rfl, hsfile⟩

/-- What one more request does where it writes nothing. -/
theorem layout_concat_of_written (hsame : written (rs ++ [r]) p = written rs p)
    (hnone : p <+: r.path → written rs p = none) :
    layout (rs ++ [r]) p = if p <+: r.path then some .dir else layout rs p := by
  split
  · rename_i hbelow
    rw [layout_dir_iff, hsame]
    exact ⟨hnone hbelow, Or.inr ⟨r, by simp, hbelow⟩⟩
  · rename_i hbelow
    unfold layout
    rw [hsame]
    have hexists : (∃ s ∈ rs ++ [r], p <+: s.path) ↔ ∃ s ∈ rs, p <+: s.path := by
      simp [or_and_right, exists_or, hbelow]
    simp only [hexists]

theorem layout_concat (h : DirTree.Admits (layout rs) r) :
    layout (rs ++ [r]) = DirTree.after (layout rs) r := by
  funext p
  unfold DirTree.after
  cases hcontent : r.content? with
  | some content =>
    dsimp only
    by_cases hp : p = r.path
    · rw [if_pos hp, layout_file_iff, written_concat, if_pos hp.symm, hcontent]
      rfl
    · rw [if_neg hp]
      apply layout_concat_of_written
      · rw [written_concat, if_neg (Ne.symm hp), Option.none_or]
      · intro hbelow
        by_contra hfile
        obtain ⟨c, hc⟩ := Option.ne_none_iff_exists'.mp hfile
        exact hp (h.above p c hbelow (layout_file_iff.mpr hc)).1
  | none =>
    dsimp only
    apply layout_concat_of_written
    · rw [written_concat, hcontent, ite_self, Option.none_or]
    · intro hbelow
      by_contra hfile
      obtain ⟨c, hc⟩ := Option.ne_none_iff_exists'.mp hfile
      exact (h.above p c hbelow (layout_file_iff.mpr hc)).2 hcontent

/-- The tree of requests that can be made. -/
def layoutTree (rs : List (TreeRequest α γ)) (h : Compatible rs) : DirTree α γ where
  node := layout rs
  root := by
    refine layout_dir_iff.mpr ⟨?_, Or.inl rfl⟩
    by_contra hfile
    obtain ⟨r, hr, hpath, hrfile⟩ := written_ne_none_iff.mp hfile
    exact (h r hr hrfile).1 hpath
  parent p name hnode := by
    have hbelow : ∃ r ∈ rs, p ++ [name] <+: r.path := by
      cases hwritten : written rs (p ++ [name]) with
      | some content =>
        obtain ⟨r, hr, hpath, -⟩ := exists_of_written hwritten
        exact ⟨r, hr, by rw [hpath]⟩
      | none =>
        by_contra hnot
        refine hnode ?_
        unfold layout
        rw [hwritten]
        exact if_neg (not_or.mpr ⟨by simp, hnot⟩)
    obtain ⟨r, hr, hp⟩ := hbelow
    refine layout_dir_iff.mpr ⟨?_, Or.inr ⟨r, hr, (List.prefix_append p [name]).trans hp⟩⟩
    by_contra hfile
    obtain ⟨s, hs, rfl, hsfile⟩ := written_ne_none_iff.mp hfile
    have hsame := ((h s hs hsfile).2 r hr ((List.prefix_append s.path [name]).trans hp)).1
    have hlen := hp.length_le
    rw [hsame, List.length_append, List.length_singleton] at hlen
    omega

/-- **Which requests can be made, and the tree that they make.** -/
theorem build_eq_ok {t : DirTree α γ} :
    DirTree.build rs = .ok t ↔ Compatible rs ∧ t.node = layout rs := by
  induction rs using List.reverseRecOn generalizing t with
  | nil =>
    have hbare : (DirTree.bare : DirTree α γ).node = layout [] := by
      funext p
      cases p with
      | nil => simp [DirTree.bare, layout, written]
      | cons name rest => simp [DirTree.bare, layout, written]
    rw [and_iff_right (by nofun), ← hbare]
    constructor
    · intro h
      cases h
      rfl
    · intro hnode
      exact congrArg Except.ok (DirTree.ext hnode.symm)
  | append_singleton rs r ih =>
    rw [DirTree.build_concat, compatible_concat]
    simp only [ih, DirTree.put_eq_ok]
    constructor
    · rintro ⟨before, ⟨hcompatible, hbefore⟩, hadmits, hnode⟩
      rw [hbefore] at hadmits hnode
      exact ⟨⟨hcompatible, hadmits⟩, hnode.trans (layout_concat hadmits).symm⟩
    · rintro ⟨⟨hcompatible, hadmits⟩, hnode⟩
      exact ⟨layoutTree rs hcompatible, ⟨hcompatible, rfl⟩, hadmits, hnode.trans (layout_concat hadmits)⟩

/-! ### The order of the requests -/

omit [DecidableEq α] in
theorem Consistent.subset (h : Consistent rs) (hsub : rs' ⊆ rs) : Consistent rs' :=
  fun r hr s hs => h r (hsub hr) s (hsub hs)

omit [DecidableEq α] in
/-- Requests with different paths agree. -/
theorem consistent_of_nodup (h : (rs.map TreeRequest.path).Nodup) : Consistent rs := by
  intro r hr s hs hpath c d hc hd
  obtain rfl := List.inj_on_of_nodup_map h hr hs hpath
  exact Option.some.inj (hc.symm.trans hd)

/-- Where requests agree, what is written is the content of any of them. -/
theorem written_eq_some_iff (h : Consistent rs) {content : γ} :
    written rs p = some content ↔ ∃ r ∈ rs, r.path = p ∧ r.content? = some content := by
  constructor
  · exact exists_of_written
  · rintro ⟨r, hr, rfl, hcontent⟩
    have hwritten : written rs r.path ≠ none :=
      written_ne_none_iff.mpr ⟨r, hr, rfl, by rw [hcontent]; nofun⟩
    obtain ⟨d, hd⟩ := Option.ne_none_iff_exists'.mp hwritten
    obtain ⟨s, hs, hpath, hsd⟩ := exists_of_written hd
    rw [hd, h r hr s hs hpath.symm content d hcontent hsd]

theorem layout_congr (h : Consistent rs) (hmem : ∀ r, r ∈ rs' ↔ r ∈ rs) : layout rs' = layout rs := by
  have h' : Consistent rs' := h.subset fun r hr => (hmem r).mp hr
  funext p
  have hwritten : written rs' p = written rs p := by
    apply Option.ext
    intro content
    rw [written_eq_some_iff h, written_eq_some_iff h']
    simp only [hmem]
  unfold layout
  rw [hwritten]
  simp only [hmem]

/-- **When the order of requests does not matter** after some that come first, which keep their contents. -/
theorem build_stable_iff {fixed : List (TreeRequest α γ)} :
    (∃ t, (∀ rs', rs'.Perm rs → DirTree.build (fixed ++ rs') = .ok t) ∧
      ∀ r ∈ fixed, ∀ content, r.content? = some content → t.node r.path = some (.file content)) ↔
    Compatible (fixed ++ rs) ∧ Consistent (fixed ++ rs) := by
  constructor
  · rintro ⟨t, hbuild, hfixed⟩
    refine ⟨(build_eq_ok.mp (hbuild rs .rfl)).1, ?_⟩
    -- Every request may come last, so the tree has its content.
    have hnode : ∀ r ∈ fixed ++ rs, ∀ content, r.content? = some content →
        t.node r.path = some (.file content) := by
      intro r hr content hcontent
      rcases List.mem_append.mp hr with hr | hr
      · exact hfixed r hr content hcontent
      · obtain ⟨front, back, rfl⟩ := List.append_of_mem hr
        have hlast : ((front ++ back) ++ [r]).Perm (front ++ r :: back) :=
          (List.perm_append_singleton r (front ++ back)).trans List.perm_middle.symm
        have hlayout := (build_eq_ok.mp (hbuild _ hlast)).2
        rw [hlayout, layout_file_iff, ← List.append_assoc, written_concat, if_pos rfl, hcontent]
        rfl
    intro r hr s hs hpath c d hc hd
    have hboth := (hnode r hr c hc).symm.trans (hpath ▸ hnode s hs d hd)
    exact TreeNode.file.inj (Option.some.inj hboth)
  · rintro ⟨hcompatible, hconsistent⟩
    refine ⟨layoutTree (fixed ++ rs) hcompatible, fun rs' hperm => build_eq_ok.mpr ⟨?_, ?_⟩, ?_⟩
    · exact hcompatible.subset ((hperm.append_left fixed).subset)
    · exact (layout_congr hconsistent fun r => (hperm.append_left fixed).mem_iff).symm
    · intro r hr content hcontent
      exact layout_file_iff.mpr
        ((written_eq_some_iff hconsistent).mpr ⟨r, List.mem_append_left rs hr, rfl, hcontent⟩)

end Build

end TaintForge
