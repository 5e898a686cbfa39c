import TaintForge.Lib.PyStr

/-!
# Pure POSIX paths

`PurePosixPath` of Python's `pathlib`: a string is parsed into a root and components.  Exactly two
leading slashes are a root of their own, one or more than two are the root `/`; empty components and
`.` are dropped and `..` stays.

* `purePosixPath`: parsing.
* `PurePosixPath.parts`, `PurePosixPath.asPosix`, `PurePosixPath.parent`: the members of these names.
* `IsComponent`: what is true of every component of a parsed path.
* `beneath_iff_head`: a path with the root `/` is at or below `/n` when its first component is `n`; a
  path with the root `//` never is, whatever its components are.
-/

namespace TaintForge

/-- The separator. -/
def slash : ℕ := 0x2F

/-- A parsed path. -/
structure PurePosixPath where
  root : PyStr
  tail : List PyStr
  deriving DecidableEq

/-- `posixpath.splitroot`, without the drive that POSIX paths never have. -/
def splitroot : PyStr → PyStr × PyStr
  | 0x2F :: 0x2F :: 0x2F :: rest => ([slash], slash :: slash :: rest)
  | 0x2F :: 0x2F :: rest => ([slash, slash], rest)
  | 0x2F :: rest => ([slash], rest)
  | path => ([], path)

/-- `PurePosixPath(path)`. -/
def purePosixPath (path : PyStr) : PurePosixPath where
  root := (splitroot path).1
  tail := ((splitroot path).2.splitOn slash).filter fun x => x != [] && x != py "."

namespace PurePosixPath

/-- `path.parts`. -/
def parts (path : PurePosixPath) : List PyStr :=
  if path.root = [] then path.tail else path.root :: path.tail

/-- `path.as_posix()`, which is also `str(path)`. -/
def asPosix (path : PurePosixPath) : PyStr :=
  if path.root = [] ∧ path.tail = [] then py "." else path.root ++ [slash].intercalate path.tail

/-- `path.parent`. -/
def parent (path : PurePosixPath) : PurePosixPath := { path with tail := path.tail.dropLast }

end PurePosixPath

/-- A name that a parsed path has as a component. -/
structure IsComponent (name : PyStr) : Prop where
  ne_nil : name ≠ []
  ne_dot : name ≠ py "."
  slash_notMem : slash ∉ name

theorem notMem_of_mem_splitOn {c : ℕ} {s part : PyStr} (h : part ∈ s.splitOn c) : c ∉ part := by
  induction s generalizing part with
  | nil =>
    rw [List.splitOn_nil, List.mem_singleton] at h
    subst h
    exact List.not_mem_nil
  | cons x s ih =>
    rw [List.splitOn_cons_eq_if_modifyHead] at h
    split at h
    · rcases List.mem_cons.mp h with rfl | h
      · exact List.not_mem_nil
      · exact ih h
    · rename_i hx
      -- Only the first segment grows, and by a character that is not the separator.
      cases hsplit : s.splitOn c with
      | nil => exact absurd hsplit (List.splitOn_ne_nil c s)
      | cons first rest =>
        rw [hsplit, List.modifyHead_cons] at h
        rcases List.mem_cons.mp h with rfl | h
        · intro hmem
          rcases List.mem_cons.mp hmem with rfl | hmem
          · exact hx (beq_self_eq_true _)
          · exact ih (by rw [hsplit]; exact List.mem_cons_self) hmem
        · exact ih (by rw [hsplit]; exact List.mem_cons_of_mem first h)

theorem isComponent_of_mem {path name : PyStr} (h : name ∈ (purePosixPath path).tail) :
    IsComponent name := by
  obtain ⟨hmem, hkeep⟩ := List.mem_filter.mp h
  simp only [Bool.and_eq_true, bne_iff_ne] at hkeep
  exact ⟨hkeep.1, hkeep.2, notMem_of_mem_splitOn hmem⟩

theorem asPosix_of_root {path : PurePosixPath} (h : path.root ≠ []) :
    path.asPosix = path.root ++ [slash].intercalate path.tail :=
  if_neg fun hboth => h hboth.1

/-- The three roots. -/
theorem root_cases (path : PyStr) :
    (purePosixPath path).root = [] ∨ (purePosixPath path).root = [slash] ∨
      (purePosixPath path).root = [slash, slash] := by
  show (splitroot path).1 = [] ∨ (splitroot path).1 = [slash] ∨ (splitroot path).1 = [slash, slash]
  unfold splitroot
  split
  · exact Or.inr (Or.inl rfl)
  · exact Or.inr (Or.inr rfl)
  · exact Or.inr (Or.inl rfl)
  · exact Or.inl rfl

theorem root_ne_nil_of_slash {path : PyStr} (h : [slash] <+: path) :
    (purePosixPath path).root ≠ [] := by
  obtain ⟨rest, rfl⟩ := h
  show (splitroot (0x2F :: rest)).1 ≠ []
  unfold splitroot
  split
  · nofun
  · nofun
  · nofun
  · rename_i hnot
    exact absurd rfl (hnot rest)

theorem intercalate_slash_cons (name : PyStr) {names : List PyStr} (h : names ≠ []) :
    [slash].intercalate (name :: names) = name ++ slash :: [slash].intercalate names := by
  cases names with
  | nil => exact absurd rfl h
  | cons second rest => simp

theorem splitroot_one {c : ℕ} (hc : c ≠ slash) (rest : PyStr) :
    splitroot (slash :: c :: rest) = ([slash], c :: rest) := by
  show splitroot (0x2F :: c :: rest) = ([slash], c :: rest)
  unfold splitroot
  split
  · rename_i heq
    rw [List.cons.injEq, List.cons.injEq] at heq
    exact absurd heq.2.1 hc
  · rename_i heq
    rw [List.cons.injEq, List.cons.injEq] at heq
    exact absurd heq.2.1 hc
  · rename_i heq
    rw [List.cons.injEq] at heq
    rw [heq.2]
  · rename_i hnot
    exact absurd rfl (hnot _)

theorem splitroot_two {c : ℕ} (hc : c ≠ slash) (rest : PyStr) :
    splitroot (slash :: slash :: c :: rest) = ([slash, slash], c :: rest) := by
  show splitroot (0x2F :: 0x2F :: c :: rest) = ([slash, slash], c :: rest)
  unfold splitroot
  split
  · rename_i heq
    rw [List.cons.injEq, List.cons.injEq, List.cons.injEq] at heq
    exact absurd heq.2.2.1 hc
  · rename_i heq
    rw [List.cons.injEq, List.cons.injEq] at heq
    rw [heq.2.2]
  · rename_i hnot heq
    rw [List.cons.injEq] at heq
    exact absurd heq.2.symm (hnot _)
  · rename_i hnot
    exact absurd rfl (hnot _)

theorem splitroot_relative {c : ℕ} (hc : c ≠ slash) (rest : PyStr) : splitroot (c :: rest) = ([], c :: rest) := by
  unfold splitroot
  split
  · rename_i heq
    exact absurd (List.cons.inj heq).1 hc
  · rename_i heq
    exact absurd (List.cons.inj heq).1 hc
  · rename_i heq
    exact absurd (List.cons.inj heq).1 hc
  · rfl

/-- **Parsing the string of an absolute path gives the path back.** -/
theorem purePosixPath_asPosix {path : PurePosixPath}
    (hroot : path.root = [slash] ∨ path.root = [slash, slash])
    (hparts : ∀ c ∈ path.tail, IsComponent c) : purePosixPath path.asPosix = path := by
  obtain ⟨root, tail⟩ := path
  dsimp only at hroot hparts
  rw [asPosix_of_root (by rcases hroot with rfl | rfl <;> simp)]
  dsimp only
  cases tail with
  | nil => rcases hroot with rfl | rfl <;> decide
  | cons first rest =>
    -- The first component is not empty, so the root ends where it begins.
    obtain ⟨c, more, hfirst⟩ := List.exists_cons_of_ne_nil (hparts first List.mem_cons_self).ne_nil
    have hc : c ≠ slash := fun h =>
      (hparts first List.mem_cons_self).slash_notMem (by rw [hfirst, h]; exact List.mem_cons_self)
    obtain ⟨joined, hjoined⟩ : ∃ joined, [slash].intercalate (first :: rest) = c :: joined := by
      by_cases hrest : rest = []
      · exact ⟨more, by rw [hrest, List.intercalate_singleton, hfirst]⟩
      · exact ⟨more ++ slash :: [slash].intercalate rest, by
          rw [intercalate_slash_cons first hrest, hfirst, List.cons_append]⟩
    have hsplit : (c :: joined).splitOn slash = first :: rest := by
      rw [← hjoined]
      exact List.splitOn_intercalate slash (fun l hl => (hparts l hl).slash_notMem) (by simp)
    have hkeep : (first :: rest).filter (fun x => x != [] && x != py ".") = first :: rest := by
      apply List.filter_eq_self.mpr
      intro x hx
      simp [(hparts x hx).ne_nil, (hparts x hx).ne_dot]
    rcases hroot with rfl | rfl
    · show PurePosixPath.mk _ _ = _
      rw [hjoined, List.singleton_append, splitroot_one hc, hsplit, hkeep]
    · show PurePosixPath.mk _ _ = _
      rw [hjoined, List.cons_append, List.singleton_append, splitroot_two hc, hsplit, hkeep]

/-- **Parsing joined names gives a relative path with these components.** -/
theorem purePosixPath_join {names : List PyStr} (hne : names ≠ []) (h : ∀ name ∈ names, IsComponent name) :
    purePosixPath ([slash].intercalate names) = ⟨[], names⟩ := by
  have hsplit : ([slash].intercalate names).splitOn slash = names :=
    List.splitOn_intercalate slash (fun name hname => (h name hname).slash_notMem) hne
  have hkeep : names.filter (fun x => x != [] && x != py ".") = names := by
    apply List.filter_eq_self.mpr
    intro name hname
    simp [(h name hname).ne_nil, (h name hname).ne_dot]
  have hroot : splitroot ([slash].intercalate names) = ([], [slash].intercalate names) := by
    obtain ⟨first, rest, rfl⟩ := List.exists_cons_of_ne_nil hne
    obtain ⟨c, more, hfirst⟩ := List.exists_cons_of_ne_nil (h first List.mem_cons_self).ne_nil
    have hc : c ≠ slash := fun heq =>
      (h first List.mem_cons_self).slash_notMem (by rw [hfirst, heq]; exact List.mem_cons_self)
    obtain ⟨joined, hjoined⟩ : ∃ joined, [slash].intercalate (first :: rest) = c :: joined := by
      by_cases hrest : rest = []
      · exact ⟨more, by rw [hrest, List.intercalate_singleton, hfirst]⟩
      · exact ⟨more ++ slash :: [slash].intercalate rest, by
          rw [intercalate_slash_cons first hrest, hfirst, List.cons_append]⟩
    rw [hjoined]
    exact splitroot_relative hc joined
  show PurePosixPath.mk _ _ = _
  rw [hroot, hsplit, hkeep]

/-! ### Paths at or below a directory of the root -/

/-- The test `path == prefix or path.startswith(prefix + "/")`. -/
def beneath (dir path : PyStr) : Bool := path == dir || (dir ++ [slash]).isPrefixOf path

/-- What is at or below a directory stays there when slashes are added at its end. -/
theorem beneath_append_slashes {dir path : PyStr} (n : ℕ) (h : beneath dir path) :
    beneath dir (path ++ List.replicate n slash) := by
  simp only [beneath, Bool.or_eq_true, beq_iff_eq, List.isPrefixOf_iff_prefix] at h ⊢
  rcases h with rfl | h
  · cases n with
    | zero => exact Or.inl (by simp)
    | succ n =>
      refine Or.inr ⟨List.replicate n slash, ?_⟩
      rw [List.replicate_succ]
      simp
  · exact Or.inr (h.trans (List.prefix_append path _))

/-- **The prefix test on the string of a path asks for its root and its first component.** -/
theorem beneath_iff_head {path : PurePosixPath} {name : PyStr} (hname : IsComponent name)
    (hparts : ∀ c ∈ path.tail, IsComponent c) (hroot : path.root = [slash]) :
    beneath (slash :: name) path.asPosix ↔ path.tail.head? = some name := by
  rw [beneath, asPosix_of_root (by simp [hroot]), hroot]
  simp only [Bool.or_eq_true, beq_iff_eq, List.isPrefixOf_iff_prefix, List.cons_append,
    List.nil_append, List.cons.injEq, true_and, List.cons_prefix_cons]
  cases htail : path.tail with
  | nil => simpa using hname.ne_nil.symm
  | cons first rest =>
    have hfirst : slash ∉ first := (hparts first (by simp [htail])).slash_notMem
    rw [List.head?_cons, Option.some.injEq]
    by_cases hrest : rest = []
    · subst hrest
      rw [List.intercalate_singleton]
      constructor
      · rintro (h | ⟨more, h⟩)
        · exact h
        · -- The component has no slash, so nothing below the directory is spelled by it alone.
          exact absurd (by rw [← h]; simp) hfirst
      · exact Or.inl
    · rw [intercalate_slash_cons first hrest]
      constructor
      · rintro (h | ⟨more, h⟩)
        · exact absurd (by rw [← h]; simp) hname.slash_notMem
        · rw [List.append_assoc, List.singleton_append] at h
          exact (PyStr.append_sep_inj hname.slash_notMem hfirst h).1.symm
      · rintro rfl
        exact Or.inr ⟨[slash].intercalate rest, by simp⟩

/-- The test never succeeds on a path with two slashes as its root. -/
theorem not_beneath_of_two_slashes {path : PurePosixPath} {name : PyStr} (hname : IsComponent name)
    (hroot : path.root = [slash, slash]) : ¬ beneath (slash :: name) path.asPosix := by
  obtain ⟨c, rest, rfl⟩ := List.exists_cons_of_ne_nil hname.ne_nil
  have hc : slash ≠ c := fun h => hname.slash_notMem (h ▸ List.mem_cons_self)
  rw [beneath, asPosix_of_root (by simp [hroot]), hroot]
  simp [hc, hc.symm]

end TaintForge
