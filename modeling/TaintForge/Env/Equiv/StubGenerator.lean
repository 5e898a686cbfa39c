import Mathlib.Data.List.Perm.Basic
import TaintForge.Env.StubGenerator

/-!
# When stubs can be made in any order

A dependency becomes a request for a file, and only the root itself one for a directory: the parser drops the
slash at the end of a path, so a directory of the base tree is asked to be a file.

* `stubRequest`, `stubRequests`: what the generator asks of the file system.
* `generate_eq_ok`: the generator makes these requests.
* `generate_stable_iff`: when it does so in any order.
-/

namespace TaintForge

section Requests

variable (host : StubHost) (arch : PyStr)

/-- The content that a stub gets; the stub of a path that ends with a slash is a directory. -/
def stubContent (drawn : ℕ) (guestPath : PyStr) : Option (List ℕ) :=
  if py "/proc/" <+: guestPath then some (procContent arch guestPath)
  else if py "/dev/" <+: guestPath then some (devContent host guestPath drawn).1
  else if py "/etc/" <+: guestPath then some (configContent guestPath)
  else if [slash] <:+ guestPath then none
  else some []

/-- A request for a directory, or for a file with its content. -/
def requestAt (names : List (List UInt8)) : Option (List ℕ) → TreeRequest (List UInt8) (List ℕ)
  | none => .dir names
  | some content => .file names content

/-- What a stub asks of the file system. -/
def stubRequest (drawn : ℕ) (guestPath : PyStr) :
    Except StubError (TreeRequest (List UInt8) (List ℕ)) := do
  let names ← encodePath host (rootfsPath guestPath)
  return requestAt names (stubContent host arch drawn guestPath)

/-- The paths of `generate_default_stubs`. -/
def defaultStubs : List PyStr :=
  [py "/proc/cpuinfo", py "/proc/meminfo", py "/proc/uptime", py "/dev/null", py "/dev/zero", py "/dev/urandom",
    py "/etc/hosts", py "/etc/resolv.conf"]

/-- What a directory of the base tree asks of the file system. -/
def baseRequest (directory : PyStr) : Except StubError (TreeRequest (List UInt8) (List ℕ)) := do
  let names ← encodePath host (joinRootfs directory)
  return .dir names

/-- What is asked before the dependencies. -/
def fixedRequests : Except StubError (List (TreeRequest (List UInt8) (List ℕ))) := do
  let base ← baseDirectories.mapM (baseRequest host)
  let defaults ← defaultStubs.mapM (stubRequest host arch 0)
  return base ++ defaults

/-- What is asked for the dependencies; random bytes were drawn once before. -/
def stubRequests (deps : List FileDependency) :
    Except StubError (List (TreeRequest (List UInt8) (List ℕ))) :=
  deps.mapM fun dep => stubRequest host arch 1 dep.path

end Requests

section Steps

variable {host : StubHost} {arch : PyStr} {state : StubState} {path : List PyStr}
  {names : List (List UInt8)}

theorem mapError_eq_ok {ε ε' α : Type} {f : ε → ε'} {x : Except ε α} {a : α} :
    x.mapError f = .ok a ↔ x = .ok a := by
  cases x with
  | error e => exact iff_of_false (by nofun) (by nofun)
  | ok b => exact ⟨fun h => by cases h; rfl, fun h => by cases h; rfl⟩

theorem encodePath_eq_ok :
    encodePath host path = .ok names ↔ List.Forall₂ (fun name bytes => encodeFileName name = .ok bytes) path names ∧
      (names.map fun name => name.length + 1).sum ≤ host.room := by
  unfold encodePath
  rw [bind_eq_ok]
  simp only [mapM_eq_ok]
  constructor
  · rintro ⟨bytes, hbytes, h⟩
    split at h
    · cases h
    · rename_i hroom
      cases h
      exact ⟨hbytes, Nat.le_of_not_lt hroom⟩
  · rintro ⟨hbytes, hroom⟩
    refine ⟨names, hbytes, ?_⟩
    rw [if_neg (Nat.not_lt.mpr hroom)]
    rfl

/-- The directory of a path that has bytes. -/
theorem encodePath_dropLast (h : encodePath host path = .ok names) :
    encodePath host path.dropLast = .ok names.dropLast := by
  obtain ⟨hbytes, hroom⟩ := encodePath_eq_ok.mp h
  refine encodePath_eq_ok.mpr ⟨?_, ?_⟩
  · rw [List.dropLast_eq_take, List.dropLast_eq_take, hbytes.length_eq]
    exact List.forall₂_take _ hbytes
  · refine le_trans ?_ hroom
    rcases List.eq_nil_or_concat names with rfl | ⟨front, last, rfl⟩
    · exact le_rfl
    · simp

theorem pathMkdir_eq_ok {tree tree' : StubTree} :
    pathMkdir host tree path = .ok tree' ↔
      ∃ names, encodePath host path = .ok names ∧ tree.mkdirs names = .ok tree' := by
  unfold pathMkdir
  rw [bind_eq_ok]
  simp only [mapError_eq_ok]

theorem pathWrite_eq_ok {tree tree' : StubTree} {content : List ℕ} :
    pathWrite host tree path content = .ok tree' ↔
      ∃ names, encodePath host path = .ok names ∧ tree.write names content = .ok tree' := by
  unfold pathWrite
  rw [bind_eq_ok]
  simp only [mapError_eq_ok]

/-- A stub that is a file. -/
theorem createFile_eq_ok {state' : StubState} {guestPath : PyStr} {content : List ℕ} {drawn : ℕ} :
    createFile host state guestPath content drawn = .ok state' ↔
      (∃ names, encodePath host (rootfsPath guestPath) = .ok names ∧
        state.tree.put (requestAt names (some content)) = .ok state'.tree) ∧ state'.drawn = drawn := by
  unfold createFile
  simp only [bind_eq_ok, pure_eq_ok, pathMkdir_eq_ok, pathWrite_eq_ok]
  constructor
  · rintro ⟨tree, ⟨above, habove, hmkdir⟩, tree', ⟨names, hnames, hwrite⟩, rfl⟩
    obtain rfl := Except.ok.inj (habove.symm.trans (encodePath_dropLast hnames))
    exact ⟨⟨names, hnames, bind_eq_ok.mpr ⟨tree, hmkdir, hwrite⟩⟩, rfl⟩
  · rintro ⟨⟨names, hnames, hput⟩, rfl⟩
    obtain ⟨tree, hmkdir, hwrite⟩ := bind_eq_ok.mp hput
    exact ⟨tree, ⟨names.dropLast, encodePath_dropLast hnames, hmkdir⟩, state'.tree, ⟨names, hnames, hwrite⟩, rfl⟩

/-- A stub that is a directory. -/
theorem createDirectory_eq_ok {tree : StubTree} {guestPath : PyStr} :
    (∃ above, pathMkdir host state.tree (rootfsPath guestPath).dropLast = .ok above ∧
      pathMkdir host above (rootfsPath guestPath) = .ok tree) ↔
    ∃ names, encodePath host (rootfsPath guestPath) = .ok names ∧
      state.tree.put (requestAt names none) = .ok tree := by
  simp only [pathMkdir_eq_ok]
  constructor
  · rintro ⟨above, ⟨names', hnames', habove⟩, names, hnames, hmkdir⟩
    obtain rfl := Except.ok.inj (hnames'.symm.trans (encodePath_dropLast hnames))
    exact ⟨names, hnames, (DirTree.mkdirs_dropLast habove).mp hmkdir⟩
  · rintro ⟨names, hnames, hput⟩
    obtain ⟨above, habove⟩ := DirTree.exists_mkdirs_dropLast hput
    exact ⟨above, ⟨_, encodePath_dropLast hnames, habove⟩, names, hnames, (DirTree.mkdirs_dropLast habove).mpr hput⟩

end Steps

/-! ### What the generator asks of the file system -/

section Runs

variable {host : StubHost} {arch : PyStr}

section Fold

variable {β : Type} {f : StubState → β → Except StubError StubState}
  {q : β → Except StubError (TreeRequest (List UInt8) (List ℕ))} {P : StubState → List β → Prop}
  {l : List β} {s : StubState}

/-- **A run asks for requests, one after the other.**  `P` holds of the state and of what is still to do. -/
theorem foldlM_ok {s' : StubState}
    (hstep : ∀ s b rest s', P s (b :: rest) → f s b = .ok s' →
      (∃ r, q b = .ok r ∧ s.tree.put r = .ok s'.tree) ∧ P s' rest)
    (hP : P s l) (h : l.foldlM f s = .ok s') :
    (∃ rs, l.mapM q = .ok rs ∧ rs.foldlM DirTree.put s.tree = .ok s'.tree) ∧ P s' [] := by
  induction l generalizing s with
  | nil =>
    cases h
    exact ⟨⟨[], rfl, rfl⟩, hP⟩
  | cons b rest ih =>
    rw [List.foldlM_cons] at h
    obtain ⟨next, hnext, h⟩ := bind_eq_ok.mp h
    obtain ⟨⟨r, hr, hput⟩, hP'⟩ := hstep s b rest next hP hnext
    obtain ⟨⟨rs, hrs, htree⟩, hdone⟩ := ih hP' h
    refine ⟨⟨r :: rs, ?_, ?_⟩, hdone⟩
    · rw [List.mapM_cons]
      exact bind_eq_ok.mpr ⟨r, hr, bind_eq_ok.mpr ⟨rs, hrs, rfl⟩⟩
    · rw [List.foldlM_cons]
      exact bind_eq_ok.mpr ⟨next.tree, hput, htree⟩

/-- A run succeeds when its requests can be made. -/
theorem exists_foldlM_ok {rs : List (TreeRequest (List UInt8) (List ℕ))} {tree : StubTree}
    (hstep : ∀ s b rest r tree, P s (b :: rest) → q b = .ok r → s.tree.put r = .ok tree →
      ∃ s', f s b = .ok s' ∧ s'.tree = tree ∧ P s' rest)
    (hP : P s l) (hrs : l.mapM q = .ok rs) (htree : rs.foldlM DirTree.put s.tree = .ok tree) :
    ∃ s', l.foldlM f s = .ok s' ∧ s'.tree = tree ∧ P s' [] := by
  induction l generalizing s rs with
  | nil =>
    cases hrs
    cases htree
    exact ⟨s, rfl, rfl, hP⟩
  | cons b rest ih =>
    rw [List.mapM_cons] at hrs
    simp only [bind_eq_ok, pure_eq_ok] at hrs
    obtain ⟨r, hr, rest', hrest, rfl⟩ := hrs
    rw [List.foldlM_cons] at htree
    obtain ⟨tree', hput, htree⟩ := bind_eq_ok.mp htree
    obtain ⟨next, hnext, rfl, hP'⟩ := hstep s b rest r tree' hP hr hput
    obtain ⟨s', hs', hdone⟩ := ih hP' hrest htree
    refine ⟨s', ?_, hdone⟩
    rw [List.foldlM_cons]
    exact bind_eq_ok.mpr ⟨next, hnext, hs'⟩

end Fold

variable (host arch) in
/-- `create_stub_for_dependency` of a path. -/
def createStubAt (state : StubState) (guestPath : PyStr) : Except StubError StubState :=
  if py "/proc/" <+: guestPath then createProcStub host arch state guestPath
  else if py "/dev/" <+: guestPath then createDevStub host state guestPath
  else if py "/etc/" <+: guestPath then createConfigStub host state guestPath
  else if py "/tmp/" <+: guestPath then createRuntimeStub host state guestPath
  else if py "/var/" <+: guestPath then createRuntimeStub host state guestPath
  else createGenericStub host state guestPath

/-- The file that random bytes are drawn for. -/
def urandomPath : PyStr := py "/dev/urandom"

theorem devContent_drawn (guestPath : PyStr) (drawn : ℕ) :
    (devContent host guestPath drawn).2 = if guestPath = urandomPath then drawn + 1 else drawn := by
  unfold devContent urandomPath
  split_ifs with hnull hurandom hzero hurandom <;> first | rfl | skip
  · subst hnull
    exact absurd hurandom (by decide)
  · subst hzero
    exact absurd hurandom (by decide)

/-- Only one stub depends on what was drawn before. -/
theorem stubContent_of_ne {guestPath : PyStr} (h : guestPath ≠ urandomPath) (drawn drawn' : ℕ) :
    stubContent host arch drawn guestPath = stubContent host arch drawn' guestPath := by
  have hdev : (devContent host guestPath drawn).1 = (devContent host guestPath drawn').1 := by
    have hurandom : ¬ guestPath = py "/dev/urandom" := h
    unfold devContent
    rw [if_neg hurandom, if_neg hurandom]
    split_ifs <;> rfl
  unfold stubContent
  rw [hdev]

/-- A directory that is asked for with a slash at the end, or a file without content. -/
theorem createRuntimeStub_eq_ok {state state' : StubState} {guestPath : PyStr} :
    createRuntimeStub host state guestPath = .ok state' ↔
      (∃ names, encodePath host (rootfsPath guestPath) = .ok names ∧
        state.tree.put (requestAt names (if [slash] <:+ guestPath then none else some [])) = .ok state'.tree) ∧
      state'.drawn = state.drawn := by
  unfold createRuntimeStub
  dsimp only
  split
  · simp only [bind_eq_ok, pure_eq_ok]
    constructor
    · rintro ⟨above, habove, tree, htree, rfl⟩
      exact ⟨createDirectory_eq_ok.mp ⟨above, habove, htree⟩, rfl⟩
    · rintro ⟨hput, hdrawn⟩
      obtain ⟨above, habove, htree⟩ := createDirectory_eq_ok.mpr hput
      exact ⟨above, habove, state'.tree, htree, by rw [← hdrawn]⟩
  · exact createFile_eq_ok

/-- **What a stub does.** -/
theorem createStubAt_eq_ok {state state' : StubState} {guestPath : PyStr} :
    createStubAt host arch state guestPath = .ok state' ↔
      (∃ r, stubRequest host arch state.drawn guestPath = .ok r ∧ state.tree.put r = .ok state'.tree) ∧
      state'.drawn = if guestPath = urandomPath then state.drawn + 1 else state.drawn := by
  have hrequest : (∃ r, stubRequest host arch state.drawn guestPath = .ok r ∧
      state.tree.put r = .ok state'.tree) ↔ ∃ names, encodePath host (rootfsPath guestPath) = .ok names ∧
        state.tree.put (requestAt names (stubContent host arch state.drawn guestPath)) = .ok state'.tree := by
    unfold stubRequest
    simp only [bind_eq_ok, pure_eq_ok]
    constructor
    · rintro ⟨_, ⟨names, hnames, rfl⟩, hput⟩
      exact ⟨names, hnames, hput⟩
    · rintro ⟨names, hnames, hput⟩
      exact ⟨_, ⟨names, hnames, rfl⟩, hput⟩
  have hruntime : createStubAt host arch state guestPath = if py "/proc/" <+: guestPath then
        createProcStub host arch state guestPath
      else if py "/dev/" <+: guestPath then createDevStub host state guestPath
      else if py "/etc/" <+: guestPath then createConfigStub host state guestPath
      else createRuntimeStub host state guestPath := by
    unfold createStubAt
    split_ifs <;> rfl
  rw [hrequest, hruntime]
  unfold stubContent
  by_cases hproc : py "/proc/" <+: guestPath
  · have hne : guestPath ≠ urandomPath := by
      rintro rfl
      exact absurd hproc (by decide)
    rw [if_pos hproc, if_pos hproc, if_neg hne]
    exact createFile_eq_ok
  rw [if_neg hproc, if_neg hproc]
  by_cases hdev : py "/dev/" <+: guestPath
  · rw [if_pos hdev, if_pos hdev, ← devContent_drawn]
    exact createFile_eq_ok
  have hne : guestPath ≠ urandomPath := by
    rintro rfl
    exact absurd (show py "/dev/" <+: urandomPath by decide) hdev
  rw [if_neg hdev, if_neg hdev, if_neg hne]
  by_cases hetc : py "/etc/" <+: guestPath
  · rw [if_pos hetc, if_pos hetc]
    exact createFile_eq_ok
  · rw [if_neg hetc, if_neg hetc]
    exact createRuntimeStub_eq_ok

theorem stubRequest_of_ne {guestPath : PyStr} (h : guestPath ≠ urandomPath) (drawn drawn' : ℕ) :
    stubRequest host arch drawn guestPath = stubRequest host arch drawn' guestPath := by
  unfold stubRequest
  rw [stubContent_of_ne h drawn drawn']

/-- Random bytes are drawn for one of the stubs that are still to do, and otherwise were drawn. -/
def DrawsOnce {β : Type} (guest : β → PyStr) (first last : ℕ) (now : StubState) (rest : List β) : Prop :=
  (rest.map guest).Nodup ∧
    if urandomPath ∈ rest.map guest then now.drawn = first ∧ last = first + 1 else now.drawn = last

section DrawsOnce

variable {β : Type} {guest : β → PyStr} {first last : ℕ} {now next : StubState} {b : β} {rest : List β}

theorem DrawsOnce.request (h : DrawsOnce guest first last now (b :: rest)) :
    stubRequest host arch now.drawn (guest b) = stubRequest host arch first (guest b) := by
  by_cases hb : guest b = urandomPath
  · have hmem : urandomPath ∈ (b :: rest).map guest := by
      rw [List.map_cons, hb]
      exact List.mem_cons_self
    obtain ⟨-, hdrawn⟩ := h
    rw [if_pos hmem] at hdrawn
    rw [hdrawn.1]
  · exact stubRequest_of_ne hb _ _

theorem DrawsOnce.step (h : DrawsOnce guest first last now (b :: rest))
    (hdrawn : next.drawn = if guest b = urandomPath then now.drawn + 1 else now.drawn) :
    DrawsOnce guest first last next rest := by
  obtain ⟨hnodup, hnow⟩ := h
  rw [List.map_cons, List.nodup_cons] at hnodup
  refine ⟨hnodup.2, ?_⟩
  have hmem : urandomPath ∈ (b :: rest).map guest ↔ guest b = urandomPath ∨ urandomPath ∈ rest.map guest := by
    rw [List.map_cons, List.mem_cons, eq_comm]
  by_cases hb : guest b = urandomPath
  · rw [hb] at hnodup
    rw [if_pos (hmem.mpr (Or.inl hb))] at hnow
    rw [if_neg hnodup.1, hdrawn, if_pos hb, hnow.1, hnow.2]
  · rw [hdrawn, if_neg hb]
    simpa only [hmem, or_iff_right hb] using hnow

end DrawsOnce

section Stubs

variable {β : Type} {guest : β → PyStr} {l : List β} {s : StubState}

/-- What was drawn after some stubs. -/
def drawnAfter (guest : β → PyStr) (l : List β) (first : ℕ) : ℕ :=
  if urandomPath ∈ l.map guest then first + 1 else first

theorem drawsOnce_start (hnodup : (l.map guest).Nodup) :
    DrawsOnce guest s.drawn (drawnAfter guest l s.drawn) s l := by
  refine ⟨hnodup, ?_⟩
  unfold drawnAfter
  split
  · exact ⟨rfl, rfl⟩
  · rfl

theorem drawsOnce_nil {first last : ℕ} : DrawsOnce guest first last s [] ↔ s.drawn = last := by
  simp [DrawsOnce]

/-- **A run of stubs** with different paths, of which one draws random bytes at most. -/
theorem stubs_ok {s' : StubState} (hnodup : (l.map guest).Nodup)
    (h : l.foldlM (fun s b => createStubAt host arch s (guest b)) s = .ok s') :
    (∃ rs, l.mapM (fun b => stubRequest host arch s.drawn (guest b)) = .ok rs ∧
      rs.foldlM DirTree.put s.tree = .ok s'.tree) ∧ s'.drawn = drawnAfter guest l s.drawn := by
  have hrun := foldlM_ok (q := fun b => stubRequest host arch s.drawn (guest b)) ?_ (drawsOnce_start hnodup) h
  · exact ⟨hrun.1, drawsOnce_nil.mp hrun.2⟩
  · intro now b rest next hnow hnext
    obtain ⟨⟨r, hr, hput⟩, hdrawn⟩ := createStubAt_eq_ok.mp hnext
    rw [hnow.request] at hr
    exact ⟨⟨r, hr, hput⟩, hnow.step hdrawn⟩

theorem exists_stubs_ok {rs : List (TreeRequest (List UInt8) (List ℕ))} {tree : StubTree}
    (hnodup : (l.map guest).Nodup) (hrs : l.mapM (fun b => stubRequest host arch s.drawn (guest b)) = .ok rs)
    (htree : rs.foldlM DirTree.put s.tree = .ok tree) :
    ∃ s', l.foldlM (fun s b => createStubAt host arch s (guest b)) s = .ok s' ∧ s'.tree = tree ∧
      s'.drawn = drawnAfter guest l s.drawn := by
  have hdone : ∀ s', s'.drawn = drawnAfter guest l s.drawn ↔
      DrawsOnce guest s.drawn (drawnAfter guest l s.drawn) s' [] := fun s' => drawsOnce_nil.symm
  simp only [hdone]
  refine exists_foldlM_ok ?_ (drawsOnce_start hnodup) hrs htree
  intro now b rest r tree' hnow hr hput
  rw [← hnow.request] at hr
  exact ⟨⟨tree', _⟩, createStubAt_eq_ok.mpr ⟨⟨r, hr, hput⟩, rfl⟩, rfl, hnow.step rfl⟩

end Stubs

/-- What a directory of the base tree does. -/
theorem baseStep_eq_ok {state state' : StubState} {directory : PyStr} :
    (do
      let tree ← pathMkdir host state.tree (joinRootfs directory)
      return { state with tree := tree }) = Except.ok state' ↔
      (∃ r, baseRequest host directory = .ok r ∧ state.tree.put r = .ok state'.tree) ∧
        state'.drawn = state.drawn := by
  unfold baseRequest
  simp only [bind_eq_ok, pure_eq_ok, pathMkdir_eq_ok]
  constructor
  · rintro ⟨tree, ⟨names, hnames, hmkdir⟩, rfl⟩
    exact ⟨⟨_, ⟨names, hnames, rfl⟩, hmkdir⟩, rfl⟩
  · rintro ⟨⟨_, ⟨names, hnames, rfl⟩, hput⟩, hdrawn⟩
    exact ⟨state'.tree, ⟨names, hnames, hput⟩, by rw [← hdrawn]⟩

theorem generateBaseTree_ok {state state' : StubState} (h : generateBaseTree host state = .ok state') :
    (∃ rs, baseDirectories.mapM (baseRequest host) = .ok rs ∧
      rs.foldlM DirTree.put state.tree = .ok state'.tree) ∧ state'.drawn = state.drawn := by
  apply foldlM_ok (P := fun now _ => now.drawn = state.drawn) _ rfl h
  intro now directory rest next hnow hnext
  obtain ⟨hrequest, hdrawn⟩ := baseStep_eq_ok.mp hnext
  exact ⟨hrequest, hdrawn.trans hnow⟩

theorem exists_generateBaseTree_ok {state : StubState} {rs : List (TreeRequest (List UInt8) (List ℕ))}
    {tree : StubTree} (hrs : baseDirectories.mapM (baseRequest host) = .ok rs)
    (htree : rs.foldlM DirTree.put state.tree = .ok tree) :
    ∃ state', generateBaseTree host state = .ok state' ∧ state'.tree = tree ∧ state'.drawn = state.drawn := by
  apply exists_foldlM_ok (P := fun now _ => now.drawn = state.drawn) _ rfl hrs htree
  intro now directory rest r tree' hnow hr hput
  exact ⟨⟨tree', now.drawn⟩, baseStep_eq_ok.mpr ⟨⟨r, hr, hput⟩, rfl⟩, rfl, hnow⟩

/-- The default stubs are stubs. -/
theorem generateDefaultStubs_eq (state : StubState) :
    generateDefaultStubs host arch state = defaultStubs.foldlM (createStubAt host arch) state := by
  have hproc : ∀ state guestPath, py "/proc/" <+: guestPath →
      createStubAt host arch state guestPath = createProcStub host arch state guestPath :=
    fun _ _ h => if_pos h
  have hdev : ∀ state guestPath, ¬ py "/proc/" <+: guestPath → py "/dev/" <+: guestPath →
      createStubAt host arch state guestPath = createDevStub host state guestPath :=
    fun _ _ h h' => (if_neg h).trans (if_pos h')
  have hetc : ∀ state guestPath, ¬ py "/proc/" <+: guestPath → ¬ py "/dev/" <+: guestPath →
      py "/etc/" <+: guestPath → createStubAt host arch state guestPath = createConfigStub host state guestPath :=
    fun _ _ h h' h'' => (if_neg h).trans ((if_neg h').trans (if_pos h''))
  unfold generateDefaultStubs defaultStubs
  simp only [List.foldlM_cons, List.foldlM_nil]
  simp only [hproc _ (py "/proc/cpuinfo") (by decide), hproc _ (py "/proc/meminfo") (by decide),
    hproc _ (py "/proc/uptime") (by decide), hdev _ (py "/dev/null") (by decide) (by decide),
    hdev _ (py "/dev/zero") (by decide) (by decide), hdev _ (py "/dev/urandom") (by decide) (by decide),
    hetc _ (py "/etc/hosts") (by decide) (by decide) (by decide),
    hetc _ (py "/etc/resolv.conf") (by decide) (by decide) (by decide), bind_pure]

/-- **What the generator asks of the file system.** -/
theorem generate_eq_ok {deps : List FileDependency} {tree : StubTree}
    (hdistinct : (deps.map FileDependency.path).Nodup) :
    generate host arch deps = .ok tree ↔ ∃ fixed rs, fixedRequests host arch = .ok fixed ∧
      stubRequests host arch deps = .ok rs ∧ DirTree.build (fixed ++ rs) = .ok tree := by
  have hdefaults : (defaultStubs.map id).Nodup := by decide
  unfold generate fixedRequests stubRequests DirTree.build
  simp only [bind_eq_ok, pure_eq_ok, generateDefaultStubs_eq]
  constructor
  · rintro ⟨s₁, hbase, s₂, hdefault, s₃, hdeps, rfl⟩
    obtain ⟨⟨base, hbase, htree₁⟩, hdrawn₁⟩ := generateBaseTree_ok hbase
    obtain ⟨⟨defaults, hdefault, htree₂⟩, hdrawn₂⟩ := stubs_ok hdefaults hdefault
    obtain ⟨⟨rs, hrs, htree₃⟩, -⟩ := stubs_ok hdistinct hdeps
    rw [hdrawn₁] at hdefault hdrawn₂
    rw [hdrawn₂] at hrs
    refine ⟨_, rs, ⟨base, hbase, defaults, hdefault, rfl⟩, hrs, ?_⟩
    simp only [List.foldlM_append, htree₁, htree₂, htree₃, bind_eq_ok, Except.ok.injEq, exists_eq_left']
  · rintro ⟨_, rs, ⟨base, hbase, defaults, hdefault, rfl⟩, hrs, htree⟩
    simp only [List.foldlM_append, bind_eq_ok] at htree
    obtain ⟨tree₂, ⟨tree₁, htree₁, htree₂⟩, htree₃⟩ := htree
    obtain ⟨s₁, hs₁, rfl, hdrawn₁⟩ := @exists_generateBaseTree_ok host ⟨.bare, 0⟩ base tree₁ hbase htree₁
    rw [← show s₁.drawn = 0 from hdrawn₁] at hdefault
    obtain ⟨s₂, hs₂, rfl, hdrawn₂⟩ := exists_stubs_ok hdefaults hdefault htree₂
    have hone : s₂.drawn = 1 := by
      rw [hdrawn₂, show s₁.drawn = 0 from hdrawn₁]
      rfl
    rw [← hone] at hrs
    obtain ⟨s₃, hs₃, rfl, -⟩ := exists_stubs_ok hdistinct hrs htree₃
    exact ⟨s₁, hs₁, s₂, hs₂, s₃, hs₃, rfl⟩

end Runs

/-! ### When the order does not matter -/

section Stable

variable {host : StubHost} {arch : PyStr} {deps : List FileDependency}

theorem encodePath_names {path : List PyStr} {names : List (List UInt8)} (h : encodePath host path = .ok names) :
    path.mapM encodeFileName = .ok names := mapM_eq_ok.mpr (encodePath_eq_ok.mp h).1

theorem requestAt_path (names : List (List UInt8)) (content : Option (List ℕ)) :
    (requestAt names content).path = names := by
  cases content <;> rfl

theorem baseRequest_path {directory : PyStr} {r : TreeRequest (List UInt8) (List ℕ)}
    (h : baseRequest host directory = .ok r) : (joinRootfs directory).mapM encodeFileName = .ok r.path := by
  obtain ⟨names, hnames, hr⟩ := bind_eq_ok.mp h
  obtain rfl := pure_eq_ok.mp hr
  exact encodePath_names hnames

theorem stubRequest_path {drawn : ℕ} {guestPath : PyStr} {r : TreeRequest (List UInt8) (List ℕ)}
    (h : stubRequest host arch drawn guestPath = .ok r) :
    encodePath host (rootfsPath guestPath) = .ok r.path := by
  obtain ⟨names, hnames, hr⟩ := bind_eq_ok.mp h
  obtain rfl := pure_eq_ok.mp hr
  rwa [requestAt_path]

/-- The base tree and the default stubs have different paths. -/
theorem consistent_fixedRequests {fixed : List (TreeRequest (List UInt8) (List ℕ))}
    (h : fixedRequests host arch = .ok fixed) : Consistent fixed := by
  unfold fixedRequests at h
  simp only [bind_eq_ok, pure_eq_ok] at h
  obtain ⟨base, hbase, defaults, hdefaults, rfl⟩ := h
  apply consistent_of_nodup
  have hpaths : (baseDirectories.map joinRootfs ++ defaultStubs.map rootfsPath).mapM (fun path => path.mapM encodeFileName) =
      .ok ((base ++ defaults).map TreeRequest.path) := by
    rw [mapM_eq_ok, List.map_append]
    apply List.rel_append
    · rw [List.forall₂_map_left_iff, List.forall₂_map_right_iff]
      exact (mapM_eq_ok.mp hbase).imp fun _ _ => baseRequest_path
    · rw [List.forall₂_map_left_iff, List.forall₂_map_right_iff]
      exact (mapM_eq_ok.mp hdefaults).imp fun _ _ hr => encodePath_names (stubRequest_path hr)
  have hdistinct : ∃ paths, (baseDirectories.map joinRootfs ++ defaultStubs.map rootfsPath).mapM
      (fun path => path.mapM encodeFileName) = .ok paths ∧ paths.Nodup := ⟨_, rfl, by decide⟩
  obtain ⟨paths, hpaths', hnodup⟩ := hdistinct
  rwa [← Except.ok.inj (hpaths'.symm.trans hpaths)]

/-- Requests in another order are those of the dependencies in another order. -/
theorem stubRequests_perm {rs rs' : List (TreeRequest (List UInt8) (List ℕ))}
    (hrs : stubRequests host arch deps = .ok rs) (hperm : rs'.Perm rs) :
    ∃ deps', deps'.Perm deps ∧ stubRequests host arch deps' = .ok rs' := by
  have hcomp : Relation.Comp (List.Forall₂ fun (dep : FileDependency) r =>
      stubRequest host arch 1 dep.path = .ok r) List.Perm deps rs' := ⟨rs, mapM_eq_ok.mp hrs, hperm.symm⟩
  rw [List.forall₂_comp_perm_eq_perm_comp_forall₂] at hcomp
  obtain ⟨deps', hdeps, hall⟩ := hcomp
  exact ⟨deps', hdeps.symm, mapM_eq_ok.mpr hall⟩

theorem stubRequests_of_perm {rs : List (TreeRequest (List UInt8) (List ℕ))} {deps' : List FileDependency}
    (hrs : stubRequests host arch deps = .ok rs) (hperm : deps'.Perm deps) :
    ∃ rs', rs'.Perm rs ∧ stubRequests host arch deps' = .ok rs' := by
  have hcomp : Relation.Comp List.Perm (List.Forall₂ fun (dep : FileDependency) r =>
      stubRequest host arch 1 dep.path = .ok r) deps' rs := ⟨deps, hperm, mapM_eq_ok.mp hrs⟩
  rw [← List.forall₂_comp_perm_eq_perm_comp_forall₂] at hcomp
  obtain ⟨rs', hall, hrs'⟩ := hcomp
  exact ⟨rs', hrs', mapM_eq_ok.mpr hall⟩

/-- The tree without dependencies. -/
theorem generate_nil_eq_ok {tree : StubTree} : generate host arch [] = .ok tree ↔
    ∃ fixed, fixedRequests host arch = .ok fixed ∧ DirTree.build fixed = .ok tree := by
  have hnil : stubRequests host arch [] = .ok [] := rfl
  rw [generate_eq_ok (by exact List.nodup_nil)]
  simp only [hnil, Except.ok.injEq]
  constructor
  · rintro ⟨fixed, rs, hfixed, rfl, hbuild⟩
    exact ⟨fixed, hfixed, by rwa [List.append_nil] at hbuild⟩
  · rintro ⟨fixed, hfixed, hbuild⟩
    exact ⟨fixed, [], hfixed, rfl, by rwa [List.append_nil]⟩

/-- **The stubs are made in any order**: the tree is the same, it has a stub for every dependency, and the default
stubs are as they are without dependencies. -/
structure StubsMade (host : StubHost) (arch : PyStr) (deps : List FileDependency) (tree : StubTree) : Prop where
  orders : ∀ deps', deps'.Perm deps → generate host arch deps' = .ok tree
  present : ∀ dep ∈ deps, ∃ names, encodePath host (rootfsPath dep.path) = .ok names ∧ tree.node names ≠ none
  defaults : ∀ bare, generate host arch [] = .ok bare → ∀ names content,
    bare.node names = some (.file content) → tree.node names = some (.file content)

/-- **When the stubs are made in any order.** -/
theorem generate_stable_iff (hdistinct : (deps.map FileDependency.path).Nodup) :
    (∃ tree, StubsMade host arch deps tree) ↔ ∃ fixed rs, fixedRequests host arch = .ok fixed ∧
      stubRequests host arch deps = .ok rs ∧ Compatible (fixed ++ rs) ∧ Consistent (fixed ++ rs) := by
  constructor
  · rintro ⟨tree, horders, -, hdefaults⟩
    obtain ⟨fixed, rs, hfixed, hrs, hbuild⟩ := (generate_eq_ok hdistinct).mp (horders deps .rfl)
    refine ⟨fixed, rs, hfixed, hrs, build_stable_iff.mp ⟨tree, fun rs' hperm => ?_, ?_⟩⟩
    · obtain ⟨deps', hdeps, hrs'⟩ := stubRequests_perm hrs hperm
      have hdistinct' := ((hdeps.map FileDependency.path).nodup_iff).mpr hdistinct
      obtain ⟨fixed', _, hfixed', hsame, hbuild'⟩ := (generate_eq_ok hdistinct').mp (horders deps' hdeps)
      obtain rfl := Except.ok.inj (hfixed.symm.trans hfixed')
      obtain rfl := Except.ok.inj (hrs'.symm.trans hsame)
      exact hbuild'
    · intro r hr content hcontent
      have hcompatible : Compatible fixed :=
        (build_eq_ok.mp hbuild).1.subset (List.subset_append_left fixed rs)
      have hbare := build_eq_ok.mpr ⟨hcompatible, (rfl : (layoutTree fixed hcompatible).node = layout fixed)⟩
      apply hdefaults _ (generate_nil_eq_ok.mpr ⟨fixed, hfixed, hbare⟩)
      exact layout_file_iff.mpr
        ((written_eq_some_iff (consistent_fixedRequests hfixed)).mpr ⟨r, hr, rfl, hcontent⟩)
  · rintro ⟨fixed, rs, hfixed, hrs, hcompatible, hconsistent⟩
    obtain ⟨tree, hbuild, hcontents⟩ := build_stable_iff.mpr ⟨hcompatible, hconsistent⟩
    have hlayout := (build_eq_ok.mp (hbuild rs .rfl)).2
    refine ⟨tree, fun deps' hdeps => ?_, fun dep hdep => ?_, fun bare hbare names content hnode => ?_⟩
    · have hdistinct' := ((hdeps.map FileDependency.path).nodup_iff).mpr hdistinct
      obtain ⟨rs', hperm, hrs'⟩ := stubRequests_of_perm hrs hdeps
      exact (generate_eq_ok hdistinct').mpr ⟨fixed, rs', hfixed, hrs', hbuild rs' hperm⟩
    · obtain ⟨r, hr, hrequest⟩ := forall₂_exists (mapM_eq_ok.mp hrs) hdep
      refine ⟨r.path, stubRequest_path hrequest, ?_⟩
      rw [hlayout]
      exact layout_path_ne_none (List.mem_append_right fixed hr)
    · obtain ⟨fixed', hfixed', hbuild'⟩ := generate_nil_eq_ok.mp hbare
      obtain rfl := Except.ok.inj (hfixed.symm.trans hfixed')
      rw [(build_eq_ok.mp hbuild').2] at hnode
      obtain ⟨r, hr, rfl, hcontent⟩ := exists_of_written (layout_file_iff.mp hnode)
      exact hcontents r hr content hcontent

end Stable

/-! ### A directory of the base tree -/

/-- A host with the same random bytes every time. -/
def stubHost : StubHost where
  urandom _ := List.replicate 4096 0x2A
  room := 4000

/-- The dependency on a file of users. -/
def passwdDependency : FileDependency where
  path := py "/etc/passwd"
  write := false
  accepted := ⟨.str (py "/etc/passwd"), rfl⟩

/-- The dependency on a directory, which the parser leaves without its slash. -/
def tmpDependency : FileDependency where
  path := py "/tmp"
  write := true
  accepted := ⟨.str (py "/tmp/"), rfl⟩

example : parseFileDependency (.obj [(py "path", .str (py "/tmp/")), (py "write", .bool true)]) 0 =
    .ok tmpDependency := rfl

/-- The stub of a file is made. -/
theorem generate_stable_iff_passwd : ∃ tree, StubsMade stubHost (py "arm") [passwdDependency] tree := by
  refine (generate_stable_iff (by decide)).mpr ⟨_, _, rfl, rfl, ?_, consistent_of_nodup ?_⟩
  · unfold Compatible
    decide
  · decide

/-- A directory of the base tree cannot be a file. -/
theorem tmp_stub_fails :
    generate stubHost (py "arm") [tmpDependency] = .error (.tree .isADirectory) ∧
      ¬ ∃ tree, StubsMade stubHost (py "arm") [tmpDependency] tree := by
  have hfails : generate stubHost (py "arm") [tmpDependency] = .error (.tree .isADirectory) := rfl
  refine ⟨hfails, ?_⟩
  rintro ⟨tree, horders, -, -⟩
  have hmade := horders [tmpDependency] .rfl
  rw [hfails] at hmade
  exact absurd hmade (by nofun)

end TaintForge
