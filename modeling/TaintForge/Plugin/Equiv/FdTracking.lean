import TaintForge.Plugin.FdTracking
import TaintForge.Prov.Equiv.FdTable
import TaintForge.Prov.Equiv.Registry

/-!
# Descriptor tracking and the guest

`GuestFds` is what the guest's descriptors are: each was last opened as, or duplicated from, some
open file.  `Follows` says that the plugin's two tables agree with it.

* `addFileDep_spec`: with memory to spare, a followed path has one entry, registered under one
  resource.
* `StepOk`: the calls on which the tracking stays in step.  It leaves out the duplication of a
  descriptor that is not tracked onto one that is, duplication through `fcntl`, and calls for which
  memory or identifiers run out.
* `trackSyscall_follows` and `trackRun_follows`: one call, and a whole run of them.
* `dup2_of_untracked_keeps_stale_file`: what happens on a call `StepOk` leaves out.
-/

namespace TaintForge

open OpenAddr

/-! ### The descriptors of the guest -/

/-- A file as it was opened, and its current offset. -/
structure OpenedFile where
  path : Path
  offset : ℕ
  flags : BitVec 32
  deriving DecidableEq, Repr

/-- The open files of the guest that the plugin should follow, and which descriptor is which. -/
structure GuestFds where
  fds : Int32 → Option ℕ
  opened : List OpenedFile

/-- A guest that has opened nothing. -/
def GuestFds.empty : GuestFds := ⟨fun _ => none, []⟩

/-- The path of an `open`, when the plugin follows it. -/
def followedPath (call : Syscall) : Option Path := call.path.filter isValidPath

/-- `open` or `openat` -/
def Syscall.IsOpen (call : Syscall) : Prop := call.num = 5 ∨ call.num = 295

/-- `dup`, `dup2` or `dup3` -/
def Syscall.IsDup (call : Syscall) : Prop := call.num = 41 ∨ call.num = 63 ∨ call.num = 330

/-- `fcntl` or `fcntl64` with `F_DUPFD` or `F_DUPFD_CLOEXEC` -/
def Syscall.IsFcntlDup (call : Syscall) : Prop :=
  (call.num = 55 ∨ call.num = 221) ∧ (call.a2.setWidth 32 = 0#32 ∨ call.a2.setWidth 32 = 1030#32)

instance (call : Syscall) : Decidable call.IsOpen := inferInstanceAs (Decidable (_ ∨ _))
instance (call : Syscall) : Decidable call.IsDup := inferInstanceAs (Decidable (_ ∨ _))
instance (call : Syscall) : Decidable call.IsFcntlDup := inferInstanceAs (Decidable (_ ∧ _))

/-- Seek the open file behind `fd`. -/
def GuestFds.seek (g : GuestFds) (fd : Int32) (offset : ℕ) : GuestFds :=
  match g.fds fd with
  | none => g
  | some id => { g with opened := g.opened.modify id fun file => { file with offset := offset } }

/-- What a successful call does to the descriptors. -/
def GuestFds.step (g : GuestFds) (call : Syscall) : GuestFds :=
  if call.IsOpen then
    match followedPath call with
    | none => { g with fds := Function.update g.fds (toFd call.ret) none }
    | some path =>
      { fds := Function.update g.fds (toFd call.ret) (some g.opened.length)
        opened := g.opened ++
          [⟨path, 0, (if call.num = 5 then call.a2 else call.a3).setWidth 32⟩] }
  else if call.IsDup ∨ call.IsFcntlDup then
    { g with fds := Function.update g.fds (toFd call.ret) (g.fds (toFd call.a1)) }
  else if call.num = 6 then { g with fds := Function.update g.fds (toFd call.a1) none }
  else if call.num = 19 then g.seek (toFd call.a1) (retOffset call.ret)
  else if call.num = 140 then g.seek (toFd call.a1) call.seekResult.toNat
  else g

/-- The file entry a descriptor is tracked as. -/
def trackedFile (s : Tracker) (fd : Int32) : Option FileDep :=
  (s.fileFd fd).bind fun dep => s.fileDeps[dep]?

/-- The plugin's tables agree with the guest: every descriptor is tracked as the file it was last
opened as or duplicated from, and descriptors share an open file description exactly when the guest's
do. -/
structure Follows (s : Tracker) (g : GuestFds) : Prop where
  file : ∀ fd, (trackedFile s fd).map FileDep.path =
    (g.fds fd).bind fun id => (g.opened[id]?).map OpenedFile.path
  description : ∀ fd, (provFdTableLookup s.table fd).map
      (fun v => (v.ofdId, v.record.currentOffset, v.record.flags)) =
    (g.fds fd).bind fun id => (g.opened[id]?).map fun o => (id + 1, o.offset, o.flags)
  resource : ∀ fd v file, provFdTableLookup s.table fd = some v → trackedFile s fd = some file →
    v.record.resourceId = file.resourceId

/-! ### The entry of a path -/

/-- The position of the entry of a path. -/
def depOf (deps : List FileDep) (path : Path) : Option ℕ :=
  deps.findIdx? fun file => file.path == path

theorem depOf_congr {deps deps' : List FileDep}
    (h : deps'.map FileDep.path = deps.map FileDep.path) (path : Path) :
    depOf deps' path = depOf deps path := by
  have hmap : ∀ l : List FileDep, depOf l path = (l.map FileDep.path).findIdx? (· == path) := by
    intro l
    rw [List.findIdx?_map]
    rfl
  rw [hmap, hmap, h]

theorem depOf_append {deps : List FileDep} {file : FileDep} {path : Path} {dep : ℕ}
    (h : depOf deps path = some dep) : depOf (deps ++ [file]) path = some dep := by
  unfold depOf at h ⊢
  rw [List.findIdx?_append, h]
  rfl

theorem depOf_append_new {deps : List FileDep} {file : FileDep}
    (h : depOf deps file.path = none) : depOf (deps ++ [file]) file.path = some deps.length := by
  unfold depOf at h ⊢
  rw [List.findIdx?_append, h]
  simp

theorem depOf_spec {deps : List FileDep} {path : Path} {dep : ℕ} (h : depOf deps path = some dep) :
    ∃ file, deps[dep]? = some file ∧ file.path = path := by
  obtain ⟨hlt, hp, -⟩ := List.findIdx?_eq_some_iff_getElem.mp h
  exact ⟨deps[dep], List.getElem?_eq_getElem hlt, by simpa using hp⟩

theorem map_path_modify (deps : List FileDep) (dep : ℕ) {f : FileDep → FileDep}
    (hf : ∀ file, (f file).path = file.path) :
    (deps.modify dep f).map FileDep.path = deps.map FileDep.path := by
  refine List.ext_getElem? fun i => ?_
  rw [List.getElem?_map, List.getElem?_map, List.getElem?_modify]
  cases deps[i]? with
  | none => rfl
  | some file => split_ifs <;> simp [hf]

/-! ### The resource of an entry -/

/-- The file is registered under the key its object id gives. -/
structure Registered (s : Tracker) (file : FileDep) : Prop where
  key : resourceKey s.registry file.resourceId = some (fileResourceKey s file.resourceObjectId)
  object : file.resourceObjectId ≠ 0
  main : s.mainImagePath = some file.path → s.mainImageObjectId ≠ 0 →
    file.resourceObjectId = s.mainImageObjectId

/-- There is memory, and there are identifiers, for one more file. -/
structure Tracker.Roomy (s : Tracker) : Prop where
  files : s.heap.Ample
  resources : s.registry.resources.Roomy s.registry.heap
  table : s.table.Roomy
  object : s.nextResourceObjectId ≠ 0

theorem Registered.id_ne {s : Tracker} {file : FileDep} (h : Registered s file) :
    file.resourceId ≠ provResourceIdInvalid := by
  intro hzero
  have hkey := h.key
  rw [hzero, resourceKey, provResourceGet, if_pos rfl] at hkey
  cases hkey

@[simp] theorem withMainImage_path (s : Tracker) (file : FileDep) :
    (withMainImage s file).path = file.path := by
  unfold withMainImage; split_ifs <;> rfl

@[simp] theorem withMainImage_resourceId (s : Tracker) (file : FileDep) :
    (withMainImage s file).resourceId = file.resourceId := by
  unfold withMainImage; split_ifs <;> rfl

theorem isMainImage_iff {s : Tracker} {file : FileDep} : isMainImage s file = true ↔
    s.mainImagePath = some file.path ∧ s.mainImageObjectId ≠ 0 := by
  simp [isMainImage]

/-- A registered file keeps its object id. -/
theorem Registered.withMainImage {s : Tracker} {file : FileDep} (h : Registered s file) :
    (withMainImage s file).resourceObjectId = file.resourceObjectId := by
  unfold TaintForge.withMainImage
  split_ifs with hmain
  · obtain ⟨hpath, hid⟩ := isMainImage_iff.mp hmain
    exact (h.main hpath hid).symm
  · rfl

theorem withMainImage_main {s : Tracker} {file : FileDep} (hpath : s.mainImagePath = some file.path)
    (hid : s.mainImageObjectId ≠ 0) :
    (withMainImage s file).resourceObjectId = s.mainImageObjectId := by
  rw [withMainImage, if_pos (isMainImage_iff.mpr ⟨hpath, hid⟩)]

/-- Registering a file: its entry gets a resource, the one it had if it had one, and other files keep
theirs. -/
theorem ensureFileResource_spec {s : Tracker} (h : ResourcesWF s.registry) (hroomy : s.Roomy)
    (file : FileDep) (hpath : file.path.length < sizeMax) (roles : BitVec 32) :
    ∃ file' registry' next', ensureFileResource s file roles =
        (file', { s with registry := registry', nextResourceObjectId := next' }) ∧
      ResourcesWF registry' ∧
      (∀ i x, resourceKey s.registry i = some x → resourceKey registry' i = some x) ∧
      file'.path = file.path ∧
      Registered { s with registry := registry', nextResourceObjectId := next' } file' ∧
      (Registered s file → file'.resourceId = file.resourceId) := by
  -- the object id the file is registered under
  obtain ⟨file₁, next', hobject, hne, hpath₁, hid₁, hmain₁, hsame₁⟩ :
      ∃ file₁ next', withObjectId s (withMainImage s file) =
          (file₁, { s with nextResourceObjectId := next' }) ∧
        file₁.resourceObjectId ≠ 0 ∧ file₁.path = file.path ∧ file₁.resourceId = file.resourceId ∧
        (s.mainImagePath = some file.path → s.mainImageObjectId ≠ 0 →
          file₁.resourceObjectId = s.mainImageObjectId) ∧
        (Registered s file → file₁.resourceObjectId = file.resourceObjectId) := by
    unfold withObjectId
    by_cases hzero : (withMainImage s file).resourceObjectId = 0
    · rw [if_pos hzero]
      refine ⟨_, _, rfl, hroomy.object, withMainImage_path s file, withMainImage_resourceId s file,
        fun hm hid => ?_, fun hreg => ?_⟩
      · rw [withMainImage_main hm hid] at hzero
        exact absurd hzero hid
      · rw [hreg.withMainImage] at hzero
        exact absurd hzero hreg.object
    · rw [if_neg hzero]
      exact ⟨_, s.nextResourceObjectId, rfl, hzero, withMainImage_path s file,
        withMainImage_resourceId s file, withMainImage_main, fun hreg => hreg.withMainImage⟩
  have hnext : ¬ ((withMainImage s file).resourceObjectId = 0 ∧ s.nextResourceObjectId = 0) :=
    fun hz => hroomy.object hz.2
  unfold ensureFileResource
  dsimp only
  rw [if_neg hnext, hobject]
  dsimp only
  obtain ⟨id, registry', hintern, hi⟩ := provResourceIntern_spec h
    (fileResourceKey s file₁.resourceObjectId) (some file₁.path)
    (if isMainImage s file then roles ||| provResourceRoleMainImage else roles)
  have hsucc : id ≠ provResourceIdInvalid := by
    refine hi.succeeds hroomy.resources (by simp [fileResourceKey]) fun name hname => ?_
    rw [← Option.some.inj hname, hpath₁]
    exact hpath
  have hintern' : provResourceIntern s.registry
      (fileResourceKey { s with nextResourceObjectId := next' } file₁.resourceObjectId)
      (some file₁.path)
      (if isMainImage s file then roles ||| provResourceRoleMainImage else roles) =
      (id, registry') := hintern
  rw [hintern']
  simp only [ne_eq, hsucc, not_false_eq_true, if_true]
  refine ⟨_, registry', next', rfl, hi.wf, hi.keeps, hpath₁, ⟨hi.names hsucc, hne, ?_⟩, ?_⟩
  · intro hm hid
    exact hmain₁ (hpath₁ ▸ hm) hid
  · intro hreg
    refine hi.same file.resourceId ?_ (by simp [fileResourceKey])
    rw [hsame₁ hreg]
    exact hreg.key

/-! ### Adding an entry -/

/-- What adding a path achieves: it has an entry, old entries keep their place and their resource, and
every entry is registered. -/
structure DepAdded (s : Tracker) (path : Path) (dep : ℕ) (s' : Tracker) : Prop where
  own : depOf s'.fileDeps path = some dep
  keeps : ∀ p d, depOf s.fileDeps p = some d → depOf s'.fileDeps p = some d
  resource : ∀ (d : ℕ) (file : FileDep), s.fileDeps[d]? = some file →
    ∃ file', s'.fileDeps[d]? = some file' ∧ file'.resourceId = file.resourceId
  registered : ∀ file ∈ s'.fileDeps, Registered s' file
  resources : ResourcesWF s'.registry
  frame : s'.table = s.table ∧ s'.fileFd = s.fileFd ∧ s'.pendingFd = s.pendingFd

theorem Registered.mono {s s' : Tracker} {file : FileDep} (h : Registered s file)
    (hkeeps : ∀ i x, resourceKey s.registry i = some x → resourceKey s'.registry i = some x)
    (hscope : s'.analysisScopeId = s.analysisScopeId) (hpath : s'.mainImagePath = s.mainImagePath)
    (hid : s'.mainImageObjectId = s.mainImageObjectId) : Registered s' file where
  key := by
    rw [hkeeps _ _ h.key]
    simp only [fileResourceKey, hscope]
  object := h.object
  main hm hne := by
    rw [hid] at hne ⊢
    exact h.main (hpath ▸ hm) hne

/-- Registration does not look at the other fields of an entry. -/
theorem Registered.congr {s : Tracker} {file file' : FileDep} (h : Registered s file)
    (hpath : file'.path = file.path) (hres : file'.resourceId = file.resourceId)
    (hobj : file'.resourceObjectId = file.resourceObjectId) : Registered s file' where
  key := by rw [hres, hobj]; exact h.key
  object := hobj ▸ h.object
  main hm hne := by rw [hobj]; exact h.main (hpath ▸ hm) hne

theorem addFileDep_spec {s : Tracker} (h : ResourcesWF s.registry)
    (hreg : ∀ file ∈ s.fileDeps, Registered s file) (hroomy : s.Roomy) {path : Path}
    (hne : path ≠ []) (hlen : path.length < sizeMax) (isLib : Bool) :
    ∃ dep s', addFileDep s path isLib = (some dep, s') ∧ DepAdded s path dep s' := by
  unfold addFileDep
  rw [if_neg hne]
  cases hdep : depOf s.fileDeps path with
  | some dep =>
    have hfind : (s.fileDeps.findIdx? fun file => file.path == path) = some dep := hdep
    obtain ⟨file, hfile, hpath⟩ := depOf_spec hdep
    dsimp only
    rw [hfind]
    dsimp only
    rw [hfile]
    dsimp only
    have hregfile := hreg file (List.mem_of_getElem? hfile)
    set file₁ : FileDep := if isLib then { file with taintSource := false } else file with hfile₁
    have hreg₁ : Registered s file₁ := by
      refine hregfile.congr ?_ ?_ ?_ <;> rw [hfile₁] <;> split_ifs <;> rfl
    have hpath₁ : file₁.path = path := by rw [hfile₁, ← hpath]; split_ifs <;> rfl
    have hres₁ : file₁.resourceId = file.resourceId := by rw [hfile₁]; split_ifs <;> rfl
    obtain ⟨file', registry', next', hensure, hwf, hkeeps, hpath', hreg', hsame⟩ :=
      ensureFileResource_spec h hroomy file₁ (by rw [hpath₁]; exact hlen)
        (if isLib then provResourceRoleLibraryImage else provResourceRoleFuzzInput)
    rw [hensure]
    have hmap : (s.fileDeps.set dep file').map FileDep.path = s.fileDeps.map FileDep.path := by
      refine List.ext_getElem? fun i => ?_
      rw [List.getElem?_map, List.getElem?_map, List.getElem?_set]
      by_cases hi : dep = i
      · subst hi
        rw [if_pos rfl, if_pos (List.getElem?_eq_some_iff.mp hfile).1, hfile, Option.map_some,
          Option.map_some, hpath', hpath₁, hpath]
      · rw [if_neg hi]
    refine ⟨dep, _, rfl, ?_⟩
    constructor
    · rw [depOf_congr hmap]; exact hdep
    · intro p d hd
      rw [depOf_congr hmap]; exact hd
    · intro d f hf
      change ∃ f', (s.fileDeps.set dep file')[d]? = some f' ∧ _
      rw [List.getElem?_set]
      by_cases hd : dep = d
      · subst hd
        obtain rfl : file = f := Option.some.inj (hfile.symm.trans hf)
        rw [if_pos rfl, if_pos (List.getElem?_eq_some_iff.mp hfile).1]
        exact ⟨file', rfl, (hsame hreg₁).trans hres₁⟩
      · rw [if_neg hd]
        exact ⟨f, hf, rfl⟩
    · intro f hf
      rcases List.mem_or_eq_of_mem_set hf with hf | rfl
      · exact (hreg f hf).mono hkeeps rfl rfl rfl
      · exact hreg'.mono (fun _ _ h => h) rfl rfl rfl
    · exact hwf
    · exact ⟨rfl, rfl, rfl⟩
  | none =>
    have hfind : (s.fileDeps.findIdx? fun file => file.path == path) = none := hdep
    dsimp only
    rw [hfind, hroomy.files.calloc (by decide)]
    simp only [Bool.true_eq_false, if_false]
    have hroomy₁ : Tracker.Roomy { s with heap := s.heap.next } :=
      ⟨hroomy.files.next, hroomy.resources, hroomy.table, hroomy.object⟩
    obtain ⟨file', registry', next', hensure, hwf, hkeeps, hpath', hreg', -⟩ :=
      @ensureFileResource_spec { s with heap := s.heap.next } h hroomy₁
        { path := path, write := false, taintSource := !isLib
          resourceId := provResourceIdInvalid, resourceObjectId := 0 } hlen
        (if isLib then provResourceRoleLibraryImage else provResourceRoleFuzzInput)
    rw [hensure]
    refine ⟨s.fileDeps.length, _, rfl, ?_⟩
    constructor
    · change depOf (s.fileDeps ++ [file']) path = some s.fileDeps.length
      have hown : file'.path = path := hpath'
      rw [← hown] at hdep ⊢
      exact depOf_append_new hdep
    · exact fun p d hd => depOf_append hd
    · intro d f hf
      refine ⟨f, ?_, rfl⟩
      change (s.fileDeps ++ [file'])[d]? = _
      rw [List.getElem?_append_left (List.getElem?_eq_some_iff.mp hf).1, hf]
    · intro f hf
      rcases List.mem_append.mp hf with hf | hf
      · exact (hreg f hf).mono hkeeps rfl rfl rfl
      · rw [List.mem_singleton.mp hf]
        exact hreg'.mono (fun _ _ h => h) rfl rfl rfl
    · exact hwf
    · exact ⟨rfl, rfl, rfl⟩

/-! ### The invariant -/

/-- A description of the table describes an open file of the guest. -/
structure Describes (deps : List FileDep) (f : OpenFile) (o : OpenedFile) : Prop where
  offset : f.offset = o.offset
  flags : f.flags = o.flags
  file : ∃ dep file, depOf deps o.path = some dep ∧ deps[dep]? = some file ∧
    f.resourceId = file.resourceId

/-- The plugin's tables are in step with the guest, and every followed path is registered. -/
structure TrackInv (s : Tracker) (g : GuestFds) : Prop where
  table : ∃ files, FdRefines s.table ⟨g.fds, files⟩ ∧
    List.Forall₂ (Describes s.fileDeps) files g.opened
  fileFd : ∀ fd, s.fileFd fd =
    (g.fds fd).bind fun id => (g.opened[id]?).bind fun o => depOf s.fileDeps o.path
  registered : ∀ file ∈ s.fileDeps, Registered s file
  resources : ResourcesWF s.registry

namespace TrackInv

variable {s : Tracker} {g : GuestFds}

/-- A descriptor that the guest opened is tracked as the entry of its path. -/
theorem fileFd_of_bound (h : TrackInv s g) {fd : Int32} {id : ℕ} (hfd : g.fds fd = some id) :
    ∃ o dep file, g.opened[id]? = some o ∧ s.fileFd fd = some dep ∧
      s.fileDeps[dep]? = some file ∧ file.path = o.path := by
  obtain ⟨files, href, hall⟩ := h.table
  have hlt : id < files.length := by
    have := href.refs.lt fd id hfd
    rwa [← List.length_map, ← href.refs.files] at this
  have hlt' : id < g.opened.length := hall.length_eq ▸ hlt
  have ho : g.opened[id]? = some g.opened[id] := List.getElem?_eq_getElem hlt'
  obtain ⟨dep, file, hdep, hfile, -⟩ := (hall.get hlt hlt').file
  have hpath := depOf_spec hdep
  obtain ⟨file', hfile', hpath⟩ := hpath
  obtain rfl : file = file' := Option.some.inj (hfile.symm.trans hfile')
  refine ⟨g.opened[id], dep, file, ho, ?_, hfile, hpath⟩
  rw [h.fileFd, hfd, Option.bind_some, ho, Option.bind_some]
  exact hdep

theorem fileFd_eq_none_iff (h : TrackInv s g) (fd : Int32) : s.fileFd fd = none ↔ g.fds fd = none := by
  constructor
  · intro hnone
    cases hfd : g.fds fd with
    | none => rfl
    | some id =>
      obtain ⟨o, dep, file, -, hdep, -⟩ := h.fileFd_of_bound hfd
      rw [hnone] at hdep
      cases hdep
  · intro hnone
    rw [h.fileFd, hnone]
    rfl

/-- Being in step is following. -/
theorem follows (h : TrackInv s g) : Follows s g := by
  obtain ⟨files, href, hall⟩ := h.table
  have hlook : ∀ fd id, g.fds fd = some id → ∃ o, provFdTableLookup s.table fd = some ⟨id + 1, o⟩ ∧
      files[id]? = some o.file := by
    intro fd id hfd
    have hl := lookup_eq href fd
    change (match g.fds fd with | none => _ | some id => _) at hl
    rw [hfd] at hl
    obtain ⟨o, -, hlook, hfile, -⟩ := hl
    exact ⟨o, hlook, hfile⟩
  have hnone : ∀ fd, g.fds fd = none → provFdTableLookup s.table fd = none := by
    intro fd hfd
    have hl := lookup_eq href fd
    change (match g.fds fd with | none => _ | some id => _) at hl
    rwa [hfd] at hl
  have hdescr : ∀ (id : ℕ) (f : OpenFile) (o : OpenedFile), files[id]? = some f →
      g.opened[id]? = some o → Describes s.fileDeps f o := by
    intro id f o hf ho
    obtain ⟨hlt, rfl⟩ := List.getElem?_eq_some_iff.mp hf
    obtain ⟨hlt', rfl⟩ := List.getElem?_eq_some_iff.mp ho
    exact hall.get hlt hlt'
  constructor
  · intro fd
    cases hfd : g.fds fd with
    | none =>
      rw [trackedFile, (h.fileFd_eq_none_iff fd).mpr hfd]
      rfl
    | some id =>
      obtain ⟨o, dep, file, ho, hdep, hfile, hpath⟩ := h.fileFd_of_bound hfd
      rw [trackedFile, hdep, Option.bind_some, hfile, Option.bind_some, ho, Option.map_some,
        Option.map_some, hpath]
  · intro fd
    cases hfd : g.fds fd with
    | none =>
      rw [hnone fd hfd]
      rfl
    | some id =>
      obtain ⟨o, hv, hfile⟩ := hlook fd id hfd
      obtain ⟨o', dep, file, ho', -⟩ := h.fileFd_of_bound hfd
      have hd := hdescr id o.file o' hfile ho'
      rw [hv, Option.bind_some, ho', Option.map_some, Option.map_some, ← hd.offset, ← hd.flags]
      rfl
  · intro fd v file hv htracked
    cases hfd : g.fds fd with
    | none =>
      rw [hnone fd hfd] at hv
      cases hv
    | some id =>
      obtain ⟨o, hv', hfile⟩ := hlook fd id hfd
      obtain ⟨o', dep, file', ho', hdep, hfile', hpath⟩ := h.fileFd_of_bound hfd
      obtain ⟨dep', file₂, hdep', hfile₂, hres⟩ := (hdescr id o.file o' hfile ho').file
      have hsame : dep = dep' := by
        have hfd' := h.fileFd fd
        rw [hfd, Option.bind_some, ho', Option.bind_some, hdep', hdep] at hfd'
        exact Option.some.inj hfd'
      rw [trackedFile, hdep, Option.bind_some, hsame, hfile₂] at htracked
      rw [hv'] at hv
      rw [← Option.some.inj hv, ← Option.some.inj htracked]
      exact hres

end TrackInv

/-! ### One call -/

/-- The flags argument of an `open`. -/
def openFlags (call : Syscall) : BitVec 32 :=
  (if call.num = 5 then call.a2 else call.a3).setWidth 32

theorem captureOpen_eq (call : Syscall) (flags : BitVec 32) : captureOpen call flags =
    (followedPath call).map fun path => ⟨path, isLibPath path, (flags &&& 3#32) != 0, flags⟩ := by
  unfold captureOpen followedPath
  cases call.path with
  | none => rfl
  | some path =>
    by_cases hvalid : isValidPath path = true
    · have hne : path ≠ [] := by
        rintro rfl
        cases hvalid
      simp [hvalid, hne]
    · simp [hvalid]

theorem followedPath_spec {call : Syscall} {path : Path} (h : followedPath call = some path) :
    path ≠ [] ∧ path.length < sizeMax := by
  have hvalid : isValidPath path = true := (Option.filter_eq_some_iff.mp h).2
  match path, hvalid with
  | slash :: c :: rest, hvalid =>
    simp only [isValidPath, Bool.and_eq_true, decide_eq_true_eq] at hvalid
    refine ⟨List.cons_ne_nil _ _, ?_⟩
    have hlen := hvalid.1.1.2
    simp only [List.length_cons, sizeMax]
    omega

/-- The calls on which the tracking stays in step, by what they do:

* an `open` of a followed path, while memory and identifiers last;
* an `open` of another path, onto a descriptor that is not tracked;
* `dup`, `dup2` and `dup3` of a tracked descriptor, while memory lasts;
* `dup`, `dup2` and `dup3` of a descriptor that is not tracked onto one that is not either;
* a duplication through `fcntl` between descriptors that are not tracked, or are the same file;
* `_llseek`, when its result can be read from the guest or the descriptor is not tracked;
* every other call. -/
def StepOk (s : Tracker) (call : Syscall) : Prop :=
  syscallRetIsError call.ret = false ∧
  if call.IsOpen then
    match followedPath call with
    | some _ => 0 ≤ toFd call.ret ∧ s.Roomy
    | none => s.fileFd (toFd call.ret) = none
  else if call.IsDup then
    if s.fileFd (toFd call.a1) = none then s.fileFd (toFd call.ret) = none
    else 0 ≤ toFd call.ret ∧ s.table.Roomy
  else if call.IsFcntlDup then
    (provFdTableLookup s.table (toFd call.a1)).map ProvOpenFileDescriptionView.ofdId =
      (provFdTableLookup s.table (toFd call.ret)).map ProvOpenFileDescriptionView.ofdId
  else if call.num = 140 then call.seekReadable = true ∨ s.fileFd (toFd call.a1) = none
  else True

namespace TrackInv

variable {s : Tracker} {g : GuestFds}

/-- Only the two tables changed. -/
theorem ofTables (h : TrackInv s g) {s' : Tracker} {g' : GuestFds}
    (hdeps : s'.fileDeps = s.fileDeps) (hregistry : s'.registry = s.registry)
    (hscope : s'.analysisScopeId = s.analysisScopeId)
    (hpath : s'.mainImagePath = s.mainImagePath)
    (hid : s'.mainImageObjectId = s.mainImageObjectId)
    (htable : ∃ files, FdRefines s'.table ⟨g'.fds, files⟩ ∧
      List.Forall₂ (Describes s.fileDeps) files g'.opened)
    (hfd : ∀ fd, s'.fileFd fd =
      (g'.fds fd).bind fun id => (g'.opened[id]?).bind fun o => depOf s.fileDeps o.path) :
    TrackInv s' g' where
  table := by rw [hdeps]; exact htable
  fileFd := by rw [hdeps]; exact hfd
  registered file hfile := by
    rw [hdeps] at hfile
    exact (h.registered file hfile).mono (fun i x hx => by rw [hregistry]; exact hx) hscope hpath hid
  resources := hregistry ▸ h.resources

/-- Nothing the invariant speaks of changed. -/
theorem unchanged (h : TrackInv s g) {s' : Tracker} (htable : s'.table = s.table)
    (hfd : s'.fileFd = s.fileFd) (hdeps : s'.fileDeps = s.fileDeps)
    (hregistry : s'.registry = s.registry) (hscope : s'.analysisScopeId = s.analysisScopeId)
    (hpath : s'.mainImagePath = s.mainImagePath)
    (hid : s'.mainImageObjectId = s.mainImageObjectId) : TrackInv s' g :=
  h.ofTables hdeps hregistry hscope hpath hid (by rw [htable]; exact h.table)
    (by rw [hfd]; exact h.fileFd)

/-- Duplicating a descriptor. -/
theorem dup (h : TrackInv s g) (oldFd newFd : Int32)
    (hok : if s.fileFd oldFd = none then s.fileFd newFd = none else 0 ≤ newFd ∧ s.table.Roomy) :
    (∃ files, FdRefines (provFdTableDup s.table oldFd newFd).2
        ⟨Function.update g.fds newFd (g.fds oldFd), files⟩ ∧
      List.Forall₂ (Describes s.fileDeps) files g.opened) ∧
    ∀ fd, (match s.fileFd oldFd with
        | some file => Function.update s.fileFd newFd (some file)
        | none => s.fileFd) fd =
      (Function.update g.fds newFd (g.fds oldFd) fd).bind fun id =>
        (g.opened[id]?).bind fun o => depOf s.fileDeps o.path := by
  obtain ⟨files, href, hall⟩ := h.table
  have hdup := href.dup oldFd newFd
  cases hold : s.fileFd oldFd with
  | none =>
    -- neither descriptor is tracked, and nothing happens
    rw [if_pos hold] at hok
    have hgold := (h.fileFd_eq_none_iff oldFd).mp hold
    have hsame : Function.update g.fds newFd (g.fds oldFd) = g.fds := by
      rw [hgold, ← (h.fileFd_eq_none_iff newFd).mp hok, Function.update_eq_self]
    rw [hsame]
    refine ⟨⟨files, ?_, hall⟩, h.fileFd⟩
    revert hdup
    rcases provFdTableDup s.table oldFd newFd with ⟨_ | id, t'⟩
    · exact fun hdup => hdup.1
    · rintro ⟨-, hbound, -⟩
      rw [show g.fds oldFd = _ from hbound] at hgold
      cases hgold
  | some dep =>
    rw [if_neg (by rw [hold]; exact Option.some_ne_none dep)] at hok
    constructor
    · refine ⟨files, ?_, hall⟩
      have hgold : g.fds oldFd ≠ none := fun hnone => by
        rw [(h.fileFd_eq_none_iff oldFd).mpr hnone] at hold
        cases hold
      obtain ⟨id, hid⟩ := Option.ne_none_iff_exists'.mp hgold
      have hstep : PosixFds.step ⟨g.fds, files⟩ (.dup oldFd newFd) =
          some ⟨Function.update g.fds newFd (g.fds oldFd), files⟩ := by
        rw [PosixFds.step, if_neg (Int32.not_lt.mpr hok.1)]
        change (g.fds oldFd).map _ = _
        rw [hid]
        rfl
      revert hdup
      rcases provFdTableDup s.table oldFd newFd with ⟨_ | id', t'⟩
      · rintro ⟨-, hnone⟩
        rw [hnone hok.2] at hstep
        cases hstep
      · rintro ⟨-, -, p', hp', href'⟩
        rw [hstep] at hp'
        rw [Option.some.inj hp']
        exact href'
    · intro fd
      by_cases hfd : fd = newFd
      · subst hfd
        simp only [Function.update_self]
        rw [← h.fileFd oldFd, hold]
      · simp only [Function.update_of_ne hfd]
        exact h.fileFd fd

/-- Closing a descriptor. -/
theorem close (h : TrackInv s g) (fd : Int32) :
    (∃ files, FdRefines (provFdTableClose s.table fd).2
        ⟨Function.update g.fds fd none, files⟩ ∧
      List.Forall₂ (Describes s.fileDeps) files g.opened) ∧
    ∀ fd', Function.update s.fileFd fd none fd' =
      (Function.update g.fds fd none fd').bind fun id =>
        (g.opened[id]?).bind fun o => depOf s.fileDeps o.path := by
  obtain ⟨files, href, hall⟩ := h.table
  have hclose := href.close fd
  constructor
  · refine ⟨files, ?_, hall⟩
    revert hclose
    rcases provFdTableClose s.table fd with ⟨_ | _, t'⟩
    · rintro ⟨hnone, href'⟩
      have hgfd : g.fds fd = none := by
        rw [PosixFds.step] at hnone
        exact Option.map_eq_none_iff.mp hnone
      rwa [show Function.update g.fds fd none = g.fds by rw [← hgfd, Function.update_eq_self]]
    · rintro ⟨p', hp', href'⟩
      rw [PosixFds.step] at hp'
      obtain ⟨_, -, rfl⟩ := Option.map_eq_some_iff.mp hp'
      exact href'
  · intro fd'
    by_cases hfd : fd' = fd
    · subst hfd
      simp only [Function.update_self]
      rfl
    · simp only [Function.update_of_ne hfd]
      exact h.fileFd fd'

/-- Seeking in the file of a descriptor. -/
theorem seek (h : TrackInv s g) (fd : Int32) (offset : ℕ) :
    (∃ files, FdRefines (provFdTableSetOffset s.table fd offset).2 ⟨(g.seek fd offset).fds, files⟩ ∧
      List.Forall₂ (Describes s.fileDeps) files (g.seek fd offset).opened) ∧
    ∀ fd', s.fileFd fd' = ((g.seek fd offset).fds fd').bind fun id =>
      ((g.seek fd offset).opened[id]?).bind fun o => depOf s.fileDeps o.path := by
  obtain ⟨files, href, hall⟩ := h.table
  have hmove := href.moveOffset fd fun _ => some offset
  rw [← provFdTableSetOffset] at hmove
  cases hfd : g.fds fd with
  | none =>
    have hseek : g.seek fd offset = g := by rw [GuestFds.seek, hfd]
    rw [hseek]
    refine ⟨⟨files, ?_, hall⟩, h.fileFd⟩
    revert hmove
    rcases provFdTableSetOffset s.table fd offset with ⟨_ | _, t'⟩
    · exact fun hmove => hmove.2
    · rintro ⟨p', hp', -⟩
      rw [PosixFds.seek, show (PosixFds.mk g.fds files).fds fd = none from hfd] at hp'
      cases hp'
  | some id =>
    obtain ⟨o, dep, file, ho, -⟩ := h.fileFd_of_bound hfd
    have hlt : id < g.opened.length := (List.getElem?_eq_some_iff.mp ho).1
    have hseek : g.seek fd offset =
        { g with opened := g.opened.modify id fun file => { file with offset := offset } } := by
      rw [GuestFds.seek, hfd]
    have hget : ∀ i : ℕ, (g.opened.modify id fun file => { file with offset := offset })[i]?.bind
        (fun o : OpenedFile => depOf s.fileDeps o.path) =
          (g.opened[i]?).bind fun o : OpenedFile => depOf s.fileDeps o.path := by
      intro i
      rw [List.getElem?_modify]
      cases g.opened[i]? with
      | none => rfl
      | some o => split_ifs <;> rfl
    rw [hseek]
    refine ⟨?_, fun fd' => ?_⟩
    · have hlt' : id < files.length := hall.length_eq ▸ hlt
      have hf : files[id]? = some files[id] := List.getElem?_eq_getElem hlt'
      have hp : PosixFds.seek ⟨g.fds, files⟩ fd (fun _ => some offset) =
          some ⟨g.fds, files.set id { files[id] with offset := offset }⟩ := by
        rw [PosixFds.seek]
        simp only [hfd, hf, Option.bind_eq_bind, Option.bind_some]
        rfl
      refine ⟨files.set id { files[id] with offset := offset }, ?_, ?_⟩
      · revert hmove
        rcases provFdTableSetOffset s.table fd offset with ⟨_ | _, t'⟩
        · rintro ⟨hnone, -⟩
          rw [hnone] at hp
          cases hp
        · rintro ⟨p', hp', href'⟩
          rw [hp] at hp'
          rw [Option.some.inj hp']
          exact href'
      · rw [List.forall₂_iff_get]
        refine ⟨by rw [List.length_set, List.length_modify, hall.length_eq], fun i hi hi' => ?_⟩
        rw [List.length_set] at hi
        rw [List.length_modify] at hi'
        have hd := hall.get hi hi'
        simp only [List.get_eq_getElem, List.getElem_set, List.getElem_modify]
        by_cases hid : id = i
        · subst hid
          rw [if_pos rfl, if_pos rfl]
          exact ⟨rfl, hd.flags, hd.file⟩
        · rw [if_neg hid, if_neg hid]
          exact hd
    · rw [h.fileFd fd']
      cases g.fds fd' with
      | none => rfl
      | some id' => exact (hget id').symm

/-- Opening a followed path. -/
theorem openFile (h : TrackInv s g) (hroomy : s.Roomy) {call : Syscall} {path : Path}
    (hpath : followedPath call = some path) (hfd : 0 ≤ toFd call.ret) (flags : BitVec 32) :
    ∃ s', applyPendingOpen { s with
        pendingOpen := some ⟨path, isLibPath path, (flags &&& 3#32) != 0, flags⟩ } call = s' ∧
      s'.pendingFd = s.pendingFd ∧
      TrackInv s'
        { fds := Function.update g.fds (toFd call.ret) (some g.opened.length)
          opened := g.opened ++ [⟨path, 0, flags⟩] } := by
  obtain ⟨hne, hlen⟩ := followedPath_spec hpath
  set s₀ : Tracker := { s with
    pendingOpen := some ⟨path, isLibPath path, (flags &&& 3#32) != 0, flags⟩ } with hs₀
  have h₀ : TrackInv s₀ g := h.unchanged rfl rfl rfl rfl rfl rfl rfl
  have hroomy₀ : s₀.Roomy := ⟨hroomy.files, hroomy.resources, hroomy.table, hroomy.object⟩
  obtain ⟨dep, s₁, hadd, hadded⟩ :=
    addFileDep_spec h₀.resources h₀.registered hroomy₀ hne hlen (isLibPath path)
  obtain ⟨file, hfile, hfpath⟩ := depOf_spec hadded.own
  -- marking the entry as written keeps its path and its resource
  set mark : FileDep → FileDep := fun file =>
    { file with write := file.write || (flags &&& 3#32) != 0 } with hmark
  have hmap := map_path_modify s₁.fileDeps dep (fun _ => rfl : ∀ f, (mark f).path = f.path)
  have hget : ∀ (d : ℕ) (f : FileDep), s₁.fileDeps[d]? = some f →
      ∃ f', (s₁.fileDeps.modify dep mark)[d]? = some f' ∧ f'.resourceId = f.resourceId ∧
        f'.path = f.path ∧ f'.resourceObjectId = f.resourceObjectId := by
    intro d f hf
    rw [List.getElem?_modify, hf]
    refine ⟨_, rfl, ?_⟩
    split_ifs <;> exact ⟨rfl, rfl, rfl⟩
  obtain ⟨file', hfile', hres', -, -⟩ := hget dep file hfile
  have hregfile := hadded.registered file (List.mem_of_getElem? hfile)
  have hres : file'.resourceId ≠ provResourceIdInvalid := hres' ▸ hregfile.id_ne
  have happly : applyPendingOpen s₀ call =
      { s₁ with
        fileDeps := s₁.fileDeps.modify dep mark
        fileFd := Function.update s₁.fileFd (toFd call.ret) (some dep)
        table := (provFdTableBindNew s₁.registry s₁.table (toFd call.ret) file'.resourceId 0
          flags).2
        pendingOpen := none } := by
    rw [applyPendingOpen]
    simp only [hs₀] at hadd ⊢
    rw [hadd]
    dsimp only
    rw [hfile']
    simp only [hres, ne_eq, not_false_eq_true, if_true]
    rfl
  refine ⟨_, happly, hadded.frame.2.2, ?_⟩
  -- the new description
  obtain ⟨files, href, hall⟩ := h₀.table
  have hrefs₁ : FdRefines s₁.table ⟨g.fds, files⟩ := by rw [hadded.frame.1]; exact href
  have hroomy₁ : s₁.table.Roomy := by rw [hadded.frame.1]; exact hroomy₀.table
  have hbind := hrefs₁.bindNew s₁.registry (toFd call.ret) file'.resourceId 0 flags
  have hknown : (provResourceGet s₁.registry file'.resourceId).isNone = false := by
    have hkey := hregfile.key
    rw [resourceKey, ← hres'] at hkey
    obtain ⟨r, hr, -⟩ := Option.map_eq_some_iff.mp hkey
    rw [hr]
    rfl
  have hstep : PosixFds.step ⟨g.fds, files⟩
      (.bind s₁.registry (toFd call.ret) file'.resourceId 0 flags) =
        some ⟨Function.update g.fds (toFd call.ret) (some files.length),
          files ++ [⟨file'.resourceId, 0, flags⟩]⟩ := by
    rw [PosixFds.step, if_neg]
    rw [hknown]
    exact fun hor => hor.elim (Int32.not_lt.mpr hfd) Bool.noConfusion
  -- old descriptions keep describing
  have hkeep : ∀ f o, Describes s₀.fileDeps f o → Describes (s₁.fileDeps.modify dep mark) f o := by
    rintro f o ⟨hoff, hfl, d, fd, hd, hfd, hr⟩
    obtain ⟨f₁, hf₁, hr₁⟩ := hadded.resource d fd hfd
    obtain ⟨f₂, hf₂, hr₂, -, -⟩ := hget d f₁ hf₁
    exact ⟨hoff, hfl, d, f₂, by rw [depOf_congr hmap]; exact hadded.keeps _ _ hd, hf₂,
      by rw [hr, hr₂, hr₁]⟩
  have hlength : files.length = g.opened.length := hall.length_eq
  constructor
  · refine ⟨files ++ [⟨file'.resourceId, 0, flags⟩], ?_, ?_⟩
    · revert hbind
      rcases provFdTableBindNew s₁.registry s₁.table (toFd call.ret) file'.resourceId 0 flags
        with ⟨_ | id, t'⟩
      · rintro ⟨-, hnone⟩
        rw [hnone hroomy₁] at hstep
        cases hstep
      · rintro ⟨-, p', hp', href'⟩
        rw [hstep, hlength] at hp'
        rw [Option.some.inj hp']
        exact href'
    · refine List.rel_append (hall.imp hkeep) (.cons ⟨rfl, rfl, dep, file', ?_, hfile', rfl⟩ .nil)
      rw [depOf_congr hmap]
      exact hadded.own
  · intro fd
    by_cases hsame : fd = toFd call.ret
    · subst hsame
      simp only [Function.update_self, Option.bind_some]
      rw [List.getElem?_append_right (le_refl _), Nat.sub_self, List.getElem?_cons_zero,
        Option.bind_some, depOf_congr hmap, hadded.own]
    · simp only [Function.update_of_ne hsame]
      rw [hadded.frame.2.1, h₀.fileFd fd]
      cases hid : g.fds fd with
      | none => rfl
      | some id =>
        obtain ⟨o, d, _, ho, hdep, -, -⟩ := h₀.fileFd_of_bound hid
        rw [h₀.fileFd, hid, Option.bind_some, ho, Option.bind_some] at hdep
        rw [Option.bind_some, Option.bind_some,
          List.getElem?_append_left (List.getElem?_eq_some_iff.mp ho).1, ho, Option.bind_some,
          Option.bind_some, depOf_congr hmap, hadded.keeps _ _ hdep, hdep]
  · intro f hf
    obtain ⟨d, hd⟩ := List.mem_iff_getElem?.mp hf
    rw [List.getElem?_modify] at hd
    obtain ⟨f₁, hf₁, rfl⟩ := Option.map_eq_some_iff.mp hd
    have hreg := hadded.registered f₁ (List.mem_of_getElem? hf₁)
    refine Registered.mono (s := s₁) (hreg.congr ?_ ?_ ?_) (fun _ _ hx => hx) rfl rfl rfl
    all_goals split_ifs <;> rfl
  · exact hadded.resources

end TrackInv

/-! ### Runs -/

/-- One call on which the tracking stays in step. -/
theorem trackSyscall_inv {s : Tracker} {g : GuestFds} (h : TrackInv s g) {call : Syscall}
    (hok : StepOk s call) : TrackInv (trackSyscall s call) (g.step call) := by
  obtain ⟨hsucc, hok⟩ := hok
  have hret : ∀ t, vcpuSyscallRet t call = applyPendingFdSuccess (applyPendingOpen t call) call := by
    intro t
    rw [vcpuSyscallRet, hsucc, if_neg Bool.noConfusion]
  rw [trackSyscall, hret]
  by_cases hopen : call.IsOpen
  · -- an `open`: only the open is pending
    have hentry : vpcuSyscall s call =
        { s with pendingOpen := captureOpen call (openFlags call), pendingFd := none } := by
      unfold vpcuSyscall openFlags
      rcases hopen with hnum | hnum <;> simp [hnum]
    rw [if_pos hopen] at hok
    rw [hentry, captureOpen_eq, GuestFds.step, if_pos hopen]
    cases hpath : followedPath call with
    | none =>
      rw [hpath] at hok
      have hgret := (h.fileFd_eq_none_iff (toFd call.ret)).mp hok
      simp only
      rw [← hgret, Function.update_eq_self]
      exact h.unchanged rfl rfl rfl rfl rfl rfl rfl
    | some path =>
      rw [hpath] at hok
      have h₀ : TrackInv { s with pendingFd := none } g := h.unchanged rfl rfl rfl rfl rfl rfl rfl
      have hroomy₀ : Tracker.Roomy { s with pendingFd := none } :=
        ⟨hok.2.files, hok.2.resources, hok.2.table, hok.2.object⟩
      obtain ⟨s', happly, hpending, hinv⟩ :=
        h₀.openFile hroomy₀ hpath hok.1 (openFlags call)
      simp only [Option.map_some]
      rw [happly, applyPendingFdSuccess, hpending]
      exact hinv
  -- no other call leaves an open pending
  rw [if_neg hopen] at hok
  obtain ⟨h5, h295⟩ := not_or.mp hopen
  have hnoOpen : ∀ pending, applyPendingOpen
      { s with pendingOpen := none, pendingFd := pending } call =
        { s with pendingOpen := none, pendingFd := pending } := fun _ => rfl
  rw [GuestFds.step, if_neg hopen]
  by_cases hdup : call.IsDup
  · have hentry : vpcuSyscall s call =
        { s with pendingOpen := none, pendingFd := pendingFdCapture call .dup } := by
      unfold vpcuSyscall
      rcases hdup with hnum | hnum | hnum <;> simp [hnum]
    rw [if_pos hdup] at hok
    obtain ⟨htable, hfd⟩ := h.dup (toFd call.a1) (toFd call.ret) hok
    rw [hentry, hnoOpen, if_pos (.inl hdup)]
    simp only [applyPendingFdSuccess, pendingFdCapture, ne_eq, not_true, if_false]
    exact h.ofTables rfl rfl rfl rfl rfl htable hfd
  rw [if_neg hdup] at hok
  obtain ⟨h41, h63, h330⟩ : call.num ≠ 41 ∧ call.num ≠ 63 ∧ call.num ≠ 330 := by
    have hnot := hdup
    unfold Syscall.IsDup at hnot
    omega
  by_cases hfcntl : call.IsFcntlDup
  · -- the plugin does not see it; it must not matter
    have hnum := hfcntl.1
    have hentry : vpcuSyscall s call = { s with pendingOpen := none, pendingFd := none } := by
      unfold vpcuSyscall
      rcases hnum with hnum | hnum <;> simp [hnum]
    rw [if_pos hfcntl] at hok
    have hsame : g.fds (toFd call.a1) = g.fds (toFd call.ret) := by
      obtain ⟨files, href, -⟩ := h.table
      have hold := lookup_eq href (toFd call.a1)
      have hnew := lookup_eq href (toFd call.ret)
      change (match g.fds (toFd call.a1) with | none => _ | some id => _) at hold
      change (match g.fds (toFd call.ret) with | none => _ | some id => _) at hnew
      revert hold hnew
      rcases g.fds (toFd call.a1) with _ | id <;> rcases g.fds (toFd call.ret) with _ | id'
      · exact fun _ _ => rfl
      · rintro hold ⟨o, -, hnew, -⟩
        rw [hold, hnew] at hok
        cases hok
      · rintro ⟨o, -, hold, -⟩ hnew
        rw [hold, hnew] at hok
        cases hok
      · rintro ⟨o, -, hold, -⟩ ⟨o', -, hnew, -⟩
        rw [hold, hnew] at hok
        simpa using hok
    rw [hentry, hnoOpen, if_pos (.inr hfcntl), hsame, Function.update_eq_self]
    exact h.unchanged rfl rfl rfl rfl rfl rfl rfl
  rw [if_neg hfcntl] at hok
  rw [if_neg (not_or.mpr ⟨hdup, hfcntl⟩)]
  by_cases hclose : call.num = 6
  · have hentry : vpcuSyscall s call =
        { s with pendingOpen := none, pendingFd := pendingFdCapture call .close } := by
      unfold vpcuSyscall
      simp [hclose]
    obtain ⟨htable, hfd⟩ := h.close (toFd call.a1)
    rw [hentry, hnoOpen, if_pos hclose]
    simp only [applyPendingFdSuccess, pendingFdCapture, ne_eq, not_true, if_false]
    exact h.ofTables rfl rfl rfl rfl rfl htable hfd
  rw [if_neg hclose]
  by_cases hlseek : call.num = 19
  · have hentry : vpcuSyscall s call =
        { s with pendingOpen := none, pendingFd := pendingFdCapture call .lseek } := by
      unfold vpcuSyscall
      simp [hlseek]
    obtain ⟨htable, hfd⟩ := h.seek (toFd call.a1) (retOffset call.ret)
    rw [hentry, hnoOpen, if_pos hlseek]
    simp only [applyPendingFdSuccess, pendingFdCapture, ne_eq, not_true, if_false]
    exact h.ofTables rfl rfl rfl rfl rfl htable hfd
  rw [if_neg hlseek]
  by_cases hllseek : call.num = 140
  · have hentry : vpcuSyscall s call =
        { s with pendingOpen := none, pendingFd := pendingFdCapture call .llseek } := by
      unfold vpcuSyscall
      simp [hllseek]
    rw [if_pos hllseek] at hok
    rw [hentry, hnoOpen, if_pos hllseek]
    simp only [applyPendingFdSuccess, pendingFdCapture, ne_eq, not_true, if_false]
    by_cases hread : call.seekReadable = true
    · obtain ⟨htable, hfd⟩ := h.seek (toFd call.a1) call.seekResult.toNat
      rw [if_pos hread]
      exact h.ofTables rfl rfl rfl rfl rfl htable hfd
    · have hnone := (h.fileFd_eq_none_iff _).mp (hok.resolve_left hread)
      rw [if_neg hread, GuestFds.seek, hnone]
      exact h.unchanged rfl rfl rfl rfl rfl rfl rfl
  rw [if_neg hllseek]
  have hentry : vpcuSyscall s call = { s with pendingOpen := none, pendingFd := none } := by
    unfold vpcuSyscall
    simp [h5, h295, h41, h63, h330, hclose, hlseek, hllseek]
  rw [hentry, hnoOpen]
  exact h.unchanged rfl rfl rfl rfl rfl rfl rfl

/-- The tracker after a run of calls. -/
def trackRun (s : Tracker) : List Syscall → Tracker
  | [] => s
  | call :: calls => trackRun (trackSyscall s call) calls

/-- The guest's descriptors after a run of calls. -/
def guestRun (g : GuestFds) : List Syscall → GuestFds
  | [] => g
  | call :: calls => guestRun (g.step call) calls

/-- Every call of the run is one on which the tracking stays in step. -/
def RunOk (s : Tracker) : List Syscall → Prop
  | [] => True
  | call :: calls => StepOk s call ∧ RunOk (trackSyscall s call) calls

theorem trackRun_inv : ∀ (calls : List Syscall) {s : Tracker} {g : GuestFds}, TrackInv s g →
    RunOk s calls → TrackInv (trackRun s calls) (guestRun g calls)
  | [], _, _, h, _ => h
  | _ :: calls, _, _, h, hok => trackRun_inv calls (trackSyscall_inv h hok.1) hok.2

/-- A registry as the guest finds it: created, and given any resources since. -/
inductive BuiltRegistry : ProvRegistry → Prop
  | create {maxRoots : ℕ} {heap : Heap} {registry : ProvRegistry} :
      provRegistryCreate maxRoots heap = some registry → BuiltRegistry registry
  | intern {registry : ProvRegistry} (key : ProvResourceKey) (name : Option Path)
      (roles : BitVec 32) : BuiltRegistry registry →
      BuiltRegistry (provResourceIntern registry key name roles).2

/-- A tracker before the first call: created tables, no file followed. -/
structure Tracker.Fresh (s : Tracker) : Prop where
  table : ∃ heap, provFdTableCreate heap = some s.table
  registry : BuiltRegistry s.registry
  fileDeps : s.fileDeps = []
  fileFd : s.fileFd = fun _ => none

theorem BuiltRegistry.resourcesWF {registry : ProvRegistry} (h : BuiltRegistry registry) :
    ResourcesWF registry := by
  induction h with
  | create hcreate => exact provRegistryCreate_resourcesWF hcreate
  | intern key name roles _ ih =>
    obtain ⟨id, registry', hintern, hi⟩ := provResourceIntern_spec ih key name roles
    rw [hintern]
    exact hi.wf

theorem Tracker.Fresh.inv {s : Tracker} (h : s.Fresh) : TrackInv s GuestFds.empty where
  table := by
    obtain ⟨heap, hcreate⟩ := h.table
    exact ⟨[], provFdTableCreate_refines hcreate, .nil⟩
  fileFd fd := by rw [h.fileFd]; rfl
  registered file hfile := by
    rw [h.fileDeps] at hfile
    exact absurd hfile List.not_mem_nil
  resources := h.registry.resourcesWF

/-- **Descriptor tracking follows the guest** along every run of calls on which it stays in step. -/
theorem trackRun_follows (s : Tracker) (hs : s.Fresh) (calls : List Syscall)
    (hok : RunOk s calls) : Follows (trackRun s calls) (guestRun GuestFds.empty calls) :=
  (trackRun_inv calls hs.inv hok).follows

/-- A tracker that was just installed, with memory to spare. -/
def freshTracker : Tracker :=
  { fileDeps := []
    fileFd := fun _ => none
    sockets := fun _ => false
    table := (provFdTableCreate ⟨fun _ => true⟩).getD ⟨[], 0, [], 0, 0, ⟨fun _ => true⟩⟩
    registry := (provRegistryCreate 32 ⟨fun _ => true⟩).getD oneFileRegistry
    analysisScopeId := 1
    mainImagePath := none
    mainImageObjectId := 0
    nextResourceObjectId := 1
    heap := ⟨fun _ => true⟩
    pendingOpen := none
    pendingFd := none }

theorem freshTracker_fresh : freshTracker.Fresh where
  table := ⟨⟨fun _ => true⟩, rfl⟩
  registry := by
    have hsome : (provRegistryCreate 32 ⟨fun _ => true⟩).isSome = true := by decide
    obtain ⟨registry, hregistry⟩ := Option.isSome_iff_exists.mp hsome
    refine @BuiltRegistry.create 32 ⟨fun _ => true⟩ _ ?_
    rw [freshTracker, hregistry, Option.getD_some]
  fileDeps := rfl
  fileFd := rfl

/-- `open("/a")`, which returns 3. -/
def openAThree : Syscall :=
  { num := 5, a1 := 0x1000, a2 := 0, a3 := 0, path := some [47, 97]
    seekResult := 0, seekReadable := false, ret := 3 }

/-- `dup2(0, new)` -/
def dupStdin (new : BitVec 64) : Syscall :=
  { num := 63, a1 := 0, a2 := new, a3 := 0, path := none
    seekResult := 0, seekReadable := false, ret := new }

/-- Open a file, then duplicate standard input to a descriptor that is not tracked. -/
theorem trackRun_follows_open : RunOk freshTracker [openAThree, dupStdin 1] ∧
    Follows (trackRun freshTracker [openAThree, dupStdin 1])
      (guestRun GuestFds.empty [openAThree, dupStdin 1]) := by
  have hroomy : freshTracker.Roomy :=
    { files := fun _ => rfl
      resources := ⟨fun _ => rfl, by decide, by decide⟩
      table := ⟨fun _ => rfl, by decide, by decide⟩
      object := by decide }
  have hopen : StepOk freshTracker openAThree := by
    have hpath : followedPath openAThree = some [47, 97] := by decide
    refine ⟨by decide, ?_⟩
    rw [if_pos (by decide), hpath]
    exact ⟨by decide, hroomy⟩
  have hdup : StepOk (trackSyscall freshTracker openAThree) (dupStdin 1) := by
    refine ⟨by decide, ?_⟩
    rw [if_neg (by decide), if_pos (by decide), if_pos (by decide)]
    decide
  have hok : RunOk freshTracker [openAThree, dupStdin 1] := ⟨hopen, hdup, trivial⟩
  exact ⟨hok, trackRun_follows freshTracker freshTracker_fresh _ hok⟩

/-- After `open("/a")` returned 3 and `dup2(0, 3)` succeeded, 3 is standard input for the guest and
still `/a` for the plugin. -/
theorem dup2_of_untracked_keeps_stale_file : ¬ ∀ (s : Tracker), s.Fresh → ∀ calls : List Syscall,
    (∀ call ∈ calls, syscallRetIsError call.ret = false) →
      Follows (trackRun s calls) (guestRun GuestFds.empty calls) := by
  intro hclaim
  have hfollows := hclaim freshTracker freshTracker_fresh [openAThree, dupStdin 3] (by decide)
  have hstale : (trackedFile (trackRun freshTracker [openAThree, dupStdin 3]) 3).map FileDep.path =
      some [47, 97] := by decide
  have hguest := hfollows.file 3
  rw [hstale] at hguest
  revert hguest
  decide

end TaintForge
