import TaintForge.Prov.FdTable

/-!
# Descriptor tracking in the plugin

The part of `qemu_unpacker.c` that follows the descriptors of the guest: `vpcuSyscall` runs when the
guest enters a system call and leaves a pending record, `vcpuSyscallRet` runs when the call returns
and applies it.  Two tables are kept: `fileFd`, from descriptors to the files the plugin follows,
and the descriptor table of the provenance registry.

System calls have their i386 numbers, since no other target has its file system calls followed.
-/

namespace TaintForge

/-- A C string without its terminator. -/
abbrev Path := List UInt8

/-! ### Followed paths -/

/-- `isalpha` in the C locale. -/
def isAlpha (c : UInt8) : Bool := (65 ≤ c && c ≤ 90) || (97 ≤ c && c ≤ 122)

/-- The printable bytes a path may not contain: `<`, `>`, `|`, `*`, `?`, `"`, `\`, `,`, `;`, `$`. -/
def forbiddenPathBytes : List UInt8 := [60, 62, 124, 42, 63, 34, 92, 44, 59, 36]

/-- `isValidPath`: an absolute path of two to 256 bytes with no unusual byte. -/
def isValidPath : Path → Bool
  | slash :: c :: rest =>
    slash == 47 && decide (rest.length + 2 ≤ 256) && (isAlpha c || c == 95 || c == 46) &&
      rest.all fun c => decide (32 ≤ c) && decide (c ≤ 126) && !forbiddenPathBytes.contains c
  | _ => false

/-- `".so"` -/
def soSuffix : Path := [46, 115, 111]

/-- `".so."` -/
def soInfix : Path := [46, 115, 111, 46]

/-- `".cache"` -/
def cacheSuffix : Path := [46, 99, 97, 99, 104, 101]

/-- Whether a path names a library. -/
def isLibPath (path : Path) : Bool :=
  (soSuffix.isSuffixOf path || decide (soInfix <:+: path)) && !cacheSuffix.isSuffixOf path

/-! ### The tracker -/

/-- `file_dep_t` -/
structure FileDep where
  path : Path
  write : Bool
  taintSource : Bool
  resourceId : ℕ
  resourceObjectId : BitVec 64
  deriving DecidableEq, Repr

/-- `pending_fd_kind_t`, less the kind that says there is none. -/
inductive PendingFdKind where
  | dup | close | lseek | llseek
  deriving DecidableEq, Repr

/-- `pending_fd_operation_t` -/
structure PendingFdOperation where
  syscallNum : ℕ
  kind : PendingFdKind
  fd : Int32
  deriving DecidableEq, Repr

/-- The `pending_open_*` variables while a path is pending. -/
structure PendingOpen where
  path : Path
  isLib : Bool
  write : Bool
  flags : BitVec 32
  deriving DecidableEq, Repr

/-- The state of the tracking.  `sockets` are the descriptors in `g_sockets`; a file dependency is
its position in `fileDeps`. -/
structure Tracker where
  fileDeps : List FileDep
  fileFd : Int32 → Option ℕ
  sockets : Int32 → Bool
  table : ProvFdTable
  registry : ProvRegistry
  analysisScopeId : BitVec 64
  mainImagePath : Option Path
  mainImageObjectId : BitVec 64
  nextResourceObjectId : BitVec 64
  heap : Heap
  pendingOpen : Option PendingOpen
  pendingFd : Option PendingFdOperation

/-- A system call of the guest: its number and arguments, what the guest memory holds where the
plugin looks (`path` at the path argument; the 64-bit `seekResult` at the result address, and
whether the plugin can read it there), and the value it returns. -/
structure Syscall where
  num : ℕ
  a1 : BitVec 64
  a2 : BitVec 64
  a3 : BitVec 64
  path : Option Path
  seekResult : BitVec 64
  seekReadable : Bool
  ret : BitVec 64
  deriving DecidableEq, Repr

/-- `(int32_t)(uint32_t)x` -/
def toFd (x : BitVec 64) : Int32 := ⟨⟨x.setWidth 32⟩⟩

/-- `fdIsTaintSource` -/
def fdIsTaintSource (s : Tracker) (fd : Int32) : Bool :=
  if fd < 0 then false
  else if s.sockets fd then true
  else
    match (s.fileFd fd).bind fun dep => s.fileDeps[dep]? with
    | some file => file.taintSource
    | none => true

/-! ### Entering a call -/

/-- What an `open` with the given flags argument leaves pending. -/
def captureOpen (call : Syscall) (flags : BitVec 32) : Option PendingOpen :=
  match call.path with
  | some path =>
    if path ≠ [] ∧ isValidPath path then
      some ⟨path, isLibPath path, (flags &&& 3#32) != 0, flags⟩
    else none
  | none => none

/-- What a call on a descriptor leaves pending. -/
def pendingFdCapture (call : Syscall) (kind : PendingFdKind) : Option PendingFdOperation :=
  some ⟨call.num, kind, toFd call.a1⟩

/-- `vpcuSyscall`: forget what was pending, then look at the number. -/
def vpcuSyscall (s : Tracker) (call : Syscall) : Tracker :=
  let s := { s with pendingOpen := none, pendingFd := none }
  if call.num = 5 then -- open
    { s with pendingOpen := captureOpen call (call.a2.setWidth 32) }
  else if call.num = 295 then -- openat
    { s with pendingOpen := captureOpen call (call.a3.setWidth 32) }
  else if call.num = 41 then -- dup
    { s with pendingFd := pendingFdCapture call .dup }
  else if call.num = 63 ∨ call.num = 330 then -- dup2, dup3
    { s with pendingFd := pendingFdCapture call .dup }
  else if call.num = 6 then -- close
    { s with pendingFd := pendingFdCapture call .close }
  else if call.num = 19 then -- lseek
    { s with pendingFd := pendingFdCapture call .lseek }
  else if call.num = 140 then -- _llseek
    { s with pendingFd := pendingFdCapture call .llseek }
  else s

/-! ### Files and their resources -/

/-- `PROV_RESOURCE_ROLE_MAIN_IMAGE` -/
def provResourceRoleMainImage : BitVec 32 := 1#32
/-- `PROV_RESOURCE_ROLE_LIBRARY_IMAGE` -/
def provResourceRoleLibraryImage : BitVec 32 := 2#32
/-- `PROV_RESOURCE_ROLE_FUZZ_INPUT` -/
def provResourceRoleFuzzInput : BitVec 32 := 4#32

/-- The key a file's resource is registered under. -/
def fileResourceKey (s : Tracker) (objectId : BitVec 64) : ProvResourceKey :=
  { kind := .file, scopeId := s.analysisScopeId, objectId := objectId, semanticVersion := 0 }

/-- Whether the file is the main image, which has an object id of its own. -/
def isMainImage (s : Tracker) (file : FileDep) : Bool :=
  decide (s.mainImagePath = some file.path) && s.mainImageObjectId != 0

/-- The file with the main image's object id, if it is the main image. -/
def withMainImage (s : Tracker) (file : FileDep) : FileDep :=
  if isMainImage s file then { file with resourceObjectId := s.mainImageObjectId } else file

/-- The file with the next object id, if it has none. -/
def withObjectId (s : Tracker) (file : FileDep) : FileDep × Tracker :=
  if file.resourceObjectId = 0 then
    ({ file with resourceObjectId := s.nextResourceObjectId },
      { s with nextResourceObjectId := s.nextResourceObjectId + 1 })
  else (file, s)

/-- `ensureFileResource`: give the file an object id and register its resource. -/
def ensureFileResource (s : Tracker) (file : FileDep) (roles : BitVec 32) : FileDep × Tracker :=
  let roles := if isMainImage s file then roles ||| provResourceRoleMainImage else roles
  let file := withMainImage s file
  if file.resourceObjectId = 0 ∧ s.nextResourceObjectId = 0 then (file, s)
  else
    let (file, s) := withObjectId s file
    let (resourceId, registry) := provResourceIntern s.registry
      (fileResourceKey s file.resourceObjectId) (some file.path) roles
    let file :=
      if resourceId ≠ provResourceIdInvalid then { file with resourceId := resourceId } else file
    (file, { s with registry := registry })

/-- `addFileDep`: the entry of a path, added when it is new. -/
def addFileDep (s : Tracker) (path : Path) (isLib : Bool) : Option ℕ × Tracker :=
  if path = [] then (none, s)
  else
    let roles := if isLib then provResourceRoleLibraryImage else provResourceRoleFuzzInput
    match s.fileDeps.findIdx? fun file => file.path == path with
    | some dep =>
      match s.fileDeps[dep]? with
      | none => (none, s)
      | some file =>
        let file := if isLib then { file with taintSource := false } else file
        let (file, s) := ensureFileResource s file roles
        (some dep, { s with fileDeps := s.fileDeps.set dep file })
    | none =>
      let (granted, heap) := s.heap.calloc 1 24
      let s := { s with heap := heap }
      if granted = false then (none, s)
      else
        let (file, s) := ensureFileResource s
          { path := path, write := false, taintSource := !isLib
            resourceId := provResourceIdInvalid, resourceObjectId := 0 } roles
        (some s.fileDeps.length, { s with fileDeps := s.fileDeps ++ [file] })

/-! ### Returning from a call -/

/-- `syscallRetIsError`: the last 4095 values are error numbers. -/
def syscallRetIsError (ret : BitVec 64) : Bool :=
  decide ((ret.setWidth 32).toNat ≥ uint32Max - 4094)

/-- A return value read as an offset: `(uint64_t)(uint32_t)ret`. -/
def retOffset (ret : BitVec 64) : ℕ := (ret.setWidth 32).toNat

/-- `applyPendingFdSuccess` -/
def applyPendingFdSuccess (s : Tracker) (call : Syscall) : Tracker :=
  match s.pendingFd with
  | none => s
  | some operation =>
    let s := { s with pendingFd := none }
    if operation.syscallNum ≠ call.num then s
    else
      match operation.kind with
      | .dup =>
        let newFd := toFd call.ret
        let fileFd :=
          match s.fileFd operation.fd with
          | some file => Function.update s.fileFd newFd (some file)
          | none => s.fileFd
        { s with fileFd := fileFd, table := (provFdTableDup s.table operation.fd newFd).2 }
      | .close =>
        { s with
          fileFd := Function.update s.fileFd operation.fd none
          table := (provFdTableClose s.table operation.fd).2 }
      | .lseek =>
        { s with table := (provFdTableSetOffset s.table operation.fd (retOffset call.ret)).2 }
      | .llseek =>
        if call.seekReadable then
          { s with table := (provFdTableSetOffset s.table operation.fd call.seekResult.toNat).2 }
        else s

/-- The pending `open`: bind the returned descriptor to the file, in both tables. -/
def applyPendingOpen (s : Tracker) (call : Syscall) : Tracker :=
  match s.pendingOpen with
  | none => s
  | some pending =>
    let fd := toFd call.ret
    let (dep, s) := addFileDep s pending.path pending.isLib
    let s :=
      match dep with
      | none => s
      | some dep =>
        let markWritten := fun file : FileDep => { file with write := file.write || pending.write }
        let s :=
          { s with
            fileDeps := s.fileDeps.modify dep markWritten
            fileFd := Function.update s.fileFd fd (some dep) }
        match s.fileDeps[dep]? with
        | none => s
        | some file =>
          if file.resourceId ≠ provResourceIdInvalid then
            { s with table :=
                (provFdTableBindNew s.registry s.table fd file.resourceId 0 pending.flags).2 }
          else s
    { s with pendingOpen := none }

/-- `vcpuSyscallRet`, the part that follows descriptors. -/
def vcpuSyscallRet (s : Tracker) (call : Syscall) : Tracker :=
  if syscallRetIsError call.ret then { s with pendingFd := none, pendingOpen := none }
  else applyPendingFdSuccess (applyPendingOpen s call) call

/-- One system call of the guest, from entry to return. -/
def trackSyscall (s : Tracker) (call : Syscall) : Tracker := vcpuSyscallRet (vpcuSyscall s call) call

end TaintForge
