import TaintForge.Env.Document
import TaintForge.Lib.DirTree
import TaintForge.Lib.PosixPath
import TaintForge.Lib.PyText

/-!
# The stubs of a reconstructed rootfs

`parse_file_dependency` reads the files that a sample depends on, and `StubFilesystemGenerator` makes a stub for
each of them in the tree `rootfs` of an empty output directory.

The only failures of the file system are those that come from the tree and from the names: a name that has no
bytes, a null byte, a name or a path that is too long.  Modes are left out.

* `validateFilePath`, `parseFileDependency`: the dependencies that are accepted.
* `createProcStub`, `createDevStub`, `createConfigStub`, `createRuntimeStub`, `createGenericStub`: the stubs.
* `generate`: the tree.
-/

namespace TaintForge

/-! ### The dependencies -/

/-- `TaintLogValidationError`. -/
structure TaintLogError where
  message : PyStr
  deriving DecidableEq

namespace TaintLog

/-- `require_dict`. -/
def requireDict (raw : Json) (context : PyStr) : Except TaintLogError (List (PyStr × Json)) :=
  match raw with
  | .obj fields => .ok fields
  | _ => .error ⟨context ++ py " must be an object/dict"⟩

/-- `require_string`. -/
def requireString (value : Json) (context : PyStr) : Except TaintLogError PyStr :=
  match value with
  | .str text => if text.strip = [] then .error ⟨context ++ py " must be a non-empty string"⟩ else .ok text
  | _ => .error ⟨context ++ py " must be a non-empty string"⟩

/-- `require_bool`. -/
def requireBool (value : Json) (context : PyStr) : Except TaintLogError Bool :=
  match value with
  | .bool b => .ok b
  | _ => .error ⟨context ++ py " must be boolean"⟩

end TaintLog

/-- `validate_file_path`. -/
def validateFilePath (path : Json) : Except TaintLogError PyStr := do
  let path ← TaintLog.requireString path (py "file_dependency.path")
  if ¬ [slash] <+: path then
    .error ⟨py "File dependency path must be absolute: " ++ path⟩
  else if py ".." ∈ (purePosixPath path).parts then
    .error ⟨py "File dependency path must not contain '..': " ++ path⟩
  else .ok (purePosixPath path).asPosix

/-- `FileDependency`, with a path that passed `validate_file_path`. -/
structure FileDependency where
  path : PyStr
  write : Bool
  accepted : ∃ raw, validateFilePath raw = .ok path

/-- `parse_file_dependency`. -/
def parseFileDependency (raw : Json) (index : ℕ) : Except TaintLogError FileDependency := do
  let context := py "file_dependencies[" ++ decimal index ++ py "]"
  let fields ← TaintLog.requireDict raw context
  match h : validateFilePath (field (py "path") fields) with
  | .error error => .error error
  | .ok path =>
    let write ← TaintLog.requireBool ((Json.lookup (py "write") fields).getD (.bool false)) (context ++ py ".write")
    return { path := path, write := write, accepted := ⟨_, h⟩ }

/-! ### The output directory -/

inductive StubError
  | unicodeEncode | nullByte | nameTooLong
  | tree (error : TreeError)
  deriving DecidableEq

/-- What the generator gets from the system: random bytes, one time after the other, and how many bytes a path
below the output directory may have. -/
structure StubHost where
  urandom : ℕ → List ℕ
  room : ℕ

/-- The output directory: names and contents are bytes. -/
abbrev StubTree := DirTree (List UInt8) (List ℕ)

/-- A name of a file. -/
def encodeFileName (name : PyStr) : Except StubError (List UInt8) :=
  match fsencode name with
  | none => .error .unicodeEncode
  | some bytes =>
    if 0 ∈ bytes then .error .nullByte
    else if 255 < bytes.length then .error .nameTooLong
    else .ok bytes

section Generator

variable (host : StubHost) (arch : PyStr)

/-- A path below the output directory. -/
def encodePath (path : List PyStr) : Except StubError (List (List UInt8)) := do
  let names ← path.mapM encodeFileName
  if host.room < (names.map fun name => name.length + 1).sum then .error .nameTooLong else return names

/-- `path.mkdir(parents=True, exist_ok=True)`. -/
def pathMkdir (tree : StubTree) (path : List PyStr) : Except StubError StubTree := do
  let names ← encodePath host path
  (tree.mkdirs names).mapError .tree

/-- `path.write_text(content)` and `path.write_bytes(content)`. -/
def pathWrite (tree : StubTree) (path : List PyStr) (content : List ℕ) : Except StubError StubTree := do
  let names ← encodePath host path
  (tree.write names content).mapError .tree

/-- `self.rootfs / relative`. -/
def joinRootfs (relative : PyStr) : List PyStr := py "rootfs" :: (purePosixPath relative).tail

/-- `rootfs_path`. -/
def rootfsPath (guestPath : PyStr) : List PyStr := joinRootfs (guestPath.dropWhile (· == slash))

/-! ### The contents -/

/-- `cpuinfo_content`. -/
def cpuinfoContent : List ℕ :=
  if arch ∈ [py "arm", py "aarch64"] then
    py "Processor       : ARMv7 Processor rev 1 (v7l)\n" ++
    py "BogoMIPS        : 38.40\n" ++
    py "Features        : half thumb fastmult vfp edsp neon vfpv3 tls\n" ++
    py "CPU implementer : 0x41\n" ++
    py "CPU architecture: 7\n" ++
    py "Hardware        : Generic IoT Board\n" ++
    py "Revision        : 0000\n" ++
    py "Serial          : 0000000000000000\n"
  else if arch ∈ [py "mips", py "mipsel"] then
    py "system type             : Atheros AR9330 rev 1\n" ++
    py "machine                 : Generic MIPS IoT Router\n" ++
    py "processor               : 0\n" ++
    py "cpu model               : MIPS 24Kc V7.4\n" ++
    py "BogoMIPS                : 265.42\n" ++
    py "wait instruction        : yes\n" ++
    py "microsecond timers      : yes\n"
  else
    py "processor   : 0\n" ++
    py "vendor_id   : GenuineIntel\n" ++
    py "model name  : Generic Embedded CPU\n"

/-- `meminfo_content`. -/
def meminfoContent : List ℕ :=
  py "MemTotal:          65536 kB\n" ++
  py "MemFree:           32768 kB\n" ++
  py "MemAvailable:      49152 kB\n" ++
  py "Buffers:            1024 kB\n" ++
  py "Cached:             8192 kB\n" ++
  py "SwapCached:            0 kB\n"

/-- `uptime_content`. -/
def uptimeContent : List ℕ := py "86400.00 43000.00\n"

/-- `proc_self_maps_content`. -/
def procSelfMapsContent : List ℕ :=
  py "00400000-0040b000 r-xp 00000000 00:00 0 /bin/unpacked.elf\n" ++
  py "0041b000-0041d000 rw-p 0000b000 00:00 0 /bin/unpacked.elf\n" ++
  py "7fff0000-80000000 rw-p 00000000 00:00 0 [stack]\n"

/-- The content of a file below `/proc`. -/
def procContent (guestPath : PyStr) : List ℕ :=
  if guestPath = py "/proc/cpuinfo" then cpuinfoContent arch
  else if guestPath = py "/proc/meminfo" then meminfoContent
  else if guestPath = py "/proc/uptime" then uptimeContent
  else if guestPath = py "/proc/self/maps" then procSelfMapsContent
  else []

/-- The content of a file below `/dev`, and how often random bytes were drawn. -/
def devContent (guestPath : PyStr) (drawn : ℕ) : List ℕ × ℕ :=
  if guestPath = py "/dev/null" then ([], drawn)
  else if guestPath = py "/dev/zero" then (List.replicate 4096 0, drawn)
  else if guestPath = py "/dev/urandom" then (host.urandom drawn, drawn + 1)
  else ([], drawn)

/-- The content of a file below `/etc`. -/
def configContent (guestPath : PyStr) : List ℕ :=
  if guestPath = py "/etc/hosts" then py "127.0.0.1 localhost\n" ++ py "127.0.0.1 stub-c2.local\n"
  else if guestPath = py "/etc/resolv.conf" then py "nameserver 127.0.0.1\n"
  else []

/-! ### The stubs -/

/-- The output directory, and how often random bytes were drawn. -/
structure StubState where
  tree : StubTree
  drawn : ℕ

/-- A file in a directory that is made for it. -/
def createFile (state : StubState) (guestPath : PyStr) (content : List ℕ) (drawn : ℕ) :
    Except StubError StubState := do
  let target := rootfsPath guestPath
  let tree ← pathMkdir host state.tree target.dropLast
  let tree ← pathWrite host tree target content
  return ⟨tree, drawn⟩

/-- `create_proc_stub`. -/
def createProcStub (state : StubState) (guestPath : PyStr) : Except StubError StubState :=
  createFile host state guestPath (procContent arch guestPath) state.drawn

/-- `create_dev_stub`. -/
def createDevStub (state : StubState) (guestPath : PyStr) : Except StubError StubState :=
  createFile host state guestPath (devContent host guestPath state.drawn).1
    (devContent host guestPath state.drawn).2

/-- `create_config_stub`. -/
def createConfigStub (state : StubState) (guestPath : PyStr) : Except StubError StubState :=
  createFile host state guestPath (configContent guestPath) state.drawn

/-- `create_runtime_stub`. -/
def createRuntimeStub (state : StubState) (guestPath : PyStr) : Except StubError StubState := do
  let target := rootfsPath guestPath
  if [slash] <:+ guestPath then
    let tree ← pathMkdir host state.tree target.dropLast
    let tree ← pathMkdir host tree target
    return { state with tree := tree }
  else createFile host state guestPath [] state.drawn

/-- `create_generic_stub`. -/
def createGenericStub (state : StubState) (guestPath : PyStr) : Except StubError StubState := do
  let target := rootfsPath guestPath
  if [slash] <:+ guestPath then
    let tree ← pathMkdir host state.tree target.dropLast
    let tree ← pathMkdir host tree target
    return { state with tree := tree }
  else createFile host state guestPath [] state.drawn

/-- `create_stub_for_dependency`. -/
def createStubForDependency (state : StubState) (dep : FileDependency) : Except StubError StubState :=
  if py "/proc/" <+: dep.path then createProcStub host arch state dep.path
  else if py "/dev/" <+: dep.path then createDevStub host state dep.path
  else if py "/etc/" <+: dep.path then createConfigStub host state dep.path
  else if py "/tmp/" <+: dep.path then createRuntimeStub host state dep.path
  else if py "/var/" <+: dep.path then createRuntimeStub host state dep.path
  else createGenericStub host state dep.path

/-- The directories of `generate_base_tree`. -/
def baseDirectories : List PyStr :=
  [py "proc", py "dev", py "tmp", py "var", py "var/run", py "etc", py "lib", py "usr", py "usr/lib", py "bin"]

/-- `generate_base_tree`. -/
def generateBaseTree (state : StubState) : Except StubError StubState :=
  baseDirectories.foldlM (fun state directory => do
    let tree ← pathMkdir host state.tree (joinRootfs directory)
    return { state with tree := tree }) state

/-- `generate_default_stubs`. -/
def generateDefaultStubs (state : StubState) : Except StubError StubState := do
  let state ← createProcStub host arch state (py "/proc/cpuinfo")
  let state ← createProcStub host arch state (py "/proc/meminfo")
  let state ← createProcStub host arch state (py "/proc/uptime")
  let state ← createDevStub host state (py "/dev/null")
  let state ← createDevStub host state (py "/dev/zero")
  let state ← createDevStub host state (py "/dev/urandom")
  let state ← createConfigStub host state (py "/etc/hosts")
  createConfigStub host state (py "/etc/resolv.conf")

/-- `generate` on an empty output directory. -/
def generate (fileDependencies : List FileDependency) : Except StubError StubTree := do
  let state ← generateBaseTree host ⟨.bare, 0⟩
  let state ← generateDefaultStubs host arch state
  let state ← fileDependencies.foldlM (createStubForDependency host arch) state
  return state.tree

end Generator

end TaintForge
