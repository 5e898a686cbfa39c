import TaintForge.Lib.ByteScan
import TaintForge.Lib.PosixPath
import TaintForge.Lib.StructPack

/-!
# The file to be analysed

`elf_target.py`: what is read of an ELF file, and whether a path of the guest exists below a root
directory.  The digest of the file is a parameter, `sha256`.

* `inspectElfTarget`: `inspect_elf_target`, with what it reads of the file.
* `guestPathExists`: `guest_path_exists` in a `GuestTree`.
-/

namespace TaintForge

open StructPack (ByteOrder)

/-- What is raised: an `ElfTargetError` with its text, or the exception of `struct.unpack`. -/
inductive ElfError
  | target (text : PyStr)
  | struct
  deriving DecidableEq, Repr

/-- `_ELF_MACHINE_NAMES` -/
def elfMachineNames : List (ℕ × PyStr) :=
  [(3, py "i386"), (8, py "mips"), (40, py "arm"), (62, py "x86_64"), (183, py "aarch64")]

/-- `_ELF_TYPE_NAMES` -/
def elfTypeNames : List (ℕ × PyStr) :=
  [(0, py "none"), (1, py "relocatable"), (2, py "executable"), (3, py "shared_object"),
    (4, py "core")]

/-- The name of a number, or `unknown_` with the number. -/
def elfName (names : List (ℕ × PyStr)) (n : ℕ) : PyStr :=
  (names.lookup n).getD (py "unknown_" ++ py (toString n))

/-- `bytes.decode("utf-8")` -/
def decodeUtf8 (data : List UInt8) : Option PyStr :=
  (ByteArray.mk data.toArray).utf8Decode?.map fun chars => chars.toList.map Char.toNat

/-! ### Paths of the guest -/

/-- `_validate_guest_path` -/
def validateElfGuestPath (value : PyStr) : Except ElfError PurePosixPath :=
  let path := purePosixPath value
  if [slash].isPrefixOf value = false then
    .error (.target (py "guest path must be an absolute POSIX path"))
  else if py ".." ∈ path.parts then .error (.target (py "guest path must not contain '..'"))
  else if path.asPosix ≠ value then .error (.target (py "guest path must be normalized"))
  else .ok path

/-- `_validate_interpreter` -/
def validateInterpreter (value : PyStr) : Except ElfError PyStr := do
  let path ← validateElfGuestPath value
  if path = purePosixPath (py "/") then .error (.target (py "PT_INTERP must name a file"))
  else .ok path.asPosix

/-! ### The file -/

/-- The two classes of a file. -/
inductive ElfClass
  | elf32
  | elf64
  deriving DecidableEq, Repr

namespace ElfClass

def bits : ElfClass → ℕ
  | elf32 => 32
  | elf64 => 64

def headerSize : ElfClass → ℕ
  | elf32 => 52
  | elf64 => 64

/-- `16sHHIIIIIHHHHHH` and `16sHHIQQQIHHHHHH` -/
def headerWidths : ElfClass → List ℕ
  | elf32 => [16, 2, 2, 4, 4, 4, 4, 4, 2, 2, 2, 2, 2, 2]
  | elf64 => [16, 2, 2, 4, 8, 8, 8, 4, 2, 2, 2, 2, 2, 2]

/-- `expected_phentsize` -/
def expectedPhentsize : ElfClass → ℕ
  | elf32 => 32
  | elf64 => 56

/-- `IIIIIIII` and `IIQQQQQQ` -/
def phdrWidths : ElfClass → List ℕ
  | elf32 => [4, 4, 4, 4, 4, 4, 4, 4]
  | elf64 => [4, 4, 8, 8, 8, 8, 8, 8]

/-- `elf_class_raw` -/
def ofByte (raw : UInt8) : Option ElfClass :=
  if raw = 1 then some elf32 else if raw = 2 then some elf64 else none

end ElfClass

/-- `data_raw` -/
def byteOrderOf (raw : UInt8) : Option ByteOrder :=
  if raw = 1 then some .little else if raw = 2 then some .big else none

/-- `endianness` -/
def endianness : ByteOrder → PyStr
  | .little => py "little"
  | .big => py "big"

/-- `ElfTargetDescriptor` -/
structure ElfTargetDescriptor where
  path : PyStr
  sha256 : PyStr
  elfClass : ℕ
  endianness : PyStr
  machineId : ℕ
  machine : PyStr
  arch : PyStr
  fileTypeId : ℕ
  fileType : PyStr
  interpreter : Option PyStr
  static : Bool
  pie : Bool
  entryPoint : ℕ
  deriving DecidableEq, Repr

/-- A resolved path, and the file there. -/
structure TargetFile where
  path : PyStr
  isSymlink : Bool
  isFile : Bool
  contents : List UInt8

namespace TargetFile

/-- An `ElfTargetError` with the path behind its text. -/
def error (target : TargetFile) (text : PyStr) : ElfError := .target (text ++ py ": " ++ target.path)

/-- The class and the order of the bytes, in the first sixteen bytes. -/
def readIdent (target : TargetFile) : Scan ElfError (ElfClass × ByteOrder) := do
  let ident ← Scan.slice target.contents 0 16
  Scan.require (ident.length = 16 ∧ ident.take 4 = [0x7F, 0x45, 0x4C, 0x46])
    (target.error (py "not an ELF file"))
  let classRaw := ident.getD 4 0
  let elfClass ← Scan.ofOption (ElfClass.ofByte classRaw)
    (target.error (py "unsupported ELF class " ++ py (toString classRaw.toNat)))
  let dataRaw := ident.getD 5 0
  let order ← Scan.ofOption (byteOrderOf dataRaw)
    (target.error (py "unsupported ELF data encoding " ++ py (toString dataRaw.toNat)))
  return (elfClass, order)

end TargetFile

/-- The fields of the header that are used. -/
structure ElfHeader where
  elfClass : ElfClass
  order : ByteOrder
  eType : ℕ
  eMachine : ℕ
  eEntry : ℕ
  ePhoff : ℕ
  ePhentsize : ℕ
  ePhnum : ℕ
  deriving DecidableEq, Repr

namespace TargetFile

/-- The header. -/
def readHeader (target : TargetFile) (elfClass : ElfClass) (order : ByteOrder) :
    Scan ElfError ElfHeader := do
  let header ← Scan.slice target.contents 0 elfClass.headerSize
  Scan.require (header.length = elfClass.headerSize) (target.error (py "truncated ELF header"))
  let values ← Scan.ofOption (order.unpack elfClass.headerWidths header) .struct
  match values with
  | [_, eType, eMachine, _, eEntry, ePhoff, _, _, _, ePhentsize, ePhnum, _, _, _] =>
    return ⟨elfClass, order, eType, eMachine, eEntry, ePhoff, ePhentsize, ePhnum⟩
  | _ => Scan.fail .struct

/-- The number, the size and the place of the program headers are checked. -/
def checkTable (target : TargetFile) (header : ElfHeader) : Scan ElfError Unit := do
  Scan.require (header.ePhnum ≤ 4096)
    (target.error (py "unreasonable ELF program-header count " ++ py (toString header.ePhnum)))
  Scan.require (header.ePhnum ≠ 0 → header.elfClass.expectedPhentsize ≤ header.ePhentsize)
    (target.error (py "invalid ELF program-header size " ++ py (toString header.ePhentsize)))
  Scan.require (header.ePhnum ≠ 0 → header.elfClass.headerSize ≤ header.ePhoff ∧
      header.ePhoff + header.ePhentsize * header.ePhnum ≤ target.contents.length)
    (target.error (py "ELF program-header table is out of bounds"))

/-- The type, the offset and the size of a segment. -/
def readProgramHeader (target : TargetFile) (header : ElfHeader) (index : ℕ) :
    Scan ElfError (ℕ × ℕ × ℕ) := do
  let start := header.ePhoff + index * header.ePhentsize
  let raw ← Scan.slice target.contents start (start + header.ePhentsize)
  Scan.require (raw.length = header.ePhentsize)
    (target.error (py "truncated ELF program header " ++ py (toString index)))
  let fields ← Scan.ofOption
    (header.order.unpack header.elfClass.phdrWidths (raw.take header.elfClass.expectedPhentsize)) .struct
  match header.elfClass, fields with
  | .elf32, [pType, pOffset, _, _, pFilesz, _, _, _] => return (pType, pOffset, pFilesz)
  | .elf64, [pType, _, pOffset, _, _, pFilesz, _, _] => return (pType, pOffset, pFilesz)
  | _, _ => Scan.fail .struct

/-- The path in a segment. -/
def readInterpreter (target : TargetFile) (pOffset pFilesz : ℕ) : Scan ElfError PyStr := do
  Scan.require (2 ≤ pFilesz ∧ pFilesz ≤ 4096)
    (target.error (py "invalid PT_INTERP size " ++ py (toString pFilesz)))
  Scan.require (pOffset + pFilesz ≤ target.contents.length)
    (target.error (py "PT_INTERP is out of bounds"))
  let raw ← Scan.slice target.contents pOffset (pOffset + pFilesz)
  Scan.require (raw.length = pFilesz) (target.error (py "truncated PT_INTERP"))
  Scan.require (raw.getLast? = some 0) (target.error (py "PT_INTERP is not NUL terminated"))
  let decoded ← Scan.ofOption (decodeUtf8 raw.dropLast)
    (target.error (py "PT_INTERP is not valid UTF-8"))
  Scan.lift (validateInterpreter decoded)

/-- The loop over the program headers. -/
def readSegments (target : TargetFile) (header : ElfHeader) :
    List ℕ → Option PyStr → Scan ElfError (Option PyStr)
  | [], interpreter => return interpreter
  | index :: indices, interpreter => do
    let (pType, pOffset, pFilesz) ← target.readProgramHeader header index
    if pType ≠ 3 then target.readSegments header indices interpreter
    else do
      Scan.require (interpreter = none)
        (target.error (py "multiple PT_INTERP entries are not supported"))
      let found ← target.readInterpreter pOffset pFilesz
      target.readSegments header indices (some found)

/-- What is said about a file. -/
def descriptor (sha256 : List UInt8 → PyStr) (target : TargetFile) (header : ElfHeader)
    (interpreter : Option PyStr) : ElfTargetDescriptor :=
  let machine := elfName elfMachineNames header.eMachine
  { path := target.path
    sha256 := sha256 target.contents
    elfClass := header.elfClass.bits
    endianness := endianness header.order
    machineId := header.eMachine
    machine := machine
    arch :=
      if header.eMachine = 8 then
        if header.order = .little then py "mipsel" else py "mips"
      else machine
    fileTypeId := header.eType
    fileType := elfName elfTypeNames header.eType
    interpreter := interpreter
    static := interpreter.isNone
    pie := header.eType == 3
    entryPoint := header.eEntry }

end TargetFile

/-- `inspect_elf_target` -/
def inspectElfTarget (sha256 : List UInt8 → PyStr) (target : TargetFile) :
    Scan ElfError ElfTargetDescriptor := do
  Scan.require (target.isSymlink = false) (target.error (py "ELF target must not be a symlink"))
  Scan.require (target.isFile = true) (target.error (py "ELF target does not exist"))
  Scan.require (52 ≤ target.contents.length) (target.error (py "ELF target is too small"))
  let (elfClass, order) ← target.readIdent
  let header ← target.readHeader elfClass order
  target.checkTable header
  let interpreter ← target.readSegments header (List.range header.ePhnum) none
  return target.descriptor sha256 header interpreter

/-! ### Files of the guest -/

/-- A character that stands in a path of the host: not the zero character, and one that
`os.fsencode` encodes. -/
def IsPathChar (c : ℕ) : Prop := c ≠ 0 ∧ (PyStr.isScalar c = true ∨ 0xDC80 ≤ c ∧ c ≤ 0xDCFF)

instance (c : ℕ) : Decidable (IsPathChar c) := inferInstanceAs (Decidable (_ ∧ _))

/-- What `lstat` finds: nothing, an error of the system, a symbolic link with its target (if it can be
read), or anything else. -/
inductive LstatResult
  | missing
  | failed
  | link (target : Option PyStr)
  | entry
  deriving DecidableEq, Repr

/-- The files below a root directory as a guest path is resolved: what is found at the components that
are joined to the root, and whether that is below the root. -/
structure GuestTree where
  rootIsDir : Bool
  lstat : List PyStr → LstatResult
  isRelative : List PyStr → Bool
  /-- The root is a directory. -/
  lstat_root : rootIsDir = true → lstat [] = .entry
  /-- A target is read from the disk. -/
  link_chars : ∀ path target, lstat path = .link (some target) → ∀ c ∈ target, IsPathChar c

/-- What else is raised: `ValueError` for a path that cannot be encoded, and `OSError`. -/
inductive GuestError
  | value
  | os
  deriving DecidableEq, Repr

/-- `root.joinpath(*parts).lstat()` -/
def GuestTree.callLstat (tree : GuestTree) (path : List PyStr) : Except GuestError LstatResult :=
  if ∀ part ∈ path, ∀ c ∈ part, IsPathChar c then .ok (tree.lstat path) else .error .value

/-- `final.exists() or final.is_symlink()` -/
def GuestTree.finalExists (tree : GuestTree) (path : List PyStr) : Except GuestError Bool :=
  match tree.callLstat path with
  | .ok .missing => .ok false
  | .ok .failed => .error .os
  | .ok (.link _) => .ok true
  | .ok .entry => .ok true
  -- `exists` is false where the path cannot be encoded, and so is `is_symlink`
  | .error _ => .ok false

/-- The components of the target of a link, without the root `/`. -/
def linkParts (target : PyStr) : List PyStr :=
  let path := purePosixPath target
  if path.parts.head? = some (py "/") then path.parts.tail else path.parts

/-- The loop of `guest_path_exists`, with the components that are left, those that are resolved, and the
symbolic links that may still be followed. -/
def resolveGuestPath (tree : GuestTree) (symlinkBudget : ℕ) :
    List PyStr → List PyStr → Except GuestError Bool
  | [], resolved =>
    if tree.isRelative resolved = false then .ok false else tree.finalExists resolved
  | part :: pending, resolved =>
    if part = [] ∨ part = py "." then resolveGuestPath tree symlinkBudget pending resolved
    else if part = py ".." then
      if resolved = [] then .ok false
      else resolveGuestPath tree symlinkBudget pending resolved.dropLast
    else
      match tree.callLstat (resolved ++ [part]) with
      | .error error => .error error
      | .ok .missing => .ok false
      | .ok .failed => .ok false
      | .ok .entry => resolveGuestPath tree symlinkBudget pending (resolved ++ [part])
      | .ok (.link target?) =>
        match symlinkBudget, target? with
        | 0, _ => .ok false
        | _, none => .ok false
        | symlinkBudget + 1, some target =>
          let resolved := if (purePosixPath target).root = [] then resolved else []
          resolveGuestPath tree symlinkBudget (linkParts target ++ pending) resolved
termination_by pending => (symlinkBudget, pending)

/-- `guest_path_exists` -/
def guestPathExists (tree : GuestTree) (guestPath : PyStr) : Except GuestError Bool :=
  if tree.rootIsDir = false then .ok false
  else
    match validateElfGuestPath guestPath with
    | .error _ => .ok false
    | .ok pure => resolveGuestPath tree 40 pure.parts.tail []

end TaintForge
