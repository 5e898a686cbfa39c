import Mathlib.Data.Finmap
import Mathlib.Data.Finset.Sort
import Mathlib.Data.List.Lex
import TaintForge.Lib.PosixPath

/-!
# Snapshots of a root directory and their differences

`rootfs_diff.py`: the files below a directory of the host are recorded, without following links and
without leaving the file system of the directory, and two such records are compared.

* `HostTree`: the files below a directory of the host, with their devices.
* `snapshotRootfs`: `snapshot_rootfs`.
* `diffSnapshots`: `diff_snapshots`.
-/

namespace TaintForge

/-! ### The files -/

/-- What stands at a path; a link may lead to a directory. -/
inductive FileKind
  | file (contents : List UInt8)
  | dir
  | symlink (target : PyStr) (toDir : Bool)
  | charDevice
  | blockDevice
  | fifo
  | socket
  | special
  deriving DecidableEq

/-- A file with its metadata, and what the system says where it cannot be looked up or read. -/
structure FileNode where
  kind : FileKind
  mode : ℕ
  uid : ℕ
  gid : ℕ
  size : ℕ
  mtimeNs : ℤ
  device : ℕ
  inode : ℕ
  lstatError : Option PyStr
  readError : Option PyStr
  deriving DecidableEq

/-- Whether `os.walk` lists it under the directories. -/
def FileNode.listedAsDir (node : FileNode) : Bool :=
  match node.kind with
  | .dir => true
  | .symlink _ toDir => toDir
  | _ => false

/-- A directory of the host and the files below it, by their components. -/
structure HostTree where
  root : PurePosixPath
  rootDevice : ℕ
  rootReadError : Option PyStr
  nodes : List (List PyStr × FileNode)
  nodup : (nodes.map Prod.fst).Nodup
  names : ∀ path node, (path, node) ∈ nodes → path ≠ [] ∧ ∀ name ∈ path, IsComponent name
  parents : ∀ path name node, (path ++ [name], node) ∈ nodes → path ≠ [] →
    ∃ parent, (path, parent) ∈ nodes ∧ parent.kind = .dir

namespace HostTree

/-- The text of a path of the host. -/
def hostPath (tree : HostTree) (path : List PyStr) : PyStr :=
  (PurePosixPath.mk tree.root.root (tree.root.tail ++ path)).asPosix

/-- The names in a directory, as they are listed. -/
def children (tree : HostTree) (path : List PyStr) : List (PyStr × FileNode) :=
  tree.nodes.filterMap fun item =>
    match item.1.getLast? with
    | some name => if item.1.dropLast = path then some (name, item.2) else none
    | none => none

/-- What the system says where a directory cannot be listed. -/
def listError (tree : HostTree) (path : List PyStr) : Option PyStr :=
  if path = [] then tree.rootReadError
  else (tree.nodes.lookup path).bind FileNode.readError

/-- `os.scandir` below `os.walk`, which passes over what cannot be listed. -/
def scandir (tree : HostTree) (path : List PyStr) : List (PyStr × FileNode) :=
  if (tree.listError path).isSome then [] else tree.children path

/-- How deep the tree is. -/
def depth (tree : HostTree) : ℕ := (tree.nodes.map fun item => item.1.length).foldr max 0

end HostTree

/-! ### Snapshots -/

/-- `SnapshotOptions` -/
structure SnapshotOptions where
  stayOnFilesystem : Bool
  hashRegularFiles : Bool
  excludePaths : List PyStr
  strict : Bool

/-- `RootfsEntry`; the field `error` is never set. -/
structure SnapshotEntry where
  path : PyStr
  type : PyStr
  mode : ℕ
  uid : ℕ
  gid : ℕ
  size : Option ℕ
  mtimeNs : ℤ
  device : ℕ
  inode : ℕ
  sha256 : Option PyStr
  symlinkTarget : Option PyStr
  deriving DecidableEq

/-- `RootfsDiffError` -/
inductive RootfsDiffError
  | relativeExclusion (raw : PyStr)
  | rootExclusion
  | cannotLstat (path exc : PyStr)
  | cannotHash (path exc : PyStr)
  | cannotReadLink (path exc : PyStr)
  | cannotSnapshot (path exc : PyStr)
  deriving DecidableEq

/-- The texts of the errors that are written down. -/
def RootfsDiffError.text : RootfsDiffError → PyStr
  | .relativeExclusion _ => py "excluded guest path must be absolute"
  | .rootExclusion => py "excluding the entire rootfs is not allowed"
  | .cannotLstat path exc => py "cannot lstat " ++ path ++ py ": " ++ exc
  | .cannotHash path exc => py "cannot hash regular file " ++ path ++ py ": " ++ exc
  | .cannotReadLink path exc => py "cannot read symlink " ++ path ++ py ": " ++ exc
  | .cannotSnapshot path exc => py "cannot snapshot " ++ path ++ py ": " ++ exc

/-- `_guest_path` -/
def guestPathText (path : List PyStr) : PyStr := (PurePosixPath.mk [slash] path).asPosix

/-- One path of `_normalize_excluded_paths` -/
def normalizeExcludedPath (raw : PyStr) : Except RootfsDiffError PyStr :=
  if [slash].isPrefixOf raw = false then .error (.relativeExclusion raw)
  else
    let normalized := (purePosixPath raw).asPosix
    if normalized = py "/" then .error .rootExclusion
    else .ok (PyStr.rstripOf slash normalized)

/-- `_normalize_excluded_paths` -/
def normalizeExcludedPaths (paths : List PyStr) : Except RootfsDiffError (List PyStr) :=
  (paths.mapM normalizeExcludedPath).map fun normalized =>
    normalized.dedup.insertionSort (· ≤ ·)

/-- `_path_is_excluded` -/
def pathIsExcluded (excluded : List PyStr) (path : PyStr) : Bool :=
  excluded.any fun item => beneath item path

/-- What is appended while a tree is walked. -/
inductive SnapshotEvent
  | entry (entry : SnapshotEntry)
  | skipped (path reason : PyStr)
  | error (path error : PyStr)
  deriving DecidableEq

section Snapshot

variable (sha256 : List UInt8 → PyStr) (tree : HostTree) (options : SnapshotOptions)

/-- The fields that all entries have. -/
def FileNode.entry (path : List PyStr) (node : FileNode) (type : PyStr) : SnapshotEntry where
  path := guestPathText path
  type := type
  mode := node.mode
  uid := node.uid
  gid := node.gid
  size := none
  mtimeNs := node.mtimeNs
  device := node.device
  inode := node.inode
  sha256 := none
  symlinkTarget := none

/-- `inspect_path` -/
def inspectPath (path : List PyStr) (node : FileNode) : Except RootfsDiffError SnapshotEntry :=
  match node.lstatError with
  | some exc => .error (.cannotLstat (tree.hostPath path) exc)
  | none =>
    match node.kind with
    | .file contents =>
      let entry := { node.entry path (py "file") with size := some node.size }
      if options.hashRegularFiles then
        match node.readError with
        | some exc => .error (.cannotHash (tree.hostPath path) exc)
        | none => .ok { entry with sha256 := some (sha256 contents) }
      else .ok entry
    | .dir => .ok (node.entry path (py "dir"))
    | .symlink target _ =>
      match node.readError with
      | some exc => .error (.cannotReadLink (tree.hostPath path) exc)
      | none => .ok { node.entry path (py "symlink") with symlinkTarget := some target }
    | .charDevice => .ok (node.entry path (py "char_device"))
    | .blockDevice => .ok (node.entry path (py "block_device"))
    | .fifo => .ok (node.entry path (py "fifo"))
    | .socket => .ok (node.entry path (py "socket"))
    | .special => .ok (node.entry path (py "special"))

/-- `_handle_snapshot_error`, of what is raised in strict mode and the text that is written down
otherwise. -/
def handleSnapshotError (path : List PyStr) (raised : RootfsDiffError) (text : PyStr) :
    Except RootfsDiffError SnapshotEvent :=
  if options.strict then .error raised else .ok (.error (guestPathText path) text)

/-- `inspect_path` with its errors handled. -/
def recordPath (path : List PyStr) (node : FileNode) : Except RootfsDiffError SnapshotEvent :=
  match inspectPath sha256 tree options path node with
  | .ok entry => .ok (.entry entry)
  | .error error => handleSnapshotError options path error error.text

/-- One name of the loop over the directories. -/
def visitDir (excluded : List PyStr) (path : List PyStr) (node : FileNode) :
    Except RootfsDiffError SnapshotEvent :=
  if pathIsExcluded excluded (guestPathText path) then
    .ok (.skipped (guestPathText path) (py "excluded"))
  else
    match node.lstatError with
    | some exc =>
      handleSnapshotError options path (.cannotSnapshot (guestPathText path) exc) exc
    | none =>
      if options.stayOnFilesystem ∧ node.device ≠ tree.rootDevice then
        .ok (.skipped (guestPathText path) (py "filesystem_boundary"))
      else recordPath sha256 tree options path node

/-- One name of the loop over the files. -/
def visitFile (excluded : List PyStr) (path : List PyStr) (node : FileNode) :
    Except RootfsDiffError SnapshotEvent :=
  if pathIsExcluded excluded (guestPathText path) then
    .ok (.skipped (guestPathText path) (py "excluded"))
  else recordPath sha256 tree options path node

/-- Whether a directory is walked: it was recorded, and is no link. -/
def isRetained (node : FileNode) (event : SnapshotEvent) : Bool :=
  match node.kind, event with
  | .dir, .entry _ => true
  | _, _ => false

/-- The loops over the names of one directory, and over those below it. -/
def walkRootfs (excluded : List PyStr) : ℕ → List PyStr → Except RootfsDiffError (List SnapshotEvent)
  | 0, _ => .ok []
  | fuel + 1, path => do
    let names := (tree.scandir path).insertionSort fun a b => a.1 ≤ b.1
    let dirs := names.filter fun item => item.2.listedAsDir
    let files := names.filter fun item => !item.2.listedAsDir
    let dirEvents ← dirs.mapM fun item =>
      visitDir sha256 tree options excluded (path ++ [item.1]) item.2
    let fileEvents ← files.mapM fun item =>
      visitFile sha256 tree options excluded (path ++ [item.1]) item.2
    let retained := (dirs.zip dirEvents).filter fun item => isRetained item.1.2 item.2
    let below ← retained.mapM fun item => walkRootfs excluded fuel (path ++ [item.1.1])
    return dirEvents ++ fileEvents ++ below.flatten

/-- The entries of a snapshot, by their paths. -/
abbrev EntryMap := Finmap fun _ : PyStr => SnapshotEntry

/-- Every entry stands at its path. -/
def EntryMap.Keyed (entries : EntryMap) : Prop :=
  ∀ path entry, entries.lookup path = some entry → entry.path = path

/-- What `snapshot_rootfs` returns. -/
structure Snapshot where
  rootfs : PyStr
  rootDevice : ℕ
  entries : EntryMap
  skipped : List (PyStr × PyStr)
  errors : List (PyStr × PyStr)
  keyed : entries.Keyed

/-- `entries[entry.path] = asdict(entry)` -/
def insertEntry (entries : EntryMap) : SnapshotEvent → EntryMap
  | .entry entry => entries.insert entry.path entry
  | _ => entries

theorem EntryMap.Keyed.foldl {entries : EntryMap} (h : entries.Keyed) (events : List SnapshotEvent) :
    EntryMap.Keyed (events.foldl insertEntry entries) := by
  induction events generalizing entries with
  | nil => exact h
  | cons event events ih =>
    apply ih
    cases event with
    | entry entry =>
      intro path entry' hlookup
      by_cases hpath : path = entry.path
      · subst hpath
        rw [insertEntry, Finmap.lookup_insert] at hlookup
        rw [← Option.some.inj hlookup]
      · rw [insertEntry, Finmap.lookup_insert_of_ne _ hpath] at hlookup
        exact h path entry' hlookup
    | skipped path reason => exact h
    | error path error => exact h

/-- The path and the reason, where something is skipped. -/
def SnapshotEvent.skip? : SnapshotEvent → Option (PyStr × PyStr)
  | .skipped path reason => some (path, reason)
  | _ => none

/-- The path and the text, where something fails. -/
def SnapshotEvent.error? : SnapshotEvent → Option (PyStr × PyStr)
  | .error path text => some (path, text)
  | _ => none

/-- `snapshot_rootfs` -/
def snapshotRootfs : Except RootfsDiffError Snapshot := do
  let excluded ← normalizeExcludedPaths options.excludePaths
  let events ← walkRootfs sha256 tree options excluded (tree.depth + 1) []
  return {
    rootfs := tree.root.asPosix
    rootDevice := tree.rootDevice
    entries := events.foldl insertEntry ∅
    skipped := events.filterMap SnapshotEvent.skip?
    errors := events.filterMap SnapshotEvent.error?
    keyed := EntryMap.Keyed.foldl (fun path entry h => absurd h (by simp)) events }

end Snapshot

/-! ### Differences -/

/-- The values of the fields that are compared. -/
inductive FieldValue
  | null
  | text (value : PyStr)
  | number (value : ℤ)
  deriving DecidableEq

/-- The number of a size, if there is one. -/
def FieldValue.ofSize : Option ℕ → FieldValue
  | none => .null
  | some size => .number size

/-- A text, if there is one. -/
def FieldValue.ofText : Option PyStr → FieldValue
  | none => .null
  | some value => .text value

/-- The fields of `compare_entries`, with how an entry is asked for them. -/
def comparedFields : List (PyStr × (SnapshotEntry → FieldValue)) :=
  [(py "type", fun entry => .text entry.type), (py "mode", fun entry => .number entry.mode),
    (py "uid", fun entry => .number entry.uid), (py "gid", fun entry => .number entry.gid),
    (py "size", fun entry => .ofSize entry.size), (py "sha256", fun entry => .ofText entry.sha256),
    (py "symlink_target", fun entry => .ofText entry.symlinkTarget),
    (py "device", fun entry => .number entry.device)]

/-- A field with its values before and after. -/
structure FieldChange where
  field : PyStr
  before : FieldValue
  after : FieldValue
  deriving DecidableEq

/-- `compare_entries` -/
def compareEntries (old new : SnapshotEntry) : List FieldChange :=
  let changes := comparedFields.filterMap fun field =>
    if field.2 old = field.2 new then none else some ⟨field.1, field.2 old, field.2 new⟩
  if changes = [] ∧ old.mtimeNs ≠ new.mtimeNs then
    [⟨py "mtime_ns", .number old.mtimeNs, .number new.mtimeNs⟩]
  else changes

/-- An entry that is in both snapshots and has changed. -/
structure ModifiedEntry where
  path : PyStr
  typeBefore : PyStr
  typeAfter : PyStr
  changes : List FieldChange
  before : SnapshotEntry
  after : SnapshotEntry
  deriving DecidableEq

/-- What `diff_snapshots` returns. -/
structure SnapshotDiff where
  rootfsBefore : PyStr
  rootfsAfter : PyStr
  createdCount : ℕ
  modifiedCount : ℕ
  deletedCount : ℕ
  created : List SnapshotEntry
  modified : List ModifiedEntry
  deleted : List SnapshotEntry
  beforeSkippedCount : ℕ
  afterSkippedCount : ℕ
  beforeErrorCount : ℕ
  afterErrorCount : ℕ
  deriving DecidableEq

/-- The entries at some paths, sorted by these. -/
def entriesAt (entries : EntryMap) (paths : Finset PyStr) : List SnapshotEntry :=
  (paths.sort (· ≤ ·)).filterMap fun path => entries.lookup path

/-- What has become of an entry that is in both snapshots. -/
def modifiedEntry (old new : EntryMap) (path : PyStr) : Option ModifiedEntry :=
  match old.lookup path, new.lookup path with
  | some before, some after =>
    let changes := compareEntries before after
    if changes = [] then none else some ⟨path, before.type, after.type, changes, before, after⟩
  | _, _ => none

/-- `diff_snapshots` -/
def diffSnapshots (before after : Snapshot) : SnapshotDiff :=
  let created := entriesAt after.entries (after.entries.keys \ before.entries.keys)
  let deleted := entriesAt before.entries (before.entries.keys \ after.entries.keys)
  let modified := ((before.entries.keys ∩ after.entries.keys).sort (· ≤ ·)).filterMap
    (modifiedEntry before.entries after.entries)
  { rootfsBefore := before.rootfs
    rootfsAfter := after.rootfs
    createdCount := created.length
    modifiedCount := modified.length
    deletedCount := deleted.length
    created := created
    modified := modified
    deleted := deleted
    beforeSkippedCount := before.skipped.length
    afterSkippedCount := after.skipped.length
    beforeErrorCount := before.errors.length
    afterErrorCount := after.errors.length }

end TaintForge
