import TaintForge.Env.AttemptStore
import TaintForge.Env.EnvironmentManifest
import TaintForge.Lib.PosixPath

/-!
# Environment snapshots

A store of clean copies of an environment, each under a name that is made from the digest of its tree.  A tree is
given by what `scan_environment` returns of it, the list of its entries in the order of their paths; how the walk
finds them and how `clone_environment` copies them is left out, so a copy is any tree, and it is the store that
checks whether it is the same.  The manifest of a snapshot is given by its fields.

* `EnvironmentEntry`, `EnvironmentTree`: a tree, with the proof that its listing is in order.
* `treeDigest`, `makeSnapshotId`: what names it.
* `EnvironmentSnapshotStore.capture`, `EnvironmentSnapshotStore.verify`, `EnvironmentSnapshotStore.clone`: the
  methods of the same names.
-/

namespace TaintForge

/-! ### Trees -/

inductive EnvironmentEntryKind
  | dir
  | file (size : ℕ) (sha256 : PyStr) (hardlinkGroup : Option PyStr)
  | symlink (target : PyStr)
  deriving DecidableEq

def EnvironmentEntryKind.value : EnvironmentEntryKind → PyStr
  | .dir => py "dir"
  | .file _ _ _ => py "file"
  | .symlink _ => py "symlink"

structure EnvironmentEntry where
  path : PyStr
  mode : ℕ
  kind : EnvironmentEntryKind
  deriving DecidableEq

/-- `EnvironmentEntry.to_dict`. -/
def EnvironmentEntry.toDict (e : EnvironmentEntry) : Json :=
  .obj
    [(py "path", .str e.path), (py "type", .str e.kind.value), (py "mode", .int e.mode),
      (py "size",
        match e.kind with
        | .file size _ _ => .int size
        | _ => .null),
      (py "sha256",
        match e.kind with
        | .file _ sha256 _ => .str sha256
        | _ => .null),
      (py "symlink_target",
        match e.kind with
        | .symlink target => .str target
        | _ => .null),
      (py "hardlink_group",
        match e.kind with
        | .file _ _ group => nullable .str group
        | _ => .null)]

/-- What `EnvironmentEntry.from_dict` checks of the fields. -/
def EnvironmentEntry.check (location : PyStr) (e : EnvironmentEntry) : Except DocumentError Unit := do
  ensure ([slash].isPrefixOf e.path) (location ++ py ".path must be an absolute guest path")
  ensure (e.path = [slash] → e.kind = .dir) (location ++ py ": the guest root entry must be a directory")
  ensure (e.mode ≤ 0o7777) (location ++ py ".mode is invalid")
  match e.kind with
  | .dir => .ok ()
  | .symlink _ => .ok ()
  | .file _ sha256 group => do
    ensure (isSha256 sha256) (location ++ py ".sha256 is invalid")
    ensure (∀ name ∈ group, (py "hl_").isPrefixOf name) (location ++ py ".hardlink_group is invalid")

/-- A tree: its entries, from the root, in the order of their paths. -/
structure EnvironmentTree where
  rootMode : ℕ
  rest : List EnvironmentEntry
  checked : ∀ location, ∀ e ∈ ⟨[slash], rootMode, .dir⟩ :: rest, e.check location = .ok ()
  sorted : (([slash] :: rest.map EnvironmentEntry.path).Pairwise (· < ·))

/-- `scan_environment`. -/
def EnvironmentTree.entries (tree : EnvironmentTree) : List EnvironmentEntry :=
  ⟨[slash], tree.rootMode, .dir⟩ :: tree.rest

section Snapshots

variable (sha : Sha256) (ft : FloatText)

/-- `tree_digest`. -/
def treeDigest (entries : List EnvironmentEntry) : Except DocumentError PyStr :=
  canonicalSha256 sha ft (.arr (entries.map EnvironmentEntry.toDict))

/-- `make_snapshot_id`. -/
def makeSnapshotId (treeSha256 : PyStr) : Except DocumentError PyStr := do
  ensure (isSha256 treeSha256) (py "tree_sha256 is invalid")
  return py "env_" ++ treeSha256.take 16

/-! ### Manifests -/

structure EnvironmentSnapshotManifest where
  snapshotId : PyStr
  treeSha256 : PyStr
  sourceRootfs : PyStr
  snapshotRootfs : PyStr
  entries : List EnvironmentEntry
  generatedAtUtc : PyStr

/-- `summary`. -/
def EnvironmentSnapshotManifest.summary (m : EnvironmentSnapshotManifest) : Json :=
  .obj
    [(py "entries_total", .int m.entries.length),
      (py "total_file_bytes", .int ((m.entries.map fun e =>
        match e.kind with
        | .file size _ _ => size
        | _ => 0).sum)),
      (py "hardlink_groups", .int (m.entries.filterMap fun e =>
        match e.kind with
        | .file _ _ group => group
        | _ => none).dedup.length),
      (py "by_type", .obj (counts (m.entries.map fun e => e.kind.value)))]

/-- `to_dict`. -/
def EnvironmentSnapshotManifest.toDict (m : EnvironmentSnapshotManifest) : Json :=
  .obj
    [(py "schema_version", .int 1), (py "snapshot_version", .int 1), (py "snapshot_id", .str m.snapshotId),
      (py "generated_at_utc", .str m.generatedAtUtc), (py "tree_sha256", .str m.treeSha256),
      (py "source_rootfs", .str m.sourceRootfs), (py "snapshot_rootfs", .str m.snapshotRootfs),
      (py "summary", m.summary), (py "entries", .arr (m.entries.map EnvironmentEntry.toDict))]

/-- The checks of the entries one after another. -/
def checkEntries : ℕ → List EnvironmentEntry → Except DocumentError Unit
  | _, [] => .ok ()
  | index, e :: rest => do
    e.check (py "entries[" ++ decimal index ++ py "]")
    checkEntries (index + 1) rest

/-- What `EnvironmentSnapshotManifest.load` checks of the fields. -/
def EnvironmentSnapshotManifest.check (m : EnvironmentSnapshotManifest) : Except DocumentError Unit := do
  ensure ((py "env_").isPrefixOf m.snapshotId) (py "snapshot_id is invalid")
  ensure (isSha256 m.treeSha256) (py "tree_sha256 is invalid")
  let expected ← makeSnapshotId m.treeSha256
  ensure (m.snapshotId = expected) (py "snapshot_id does not match tree_sha256")
  ensure (m.sourceRootfs ≠ []) (py "source_rootfs is invalid")
  ensure (m.snapshotRootfs ≠ []) (py "snapshot_rootfs is invalid")
  checkEntries 0 m.entries
  let paths := m.entries.map EnvironmentEntry.path
  ensure (paths.Pairwise (· ≤ ·)) (py "entries must be sorted by guest path")
  ensure paths.Nodup (py "entries contain duplicate guest paths")
  ensure (paths.head? = some [slash]) (py "entries must contain the guest root /")
  let calculated ← treeDigest sha ft m.entries
  ensure (calculated = m.treeSha256) (py "manifest entry digest does not match tree_sha256")

/-! ### The store -/

/-- The directory of a snapshot. -/
structure SnapshotDirectory where
  name : PyStr
  manifest : EnvironmentSnapshotManifest
  rootfs : EnvironmentTree

/-- The directories of the store. -/
structure EnvironmentSnapshotStore where
  storeDir : PyStr
  directories : List SnapshotDirectory

namespace EnvironmentSnapshotStore

def directory (store : EnvironmentSnapshotStore) (snapshotId : PyStr) : Option SnapshotDirectory :=
  store.directories.find? fun d => d.name == snapshotId

/-- `verify`, for the name of a snapshot. -/
def verify (store : EnvironmentSnapshotStore) (snapshotId : PyStr) :
    Except DocumentError EnvironmentSnapshotManifest :=
  match store.directory snapshotId with
  | none => .error (.invalid (py "snapshot directory does not exist: " ++ snapshotId))
  | some d => do
    d.manifest.check sha ft
    let actualDigest ← treeDigest sha ft d.rootfs.entries
    ensure (actualDigest = d.manifest.treeSha256) (py "snapshot rootfs digest does not match its manifest")
    ensure (d.rootfs.entries = d.manifest.entries) (py "snapshot rootfs entries do not match its manifest")
    return d.manifest

/-- What is stored under a new name. -/
def newDirectory (store : EnvironmentSnapshotStore) (snapshotId digest source now : PyStr)
    (copied : EnvironmentTree) : SnapshotDirectory where
  name := snapshotId
  manifest :=
    { snapshotId
      treeSha256 := digest
      sourceRootfs := source
      snapshotRootfs := store.storeDir ++ py "/" ++ snapshotId ++ py "/rootfs"
      entries := copied.entries
      generatedAtUtc := now }
  rootfs := copied

/-- `capture` of a tree at a path; `copied` is what `clone_environment` makes of it. -/
def capture (store : EnvironmentSnapshotStore) (source : PyStr) (tree copied : EnvironmentTree) (now : PyStr) :
    Except DocumentError (EnvironmentSnapshotManifest × EnvironmentSnapshotStore) := do
  let digest ← treeDigest sha ft tree.entries
  let snapshotId ← makeSnapshotId digest
  match store.directory snapshotId with
  | some _ => do
    let manifest ← store.verify sha ft snapshotId
    ensure (manifest.treeSha256 = digest)
      (py "snapshot id collision or corrupted snapshot: " ++ snapshotId)
    return (manifest, store)
  | none => do
    let copiedDigest ← treeDigest sha ft copied.entries
    ensure (copiedDigest = digest) (py "captured rootfs digest differs from source rootfs digest")
    let new := store.newDirectory snapshotId digest source now copied
    let _ ← writeDocument ft new.manifest.toDict
    return (new.manifest, { store with directories := store.directories ++ [new] })

/-- `clone`; `copied` is what `clone_environment` makes of the snapshot. -/
def clone (store : EnvironmentSnapshotStore) (snapshotId : PyStr) (copied : EnvironmentTree) :
    Except DocumentError EnvironmentSnapshotManifest := do
  let manifest ← store.verify sha ft snapshotId
  let copiedDigest ← treeDigest sha ft copied.entries
  ensure (copiedDigest = manifest.treeSha256) (py "cloned rootfs digest does not match the snapshot")
  return manifest

end EnvironmentSnapshotStore

end Snapshots

end TaintForge
