import TaintForge.Env.EnvironmentManifest

/-!
# The store of environment manifests

A directory with one file for each version.  Nothing else writes to it, so all that is there was put there
by `save`: the manifests, and the temporary files of saves that could not be completed.  A text that was
written has no carriage return in it, so reading it gives the same text.

* `EnvironmentManifestStore.save`, `load`, `verifyChain`: the methods of the same names.
* `EnvironmentManifestStore.run`: a sequence of saves.
-/

namespace TaintForge

/-- The files of the directory, in the order in which they were made. -/
structure EnvironmentManifestStore where
  files : List (PyStr × PyStr)
  deriving DecidableEq

/-- `str(n)`, for an integer that is not too large. -/
def PyInt.str : PyInt → PyStr
  | .int n => decimalInt n
  | .bool b => if b then py "True" else py "False"

/-- The numeric part of a file name, if it has four digits. -/
def manifestDigits (name : PyStr) : PyStr := (name.drop 22).take 4

/-- Whether `environment_manifest_v[0-9][0-9][0-9][0-9].json` matches. -/
def isManifestName (name : PyStr) : Bool :=
  name.take 22 == py "environment_manifest_v" && name.drop 26 == py ".json" &&
    (manifestDigits name).length == 4 && (manifestDigits name).all Json.isDigit

/-- `_version_from_path`, for a name that matches. -/
def versionFromPath (name : PyStr) : ℕ := Json.digitsValue (manifestDigits name)

/-- `EnvironmentManifestStore.path_for_version`. -/
def pathForVersion (version : PyInt) : Except DocumentError PyStr := do
  ensure (0 ≤ version.value) (py "manifest version must be non-negative")
  let digits ← format04 version
  return py "environment_manifest_v" ++ digits ++ py ".json"

/-- The name of a temporary file. -/
def temporaryName (path random : PyStr) : PyStr := py "." ++ path ++ py "." ++ random ++ py ".tmp"

namespace EnvironmentManifestStore

variable (sha : Sha256) (ft : FloatText) (iso : IsoFormat)

/-- The text of a file. -/
def read (store : EnvironmentManifestStore) (name : PyStr) : Option PyStr :=
  (store.files.find? fun file => file.1 == name).map Prod.snd

/-- `EnvironmentManifest.load`, from the text of the file. -/
def loadText (text : PyStr) : Except DocumentError EnvironmentManifest := do
  let value ← loads ft text
  EnvironmentManifest.fromDict sha ft iso value

/-- `EnvironmentManifestStore.load`. -/
def load (store : EnvironmentManifestStore) (version : PyInt) :
    Except DocumentError EnvironmentManifest := do
  let path ← pathForVersion version
  match store.read path with
  | none => .error (.invalid (py "environment manifest is invalid: " ++ path))
  | some text => loadText sha ft iso text

/-- `EnvironmentManifestStore._validate_parent`. -/
def validateParent (child parent : EnvironmentManifest) : Except DocumentError Unit := do
  ensure (child.sampleSha256 = parent.sampleSha256) (py "manifest parent sample mismatch")
  ensure (child.parentVersion.map PyInt.value = some parent.manifestVersion.value)
    (py "manifest parent version mismatch")
  let parentId ← parent.manifestId sha ft
  ensure (child.parentManifestId = some parentId) (py "manifest parent id mismatch")

/-- The loop of `verify_chain` over the pairs of neighbours. -/
def validateParents : List EnvironmentManifest → Except DocumentError Unit
  | [] => .ok ()
  | [_] => .ok ()
  | parent :: child :: rest => do
    validateParent sha ft child parent
    validateParents (child :: rest)

/-- The manifest of a file that `verify_chain` found. -/
def loadFound (store : EnvironmentManifestStore) (path : PyStr) :
    Except DocumentError EnvironmentManifest :=
  match store.read path with
  | none => .error (.invalid (py "environment manifest chain contains an invalid file"))
  | some text => loadText sha ft iso text

/-- `EnvironmentManifestStore.verify_chain`. -/
def verifyChain (store : EnvironmentManifestStore) (throughVersion : Option ℤ) :
    Except DocumentError (List EnvironmentManifest) := do
  let matching := ((store.files.map Prod.fst).filter isManifestName).insertionSort (· ≤ ·)
  let paths := matching.filter fun path => ∀ through ∈ throughVersion, versionFromPath path ≤ through
  ensure (paths ≠ []) (py "environment manifest store is empty")
  let manifests ← mapOk (store.loadFound sha ft iso) paths
  ensure (manifests.map (fun m => m.manifestVersion.value) =
      (List.range manifests.length).map Int.ofNat)
    (py "environment manifest versions must be contiguous from zero")
  validateParents sha ft manifests
  return manifests

/-- `_atomic_write_json` without overwriting; `random` is the part of the temporary file's name that is
chosen anew for each file. -/
def atomicWriteJson (store : EnvironmentManifestStore) (path random : PyStr) (payload : Json) :
    Except DocumentError Unit × EnvironmentManifestStore :=
  if (store.read path).isSome then
    (.error (.invalid (py "refusing to overwrite manifest: " ++ path)), store)
  else
    match dumps ft .indented payload with
    | .error error => (.error error, store)
    | .ok text =>
      match encode (text ++ [0x0A]) with
      | .error error =>
        -- The name of the temporary file is only kept when everything is written, so it stays.
        (.error error, { store with files := store.files ++ [(temporaryName path random, [])] })
      | .ok bytes => (.ok (), { store with files := store.files ++ [(path, bytes)] })

/-- The part of `save` before the manifest is written: whether it is there already. -/
def check (store : EnvironmentManifestStore) (manifest : EnvironmentManifest) (path : PyStr) :
    Except DocumentError Bool := do
  match store.read path with
  | some text =>
    let existing ← loadText sha ft iso text
    let existingId ← existing.manifestId sha ft
    let manifestId ← manifest.manifestId sha ft
    ensure (existingId = manifestId)
      (py "manifest version " ++ manifest.manifestVersion.str ++ py " is immutable")
    return true
  | none =>
    if 0 < manifest.manifestVersion.value then
      let parent ← store.load sha ft iso (.int (manifest.manifestVersion.value - 1))
      validateParent sha ft manifest parent
    return false

/-- `EnvironmentManifestStore.save`. -/
def save (store : EnvironmentManifestStore) (manifest : EnvironmentManifest) (random : PyStr) :
    Except DocumentError PyStr × EnvironmentManifestStore :=
  match pathForVersion manifest.manifestVersion with
  | .error error => (.error error, store)
  | .ok path =>
    match store.check sha ft iso manifest path with
    | .error error => (.error error, store)
    | .ok true => (.ok path, store)
    | .ok false =>
      match manifest.toDict sha ft with
      | .error error => (.error error, store)
      | .ok payload =>
        match store.atomicWriteJson ft path random payload with
        | (.error error, store) => (.error error, store)
        | (.ok (), store) => (.ok path, store)

/-- A manifest that its constructor accepts, and the random part of a file name. -/
structure Save where
  manifest : EnvironmentManifest
  construct : manifest.construct iso = .ok ()
  random : PyStr

variable {iso}

/-- The store after a sequence of saves, from the empty store. -/
def run (saves : List (Save iso)) : EnvironmentManifestStore :=
  saves.foldl (fun store s => (store.save sha ft iso s.manifest s.random).2) ⟨[]⟩

/-- The manifests of the saves that succeeded, in their order, from a given store. -/
def successfulFrom (store : EnvironmentManifestStore) : List (Save iso) → List EnvironmentManifest
  | [] => []
  | s :: saves =>
    match store.save sha ft iso s.manifest s.random with
    | (.ok _, store) => s.manifest :: successfulFrom store saves
    | (.error _, store) => successfulFrom store saves

/-- The manifests of the saves that succeeded, in their order. -/
def successful (saves : List (Save iso)) : List EnvironmentManifest :=
  successfulFrom sha ft ⟨[]⟩ saves

end EnvironmentManifestStore

end TaintForge
