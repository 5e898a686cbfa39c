import TaintForge.Env.EnvironmentSnapshot
import TaintForge.Env.ManifestBuilder
import TaintForge.Env.ManifestStore
import TaintForge.Env.Session

/-!
# The iteration controller

A session alternates between preparing an iteration, which the runner then executes, and completing it from the
artifacts of the run.  What the session is lies in its directory, and every operation begins by reading it.

A file of which no digest is made is given by the value that is read from it.  A path below the session is compared
as it is written.  Left out are the lock, the messages of errors that are only passed on, and what a call that fails
leaves behind besides the session document, which it does not reach.

* `SessionDisk`: the files of a session, and the store of its snapshots.
* `IterationController.initializeSession`, `IterationController.prepareNext`, `IterationController.completeIteration`: the
  transitions.
* `IterationController.verify`: the check of everything that is stored.
-/

namespace TaintForge

/-! ### Files -/

/-- A regular file of a bundle; its digest is that of its text where the text is the file. -/
structure BundleFile where
  path : PyStr
  file : ArtifactFile
  size : ℕ
  rawSha256 : PyStr
  isSha256_rawSha256 : isSha256 rawSha256

/-- `_sha256_file`. -/
def BundleFile.sha256 (sha : Sha256) (f : BundleFile) : PyStr :=
  if f.file.utf8 then f.file.sha256 sha else f.rawSha256

theorem BundleFile.isSha256_sha256 (sha : Sha256) (f : BundleFile) : isSha256 (f.sha256 sha) := by
  unfold sha256
  split
  · exact sha.isSha256_hexdigest _
  · exact f.isSha256_rawSha256

/-- The artifacts of an iteration, with the plan that `RepairPlan.load` finds in `repair_plan.json`. -/
structure ArtifactBundle where
  files : List BundleFile
  repairPlan : Option RepairPlan

namespace ArtifactBundle

def file (bundle : ArtifactBundle) (path : PyStr) : Option BundleFile :=
  bundle.files.find? fun f => f.path == path

/-- The files as the oracle finds them. -/
def artifactFiles (bundle : ArtifactBundle) : ArtifactFiles := fun path => (bundle.file path).map BundleFile.file

end ArtifactBundle

/-- The directory of an iteration. -/
structure IterationDirectory where
  path : PyStr
  record : Json
  claim : Option Json
  artifacts : Option ArtifactBundle

/-- The files of a session. -/
structure SessionDisk where
  session : Json
  manifests : EnvironmentManifestStore
  attempts : AttemptStore
  iterations : List IterationDirectory
  observations : List (PyStr × PyStr)
  artifactManifests : List (PyStr × Json)
  snapshots : EnvironmentSnapshotStore

namespace SessionDisk

def iteration (disk : SessionDisk) (path : PyStr) : Option IterationDirectory :=
  disk.iterations.find? fun d => d.path == path

def observation (disk : SessionDisk) (path : PyStr) : Option PyStr :=
  (disk.observations.find? fun file => file.1 == path).map Prod.snd

def artifactManifest (disk : SessionDisk) (path : PyStr) : Option Json :=
  (disk.artifactManifests.find? fun file => file.1 == path).map Prod.snd

/-- The files of one iteration change. -/
def updateIteration (disk : SessionDisk) (path : PyStr) (change : IterationDirectory → IterationDirectory) :
    List IterationDirectory :=
  disk.iterations.map fun d => if d.path = path then change d else d

end SessionDisk

/-! ### Errors -/

/-- Why an operation is refused: an `IterationControllerError`, with its message where it is not that of another
error, an `OSError`, or an exception that is not caught. -/
inductive ControllerError
  | invalid (message : PyStr)
  | wrapped
  | osError
  | uncaught

namespace IterationController

/-- A check that raises. -/
def require (p : Prop) [Decidable p] (message : PyStr) : Except ControllerError Unit :=
  if p then .ok () else .error (.invalid message)

/-- An error of a store is raised as one of the controller. -/
def ofStore {α : Type} : Except DocumentError α → Except ControllerError α
  | .ok a => .ok a
  | .error (.invalid message) => .error (.invalid message)
  | .error _ => .error .uncaught

/-- An error that is not caught. -/
def passOn {ε α : Type} : Except ε α → Except ControllerError α
  | .ok a => .ok a
  | .error _ => .error .uncaught

/-- An error of the oracle is raised as one of the controller. -/
def ofOracle {α : Type} : Except ProgressOracleError α → Except ControllerError α
  | .ok a => .ok a
  | .error .uncaught => .error .uncaught
  | .error _ => .error .wrapped

/-- A value that must be there. -/
def found {α : Type} (error : ControllerError) : Option α → Except ControllerError α
  | some a => .ok a
  | none => .error error

/-! ### Names -/

/-- `f"{index:04d}"`. -/
def index04 (index : ℕ) : PyStr := List.replicate (4 - (decimal index).length) 0x30 ++ decimal index

/-- The directory of an iteration. -/
def iterationPath (index : ℕ) : PyStr := py "iterations/" ++ index04 index

def contractPath (attemptId : PyStr) : PyStr := py "attempts/" ++ attemptId ++ py "/contract.json"

def resultPath (attemptId : PyStr) : PyStr := py "attempts/" ++ attemptId ++ py "/result.json"

/-! ### Surroundings -/

/-- The standard library and the machine: digests, numbers, times, `str` and `repr`, and `Path.resolve`. -/
structure Host where
  sha : Sha256
  ft : FloatText
  iso : IsoFormat
  display : PyDisplay
  builtins : PyBuiltins
  resolve : PyStr → PyStr

section Controller

variable (host : Host) (sessionDir : PyStr)

/-! ### Reading -/

/-- `load`. -/
def load (disk : SessionDisk) : Except ControllerError SessionManifest := do
  let manifest ← ofStore (SessionManifest.fromDict host.builtins disk.session)
  require (host.resolve manifest.sessionDir = sessionDir) (py "session manifest path mismatch")
  require (host.resolve manifest.environmentManifestStore = sessionDir ++ py "/manifests")
    (py "environment manifest store path mismatch")
  return manifest

/-- `EnvironmentSnapshotStore(manifest.snapshot_store)`. -/
def snapshotStore (disk : SessionDisk) (manifest : SessionManifest) : EnvironmentSnapshotStore :=
  if host.resolve manifest.snapshotStore = disk.snapshots.storeDir then disk.snapshots
  else ⟨host.resolve manifest.snapshotStore, []⟩

/-- `IterationObservation.load`. -/
def loadObservation (disk : SessionDisk) (path : PyStr) :
    Except ProgressOracleError ProgressOracle.IterationObservation :=
  ProgressOracle.IterationObservation.load host.ft host.builtins (disk.observation path)

/-- `_validate_contract_binding`. -/
def validateContractBinding (manifest : SessionManifest) (record : IterationRecord)
    (contract : AttemptContract) : Except ControllerError Unit := do
  require (contract.attemptId = record.attemptId) (py "attempt contract id mismatch")
  require (contract.attemptIndex.value = record.index) (py "attempt contract index mismatch")
  require (contract.sampleSha256 = manifest.sampleSha256) (py "attempt contract sample mismatch")
  require (contract.packedBinarySha256 = manifest.packedBinarySha256)
    (py "attempt contract binary mismatch")
  require (contract.goalId = manifest.goalId) (py "attempt contract goal mismatch")
  require (contract.environmentManifestId = record.environmentManifestId)
    (py "attempt contract environment manifest id mismatch")
  require (contract.environmentManifestVersion.value = record.environmentManifestVersion)
    (py "attempt contract environment manifest version mismatch")

/-! ### A new session -/

/-- `create_seed_environment_manifest`. -/
def createSeedEnvironmentManifest (sampleSha256 rootfsSnapshotId now : PyStr) :
    Except DocumentError EnvironmentManifest := do
  let manifest : EnvironmentManifest :=
    { sampleSha256
      manifestVersion := .int 0
      rootfsSnapshotId
      entries := []
      createdByAttemptId := py "preflight"
      changeReason := py ("Captured the immutable sparse seed environment before the first packed " ++
        "execution attempt.")
      parentVersion := none
      parentManifestId := none
      schemaVersion := .int 2
      modelVersion := .int 1
      generatedAtUtc := now }
  manifest.construct host.iso
  return manifest

/-- What `initialize` is given, and what it meets: the tree of the seed, what `clone_environment` makes of it, the
time, and the random parts of names.  A path that was resolved is not empty. -/
structure Initialization where
  snapshots : EnvironmentSnapshotStore
  storeDir_ne_nil : snapshots.storeDir ≠ []
  seedPath : PyStr
  seedPath_ne_nil : seedPath ≠ []
  seed : EnvironmentTree
  copied : EnvironmentTree
  sampleSha256 : PyStr
  packedBinarySha256 : PyStr
  goalId : PyStr
  maxIterations : ℤ
  now : PyStr
  random : PyStr

/-- `initialize`, of a directory that is not there. -/
def initializeSession (given : Initialization) : Except ControllerError (SessionManifest × SessionDisk) := do
  require (1 ≤ given.maxIterations) (py "max_iterations must be positive")
  require (isSha256 given.sampleSha256) (py "sample_sha256 must be a lowercase SHA-256 digest")
  require (isSha256 given.packedBinarySha256)
    (py "packed_binary_sha256 must be a lowercase SHA-256 digest")
  require (isGoalId given.goalId) (py "goal_id is invalid")
  let (capture, snapshots) ← ofStore
    (given.snapshots.capture host.sha host.ft given.seedPath given.seed given.copied given.now)
  let seed ← ofStore
    (createSeedEnvironmentManifest host given.sampleSha256 capture.snapshotId given.now)
  let saved := EnvironmentManifestStore.save host.sha host.ft host.iso ⟨[]⟩ seed given.random
  let _ ← ofStore saved.1
  let seedId ← passOn (seed.manifestId host.sha host.ft)
  let manifest : SessionManifest :=
    { sessionId := py "session_" ++ given.random
      sessionDir := sessionDir
      snapshotStore := snapshots.storeDir
      seedSnapshotId := capture.snapshotId
      environmentManifestStore := sessionDir ++ py "/manifests"
      seedEnvironmentManifestId := seedId
      sampleSha256 := given.sampleSha256
      packedBinarySha256 := given.packedBinarySha256
      goalId := given.goalId
      maxIterations := given.maxIterations
      state := .active
      stopReason := none
      iterations := []
      createdAtUtc := given.now
      updatedAtUtc := given.now }
  let session ← passOn (writeDocument host.ft manifest.toDict)
  return (manifest,
    { session
      manifests := saved.2
      attempts := ⟨[]⟩
      iterations := []
      observations := []
      artifactManifests := []
      snapshots })

/-! ### The next iteration -/

/-- What `prepare_next` meets: copies of trees, the tree that the applier works on with the calls that fail, the tree
after the repair, the digest of the report of the application, times and random parts of names. -/
structure Preparation where
  candidate : EnvironmentTree
  candidateFs : Rootfs
  fails : Faults
  umask : ℕ
  repaired : EnvironmentTree
  captured : EnvironmentTree
  applicationSha256 : PyStr
  isSha256_applicationSha256 : isSha256 applicationSha256
  execution : EnvironmentTree
  stagingPath : PyStr
  stagingPath_ne_nil : stagingPath ≠ []
  now : PyStr
  random : PyStr

/-- The environment of the next iteration. -/
structure NextEnvironment where
  parentSnapshotId : Option PyStr
  snapshotId : PyStr
  manifest : EnvironmentManifest
  repairApplication : Option PyStr
  snapshots : EnvironmentSnapshotStore
  manifests : EnvironmentManifestStore

/-- The environment of the first iteration. -/
def seedEnvironment (disk : SessionDisk) (manifest : SessionManifest) :
    Except ControllerError NextEnvironment := do
  let environmentManifest ← ofStore (disk.manifests.load host.sha host.ft host.iso (.int 0))
  let manifestId ← passOn (environmentManifest.manifestId host.sha host.ft)
  require (manifestId = manifest.seedEnvironmentManifestId)
    (py "seed environment manifest id does not match session")
  return {
    parentSnapshotId := none
    snapshotId := manifest.seedSnapshotId
    manifest := environmentManifest
    repairApplication := none
    snapshots := snapshotStore host disk manifest
    manifests := disk.manifests }

/-- The report of the application of the plan to the candidate, and the tree it leaves. -/
def applyRepairs (preparation : Preparation) (bundle : ArtifactBundle) (planFile requirementsFile : BundleFile) :
    Except ControllerError (RepairPlan × RepairApplicationReport × Option Rootfs) := do
  let plan ← found .wrapped bundle.repairPlan
  let outcome := applyFile host.sha.hexdigest {} preparation.fails preparation.umask plan
    (planFile.sha256 host.sha) (requirementsFile.sha256 host.sha) (.directory preparation.candidateFs) false
  match outcome.result with
  | .error _ => .error .wrapped
  | .ok report =>
    return (plan, report,
      match outcome.rootfs with
      | .directory fs => some fs
      | _ => none)

/-- The fields of an observation that the builder reads. -/
def builderObservation (disk : SessionDisk) (path : PyStr) : Except PyStr IterationObservation :=
  match loadObservation host disk path with
  | .ok o => .ok ⟨o.requirementsSha256, o.repairPlanSha256⟩
  | .error _ => .error (py "attempt observation is invalid")

/-- An error of the builder is raised as one of the controller. -/
def ofBuilder {α : Type} : Except ManifestBuilderError α → Except ControllerError α
  | .ok a => .ok a
  | .error (.invalid message) => .error (.invalid message)
  | .error _ => .error .uncaught

/-- `_build_repaired_snapshot`. -/
def buildRepairedSnapshot (preparation : Preparation) (disk : SessionDisk) (store : EnvironmentSnapshotStore)
    (parentSnapshotId : PyStr) (bundle : ArtifactBundle) (planFile requirementsFile : BundleFile)
    (parent : EnvironmentManifest) (contract : AttemptContract) (result : AttemptResult)
    (observationPath : PyStr) :
    Except ControllerError (PyStr × EnvironmentManifest × EnvironmentSnapshotStore) := do
  let _ ← passOn (store.clone host.sha host.ft parentSnapshotId preparation.candidate)
  let (plan, report, rootfs) ← applyRepairs host preparation bundle planFile requirementsFile
  let (capture, store) ← passOn
    (store.capture host.sha host.ft preparation.stagingPath preparation.repaired preparation.captured
      preparation.now)
  let text ← found .osError (disk.observation observationPath)
  let evidence : RepairEvidence :=
    { rootfsPath := preparation.stagingPath
      rootfs
      repairPlan := ⟨planFile.path, true, .ok plan, planFile.sha256 host.sha, planFile.isSha256_sha256 host.sha⟩
      repairApplication := ⟨preparation.stagingPath, true, .ok report.toDict, preparation.applicationSha256,
        preparation.isSha256_applicationSha256⟩
      observation := ⟨observationPath, true, builderObservation host disk observationPath,
        host.sha.hexdigest text, host.sha.isSha256_hexdigest _⟩ }
  let next ← ofBuilder
    (deriveEnvironmentManifestFromRepair host.sha host.ft host.iso host.display preparation.now parent
      capture.snapshotId contract result evidence)
  return (capture.snapshotId, next, store)

/-- The environment of a later iteration, from the repairs of the one before it. -/
def repairedEnvironment (preparation : Preparation) (disk : SessionDisk) (manifest : SessionManifest)
    (index : ℕ) (previous : IterationRecord) : Except ControllerError NextEnvironment := do
  require (previous.state = .completed) (py "previous iteration is incomplete")
  let message := py "previous iteration does not contain repair inputs"
  let bundle ← found (.invalid message)
    ((disk.iteration previous.directory).bind IterationDirectory.artifacts)
  let requirementsFile ← found (.invalid message) (bundle.file (py "runtime_requirements.json"))
  let planFile ← found (.invalid message) (bundle.file (py "repair_plan.json"))
  let observationPath ← found (.invalid (py "previous iteration lacks an observation")) previous.observation
  let previousManifest ← ofStore
    (disk.manifests.load host.sha host.ft host.iso (.int previous.environmentManifestVersion))
  let (contract, result) ← ofStore
    (disk.attempts.verifyAttempt host.sha host.ft host.iso previous.attemptId true)
  let message := py "next environment version requires a repair-required attempt"
  let result ← found (.invalid message) result
  require (result.outcome = .repairRequired) message
  validateContractBinding manifest previous contract
  let previousId ← passOn (previousManifest.manifestId host.sha host.ft)
  require (previousId = previous.environmentManifestId) (py "previous environment manifest id mismatch")
  require (previousManifest.rootfsSnapshotId = previous.environmentSnapshotId)
    (py "previous manifest does not reference its execution snapshot")
  let (snapshotId, next, snapshots) ← buildRepairedSnapshot host preparation disk
    (snapshotStore host disk manifest) previous.environmentSnapshotId bundle planFile requirementsFile
    previousManifest contract result observationPath
  let saved := disk.manifests.save host.sha host.ft host.iso next preparation.random
  let _ ← ofStore saved.1
  return {
    parentSnapshotId := some previous.environmentSnapshotId
    snapshotId
    manifest := next
    repairApplication := some (iterationPath index ++ py "/repair_application.json")
    snapshots
    manifests := saved.2 }

/-- The environment of the iteration that comes next. -/
def nextEnvironment (preparation : Preparation) (disk : SessionDisk) (manifest : SessionManifest) :
    Except ControllerError NextEnvironment :=
  match manifest.iterations.getLast? with
  | none => seedEnvironment host disk manifest
  | some previous =>
    repairedEnvironment host preparation disk manifest manifest.iterations.length previous

/-- The contract of the next attempt. -/
def nextContract (manifest : SessionManifest) (index : ℕ) (environmentManifest : EnvironmentManifest)
    (now : PyStr) : Except ControllerError AttemptContract := do
  let manifestId ← passOn (environmentManifest.manifestId host.sha host.ft)
  ofStore (AttemptContract.create host.sha host.ft host.iso now index .discovery manifest.sampleSha256
    manifest.packedBinarySha256 manifestId environmentManifest.manifestVersion manifest.goalId
    .preOepDiscovery)

/-- The record of an iteration that was prepared. -/
def preparedRecord (index : ℕ) (environment : NextEnvironment) (contract : AttemptContract) : IterationRecord where
  index := index
  state := .prepared
  directory := iterationPath index
  environmentSnapshotId := environment.snapshotId
  parentSnapshotId := environment.parentSnapshotId
  environmentManifestId := contract.environmentManifestId
  environmentManifestVersion := environment.manifest.manifestVersion.value
  attemptId := contract.attemptId
  attemptContract := contractPath contract.attemptId
  repairApplication := environment.repairApplication
  observation := none
  artifactManifest := none
  attemptResult := none
  progress := none
  stopReason := none

/-- `prepare_next`. -/
def prepareNext (preparation : Preparation) (disk : SessionDisk) :
    Except ControllerError (IterationRecord × SessionDisk) := do
  let manifest ← load host sessionDir disk
  require (manifest.state = .active) (py "session is not active: " ++ manifest.state.value)
  require (∀ last ∈ manifest.iterations.getLast?, last.state ≠ .prepared)
    (py "the latest iteration is still prepared")
  let index := manifest.iterations.length
  require (index < manifest.maxIterations) (py "iteration budget is exhausted")
  let environment ← nextEnvironment host preparation disk manifest
  require (environment.manifest.rootfsSnapshotId = environment.snapshotId)
    (py "environment manifest does not reference the execution snapshot")
  let contract ← nextContract host manifest index environment.manifest preparation.now
  let saved := disk.attempts.saveContract host.sha host.ft host.iso contract
  ofStore saved.1
  let _ ← passOn
    (environment.snapshots.clone host.sha host.ft environment.snapshotId preparation.execution)
  let record := preparedRecord index environment contract
  let recordValue ← passOn (writeDocument host.ft record.toDict)
  -- The new directory does not replace one that has files.
  match disk.iteration (iterationPath index) with
  | some _ => .error .osError
  | none => do
    let updated := manifest.replace (manifest.iterations ++ [record]) manifest.state none preparation.now
    let session ← passOn (writeDocument host.ft updated.toDict)
    return (record,
      { disk with
        session
        manifests := environment.manifests
        attempts := saved.2
        iterations := disk.iterations ++ [⟨iterationPath index, recordValue, none, none⟩]
        snapshots :=
          if host.resolve manifest.snapshotStore = disk.snapshots.storeDir then environment.snapshots
          else disk.snapshots })

/-! ### Artifacts -/

/-- What the walk of `_copy_artifacts` meets. -/
inductive SourceEntry
  | file (f : BundleFile)
  | directorySymlink (path : PyStr)
  | irregular (path : PyStr)

/-- What is at the path of the artifacts; `plan` is what `RepairPlan.load` makes of the plan among them. -/
inductive ArtifactSource
  | symlink
  | notDirectory
  | directory (containsTarget : Bool) (entries : List SourceEntry) (plan : Option RepairPlan)

/-- The loop of `_copy_artifacts`. -/
def copyFiles : List SourceEntry → Except ControllerError (List BundleFile)
  | [] => .ok []
  | .directorySymlink path :: _ =>
    .error (.invalid (py "artifact directory symlink is not allowed: " ++ path))
  | .irregular path :: _ => .error (.invalid (py "artifact must be a regular file: " ++ path))
  | .file f :: rest => do
    let files ← copyFiles rest
    return f :: files

/-- Whether a path ends with a name. -/
def isNamed (filename path : PyStr) : Bool := path == filename || (slash :: filename).isSuffixOf path

/-- A required file gets its name at the top. -/
def promote (filename : PyStr) (files : List BundleFile) : Except ControllerError (List BundleFile) :=
  match files.filter fun f => isNamed filename f.path with
  | [f] => .ok (if f.path = filename then files else files ++ [{ f with path := filename }])
  | matching =>
    .error (.invalid (py "expected exactly one " ++ filename ++ py ", found " ++ decimal matching.length))

/-- `_copy_artifacts`. -/
def copyArtifacts (entries : List SourceEntry) (plan : Option RepairPlan) :
    Except ControllerError ArtifactBundle := do
  let files ← copyFiles entries
  let files ← promote (py "runtime_requirements.json") files
  let files ← promote (py "repair_plan.json") files
  return ⟨files, plan⟩

/-- An element of the list of files. -/
def fileEntry (f : BundleFile) : Json :=
  .obj [(py "path", .str f.path), (py "size", .int f.size), (py "sha256", .str (f.sha256 host.sha))]

/-- The listing of a bundle, without the manifest. -/
def bundleListing (bundle : ArtifactBundle) : Json :=
  .arr (((bundle.files.filter fun f => ¬ isNamed (py "artifact_manifest.json") f.path).insertionSort
    fun a b => (purePosixPath a.path).parts ≤ (purePosixPath b.path).parts).map (fileEntry host))

/-- `_build_artifact_manifest`: the digest; the encoder writes ASCII characters only. -/
def bundleSha256 (bundle : ArtifactBundle) : Except DocumentError PyStr := do
  let text ← dumps host.ft ⟨none, 0, 0, true⟩ (bundleListing host bundle).sortKeys
  return host.sha.hexdigest text

/-- `_build_artifact_manifest`. -/
def buildArtifactManifest (bundle : ArtifactBundle) (now : PyStr) : Except DocumentError Json := do
  let digest ← bundleSha256 host bundle
  return .obj
    [(py "schema_version", .int 1), (py "generated_at_utc", .str now), (py "bundle_sha256", .str digest),
      (py "files", bundleListing host bundle)]

/-- `_verify_artifact_manifest`. -/
def verifyArtifactManifest (raw : Option Json) (bundle : ArtifactBundle) : Except ControllerError Unit := do
  let raw ← found .wrapped raw
  let actual ← passOn (bundleSha256 host bundle)
  require (isText actual (raw.get (py "bundle_sha256"))) (py "artifact bundle digest mismatch")

/-! ### The end of an iteration -/

/-- `repr` of a value. -/
def reprOf (display : PyDisplay) : Json → PyStr
  | .str s => display.repr s
  | j => display.str j

/-- `_validate_execution_claim_for_completion`. -/
def validateExecutionClaim (claim : Option Json) (sessionId : PyStr) (record : IterationRecord)
    (contract : AttemptContract) : Except ControllerError Unit :=
  match claim with
  | none => .ok ()
  | some (.obj raw) => do
    require (isText sessionId (field (py "session_id") raw)) (py "execution claim session mismatch")
    require (isNumber record.index (field (py "iteration_index") raw))
      (py "execution claim iteration mismatch")
    require (isText record.attemptId (field (py "attempt_id") raw)) (py "execution claim attempt mismatch")
    require (isText (py "completing") (field (py "stage") raw))
      (py "iteration execution claim is not ready for completion: stage=" ++
        reprOf host.display (field (py "stage") raw))
    let contractSha256 ← passOn (contract.contractSha256 host.sha host.ft)
    require (isText contractSha256 (field (py "attempt_contract_sha256") raw))
      (py "execution claim contract digest mismatch")
    require (isText record.environmentManifestId (field (py "environment_manifest_id") raw))
      (py "execution claim environment manifest id mismatch")
    require (isNumber record.environmentManifestVersion (field (py "environment_manifest_version") raw))
      (py "execution claim environment manifest version mismatch")
    require (isText record.environmentSnapshotId (field (py "environment_snapshot_id") raw))
      (py "execution claim environment snapshot mismatch")
  | some _ => .error (.invalid (py "execution claim must be an object"))

/-- What `complete_iteration` is given, and the times. -/
structure Completion where
  iterationIndex : ℤ
  source : ArtifactSource
  goalReached : Bool
  goalReason : Option PyStr
  guestExitCode : Option PyInt
  timedOut : Bool
  observedAt : PyStr
  bundledAt : PyStr
  finishedAt : PyStr
  updatedAt : PyStr
  updatedAt_ne_nil : updatedAt ≠ []

/-- The outcome of an attempt, and the code of its error. -/
def attemptOutcome (observation : ProgressOracle.IterationObservation) (guestExitCode : Option ℤ)
    (timedOut : Bool) : AttemptOutcome × Option PyStr :=
  if observation.goalReached then (.goalReached, none)
  else if timedOut ∨ guestExitCode = some 124 then (.timedOut, some (py "execution_timeout"))
  else if 0 < observation.metrics.fatalSignals then (.crashed, some (py "fatal_guest_signal"))
  else if 0 < observation.metrics.automaticCandidates then
    (.repairRequired, some (py "automatic_repair_candidate"))
  else (.exited, none)

/-- `_first_automatic_repair_resource`. -/
def firstAutomaticRepairResource (plan : Option RepairPlan) : Except ControllerError (Option PyStr) := do
  let plan ← found .wrapped plan
  match plan.load host.sha.hexdigest with
  | .error _ => .error .wrapped
  | .ok plan =>
    return (((plan.decisions.filter RepairDecision.automaticAllowed).map RepairDecision.resource).insertionSort
      (· ≤ ·)).head?

/-- `guest_exit_code`, if it is an integer or null. -/
def exitCode : Option PyInt → Except ControllerError (Option ℤ)
  | none => .ok none
  | some (.int n) => .ok (some n)
  | some (.bool _) => .error (.invalid (py "guest_exit_code must be an integer or null"))

/-- The fingerprint of a failure. -/
def failureFingerprint (outcome : AttemptOutcome) (stage : ExecutionStage) (exitCode : Option ℤ)
    (errorCode : Option PyStr) (plan : Option RepairPlan) : Except ControllerError (Option PyStr) :=
  if outcome ∈ [.repairRequired, .timedOut, .crashed] then do
    let resource ← firstAutomaticRepairResource host plan
    let fingerprint ← passOn
      (makeFailureFingerprint host.sha host.ft outcome stage exitCode errorCode resource)
    return some fingerprint
  else .ok none

/-- `_build_attempt_result`; `text` is that of the stored observation. -/
def buildAttemptResult (contract : AttemptContract) (observation : ProgressOracle.IterationObservation)
    (text : PyStr) (plan : Option RepairPlan) (completion : Completion) :
    Except ControllerError AttemptResult := do
  let code ← exitCode completion.guestExitCode
  let (outcome, errorCode) := attemptOutcome observation code completion.timedOut
  let fingerprint ← failureFingerprint host outcome contract.initialStage code errorCode plan
  let contractSha256 ← passOn (contract.contractSha256 host.sha host.ft)
  let result : AttemptResult :=
    { attemptId := contract.attemptId
      contractSha256
      outcome
      initialStage := contract.initialStage
      finalStage := contract.initialStage
      progress :=
        { goalReached := observation.goalReached
          oracleReason := observation.goalReason
          guestEventsTotal := .int observation.metrics.guestEventsTotal
          coverageEdges := none
          observationSha256 := some (host.sha.hexdigest text) }
      transitions := []
      failureFingerprint := fingerprint
      startedAtUtc := contract.createdAtUtc
      finishedAtUtc := completion.finishedAt
      schemaVersion := .int 1
      resultVersion := .int 1 }
  passOn (result.construct host.iso)
  return result

/-- `_decide_stop_reason`. -/
def decideStopReason (disk : SessionDisk) (manifest : SessionManifest) (iterationIndex : ℕ)
    (observation : ProgressOracle.IterationObservation) :
    Except ProgressOracleError (Option ProgressOracle.StopReason) :=
  ProgressOracle.decideStopReason host.ft host.builtins disk.observation
    (manifest.iterations.map IterationRecord.observation) manifest.maxIterations.toNat iterationIndex observation

/-- `_resolve_attempt_session_transition`. -/
def resolveTransition (outcome : AttemptOutcome) (oracleStopReason : Option ProgressOracle.StopReason) :
    SessionState × Option ProgressOracle.StopReason :=
  if outcome = .goalReached then (.completed, some .goalReached)
  else if outcome = .timedOut then (.failed, some .executionTimedOut)
  else if outcome = .crashed then (.failed, some .executionCrashed)
  else
    match oracleStopReason with
    | some reason => (.completed, some reason)
    | none =>
      if outcome = .repairRequired then (.active, none) else (.failed, some .executionExitedWithoutGoal)

/-- `_previous_observation`. -/
def previousObservation (disk : SessionDisk) (manifest : SessionManifest) (iterationIndex : ℕ) :
    Except ControllerError (Option ProgressOracle.IterationObservation) :=
  match iterationIndex with
  | 0 => .ok none
  | previous + 1 => do
    let record ← found .uncaught manifest.iterations[previous]?
    let path ← found (.invalid (py "previous iteration lacks observation")) record.observation
    let observation ← ofOracle (loadObservation host disk path)
    return some observation

/-- The record of an iteration that is completed. -/
def completedRecord (record : IterationRecord) (decision : ProgressOracle.ProgressDecision)
    (stopReason : Option ProgressOracle.StopReason) : IterationRecord :=
  { record with
    state := .completed
    observation := some (record.directory ++ py "/observation.json")
    artifactManifest := some (record.directory ++ py "/artifacts/artifact_manifest.json")
    attemptResult := some (resultPath record.attemptId)
    progress := some decision.toDict
    stopReason := stopReason.map ProgressOracle.StopReason.value }

/-- The record that may be completed. -/
def recordToComplete (manifest : SessionManifest) (iterationIndex : ℤ) :
    Except ControllerError IterationRecord := do
  require (0 ≤ iterationIndex ∧ iterationIndex < manifest.iterations.length)
    (py "iteration index does not exist")
  let record ← found .uncaught manifest.iterations[iterationIndex.toNat]?
  require (record.state = .prepared) (py "iteration is not in prepared state")
  require (iterationIndex = manifest.iterations.length - 1) (py "only the latest iteration may be completed")
  return record

/-- The bundle that a directory of artifacts becomes. -/
def takeArtifacts (source : ArtifactSource) (target : Option ArtifactBundle) :
    Except ControllerError ArtifactBundle :=
  match source with
  | .symlink => .error (.invalid (py "artifacts directory is invalid"))
  | .notDirectory => .error (.invalid (py "artifacts directory is invalid"))
  | .directory containsTarget entries plan => do
    require (target.isNone) (py "iteration artifacts already exist")
    require (containsTarget = false) (py "artifacts source must not contain the iteration target")
    let bundle ← copyArtifacts entries plan
    let plan ← found .wrapped plan
    match plan.load host.sha.hexdigest with
    | .error _ => .error .wrapped
    | .ok _ => return bundle

/-- `complete_iteration`. -/
def completeIteration (completion : Completion) (disk : SessionDisk) :
    Except ControllerError (IterationRecord × SessionDisk) := do
  let manifest ← load host sessionDir disk
  require (manifest.state = .active) (py "cannot complete an inactive session")
  let record ← recordToComplete manifest completion.iterationIndex
  let index := completion.iterationIndex.toNat
  let directory ← found .osError (disk.iteration record.directory)
  let contract ← ofStore (disk.attempts.loadContract host.sha host.ft host.iso record.attemptId)
  validateContractBinding manifest record contract
  validateExecutionClaim host directory.claim manifest.sessionId record contract
  let bundle ← takeArtifacts host completion.source directory.artifacts
  let observation ← ofOracle
    (ProgressOracle.observe host.sha host.ft host.builtins bundle.artifactFiles record.environmentSnapshotId
      completion.goalReached completion.goalReason completion.observedAt)
  let previous ← previousObservation host disk manifest index
  let decision := ProgressOracle.compare host.ft previous observation
  let artifactManifest ← passOn (buildArtifactManifest host bundle completion.bundledAt)
  let artifactManifest ← passOn (writeDocument host.ft artifactManifest)
  let text ← passOn (observation.save host.ft)
  let stopReason ← passOn (decideStopReason host disk manifest index observation)
  let result ← buildAttemptResult host contract observation text bundle.repairPlan completion
  let saved := disk.attempts.saveResult host.sha host.ft host.iso result
  ofStore saved.1
  let (state, stopReason) := resolveTransition result.outcome stopReason
  let completed := completedRecord record decision stopReason
  let recordValue ← passOn (writeDocument host.ft completed.toDict)
  let updated := manifest.replace (manifest.iterations.set index completed) state
    (stopReason.map ProgressOracle.StopReason.value) completion.updatedAt
  let session ← passOn (writeDocument host.ft updated.toDict)
  return (completed,
    { disk with
      session
      attempts := saved.2
      iterations := disk.updateIteration record.directory fun d =>
        { d with record := recordValue, artifacts := some bundle }
      observations := (record.directory ++ py "/observation.json", text) :: disk.observations
      artifactManifests :=
        (record.directory ++ py "/artifacts/artifact_manifest.json", artifactManifest) ::
          disk.artifactManifests })

/-! ### Verification -/

/-- What `verify` reads of a completed iteration. -/
def verifyCompleted (disk : SessionDisk) (directory : IterationDirectory) (record : IterationRecord)
    (result : Option AttemptResult) : Except ControllerError ProgressOracle.IterationObservation := do
  let message := py "completed iteration lacks evidence"
  let observationPath ← found (.invalid message) record.observation
  let manifestPath ← found (.invalid message) record.artifactManifest
  let attemptResult ← found (.invalid message) record.attemptResult
  let result ← found (.invalid message) result
  let observation ← passOn (loadObservation host disk observationPath)
  let bundle ← found .wrapped directory.artifacts
  verifyArtifactManifest host (disk.artifactManifest manifestPath) bundle
  let text ← found .osError (disk.observation observationPath)
  require (result.progress.observationSha256 = some (host.sha.hexdigest text))
    (py "attempt result observation digest mismatch")
  require (result.progress.goalReached = observation.goalReached ∧
      result.progress.oracleReason = observation.goalReason ∧
      result.progress.guestEventsTotal.value = observation.metrics.guestEventsTotal)
    (py "attempt result progress does not match observation")
  require (attemptResult = resultPath record.attemptId) (py "iteration attempt result path mismatch")
  return observation

/-- The body of the loop of `verify`: the result of an iteration and its observation. -/
def verifyRecord (disk : SessionDisk) (manifest : SessionManifest) (chain : List EnvironmentManifest)
    (record : IterationRecord) :
    Except ControllerError (Option AttemptResult × Option ProgressOracle.IterationObservation) := do
  let _ ← passOn ((snapshotStore host disk manifest).verify host.sha host.ft record.environmentSnapshotId)
  require (record.environmentManifestVersion = record.index)
    (py "environment manifest version must match iteration index")
  let environmentManifest ← found (.invalid (py "iteration references a missing environment manifest"))
    chain[record.environmentManifestVersion.toNat]?
  let manifestId ← passOn (environmentManifest.manifestId host.sha host.ft)
  require (manifestId = record.environmentManifestId) (py "iteration environment manifest id mismatch")
  require (environmentManifest.rootfsSnapshotId = record.environmentSnapshotId)
    (py "iteration manifest does not match its rootfs snapshot")
  require (environmentManifest.sampleSha256 = manifest.sampleSha256)
    (py "iteration environment manifest sample mismatch")
  let directory ← found .osError (disk.iteration record.directory)
  let rawRecord ← ofStore (IterationRecord.fromDict directory.record)
  require (rawRecord.sameAs record) (py "iteration manifest mismatch for " ++ decimalInt record.index)
  let (contract, result) ← ofStore
    (disk.attempts.verifyAttempt host.sha host.ft host.iso record.attemptId (record.state = .completed))
  validateContractBinding manifest record contract
  require (record.attemptContract = contractPath record.attemptId)
    (py "iteration attempt contract path mismatch")
  if record.state = .completed then do
    let observation ← verifyCompleted host disk directory record result
    return (result, some observation)
  else do
    require (result = none) (py "prepared iteration already has an attempt result")
    return (result, none)

/-- The loop of `verify`. -/
def verifyRecords (disk : SessionDisk) (manifest : SessionManifest) (chain : List EnvironmentManifest) :
    List IterationRecord →
      Except ControllerError (List (Option AttemptResult × Option ProgressOracle.IterationObservation))
  | [] => .ok []
  | record :: rest => do
    let verified ← verifyRecord host disk manifest chain record
    let others ← verifyRecords disk manifest chain rest
    return verified :: others

/-- `_verify_session_terminal_state`. -/
def verifyTerminalState (manifest : SessionManifest) (latestResult : Option AttemptResult)
    (oracleStopReason : Option ProgressOracle.StopReason) : Except ControllerError Unit :=
  match manifest.iterations.getLast? with
  | none =>
    require (manifest.state = .active ∧ manifest.stopReason = none)
      (py "an empty session must be active without a stop reason")
  | some latest =>
    if latest.state = .prepared then
      require (manifest.state = .active ∧ manifest.stopReason = none ∧ latest.stopReason = none ∧
          latestResult = none)
        (py "prepared session tail must remain active and result-free")
    else do
      let result ← found (.invalid (py "completed session tail requires an attempt result")) latestResult
      let expected := resolveTransition result.outcome oracleStopReason
      let reason := expected.2.map ProgressOracle.StopReason.value
      require (manifest.state = expected.1 ∧ manifest.stopReason = reason ∧ latest.stopReason = reason)
        (py "session state does not match its final attempt and progress oracle")

/-- What the oracle says of the last iteration, if it is completed. -/
def latestStopReason (disk : SessionDisk) (manifest : SessionManifest)
    (latestObservation : Option ProgressOracle.IterationObservation) :
    Except ControllerError (Option ProgressOracle.StopReason) :=
  match manifest.iterations.getLast? with
  | none => .ok none
  | some latest =>
    if latest.state = .completed then do
      let observation ← found (.invalid (py "completed session tail lacks an observation")) latestObservation
      passOn (decideStopReason host disk manifest latest.index.toNat observation)
    else .ok none

/-- `verify`. -/
def verify (disk : SessionDisk) : Except ControllerError SessionManifest := do
  let manifest ← load host sessionDir disk
  let _ ← passOn ((snapshotStore host disk manifest).verify host.sha host.ft manifest.seedSnapshotId)
  let chain ← ofStore (disk.manifests.verifyChain host.sha host.ft host.iso none)
  let seed ← found .uncaught chain.head?
  let seedId ← passOn (seed.manifestId host.sha host.ft)
  require (seedId = manifest.seedEnvironmentManifestId) (py "seed environment manifest id mismatch")
  require (seed.rootfsSnapshotId = manifest.seedSnapshotId)
    (py "seed environment manifest snapshot mismatch")
  require (seed.sampleSha256 = manifest.sampleSha256) (py "seed environment manifest sample mismatch")
  let attemptIds ← ofStore disk.attempts.listAttemptIds
  require (attemptIds = manifest.iterations.map IterationRecord.attemptId)
    (py "attempt store does not match session iteration order")
  let verified ← verifyRecords host disk manifest chain manifest.iterations
  require (chain.length = max 1 manifest.iterations.length)
    (py "environment manifest chain has orphaned versions")
  let oracleStopReason ← latestStopReason host disk manifest (verified.getLast?.bind Prod.snd)
  verifyTerminalState manifest (verified.getLast?.bind Prod.fst) oracleStopReason
  return manifest

end Controller

end IterationController

end TaintForge
