import TaintForge.Env.ProgressDecision
import TaintForge.Lib.JsonEq
import TaintForge.Lib.PosixPath

/-!
# The documents of a session

`session.json` says how far a session is, and each iteration has a record in it.

* `IterationRecord`, `SessionManifest`: the data, with `to_dict` and the checks of `from_dict` and `load`.
* `SessionManifest.replace`: `_replace_session`.
-/

namespace TaintForge

/-! ### Enumerations -/

inductive SessionState
  | active | completed | failed
  deriving DecidableEq

def SessionState.members : List SessionState := [.active, .completed, .failed]

def SessionState.value : SessionState → PyStr
  | .active => py "active"
  | .completed => py "completed"
  | .failed => py "failed"

inductive IterationState
  | prepared | completed
  deriving DecidableEq

def IterationState.members : List IterationState := [.prepared, .completed]

def IterationState.value : IterationState → PyStr
  | .prepared => py "prepared"
  | .completed => py "completed"

def ProgressOracle.StopReason.value : ProgressOracle.StopReason → PyStr
  | .goalReached => py "goal_reached"
  | .fixedPoint => py "fixed_point"
  | .cycleDetected => py "cycle_detected"
  | .noAutomaticRepairs => py "no_automatic_repairs"
  | .budgetExhausted => py "budget_exhausted"
  | .executionTimedOut => py "execution_timed_out"
  | .executionCrashed => py "execution_crashed"
  | .executionExitedWithoutGoal => py "execution_exited_without_goal"

/-! ### Checks -/

/-- `_optional_string`. -/
def Session.optionalString : Json → Option PyStr
  | .str s => if s = [] then none else some s
  | _ => none

/-- A string that begins in some way. -/
def prefixedString (start message : PyStr) : Json → Except DocumentError PyStr
  | .str s => if start.isPrefixOf s then .ok s else .error (.invalid message)
  | _ => .error (.invalid message)

/-- A string that is not empty. -/
def nonemptyString (message : PyStr) : Json → Except DocumentError PyStr
  | .str s => if s = [] then .error (.invalid message) else .ok s
  | _ => .error (.invalid message)

/-- An integer that is not below a bound; a Boolean is none. -/
def boundedInt (bound : ℤ) (message : PyStr) : Json → Except DocumentError ℤ
  | .int n => if n < bound then .error (.invalid message) else .ok n
  | _ => .error (.invalid message)

/-- Comparison of a value with a number. -/
def isNumber (n : ℤ) : Json → Bool
  | .int m => m == n
  | .bool b => (if b then 1 else 0) == n
  | .float (.finite q) => q == n
  | _ => false

/-- `_validate_relative_path`. -/
def validateRelativePath (value label : PyStr) : Except DocumentError Unit :=
  ensure ((purePosixPath value).root = [] ∧ (purePosixPath value).parts ≠ [] ∧
      py ".." ∉ (purePosixPath value).parts)
    (label ++ py " must be a contained relative path")

/-- `_validate_sha256`. -/
def requireSha256 (label : PyStr) : Json → Except DocumentError PyStr
  | .str s =>
    if isSha256 s then .ok s else .error (.invalid (label ++ py " must be a lowercase SHA-256 digest"))
  | _ => .error (.invalid (label ++ py " must be a lowercase SHA-256 digest"))

/-- The characters of a goal, of which the first is a letter or a digit. -/
def isGoalId : PyStr → Bool :=
  matchesName isAlphanumeric
    (fun c => isAlphanumeric c || c == 0x5F || c == 0x2E || c == 0x3A || c == 0x2D) 127

/-- `_validate_goal_id`. -/
def requireGoalId : Json → Except DocumentError PyStr
  | .str s => if isGoalId s then .ok s else .error (.invalid (py "goal_id is invalid"))
  | _ => .error (.invalid (py "goal_id is invalid"))

/-! ### Records -/

structure IterationRecord where
  index : ℤ
  state : IterationState
  directory : PyStr
  environmentSnapshotId : PyStr
  parentSnapshotId : Option PyStr
  environmentManifestId : PyStr
  environmentManifestVersion : ℤ
  attemptId : PyStr
  attemptContract : PyStr
  repairApplication : Option PyStr
  observation : Option PyStr
  artifactManifest : Option PyStr
  attemptResult : Option PyStr
  progress : Option (List (PyStr × Json))
  stopReason : Option PyStr

namespace IterationRecord

/-- `to_dict`. -/
def toDict (r : IterationRecord) : Json :=
  .obj
    [(py "index", .int r.index), (py "state", .str r.state.value), (py "directory", .str r.directory),
      (py "environment_snapshot_id", .str r.environmentSnapshotId),
      (py "parent_snapshot_id", nullable .str r.parentSnapshotId),
      (py "environment_manifest_id", .str r.environmentManifestId),
      (py "environment_manifest_version", .int r.environmentManifestVersion),
      (py "attempt_id", .str r.attemptId), (py "attempt_contract", .str r.attemptContract),
      (py "repair_application", nullable .str r.repairApplication),
      (py "observation", nullable .str r.observation),
      (py "artifact_manifest", nullable .str r.artifactManifest),
      (py "attempt_result", nullable .str r.attemptResult), (py "progress", nullable .obj r.progress),
      (py "stop_reason", nullable .str r.stopReason)]

/-- `==` of two progress values. -/
def sameProgress : Option (List (PyStr × Json)) → Option (List (PyStr × Json)) → Bool
  | none, none => true
  | some f, some g => Json.eq (.obj f) (.obj g)
  | _, _ => false

/-- `==` of two records: the progress compares as dictionaries do. -/
def sameAs (r s : IterationRecord) : Bool :=
  decide (r.index = s.index ∧ r.state = s.state ∧ r.directory = s.directory ∧
      r.environmentSnapshotId = s.environmentSnapshotId ∧ r.parentSnapshotId = s.parentSnapshotId ∧
      r.environmentManifestId = s.environmentManifestId ∧
      r.environmentManifestVersion = s.environmentManifestVersion ∧ r.attemptId = s.attemptId ∧
      r.attemptContract = s.attemptContract ∧ r.repairApplication = s.repairApplication ∧
      r.observation = s.observation ∧ r.artifactManifest = s.artifactManifest ∧
      r.attemptResult = s.attemptResult ∧ r.stopReason = s.stopReason) &&
    sameProgress r.progress s.progress

/-- An identifier of a snapshot that may be null. -/
def optionalSnapshotId : Json → Except DocumentError (Option PyStr)
  | .null => .ok none
  | j => (prefixedString (py "env_") (py "parent snapshot id is invalid") j).map some

/-- A path that may be absent. -/
def validateOptionalPath (label : PyStr) (value : Option PyStr) : Except DocumentError Unit :=
  match value with
  | none => .ok ()
  | some path => validateRelativePath path label

/-- The progress of a record. -/
def optionalObject : Json → Except DocumentError (Option (List (PyStr × Json)))
  | .null => .ok none
  | .obj fields => .ok (some fields)
  | _ => .error (.invalid (py "iteration progress is invalid"))

/-- The fields of an object. -/
def requireObject (message : PyStr) : Json → Except DocumentError (List (PyStr × Json))
  | .obj fields => .ok fields
  | _ => .error (.invalid message)

/-- `from_dict`. -/
def fromDict (raw : Json) : Except DocumentError IterationRecord := do
  let value ← requireObject (py "iteration record must be an object") raw
  let index ← boundedInt 0 (py "iteration index is invalid") (field (py "index") value)
  let state ← enumOf IterationState.members IterationState.value (py "iteration state is invalid")
    (field (py "state") value)
  let directory ← nonemptyString (py "iteration directory is invalid") (field (py "directory") value)
  let environmentSnapshotId ← prefixedString (py "env_") (py "environment snapshot id is invalid")
    (field (py "environment_snapshot_id") value)
  let parentSnapshotId ← optionalSnapshotId (field (py "parent_snapshot_id") value)
  let environmentManifestId ← prefixedString (py "manifest-v") (py "environment manifest id is invalid")
    (field (py "environment_manifest_id") value)
  let environmentManifestVersion ← boundedInt 0 (py "environment manifest version is invalid")
    (field (py "environment_manifest_version") value)
  let attemptId ← prefixedString (py "attempt-") (py "attempt id is invalid") (field (py "attempt_id") value)
  let attemptContract ← nonemptyString (py "attempt contract path is invalid")
    (field (py "attempt_contract") value)
  validateRelativePath directory (py "iteration directory")
  validateRelativePath attemptContract (py "attempt_contract")
  let repairApplication := Session.optionalString (field (py "repair_application") value)
  let observation := Session.optionalString (field (py "observation") value)
  let artifactManifest := Session.optionalString (field (py "artifact_manifest") value)
  let attemptResult := Session.optionalString (field (py "attempt_result") value)
  validateOptionalPath (py "repair_application") repairApplication
  validateOptionalPath (py "observation") observation
  validateOptionalPath (py "artifact_manifest") artifactManifest
  validateOptionalPath (py "attempt_result") attemptResult
  let progress ← optionalObject (field (py "progress") value)
  return {
    index
    state
    directory
    environmentSnapshotId
    parentSnapshotId
    environmentManifestId
    environmentManifestVersion
    attemptId
    attemptContract
    repairApplication
    observation
    artifactManifest
    attemptResult
    progress
    stopReason := Session.optionalString (field (py "stop_reason") value) }

end IterationRecord

/-! ### The session -/

structure SessionManifest where
  sessionId : PyStr
  sessionDir : PyStr
  snapshotStore : PyStr
  seedSnapshotId : PyStr
  environmentManifestStore : PyStr
  seedEnvironmentManifestId : PyStr
  sampleSha256 : PyStr
  packedBinarySha256 : PyStr
  goalId : PyStr
  maxIterations : ℤ
  state : SessionState
  stopReason : Option PyStr
  iterations : List IterationRecord
  createdAtUtc : PyStr
  updatedAtUtc : PyStr

namespace SessionManifest

/-- `to_dict`. -/
def toDict (m : SessionManifest) : Json :=
  .obj
    [(py "schema_version", .int 2), (py "controller_version", .int 2), (py "session_id", .str m.sessionId),
      (py "created_at_utc", .str m.createdAtUtc), (py "updated_at_utc", .str m.updatedAtUtc),
      (py "session_dir", .str m.sessionDir), (py "snapshot_store", .str m.snapshotStore),
      (py "seed_snapshot_id", .str m.seedSnapshotId),
      (py "environment_manifest_store", .str m.environmentManifestStore),
      (py "seed_environment_manifest_id", .str m.seedEnvironmentManifestId),
      (py "sample_sha256", .str m.sampleSha256), (py "packed_binary_sha256", .str m.packedBinarySha256),
      (py "goal_id", .str m.goalId), (py "max_iterations", .int m.maxIterations),
      (py "state", .str m.state.value), (py "stop_reason", nullable .str m.stopReason),
      (py "iterations", .arr (m.iterations.map IterationRecord.toDict))]

/-- `load`, of the value in the file. -/
def fromDict (builtins : PyBuiltins) (raw : Json) : Except DocumentError SessionManifest := do
  let value ← IterationRecord.requireObject (py "session manifest must be an object") raw
  ensure (isNumber 2 (field (py "schema_version") value) ∧ isNumber 2 (field (py "controller_version") value))
    (py "unsupported session manifest version")
  let sessionId ← prefixedString (py "session_") (py "session_id is invalid") (field (py "session_id") value)
  let sessionDir ← nonemptyString (py "session_dir is invalid") (field (py "session_dir") value)
  let snapshotStore ← nonemptyString (py "snapshot_store is invalid") (field (py "snapshot_store") value)
  let environmentManifestStore ← nonemptyString (py "environment_manifest_store is invalid")
    (field (py "environment_manifest_store") value)
  let seedSnapshotId ← prefixedString (py "env_") (py "seed_snapshot_id is invalid")
    (field (py "seed_snapshot_id") value)
  let seedEnvironmentManifestId ← prefixedString (py "manifest-v0000-")
    (py "seed environment manifest id is invalid") (field (py "seed_environment_manifest_id") value)
  let sampleSha256 ← requireSha256 (py "sample_sha256") (field (py "sample_sha256") value)
  let packedBinarySha256 ← requireSha256 (py "packed_binary_sha256") (field (py "packed_binary_sha256") value)
  let goalId ← requireGoalId (field (py "goal_id") value)
  let maxIterations ← boundedInt 1 (py "max_iterations is invalid") (field (py "max_iterations") value)
  let state ← enumOf SessionState.members SessionState.value (py "session state is invalid")
    (field (py "state") value)
  let items ← requireList (py "iterations must be an array") (fieldOr (py "iterations") (.arr []) value)
  let iterations ← mapOk IterationRecord.fromDict items
  ensure (iterations.map IterationRecord.index = (List.range iterations.length).map Int.ofNat)
    (py "iteration indexes must be contiguous")
  return {
    sessionId
    sessionDir
    snapshotStore
    seedSnapshotId
    environmentManifestStore
    seedEnvironmentManifestId
    sampleSha256
    packedBinarySha256
    goalId
    maxIterations
    state
    stopReason := Session.optionalString (field (py "stop_reason") value)
    iterations
    createdAtUtc := textOrUnknown builtins (field (py "created_at_utc") value)
    updatedAtUtc := textOrUnknown builtins (field (py "updated_at_utc") value) }

/-- `_replace_session`; `now` is the time of the call. -/
def replace (m : SessionManifest) (iterations : List IterationRecord) (state : SessionState)
    (stopReason : Option PyStr) (now : PyStr) : SessionManifest :=
  { m with iterations, state, stopReason, updatedAtUtc := now }

end SessionManifest

end TaintForge
