import TaintForge.Env.Document

/-!
# Attempts

The contract of an execution attempt and its result, as they are checked when they are made, written
and read back.

* `AttemptContract`, `StageTransition`, `AttemptProgress`, `AttemptResult`: the data, each with the
  checks of its `__post_init__`.
* `contractDocument`, `resultDocument`: `to_dict` and `from_dict`.
-/

namespace TaintForge

/-! ### Enumerations -/

inductive RunPurpose
  | discovery | fuzzing | reconstruction
  deriving DecidableEq

def RunPurpose.members : List RunPurpose := [.discovery, .fuzzing, .reconstruction]

def RunPurpose.value : RunPurpose → PyStr
  | .discovery => py "discovery"
  | .fuzzing => py "fuzzing"
  | .reconstruction => py "reconstruction"

inductive ExecutionStage
  | staticPreflight | preOepDiscovery | oepCandidate | oepValidation | postOepStabilization
  | boundaryDiscovery | boundaryReady | fuzzing | reconstruction
  deriving DecidableEq

def ExecutionStage.members : List ExecutionStage :=
  [.staticPreflight, .preOepDiscovery, .oepCandidate, .oepValidation, .postOepStabilization,
    .boundaryDiscovery, .boundaryReady, .fuzzing, .reconstruction]

def ExecutionStage.value : ExecutionStage → PyStr
  | .staticPreflight => py "static_preflight"
  | .preOepDiscovery => py "pre_oep_discovery"
  | .oepCandidate => py "oep_candidate"
  | .oepValidation => py "oep_validation"
  | .postOepStabilization => py "post_oep_stabilization"
  | .boundaryDiscovery => py "boundary_discovery"
  | .boundaryReady => py "boundary_ready"
  | .fuzzing => py "fuzzing"
  | .reconstruction => py "reconstruction"

inductive AttemptOutcome
  | goalReached | repairRequired | exited | timedOut | crashed | unsupportedDependency
  | isolationViolation | backendIncompatible | executionError
  deriving DecidableEq

def AttemptOutcome.members : List AttemptOutcome :=
  [.goalReached, .repairRequired, .exited, .timedOut, .crashed, .unsupportedDependency,
    .isolationViolation, .backendIncompatible, .executionError]

def AttemptOutcome.value : AttemptOutcome → PyStr
  | .goalReached => py "goal_reached"
  | .repairRequired => py "repair_required"
  | .exited => py "exited"
  | .timedOut => py "timed_out"
  | .crashed => py "crashed"
  | .unsupportedDependency => py "unsupported_dependency"
  | .isolationViolation => py "isolation_violation"
  | .backendIncompatible => py "backend_incompatible"
  | .executionError => py "execution_error"

/-- `_ALLOWED_STAGE_TRANSITIONS`. -/
def allowedStageTransitions : ExecutionStage → List ExecutionStage
  | .staticPreflight => [.preOepDiscovery, .reconstruction]
  | .preOepDiscovery => [.oepCandidate]
  | .oepCandidate => [.preOepDiscovery, .oepValidation]
  | .oepValidation => [.preOepDiscovery, .oepCandidate, .postOepStabilization]
  | .postOepStabilization => [.oepCandidate, .boundaryDiscovery]
  | .boundaryDiscovery => [.postOepStabilization, .boundaryReady]
  | .boundaryReady => [.fuzzing, .reconstruction]
  | .fuzzing => [.boundaryReady]
  | .reconstruction => []

/-- `[A-Za-z0-9][A-Za-z0-9_.:-]{0,127}`. -/
def isAttemptIdentifier : PyStr → Bool :=
  matchesName isAlphanumeric
    (fun c => isAlphanumeric c || c == 0x5F || c == 0x2E || c == 0x3A || c == 0x2D) 127

section Attempt

variable (sha : Sha256) (ft : FloatText) (iso : IsoFormat)

/-! ### The contract -/

structure AttemptContract where
  attemptId : PyStr
  attemptIndex : PyInt
  purpose : RunPurpose
  sampleSha256 : PyStr
  packedBinarySha256 : PyStr
  environmentManifestId : PyStr
  environmentManifestVersion : PyInt
  goalId : PyStr
  initialStage : ExecutionStage
  schemaVersion : PyInt
  contractVersion : PyInt
  createdAtUtc : PyStr
  deriving DecidableEq

/-- `AttemptContract.__post_init__`. -/
def AttemptContract.postInit (c : AttemptContract) : Except DocumentError Unit := do
  ensure (c.schemaVersion.value = 1) (py "unsupported attempt schema_version")
  ensure (c.contractVersion.value = 1) (py "unsupported attempt contract_version")
  ensure (isAttemptIdentifier c.attemptId) (py "attempt_id is invalid")
  ensure (0 ≤ c.attemptIndex.value) (py "attempt_index must be non-negative")
  validateSha256 (py "sample_sha256") c.sampleSha256
  validateSha256 (py "packed_binary_sha256") c.packedBinarySha256
  ensure (isAttemptIdentifier c.environmentManifestId) (py "environment_manifest_id is invalid")
  ensure (0 ≤ c.environmentManifestVersion.value)
    (py "environment_manifest_version must be non-negative")
  ensure (isAttemptIdentifier c.goalId) (py "goal_id is invalid")
  let _ ← parseTimestamp iso (py "created_at_utc") c.createdAtUtc
  ensure (¬ (c.purpose = .discovery ∧ c.initialStage ∉ [.staticPreflight, .preOepDiscovery]))
    (py "discovery attempts must start at static preflight or pre-OEP discovery")
  ensure (¬ (c.purpose = .fuzzing ∧ c.initialStage ≠ .boundaryReady))
    (py "fuzzing attempts must start at a validated boundary")
  ensure (¬ (c.purpose = .reconstruction ∧ c.initialStage ≠ .reconstruction))
    (py "reconstruction attempts must start in reconstruction stage")

/-- `AttemptContract.identity_dict`. -/
def AttemptContract.identityDict (c : AttemptContract) : List (PyStr × Json) :=
  [(py "schema_version", c.schemaVersion.toJson), (py "contract_version", c.contractVersion.toJson),
    (py "attempt_id", .str c.attemptId), (py "attempt_index", c.attemptIndex.toJson),
    (py "purpose", .str c.purpose.value), (py "sample_sha256", .str c.sampleSha256),
    (py "packed_binary_sha256", .str c.packedBinarySha256),
    (py "environment_manifest_id", .str c.environmentManifestId),
    (py "environment_manifest_version", c.environmentManifestVersion.toJson),
    (py "goal_id", .str c.goalId), (py "initial_stage", .str c.initialStage.value)]

/-- `AttemptContract.contract_sha256`. -/
def AttemptContract.contractSha256 (c : AttemptContract) : Except DocumentError PyStr :=
  canonicalSha256 sha ft (.obj c.identityDict)

/-- `AttemptContract.to_dict`. -/
def AttemptContract.toDict (c : AttemptContract) : Except DocumentError Json := do
  let digest ← c.contractSha256 sha ft
  return .obj (c.identityDict ++
    [(py "created_at_utc", .str c.createdAtUtc), (py "contract_sha256", .str digest)])

/-- The message for a value of an enumeration that is not one. -/
def AttemptContract.unsupported : PyStr := py "attempt contract contains an unsupported enum value"

/-- The part of `AttemptContract.from_dict` that reads the fields. -/
def AttemptContract.read (value : List (PyStr × Json)) : Except DocumentError AttemptContract := do
  let schemaVersion ← requireInt (py "schema_version") (field (py "schema_version") value)
  let contractVersion ← requireInt (py "contract_version") (field (py "contract_version") value)
  let attemptId ← requireString (py "attempt_id") (field (py "attempt_id") value)
  let attemptIndex ← requireInt (py "attempt_index") (field (py "attempt_index") value)
  let purpose ← enumOf RunPurpose.members RunPurpose.value unsupported (field (py "purpose") value)
  let sampleSha256 ← requireString (py "sample_sha256") (field (py "sample_sha256") value)
  let packedBinarySha256 ←
    requireString (py "packed_binary_sha256") (field (py "packed_binary_sha256") value)
  let environmentManifestId ←
    requireString (py "environment_manifest_id") (field (py "environment_manifest_id") value)
  let environmentManifestVersion ←
    requireInt (py "environment_manifest_version") (field (py "environment_manifest_version") value)
  let goalId ← requireString (py "goal_id") (field (py "goal_id") value)
  let initialStage ←
    enumOf ExecutionStage.members ExecutionStage.value unsupported (field (py "initial_stage") value)
  let createdAtUtc ← requireString (py "created_at_utc") (field (py "created_at_utc") value)
  return { attemptId, attemptIndex, purpose, sampleSha256, packedBinarySha256, environmentManifestId,
           environmentManifestVersion, goalId, initialStage, schemaVersion, contractVersion,
           createdAtUtc }

/-- `AttemptContract.from_dict`. -/
def AttemptContract.fromDict (raw : Json) : Except DocumentError AttemptContract := do
  let value ← requireDict (py "attempt contract") raw
  let contract ← read value
  contract.postInit iso
  let expected ← requireString (py "contract_sha256") (field (py "contract_sha256") value)
  validateSha256 (py "contract_sha256") expected
  let digest ← contract.contractSha256 sha ft
  ensure (expected = digest) (py "attempt contract digest mismatch")
  return contract

def contractDocument : Document AttemptContract where
  toDict := AttemptContract.toDict sha ft
  fromDict := AttemptContract.fromDict sha ft iso

/-! ### Stage transitions -/

structure StageTransition where
  sequence : PyInt
  fromStage : ExecutionStage
  toStage : ExecutionStage
  reason : PyStr
  evidenceEventId : PyStr
  timestampUtc : PyStr
  deriving DecidableEq

/-- `StageTransition.__post_init__`. -/
def StageTransition.postInit (t : StageTransition) : Except DocumentError Unit := do
  ensure (0 ≤ t.sequence.value) (py "stage transition sequence is invalid")
  ensure (t.toStage ∈ allowedStageTransitions t.fromStage)
    (py "invalid execution-stage transition: " ++ t.fromStage.value ++ py " -> " ++ t.toStage.value)
  ensure (PyStr.strip t.reason ≠ []) (py "stage transition reason is required")
  ensure (isAttemptIdentifier t.evidenceEventId) (py "stage transition evidence_event_id is invalid")
  let _ ← parseTimestamp iso (py "stage transition timestamp") t.timestampUtc

/-- `StageTransition.to_dict`. -/
def StageTransition.toDict (t : StageTransition) : Json :=
  .obj [(py "sequence", t.sequence.toJson), (py "from_stage", .str t.fromStage.value),
    (py "to_stage", .str t.toStage.value), (py "reason", .str t.reason),
    (py "evidence_event_id", .str t.evidenceEventId), (py "timestamp_utc", .str t.timestampUtc)]

def StageTransition.unsupported : PyStr := py "stage transition contains an unsupported stage"

/-- `StageTransition.from_dict`. -/
def StageTransition.fromDict (raw : Json) : Except DocumentError StageTransition := do
  let value ← requireDict (py "stage transition") raw
  let sequence ← requireInt (py "sequence") (field (py "sequence") value)
  let fromStage ←
    enumOf ExecutionStage.members ExecutionStage.value unsupported (field (py "from_stage") value)
  let toStage ←
    enumOf ExecutionStage.members ExecutionStage.value unsupported (field (py "to_stage") value)
  let reason ← requireString (py "reason") (field (py "reason") value)
  let evidenceEventId ←
    requireString (py "evidence_event_id") (field (py "evidence_event_id") value)
  let timestampUtc ← requireString (py "timestamp_utc") (field (py "timestamp_utc") value)
  let transition : StageTransition :=
    { sequence, fromStage, toStage, reason, evidenceEventId, timestampUtc }
  transition.postInit iso
  return transition

/-! ### Progress -/

structure AttemptProgress where
  goalReached : Bool
  oracleReason : Option PyStr
  guestEventsTotal : PyInt
  coverageEdges : Option PyInt
  observationSha256 : Option PyStr
  deriving DecidableEq

/-- `AttemptProgress.__post_init__`. -/
def AttemptProgress.postInit (p : AttemptProgress) : Except DocumentError Unit := do
  ensure (0 ≤ p.guestEventsTotal.value) (py "guest_events_total must be non-negative")
  ensure (∀ n ∈ p.coverageEdges, 0 ≤ n.value) (py "coverage_edges must be non-negative")
  -- An empty reason counts as none here.
  ensure (¬ (p.goalReached ∧ (p.oracleReason = none ∨ p.oracleReason = some [])))
    (py "goal_reached progress requires an oracle_reason")
  ensure (∀ text ∈ p.observationSha256, isSha256 text)
    (py "observation_sha256 must be a lowercase SHA-256 digest")

/-- `AttemptProgress.to_dict`. -/
def AttemptProgress.toDict (p : AttemptProgress) : Json :=
  .obj [(py "goal_reached", .bool p.goalReached), (py "oracle_reason", nullable .str p.oracleReason),
    (py "guest_events_total", p.guestEventsTotal.toJson),
    (py "coverage_edges", nullable PyInt.toJson p.coverageEdges),
    (py "observation_sha256", nullable .str p.observationSha256)]

/-- `isinstance(value, bool)`. -/
def requireBool (message : PyStr) : Json → Except DocumentError Bool
  | .bool b => .ok b
  | _ => .error (.invalid message)

/-- `AttemptProgress.from_dict`. -/
def AttemptProgress.fromDict (raw : Json) : Except DocumentError AttemptProgress := do
  let value ← requireDict (py "attempt progress") raw
  let goalReached ←
    requireBool (py "goal_reached must be a boolean") (field (py "goal_reached") value)
  let coverageEdges ←
    requireOptional (requireInt (py "coverage_edges")) (field (py "coverage_edges") value)
  let observationSha256 ←
    requireOptional (requireString (py "observation_sha256")) (field (py "observation_sha256") value)
  let oracleReason ←
    requireOptional (requireString (py "oracle_reason")) (field (py "oracle_reason") value)
  let guestEventsTotal ←
    requireInt (py "guest_events_total") (field (py "guest_events_total") value)
  let progress : AttemptProgress :=
    { goalReached, oracleReason, guestEventsTotal, coverageEdges, observationSha256 }
  progress.postInit
  return progress

/-! ### The result -/

structure AttemptResult where
  attemptId : PyStr
  contractSha256 : PyStr
  outcome : AttemptOutcome
  initialStage : ExecutionStage
  finalStage : ExecutionStage
  progress : AttemptProgress
  transitions : List StageTransition
  failureFingerprint : Option PyStr
  startedAtUtc : PyStr
  finishedAtUtc : PyStr
  schemaVersion : PyInt
  resultVersion : PyInt
  deriving DecidableEq

/-- The loop of `_validate_transition_chain`, from a sequence number and the stage expected there. -/
def validateTransitions (finalStage : ExecutionStage) :
    ℕ → ExecutionStage → List StageTransition → Except DocumentError Unit
  | _, expectedStage, [] =>
    ensure (expectedStage = finalStage)
      (py "attempt final_stage does not match its transition chain")
  | sequence, expectedStage, transition :: rest => do
    ensure (transition.sequence.value = sequence)
      (py "stage transition sequences must be contiguous")
    ensure (transition.fromStage = expectedStage)
      (py "stage transition chain does not continue from prior stage")
    validateTransitions finalStage (sequence + 1) transition.toStage rest

/-- `failure_outcomes`. -/
def failureOutcomes : List AttemptOutcome :=
  [.repairRequired, .timedOut, .crashed, .unsupportedDependency, .isolationViolation,
    .backendIncompatible, .executionError]

/-- `AttemptResult.__post_init__`; the parts of the result have passed their own checks. -/
def AttemptResult.postInit (r : AttemptResult) : Except DocumentError Unit := do
  ensure (r.schemaVersion.value = 1) (py "unsupported attempt result schema_version")
  ensure (r.resultVersion.value = 1) (py "unsupported attempt result_version")
  ensure (isAttemptIdentifier r.attemptId) (py "attempt result attempt_id is invalid")
  validateSha256 (py "contract_sha256") r.contractSha256
  let started ← parseTimestamp iso (py "started_at_utc") r.startedAtUtc
  let finished ← parseTimestamp iso (py "finished_at_utc") r.finishedAtUtc
  ensure (started.instant ≤ finished.instant) (py "attempt result finishes before it starts")
  validateTransitions r.finalStage 0 r.initialStage r.transitions
  ensure (¬ (r.outcome ∈ failureOutcomes ∧ r.failureFingerprint = none))
    (r.outcome.value ++ py " requires a failure fingerprint")
  ensure (∀ text ∈ r.failureFingerprint, isSha256 text)
    (py "failure_fingerprint must be a lowercase SHA-256 digest")
  ensure (¬ (r.outcome = .goalReached ∧ ¬ r.progress.goalReached))
    (py "goal_reached outcome requires a successful progress oracle")
  ensure (¬ (r.outcome ≠ .goalReached ∧ r.progress.goalReached))
    (py "only goal_reached outcome may carry goal_reached progress")

/-- The checks of a result and of its parts, which are made before it. -/
def AttemptResult.construct (r : AttemptResult) : Except DocumentError Unit := do
  r.progress.postInit
  let _ ← mapOk (StageTransition.postInit iso) r.transitions
  r.postInit iso

/-- `AttemptResult.identity_dict`. -/
def AttemptResult.identityDict (r : AttemptResult) : List (PyStr × Json) :=
  [(py "schema_version", r.schemaVersion.toJson), (py "result_version", r.resultVersion.toJson),
    (py "attempt_id", .str r.attemptId), (py "contract_sha256", .str r.contractSha256),
    (py "started_at_utc", .str r.startedAtUtc), (py "finished_at_utc", .str r.finishedAtUtc),
    (py "outcome", .str r.outcome.value), (py "initial_stage", .str r.initialStage.value),
    (py "final_stage", .str r.finalStage.value),
    (py "failure_fingerprint", nullable .str r.failureFingerprint),
    (py "progress", r.progress.toDict),
    (py "stage_transitions", .arr (r.transitions.map StageTransition.toDict))]

/-- `AttemptResult.result_sha256`. -/
def AttemptResult.resultSha256 (r : AttemptResult) : Except DocumentError PyStr :=
  canonicalSha256 sha ft (.obj r.identityDict)

/-- `AttemptResult.to_dict`. -/
def AttemptResult.toDict (r : AttemptResult) : Except DocumentError Json := do
  let digest ← r.resultSha256 sha ft
  return .obj (r.identityDict ++ [(py "result_sha256", .str digest)])

def AttemptResult.unsupported : PyStr := py "attempt result contains an unsupported enum value"

/-- The part of `AttemptResult.from_dict` that reads the fields. -/
def AttemptResult.read (value : List (PyStr × Json)) : Except DocumentError AttemptResult := do
  let items ←
    requireList (py "stage_transitions must be a JSON array") (field (py "stage_transitions") value)
  let failureFingerprint ←
    requireOptional (requireString (py "failure_fingerprint")) (field (py "failure_fingerprint") value)
  let schemaVersion ← requireInt (py "schema_version") (field (py "schema_version") value)
  let resultVersion ← requireInt (py "result_version") (field (py "result_version") value)
  let attemptId ← requireString (py "attempt_id") (field (py "attempt_id") value)
  let contractSha256 ← requireString (py "contract_sha256") (field (py "contract_sha256") value)
  let startedAtUtc ← requireString (py "started_at_utc") (field (py "started_at_utc") value)
  let finishedAtUtc ← requireString (py "finished_at_utc") (field (py "finished_at_utc") value)
  let outcome ←
    enumOf AttemptOutcome.members AttemptOutcome.value unsupported (field (py "outcome") value)
  let initialStage ←
    enumOf ExecutionStage.members ExecutionStage.value unsupported (field (py "initial_stage") value)
  let finalStage ←
    enumOf ExecutionStage.members ExecutionStage.value unsupported (field (py "final_stage") value)
  let progress ← AttemptProgress.fromDict (field (py "progress") value)
  let transitions ← mapOk (StageTransition.fromDict iso) items
  return { attemptId, contractSha256, outcome, initialStage, finalStage, progress, transitions,
           failureFingerprint, startedAtUtc, finishedAtUtc, schemaVersion, resultVersion }

/-- `AttemptResult.from_dict`. -/
def AttemptResult.fromDict (raw : Json) : Except DocumentError AttemptResult := do
  let value ← requireDict (py "attempt result") raw
  let result ← read iso value
  result.postInit iso
  let expected ← requireString (py "result_sha256") (field (py "result_sha256") value)
  validateSha256 (py "result_sha256") expected
  let digest ← result.resultSha256 sha ft
  ensure (expected = digest) (py "attempt result digest mismatch")
  return result

def resultDocument : Document AttemptResult where
  toDict := AttemptResult.toDict sha ft
  fromDict := AttemptResult.fromDict sha ft iso

end Attempt

end TaintForge
