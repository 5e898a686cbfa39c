import TaintForge.Env.Attempt

/-!
# Environment manifests

A manifest says what the environment of a sample provides and on which evidence.  Each version names its
parent by an identifier that is made from the parent's digest.

* `ManifestEvidence`, `ManifestEntry`, `EnvironmentManifest`: the data, each with the checks of its
  `__post_init__`.
* `manifestDocument`: `to_dict` and `from_dict`.
* `EnvironmentManifest.derive`: the next version.
-/

namespace TaintForge

/-! ### Enumerations -/

inductive ManifestResourceKind
  | directory | file | device | networkEndpoint | networkService | library | loader | syscallModel
  | persona
  deriving DecidableEq

def ManifestResourceKind.members : List ManifestResourceKind :=
  [.directory, .file, .device, .networkEndpoint, .networkService, .library, .loader, .syscallModel,
    .persona]

def ManifestResourceKind.value : ManifestResourceKind → PyStr
  | .directory => py "directory"
  | .file => py "file"
  | .device => py "device"
  | .networkEndpoint => py "network_endpoint"
  | .networkService => py "network_service"
  | .library => py "library"
  | .loader => py "loader"
  | .syscallModel => py "syscall_model"
  | .persona => py "persona"

inductive LifecycleScope
  | rebuildOnly | iterationRuntime | shared | unknown
  deriving DecidableEq

def LifecycleScope.members : List LifecycleScope :=
  [.rebuildOnly, .iterationRuntime, .shared, .unknown]

def LifecycleScope.value : LifecycleScope → PyStr
  | .rebuildOnly => py "REBUILD_ONLY"
  | .iterationRuntime => py "ITERATION_RUNTIME"
  | .shared => py "SHARED"
  | .unknown => py "UNKNOWN"

inductive ManifestConfidence
  | hypothesis | observed | validated | rejected
  deriving DecidableEq

def ManifestConfidence.members : List ManifestConfidence :=
  [.hypothesis, .observed, .validated, .rejected]

def ManifestConfidence.value : ManifestConfidence → PyStr
  | .hypothesis => py "hypothesis"
  | .observed => py "observed"
  | .validated => py "validated"
  | .rejected => py "rejected"

inductive ManifestEntryStatus
  | active | unresolved | removable | rejected
  deriving DecidableEq

def ManifestEntryStatus.members : List ManifestEntryStatus :=
  [.active, .unresolved, .removable, .rejected]

def ManifestEntryStatus.value : ManifestEntryStatus → PyStr
  | .active => py "active"
  | .unresolved => py "unresolved"
  | .removable => py "removable"
  | .rejected => py "rejected"

inductive EvidenceKind
  | staticPreflight | runtimeEvent | phase1Event | repairApplication | validationRun
  | operatorDecision
  deriving DecidableEq

def EvidenceKind.members : List EvidenceKind :=
  [.staticPreflight, .runtimeEvent, .phase1Event, .repairApplication, .validationRun,
    .operatorDecision]

def EvidenceKind.value : EvidenceKind → PyStr
  | .staticPreflight => py "static_preflight"
  | .runtimeEvent => py "runtime_event"
  | .phase1Event => py "phase1_event"
  | .repairApplication => py "repair_application"
  | .validationRun => py "validation_run"
  | .operatorDecision => py "operator_decision"

/-! ### Names -/

/-- `_IDENTIFIER_RE`: a letter or digit and up to 255 letters, digits, underscores, points, colons, slashes
and dashes. -/
def isManifestIdentifier : PyStr → Bool :=
  matchesName isAlphanumeric
    (fun c => isAlphanumeric c || c == 0x5F || c == 0x2E || c == 0x3A || c == 0x2F || c == 0x2D) 255

/-- `[a-z][a-z0-9_]{0,63}`. -/
def isProvider : PyStr → Bool :=
  matchesName (fun c => decide (0x61 ≤ c) && decide (c ≤ 0x7A))
    (fun c => (decide (0x61 ≤ c) && decide (c ≤ 0x7A)) || (decide (0x30 ≤ c) && decide (c ≤ 0x39)) ||
      c == 0x5F) 63

/-- `0x[0-9a-fA-F]+`. -/
def isConsumerPc : PyStr → Bool
  | 0x30 :: 0x78 :: digits => digits ≠ [] && digits.all fun c => (Json.hexValue c).isSome
  | _ => false

/-- `_validate_identifier`. -/
def validateIdentifier (label text : PyStr) : Except DocumentError Unit :=
  ensure (isManifestIdentifier text) (label ++ py " is invalid")

section Manifest

variable (sha : Sha256) (ft : FloatText) (iso : IsoFormat)

/-! ### Evidence -/

structure ManifestEvidence where
  evidenceId : PyStr
  kind : EvidenceKind
  attemptId : PyStr
  artifactSha256 : PyStr
  deriving DecidableEq

/-- `ManifestEvidence.__post_init__`. -/
def ManifestEvidence.postInit (e : ManifestEvidence) : Except DocumentError Unit := do
  validateIdentifier (py "evidence_id") e.evidenceId
  validateIdentifier (py "evidence attempt_id") e.attemptId
  validateSha256 (py "evidence artifact_sha256") e.artifactSha256

/-- `ManifestEvidence.to_dict`. -/
def ManifestEvidence.toDict (e : ManifestEvidence) : Json :=
  .obj [(py "evidence_id", .str e.evidenceId), (py "kind", .str e.kind.value),
    (py "attempt_id", .str e.attemptId), (py "artifact_sha256", .str e.artifactSha256)]

def ManifestEvidence.unsupported : PyStr := py "manifest evidence contains an unsupported kind"

/-- `ManifestEvidence.from_dict`. -/
def ManifestEvidence.fromDict (raw : Json) : Except DocumentError ManifestEvidence := do
  let value ← requireDict (py "manifest evidence") raw
  let evidenceId ← requireString (py "evidence_id") (field (py "evidence_id") value)
  let kind ← enumOf EvidenceKind.members EvidenceKind.value unsupported (field (py "kind") value)
  let attemptId ← requireString (py "attempt_id") (field (py "attempt_id") value)
  let artifactSha256 ← requireString (py "artifact_sha256") (field (py "artifact_sha256") value)
  let evidence : ManifestEvidence := { evidenceId, kind, attemptId, artifactSha256 }
  evidence.postInit
  return evidence

/-! ### Entries -/

structure ManifestEntry where
  resourceId : PyStr
  kind : ManifestResourceKind
  lifecycleScope : LifecycleScope
  firstSeenStage : ExecutionStage
  firstSeenAttemptId : PyStr
  provider : PyStr
  valueId : PyStr
  valueSha256 : PyStr
  evidence : List ManifestEvidence
  confidence : ManifestConfidence
  status : ManifestEntryStatus
  consumerPc : Option PyStr
  deriving DecidableEq

/-- `ManifestEntry.__post_init__`. -/
def ManifestEntry.postInit (e : ManifestEntry) : Except DocumentError Unit := do
  validateIdentifier (py "resource_id") e.resourceId
  validateIdentifier (py "first_seen_attempt_id") e.firstSeenAttemptId
  ensure (isProvider e.provider) (py "provider must be a lowercase provider identifier")
  validateIdentifier (py "value_id") e.valueId
  validateSha256 (py "value_sha256") e.valueSha256
  ensure (e.evidence ≠ []) (py "manifest entry '" ++ e.resourceId ++ py "' has no evidence")
  ensure ((e.evidence.map ManifestEvidence.evidenceId).Pairwise (· ≤ ·))
    (py "manifest entry '" ++ e.resourceId ++ py "' evidence must be sorted")
  ensure (e.evidence.map ManifestEvidence.evidenceId).Nodup
    (py "manifest entry '" ++ e.resourceId ++ py "' repeats evidence")
  ensure (∀ text ∈ e.consumerPc, isConsumerPc text) (py "consumer_pc must be hexadecimal")
  ensure (¬ (e.status = .active ∧ e.confidence = .rejected))
    (py "an active manifest entry cannot have rejected confidence")
  ensure (¬ (e.status = .rejected ∧ e.confidence ≠ .rejected))
    (py "a rejected entry must have rejected confidence")

/-- `ManifestEntry.identity_dict`. -/
def ManifestEntry.identityDict (e : ManifestEntry) : List (PyStr × Json) :=
  [(py "resource_id", .str e.resourceId), (py "kind", .str e.kind.value),
    (py "lifecycle_scope", .str e.lifecycleScope.value),
    (py "first_seen_stage", .str e.firstSeenStage.value),
    (py "first_seen_attempt_id", .str e.firstSeenAttemptId),
    (py "consumer_pc", nullable .str e.consumerPc), (py "provider", .str e.provider),
    (py "value_id", .str e.valueId), (py "value_sha256", .str e.valueSha256),
    (py "evidence", .arr (e.evidence.map ManifestEvidence.toDict)),
    (py "confidence", .str e.confidence.value), (py "status", .str e.status.value)]

/-- `ManifestEntry.entry_sha256`. -/
def ManifestEntry.entrySha256 (e : ManifestEntry) : Except DocumentError PyStr :=
  canonicalSha256 sha ft (.obj e.identityDict)

/-- `ManifestEntry.to_dict`. -/
def ManifestEntry.toDict (e : ManifestEntry) : Except DocumentError Json := do
  let digest ← e.entrySha256 sha ft
  return .obj (e.identityDict ++ [(py "entry_sha256", .str digest)])

def ManifestEntry.unsupported : PyStr := py "manifest entry contains an unsupported enum value"

/-- The part of `ManifestEntry.from_dict` that reads the fields. -/
def ManifestEntry.read (value : List (PyStr × Json)) : Except DocumentError ManifestEntry := do
  let items ← requireList (py "manifest entry evidence must be an array") (field (py "evidence") value)
  let consumerPc ←
    requireOptional (requireString (py "consumer_pc")) (field (py "consumer_pc") value)
  let resourceId ← requireString (py "resource_id") (field (py "resource_id") value)
  let kind ←
    enumOf ManifestResourceKind.members ManifestResourceKind.value unsupported (field (py "kind") value)
  let lifecycleScope ←
    enumOf LifecycleScope.members LifecycleScope.value unsupported (field (py "lifecycle_scope") value)
  let firstSeenStage ←
    enumOf ExecutionStage.members ExecutionStage.value unsupported (field (py "first_seen_stage") value)
  let firstSeenAttemptId ←
    requireString (py "first_seen_attempt_id") (field (py "first_seen_attempt_id") value)
  let provider ← requireString (py "provider") (field (py "provider") value)
  let valueId ← requireString (py "value_id") (field (py "value_id") value)
  let valueSha256 ← requireString (py "value_sha256") (field (py "value_sha256") value)
  let evidence ← mapOk ManifestEvidence.fromDict items
  let confidence ←
    enumOf ManifestConfidence.members ManifestConfidence.value unsupported (field (py "confidence") value)
  let status ←
    enumOf ManifestEntryStatus.members ManifestEntryStatus.value unsupported (field (py "status") value)
  return { resourceId, kind, lifecycleScope, firstSeenStage, firstSeenAttemptId, provider, valueId,
           valueSha256, evidence, confidence, status, consumerPc }

/-- `ManifestEntry.from_dict`. -/
def ManifestEntry.fromDict (raw : Json) : Except DocumentError ManifestEntry := do
  let value ← requireDict (py "manifest entry") raw
  let entry ← read value
  entry.postInit
  let expected ← requireString (py "entry_sha256") (field (py "entry_sha256") value)
  validateSha256 (py "entry_sha256") expected
  let digest ← entry.entrySha256 sha ft
  ensure (digest = expected) (py "manifest entry digest mismatch for " ++ entry.resourceId)
  return entry

/-- The checks of an entry and of its evidence. -/
def ManifestEntry.construct (e : ManifestEntry) : Except DocumentError Unit := do
  let _ ← mapOk ManifestEvidence.postInit e.evidence
  e.postInit

/-! ### Manifests -/

structure EnvironmentManifest where
  sampleSha256 : PyStr
  manifestVersion : PyInt
  rootfsSnapshotId : PyStr
  entries : List ManifestEntry
  createdByAttemptId : PyStr
  changeReason : PyStr
  parentVersion : Option PyInt
  parentManifestId : Option PyStr
  schemaVersion : PyInt
  modelVersion : PyInt
  generatedAtUtc : PyStr
  deriving DecidableEq

/-- `EnvironmentManifest.__post_init__`. -/
def EnvironmentManifest.postInit (m : EnvironmentManifest) : Except DocumentError Unit := do
  ensure (m.schemaVersion.value = 2) (py "unsupported environment manifest schema_version")
  ensure (m.modelVersion.value = 1) (py "unsupported environment manifest model_version")
  validateSha256 (py "sample_sha256") m.sampleSha256
  ensure (0 ≤ m.manifestVersion.value) (py "manifest_version must be non-negative")
  validateIdentifier (py "rootfs_snapshot_id") m.rootfsSnapshotId
  validateIdentifier (py "created_by_attempt_id") m.createdByAttemptId
  ensure (PyStr.strip m.changeReason ≠ []) (py "change_reason is required")
  let _ ← parseTimestamp iso (py "generated_at_utc") m.generatedAtUtc
  if m.manifestVersion.value = 0 then
    ensure (m.parentVersion = none ∧ m.parentManifestId = none)
      (py "manifest version zero cannot have a parent")
  else
    ensure (m.parentVersion.map PyInt.value = some (m.manifestVersion.value - 1))
      (py "parent_version must immediately precede manifest_version")
    match m.parentManifestId with
    | none => .error (.invalid (py "non-seed manifest requires parent_manifest_id"))
    | some parent => validateIdentifier (py "parent_manifest_id") parent
  ensure ((m.entries.map ManifestEntry.resourceId).Pairwise (· ≤ ·))
    (py "manifest entries must be sorted by resource_id")
  ensure (m.entries.map ManifestEntry.resourceId).Nodup
    (py "manifest contains duplicate resource_id values")

/-- `EnvironmentManifest.sample_id`. -/
def EnvironmentManifest.sampleId (m : EnvironmentManifest) : PyStr :=
  py "packed-sample-" ++ m.sampleSha256.take 16

/-- `EnvironmentManifest.identity_dict`. -/
def EnvironmentManifest.identityDict (m : EnvironmentManifest) :
    Except DocumentError (List (PyStr × Json)) := do
  let entries ← mapOk (ManifestEntry.toDict sha ft) m.entries
  return [(py "schema_version", m.schemaVersion.toJson), (py "model_version", m.modelVersion.toJson),
    (py "sample_id", .str m.sampleId), (py "sample_sha256", .str m.sampleSha256),
    (py "manifest_version", m.manifestVersion.toJson),
    (py "parent_version", nullable PyInt.toJson m.parentVersion),
    (py "parent_manifest_id", nullable .str m.parentManifestId),
    (py "rootfs_snapshot_id", .str m.rootfsSnapshotId),
    (py "created_by_attempt_id", .str m.createdByAttemptId),
    (py "change_reason", .str m.changeReason), (py "entries", .arr entries)]

/-- `EnvironmentManifest.manifest_sha256`. -/
def EnvironmentManifest.manifestSha256 (m : EnvironmentManifest) : Except DocumentError PyStr := do
  let identity ← m.identityDict sha ft
  canonicalSha256 sha ft (.obj identity)

/-- `f"{n:04d}"`, for a number that is not negative. -/
def format04 (n : PyInt) : Except DocumentError PyStr :=
  if convertible n.value then
    .ok (List.replicate (4 - (decimal n.value.natAbs).length) 0x30 ++ decimal n.value.natAbs)
  else .error (.json .intTooLarge)

/-- `EnvironmentManifest.manifest_id`. -/
def EnvironmentManifest.manifestId (m : EnvironmentManifest) : Except DocumentError PyStr := do
  let version ← format04 m.manifestVersion
  let digest ← m.manifestSha256 sha ft
  return py "manifest-v" ++ version ++ py "-" ++ digest.take 16

/-- How often each text occurs, in the order of the texts. -/
def counts (texts : List PyStr) : List (PyStr × Json) :=
  (texts.dedup.map fun text => (text, Json.int (texts.count text))).insertionSort
    fun a b => a.1 ≤ b.1

/-- `EnvironmentManifest.summary`. -/
def EnvironmentManifest.summary (m : EnvironmentManifest) : Json :=
  .obj [(py "entries_total", .int m.entries.length),
    (py "by_lifecycle_scope", .obj (counts (m.entries.map fun e => e.lifecycleScope.value))),
    (py "by_status", .obj (counts (m.entries.map fun e => e.status.value)))]

/-- `EnvironmentManifest.to_dict`. -/
def EnvironmentManifest.toDict (m : EnvironmentManifest) : Except DocumentError Json := do
  let identity ← m.identityDict sha ft
  let manifestId ← m.manifestId sha ft
  let manifestSha256 ← m.manifestSha256 sha ft
  return .obj (identity ++
    [(py "manifest_id", .str manifestId), (py "manifest_sha256", .str manifestSha256),
      (py "generated_at_utc", .str m.generatedAtUtc), (py "summary", m.summary)])

/-- The part of `EnvironmentManifest.from_dict` that reads the fields. -/
def EnvironmentManifest.read (value : List (PyStr × Json)) :
    Except DocumentError EnvironmentManifest := do
  let items ← requireList (py "manifest entries must be an array") (field (py "entries") value)
  let parentVersion ←
    requireOptional (requireInt (py "parent_version")) (field (py "parent_version") value)
  let parentManifestId ←
    requireOptional (requireString (py "parent_manifest_id")) (field (py "parent_manifest_id") value)
  let schemaVersion ← requireInt (py "schema_version") (field (py "schema_version") value)
  let modelVersion ← requireInt (py "model_version") (field (py "model_version") value)
  let sampleSha256 ← requireString (py "sample_sha256") (field (py "sample_sha256") value)
  let manifestVersion ← requireInt (py "manifest_version") (field (py "manifest_version") value)
  let rootfsSnapshotId ←
    requireString (py "rootfs_snapshot_id") (field (py "rootfs_snapshot_id") value)
  let entries ← mapOk (ManifestEntry.fromDict sha ft) items
  let createdByAttemptId ←
    requireString (py "created_by_attempt_id") (field (py "created_by_attempt_id") value)
  let changeReason ← requireString (py "change_reason") (field (py "change_reason") value)
  let generatedAtUtc ← requireString (py "generated_at_utc") (field (py "generated_at_utc") value)
  return { sampleSha256, manifestVersion, rootfsSnapshotId, entries, createdByAttemptId, changeReason,
           parentVersion, parentManifestId, schemaVersion, modelVersion, generatedAtUtc }

/-- `EnvironmentManifest.from_dict`. -/
def EnvironmentManifest.fromDict (raw : Json) : Except DocumentError EnvironmentManifest := do
  let value ← requireDict (py "environment manifest") raw
  let manifest ← read sha ft value
  manifest.postInit iso
  let expectedSampleId ← requireString (py "sample_id") (field (py "sample_id") value)
  ensure (expectedSampleId = manifest.sampleId) (py "sample_id mismatch")
  let expectedId ← requireString (py "manifest_id") (field (py "manifest_id") value)
  let expectedSha256 ← requireString (py "manifest_sha256") (field (py "manifest_sha256") value)
  validateSha256 (py "manifest_sha256") expectedSha256
  let digest ← manifest.manifestSha256 sha ft
  ensure (expectedSha256 = digest) (py "environment manifest digest mismatch")
  let manifestId ← manifest.manifestId sha ft
  ensure (expectedId = manifestId) (py "environment manifest id mismatch")
  return manifest

/-- The checks of a manifest and of its parts. -/
def EnvironmentManifest.construct (m : EnvironmentManifest) : Except DocumentError Unit := do
  let _ ← mapOk ManifestEntry.construct m.entries
  m.postInit iso

/-- `EnvironmentManifest.derive`; `now` is the time of the call. -/
def EnvironmentManifest.derive (m : EnvironmentManifest) (now rootfsSnapshotId : PyStr)
    (entries : List ManifestEntry) (createdByAttemptId changeReason : PyStr) :
    Except DocumentError EnvironmentManifest := do
  let manifestId ← m.manifestId sha ft
  let manifest : EnvironmentManifest :=
    { sampleSha256 := m.sampleSha256
      manifestVersion := .int (m.manifestVersion.value + 1)
      rootfsSnapshotId
      entries := entries.insertionSort fun a b => a.resourceId ≤ b.resourceId
      createdByAttemptId
      changeReason
      parentVersion := some m.manifestVersion
      parentManifestId := some manifestId
      schemaVersion := .int 2
      modelVersion := .int 1
      generatedAtUtc := now }
  manifest.postInit iso
  return manifest

def manifestDocument : Document EnvironmentManifest where
  toDict := EnvironmentManifest.toDict sha ft
  fromDict := EnvironmentManifest.fromDict sha ft iso

end Manifest

end TaintForge
