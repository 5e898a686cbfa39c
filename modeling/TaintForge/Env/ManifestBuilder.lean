import TaintForge.Env.EnvironmentManifest
import TaintForge.Env.RepairApplier

/-!
# The builder of the next manifest

After a repair was applied, the next version of the environment manifest records what it did, from the
plan, the report of its application and the observation of the attempt.  The text of an `OSError` is left
out of the messages that quote one.

* `observedDirectoryMode`, `directoryEntry`: the entry of a directory that was made.
* `mergeEntry`: an entry that was there already gets the new evidence.
* `recordResult`, `recordResults`: the loop over the results of the application.
* `deriveEnvironmentManifestFromRepair`: the next manifest.
-/

namespace TaintForge

/-! ### The report of an application -/

def RepairResultStatus.value : RepairResultStatus → PyStr
  | .notSelected => py "not_selected"
  | .planned => py "planned"
  | .applied => py "applied"
  | .alreadySatisfied => py "already_satisfied"
  | .rolledBack => py "rolled_back"

def RepairApplicationState.value : RepairApplicationState → PyStr
  | .dryRun => py "dry_run"
  | .completed => py "completed"
  | .failed => py "failed"

/-- The fields of `RepairDecisionResult.to_dict` that are read again. -/
def RepairDecisionResult.toDict (r : RepairDecisionResult) : Json :=
  .obj [(py "decision_id", .str r.decisionId), (py "requirement_id", .str r.requirementId),
    (py "action", .str r.action), (py "resource", .str r.resource), (py "status", .str r.status.value),
    (py "reason", .str r.reason)]

/-- The fields of `RepairApplicationReport.to_dict` that are read again. -/
def RepairApplicationReport.toDict (r : RepairApplicationReport) : Json :=
  .obj [(py "schema_version", .int 1), (py "applier_version", .int 1),
    (py "state", .str r.state.value), (py "plan_sha256", .str r.planSha256),
    (py "requirements_sha256", .str r.requirementsSha256), (py "dry_run", .bool r.dryRun),
    (py "results", .arr (r.results.map RepairDecisionResult.toDict))]

/-! ### The input -/

/-- How values are shown: `repr` of a string, and `str` of what is not a string. -/
structure PyDisplay where
  repr : PyStr → PyStr
  str : Json → PyStr

/-- Why no manifest is derived. -/
inductive ManifestBuilderError
  | invalid (message : PyStr)
  | plan (error : RepairPlanValidationError)
  | manifest (error : DocumentError)
  deriving DecidableEq

/-- A file: whether it is a regular one, what it holds or what its reader says, and its digest. -/
structure SourceFile (α : Type) where
  path : PyStr
  regular : Bool
  content : Except PyStr α
  sha256 : PyStr
  isSha256_sha256 : isSha256 sha256

/-- The fields of an observation that are read here. -/
structure IterationObservation where
  requirementsSha256 : PyStr
  repairPlanSha256 : PyStr

/-- The repaired rootfs, which is none if there is no directory at its path, and the files that tell what
was done to it. -/
structure RepairEvidence where
  rootfsPath : PyStr
  rootfs : Option Rootfs
  repairPlan : SourceFile RepairPlan
  repairApplication : SourceFile Json
  observation : SourceFile IterationObservation

/-- A check that raises. -/
def check (p : Prop) [Decidable p] (message : PyStr) : Except ManifestBuilderError Unit :=
  if p then .ok () else .error (.invalid message)

/-- An error of the manifest model, which is not caught. -/
def ofManifest {α : Type} : Except DocumentError α → Except ManifestBuilderError α
  | .ok a => .ok a
  | .error error => .error (.manifest error)

/-- `_regular_file`. -/
def SourceFile.regularFile {α : Type} (file : SourceFile α) (label : PyStr) :
    Except ManifestBuilderError Unit :=
  check file.regular (label ++ py " is invalid: " ++ file.path)

/-- What a file holds. -/
def SourceFile.read {α : Type} (file : SourceFile α) : Except ManifestBuilderError α :=
  match file.content with
  | .ok content => .ok content
  | .error message => .error (.invalid message)

/-- `_required_string`. -/
def requiredString (label : PyStr) : Json → Except ManifestBuilderError PyStr
  | .str s => if s = [] then .error (.invalid (label ++ py " must be a non-empty string")) else .ok s
  | _ => .error (.invalid (label ++ py " must be a non-empty string"))

/-- Comparison of a value with a truth value. -/
def isBool (b : Bool) : Json → Bool
  | .bool c => c == b
  | _ => false

/-- `_required_int`. -/
def requiredInt (label : PyStr) : Json → Except ManifestBuilderError ℤ
  | .int n => .ok n
  | _ => .error (.invalid (label ++ py " must be an integer"))

/-! ### The entry of a directory -/

/-- `f"{stat.S_IMODE(mode):04o}"`. -/
def octal04 (mode : ℕ) : PyStr :=
  [0x30 + mode / 0o1000 % 8, 0x30 + mode / 0o100 % 8, 0x30 + mode / 0o10 % 8, 0x30 + mode % 8]

/-- The walk of `_observed_directory_mode` below the directory `current`, whose mode was seen last. -/
def observeComponents (fs : Rootfs) (resource : PyStr) :
    GuestPath → Option ℕ → List PyStr → Except ManifestBuilderError (Option ℕ)
  | _, observedMode, [] => .ok observedMode
  | current, _, component :: rest =>
    match fs.lstat (current ++ [component]) with
    | .error _ => .error (.invalid (py "cannot observe repaired directory " ++ resource))
    | .ok (.symlink _) | .ok (.file _) =>
      .error (.invalid (py "repaired directory is not a real directory: " ++ resource))
    | .ok (.dir mode) => observeComponents fs resource (current ++ [component]) (some mode) rest

/-- `_observed_directory_mode`. -/
def observedDirectoryMode (fs : Rootfs) (resource decisionId : PyStr) :
    Except ManifestBuilderError PyStr := do
  check ([slash].isPrefixOf resource ∧ resource ≠ [slash] ∧ py ".." ∉ (purePosixPath resource).parts ∧
      (purePosixPath resource).asPosix = PyStr.rstripOf slash resource)
    (py "directory repair " ++ decisionId ++ py " has an invalid guest path")
  let observedMode ← observeComponents fs resource [] none (guestComponents resource)
  match observedMode with
  | none => .error (.invalid (py "directory repair " ++ decisionId ++ py " has an empty guest path"))
  | some mode => .ok (octal04 mode)

section Builder

variable (sha : Sha256) (ft : FloatText) (iso : IsoFormat) (display : PyDisplay)

/-- `_directory_entry`. -/
def directoryEntry (fs : Rootfs) (contract : AttemptContract) (decision : RepairDecision)
    (observationSha256 applicationSha256 : PyStr) : Except ManifestBuilderError ManifestEntry := do
  let exactMode : Bool :=
    match decision.parameter (py "mode") with
    | .str text => (octalDigits text).isSome
    | _ => false
  check (exactMode ∧ isBool true (decision.parameter (py "parents")))
    (py "directory repair " ++ decision.decisionId ++ py " lacks exact mode/parents semantics")
  let mode ← observedDirectoryMode fs decision.resource decision.decisionId
  let valueSha256 ← ofManifest <| canonicalSha256 sha ft <|
    .obj [(py "action", .str RepairActionKind.createDirectory.value), (py "mode", .str mode),
      (py "parents", .bool true), (py "resource", .str decision.resource)]
  let observation : ManifestEvidence :=
    { evidenceId := contract.attemptId ++ py ":observation", kind := .runtimeEvent,
      attemptId := contract.attemptId, artifactSha256 := observationSha256 }
  let application : ManifestEvidence :=
    { evidenceId := contract.attemptId ++ py ":repair:" ++ decision.decisionId,
      kind := .repairApplication, attemptId := contract.attemptId, artifactSha256 := applicationSha256 }
  let entry : ManifestEntry :=
    { resourceId := py "fs:" ++ decision.resource
      kind := .directory
      lifecycleScope := .unknown
      firstSeenStage := contract.initialStage
      firstSeenAttemptId := contract.attemptId
      provider := py "static_directory"
      valueId := py "directory-" ++ mode ++ py "-" ++ valueSha256.take 12
      valueSha256 := valueSha256
      evidence := [observation, application].insertionSort fun a b => a.evidenceId ≤ b.evidenceId
      confidence := .observed
      status := .active
      consumerPc := none }
  ofManifest observation.postInit
  ofManifest application.postInit
  ofManifest entry.postInit
  return entry

/-- The dictionary of some evidence by its identifiers, with more evidence. -/
def mergeEvidence : List ManifestEvidence → List ManifestEvidence →
    Except ManifestBuilderError (List ManifestEvidence)
  | evidence, [] => .ok evidence
  | evidence, item :: rest =>
    match evidence.find? fun previous => previous.evidenceId == item.evidenceId with
    | none => mergeEvidence (evidence ++ [item]) rest
    | some previous =>
      if previous = item then mergeEvidence evidence rest
      else .error (.invalid (py "conflicting evidence id " ++ display.repr item.evidenceId))

/-- The replacement of an entry that is there. -/
def mergeExisting (existing replacement : ManifestEntry) : Except ManifestBuilderError ManifestEntry := do
  let evidence ← mergeEvidence display existing.evidence replacement.evidence
  let sameValue := existing.kind = replacement.kind ∧ existing.provider = replacement.provider ∧
    existing.valueSha256 = replacement.valueSha256
  let merged : ManifestEntry :=
    { replacement with
      firstSeenStage := existing.firstSeenStage
      firstSeenAttemptId := existing.firstSeenAttemptId
      consumerPc := existing.consumerPc
      lifecycleScope := existing.lifecycleScope
      confidence := if sameValue then existing.confidence else replacement.confidence
      status := if sameValue then existing.status else replacement.status
      evidence := evidence.insertionSort fun a b => a.evidenceId ≤ b.evidenceId }
  ofManifest merged.postInit
  return merged

/-- `_merge_entry`; the entries of a manifest have different resources. -/
def mergeEntry (entries : List ManifestEntry) (replacement : ManifestEntry) :
    Except ManifestBuilderError (List ManifestEntry) := do
  let merged ←
    match entries.find? fun entry => entry.resourceId == replacement.resourceId with
    | none => .ok replacement
    | some existing => mergeExisting display existing replacement
  return ((entries.filter fun entry => entry.resourceId ≠ replacement.resourceId) ++
    [merged]).insertionSort fun a b => a.resourceId ≤ b.resourceId

/-! ### The results of the application -/

/-- What the loop over the results has recorded. -/
structure Recorded where
  entries : List ManifestEntry
  selectedTotal : ℕ
  seenDecisions : List PyStr

/-- The body of the loop. -/
def recordResult (fs : Rootfs) (contract : AttemptContract) (plan : RepairPlan)
    (observationSha256 applicationSha256 : PyStr) (recorded : Recorded)
    (result : List (PyStr × Json)) : Except ManifestBuilderError Recorded := do
  let decisionId ← requiredString (py "decision_id") (field (py "decision_id") result)
  check (decisionId ∉ recorded.seenDecisions)
    (py "repair application repeats decision " ++ display.repr decisionId)
  let seenDecisions := recorded.seenDecisions ++ [decisionId]
  match plan.decisions.find? fun decision => decision.decisionId == decisionId with
  | none =>
    .error (.invalid (py "repair application references unknown decision " ++ display.repr decisionId))
  | some decision => do
    check (isText decision.resource (field (py "resource") result))
      (py "repair resource mismatch for " ++ decisionId)
    check (isText decision.action.value (field (py "action") result))
      (py "repair action mismatch for " ++ decisionId)
    check (isText decision.requirementId (field (py "requirement_id") result))
      (py "repair requirement mismatch for " ++ decisionId)
    let status ← requiredString (py "status") (field (py "status") result)
    if decision.automaticAllowed then
      check (decision.disposition = .autoCandidate)
        (py "automatic repair " ++ decisionId ++ py " is not an auto candidate")
      check (status ∈ [py "applied", py "already_satisfied"])
        (py "completed automatic repair " ++ decisionId ++ py " has invalid status")
    else
      check (status = py "not_selected")
        (py "manual repair " ++ decisionId ++ py " was reported as selected")
    if status = py "not_selected" then return { recorded with seenDecisions }
    check (decision.action = .createDirectory)
      (py "selected repair action has no manifest mapping: " ++ decision.action.value)
    let replacement ← directoryEntry sha ft fs contract decision observationSha256 applicationSha256
    let entries ← mergeEntry display recorded.entries replacement
    return { entries, selectedTotal := recorded.selectedTotal + 1, seenDecisions }

/-- The loop over the results. -/
def recordResults (fs : Rootfs) (contract : AttemptContract) (plan : RepairPlan)
    (observationSha256 applicationSha256 : PyStr) :
    Recorded → List (List (PyStr × Json)) → Except ManifestBuilderError Recorded
  | recorded, [] => .ok recorded
  | recorded, result :: rest => do
    let next ←
      recordResult sha ft display fs contract plan observationSha256 applicationSha256 recorded result
    recordResults fs contract plan observationSha256 applicationSha256 next rest

/-- The fields of an object. -/
def asObject : Json → Option (List (PyStr × Json))
  | .obj fields => some fields
  | _ => none

/-- The objects of an array. -/
def requiredObjects : Json → Except ManifestBuilderError (List (List (PyStr × Json)))
  | .arr items =>
    match items.mapM asObject with
    | some objects => .ok objects
    | none => .error (.invalid (py "repair application results must be a JSON array of objects"))
  | _ => .error (.invalid (py "repair application results must be a JSON array of objects"))

/-- `str(item.get("decision_id") or "")`. -/
def resultKey (result : List (PyStr × Json)) : PyStr :=
  match field (py "decision_id") result with
  | .str s => s
  | .null | .bool false | .int 0 | .arr [] | .obj [] => []
  | j => display.str j

/-- `derive_environment_manifest_from_repair`. -/
def deriveEnvironmentManifestFromRepair (now : PyStr) (parent : EnvironmentManifest)
    (rootfsSnapshotId : PyStr) (contract : AttemptContract)
    (result : AttemptResult) (evidence : RepairEvidence) :
    Except ManifestBuilderError EnvironmentManifest := do
  check (contract.sampleSha256 = parent.sampleSha256)
    (py "source attempt sample does not match the parent manifest")
  let parentId ← ofManifest (parent.manifestId sha ft)
  check (contract.environmentManifestId = parentId)
    (py "source attempt does not reference the parent manifest id")
  check (contract.environmentManifestVersion.value = parent.manifestVersion.value)
    (py "source attempt does not reference the parent manifest version")
  check (result.attemptId = contract.attemptId)
    (py "source attempt result id does not match its contract")
  let contractSha256 ← ofManifest (contract.contractSha256 sha ft)
  check (result.contractSha256 = contractSha256)
    (py "source attempt result does not reference the exact contract")
  check (result.outcome = .repairRequired)
    (py "only a repair-required attempt may derive a repaired manifest")
  match evidence.rootfs with
  | none => .error (.invalid (py "repaired rootfs is invalid: " ++ evidence.rootfsPath))
  | some fs => do
    evidence.repairPlan.regularFile (py "repair plan")
    evidence.repairApplication.regularFile (py "repair application")
    evidence.observation.regularFile (py "attempt observation")
    let raw ← evidence.repairPlan.read
    let plan ←
      match raw.load sha.hexdigest with
      | .ok plan => .ok plan
      | .error error => .error (ManifestBuilderError.plan error)
    check (result.progress.observationSha256 = some evidence.observation.sha256)
      (py "source attempt result does not reference the exact observation")
    let parsedObservation ← evidence.observation.read
    check (parsedObservation.repairPlanSha256 = evidence.repairPlan.sha256)
      (py "attempt observation does not reference the exact repair plan")
    check (parsedObservation.requirementsSha256 = plan.sourceSha256)
      (py "attempt observation requirements digest does not match the plan")
    let loaded ← evidence.repairApplication.read
    match loaded with
    | .obj application => do
      let schemaVersion ←
        requiredInt (py "schema_version") (field (py "schema_version") application)
      check (schemaVersion = 1) (py "unsupported repair application schema_version")
      let applierVersion ←
        requiredInt (py "applier_version") (field (py "applier_version") application)
      check (applierVersion = 1) (py "unsupported repair application applier_version")
      check (isText (py "completed") (field (py "state") application) ∧
          isBool false (field (py "dry_run") application))
        (py "only a completed non-dry-run repair application may derive a manifest")
      check (isText evidence.repairPlan.sha256 (field (py "plan_sha256") application))
        (py "repair application does not reference the exact repair plan")
      check (isText plan.sourceSha256 (field (py "requirements_sha256") application))
        (py "repair application requirements digest does not match the plan")
      let results ← requiredObjects (field (py "results") application)
      let recorded ← recordResults sha ft display fs contract plan evidence.observation.sha256
        evidence.repairApplication.sha256 ⟨parent.entries, 0, []⟩
        (results.insertionSort fun a b => resultKey display a ≤ resultKey display b)
      let missing := ((plan.decisions.map RepairDecision.decisionId).filter (· ∉ recorded.seenDecisions))
      check (missing = [])
        (py "repair application is missing decision results: " ++
          List.intercalate (py ", ") (missing.insertionSort (· ≤ ·)))
      check (recorded.selectedTotal ≠ 0)
        (py "completed repair application contains no applied or satisfied repair")
      ofManifest <| parent.derive sha ft iso now rootfsSnapshotId recorded.entries contract.attemptId
        (py "Recorded " ++ decimal recorded.selectedTotal ++
          py " deterministic repair result(s) from " ++ contract.attemptId ++ py ".")
    | _ => .error (.invalid (py "repair application must be a JSON object"))

end Builder

end TaintForge
