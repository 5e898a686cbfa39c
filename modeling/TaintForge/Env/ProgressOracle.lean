import TaintForge.Env.EgressPolicy
import TaintForge.Env.Document
import TaintForge.Lib.KeySort
import TaintForge.Lib.PyText

/-!
# The progress oracle

`ProgressOracle.observe` reads the artifacts of an iteration, drops what changes from run to run, and digests the
rest into a fingerprint of the state.  `_decide_stop_reason` of the iteration controller compares it with those of
the earlier iterations.

An artifact is given by its text, and the directory by the regular files in it.  Left out are the comparison of two
observations, which no stop depends on, and the check that the directory is one.

* `normalizeRequirements`, `normalizeRepairs`, `normalizeGuestEvents`, `normalizeNetworkEvents`: what is kept.
* `ProgressOracle.observe`: the observation.
* `ProgressOracle.IterationObservation.toDict`, `ProgressOracle.IterationObservation.fromDict`: how it is stored.
* `ProgressOracle.decideStopReason`: why a session stops.
-/

namespace TaintForge

/-! ### Artifacts -/

/-- Why there is no observation: a `ProgressOracleError`, with the message where it is known, or an exception that
is not caught. -/
inductive ProgressOracleError
  | invalid (message : PyStr)
  | invalidJson
  | sourceMismatch (expected : PyStr) (got : Json)
  | uncaught

/-- The text of a file, read with `errors="replace"`, and whether its bytes are UTF-8. -/
structure ArtifactFile where
  text : PyStr
  utf8 : Bool

/-- The digest of the bytes, where they are UTF-8. -/
def ArtifactFile.sha256 (sha : Sha256) (file : ArtifactFile) : PyStr := sha.hexdigest file.text

/-- The regular files of a directory, by their relative paths. -/
abbrev ArtifactFiles := PyStr → Option ArtifactFile

/-- `_locate_optional_file`. -/
def locateOptionalFile (files : ArtifactFiles) (filename : PyStr) : Option ArtifactFile :=
  ((files filename).or (files (py "config/" ++ filename))).or (files (py "logs/" ++ filename))

/-- `_locate_file`. -/
def locateFile (files : ArtifactFiles) (filename : PyStr) : Except ProgressOracleError ArtifactFile :=
  match locateOptionalFile files filename with
  | some file => .ok file
  | none => .error (.invalid (py "required artifact " ++ filename ++ py " was not found"))

/-- `json.loads`. -/
def loadsArtifact (ft : FloatText) (text : PyStr) : Except ProgressOracleError Json :=
  match Json.loads ft text with
  | .ok value => .ok value
  | .error .decode => .error .invalidJson
  | .error _ => .error .uncaught

/-- `_load_json_object`. -/
def loadJsonObject (ft : FloatText) (file : ArtifactFile) :
    Except ProgressOracleError (List (PyStr × Json)) :=
  if file.utf8 = false then .error .uncaught
  else do
    let value ← loadsArtifact ft file.text
    match value with
    | .obj fields => return fields
    | _ => .error (.invalid (py "expected JSON object"))

/-- The loop of `_read_jsonl`. -/
def readLines (ft : FloatText) : List PyStr → Except ProgressOracleError (List (List (PyStr × Json)))
  | [] => .ok []
  | line :: rest =>
    if line.strip = [] then readLines ft rest
    else do
      let value ← loadsArtifact ft line
      match value with
      | .obj fields => do
        let events ← readLines ft rest
        return fields :: events
      | _ => .error (.invalid (py "JSONL event is not an object"))

/-- `_read_jsonl`. -/
def readJsonl (ft : FloatText) (file : ArtifactFile) :
    Except ProgressOracleError (List (List (PyStr × Json))) :=
  readLines ft file.text.splitlines

/-- The events of a file that may be missing. -/
def readEvents (ft : FloatText) (files : ArtifactFiles) (filename : PyStr) :
    Except ProgressOracleError (List (List (PyStr × Json))) :=
  match locateOptionalFile files filename with
  | some file => readJsonl ft file
  | none => .ok []

/-! ### What is kept -/

/-- `_string`. -/
def stringOf (item : List (PyStr × Json)) (fieldName : PyStr) (index : ℕ) : Except ProgressOracleError PyStr :=
  match field fieldName item with
  | .str text =>
    if text = [] then .error (.invalid (py "item " ++ decimal index ++ py " has invalid " ++ fieldName))
    else .ok text
  | _ => .error (.invalid (py "item " ++ decimal index ++ py " has invalid " ++ fieldName))

/-- The value, if it is a string. -/
def textOrNone : Json → Option PyStr
  | .str text => some text
  | _ => none

/-- The value, if it is an integer; so is a Boolean. -/
def intOrBool : Json → Option PyInt
  | .int n => some (.int n)
  | .bool b => some (.bool b)
  | _ => none

structure NormalizedRequirement where
  requirementId : PyStr
  kind : PyStr
  resource : PyStr
  operation : PyStr
  status : PyStr
  blocking : PyStr
  repairable : Bool
  errno : Option PyStr
  deriving DecidableEq

def NormalizedRequirement.toDict (r : NormalizedRequirement) : Json :=
  .obj
    [(py "requirement_id", .str r.requirementId),
      (py "kind", .str r.kind),
      (py "resource", .str r.resource),
      (py "operation", .str r.operation),
      (py "status", .str r.status),
      (py "blocking", .str r.blocking),
      (py "repairable", .bool r.repairable),
      (py "errno", nullable .str r.errno)]

structure NormalizedRepair where
  decisionId : PyStr
  requirementId : PyStr
  resource : PyStr
  action : PyStr
  disposition : PyStr
  automaticAllowed : Bool
  deriving DecidableEq

def NormalizedRepair.toDict (r : NormalizedRepair) : Json :=
  .obj
    [(py "decision_id", .str r.decisionId),
      (py "requirement_id", .str r.requirementId),
      (py "resource", .str r.resource),
      (py "action", .str r.action),
      (py "disposition", .str r.disposition),
      (py "automatic_allowed", .bool r.automaticAllowed)]

inductive NormalizedGuestEvent
  | syscall (name : PyStr) (errno : Option PyStr) (success : Option Bool) (path remoteIp : Option PyStr)
      (remotePort : Option PyInt)
  | outcome (event result : PyStr)
  | other (event : PyStr)
  deriving DecidableEq

def NormalizedGuestEvent.toDict : NormalizedGuestEvent → List (PyStr × Json)
  | .syscall name errno success path remoteIp remotePort =>
    [(py "event", .str (py "syscall")),
      (py "syscall", .str name),
      (py "errno", nullable .str errno),
      (py "success", nullable .bool success),
      (py "path", nullable .str path),
      (py "remote_ip", nullable .str remoteIp),
      (py "remote_port", nullable PyInt.toJson remotePort)]
  | .outcome event result => [(py "event", .str event), (py "result", .str result)]
  | .other event => [(py "event", .str event)]

structure NormalizedNetworkEvent where
  event : PyStr
  listenerType : Option PyStr
  originalRemoteIp : Option PyStr
  originalRemotePort : Option PyInt
  udpRole : Option PyStr
  responseObserved : Bool
  deriving DecidableEq

def NormalizedNetworkEvent.toDict (e : NormalizedNetworkEvent) : List (PyStr × Json) :=
  [(py "event", .str e.event),
    (py "listener_type", nullable .str e.listenerType),
    (py "original_remote_ip", nullable .str e.originalRemoteIp),
    (py "original_remote_port", nullable PyInt.toJson e.originalRemotePort),
    (py "udp_role", nullable .str e.udpRole),
    (py "response_observed", .bool e.responseObserved)]

/-- An element of `requirements`. -/
def normalizeRequirement (item : Json × ℕ) : Except ProgressOracleError NormalizedRequirement :=
  match item.1 with
  | .obj fields => do
    let requirementId ← stringOf fields (py "requirement_id") item.2
    let kind ← stringOf fields (py "kind") item.2
    let resource ← stringOf fields (py "resource") item.2
    let operation ← stringOf fields (py "operation") item.2
    let status ← stringOf fields (py "status") item.2
    let blocking ← stringOf fields (py "blocking") item.2
    return {
      requirementId := requirementId
      kind := kind
      resource := resource
      operation := operation
      status := status
      blocking := blocking
      repairable := (fieldOr (py "repairable") (.bool false) fields).truthy
      errno := textOrNone (field (py "errno") fields) }
  | _ => .error (.invalid (py "requirements[" ++ decimal item.2 ++ py "] is not an object"))

/-- The order of the requirements. -/
def NormalizedRequirement.sortKey (r : NormalizedRequirement) : List PyStr :=
  [r.kind, r.resource, r.operation, r.requirementId]

/-- `_normalize_requirements`, before they are sorted. -/
def requirementItems (raw : List (PyStr × Json)) : Except ProgressOracleError (List NormalizedRequirement) :=
  match field (py "requirements") raw with
  | .arr values => values.zipIdx.mapM normalizeRequirement
  | _ => .error (.invalid (py "runtime_requirements.json lacks requirements[]"))

/-- `_normalize_requirements`. -/
def normalizeRequirements (raw : List (PyStr × Json)) :
    Except ProgressOracleError (List NormalizedRequirement) := do
  let normalized ← requirementItems raw
  return keySort NormalizedRequirement.sortKey normalized

/-- An element of `decisions`. -/
def normalizeRepair (item : Json × ℕ) : Except ProgressOracleError NormalizedRepair :=
  match item.1 with
  | .obj fields => do
    let decisionId ← stringOf fields (py "decision_id") item.2
    let requirementId ← stringOf fields (py "requirement_id") item.2
    let resource ← stringOf fields (py "resource") item.2
    let action ← stringOf fields (py "action") item.2
    let disposition ← stringOf fields (py "disposition") item.2
    return {
      decisionId := decisionId
      requirementId := requirementId
      resource := resource
      action := action
      disposition := disposition
      automaticAllowed := (fieldOr (py "automatic_allowed") (.bool false) fields).truthy }
  | _ => .error (.invalid (py "decisions[" ++ decimal item.2 ++ py "] is not an object"))

/-- `_normalize_repairs`, before they are sorted. -/
def repairItems (raw : List (PyStr × Json)) : Except ProgressOracleError (List NormalizedRepair) :=
  match field (py "decisions") raw with
  | .arr values => values.zipIdx.mapM normalizeRepair
  | _ => .error (.invalid (py "repair_plan.json lacks decisions[]"))

/-- `_normalize_repairs`. -/
def normalizeRepairs (raw : List (PyStr × Json)) : Except ProgressOracleError (List NormalizedRepair) := do
  let normalized ← repairItems raw
  return keySort NormalizedRepair.decisionId normalized

section Builtins

variable (builtins : PyBuiltins)

/-- `str(value or "unknown")`. -/
def textOrUnknown (value : Json) : PyStr := if value.truthy then builtins.strOf value else py "unknown"

/-- An event of the guest; the others are dropped. -/
def normalizeGuestEvent (event : List (PyStr × Json)) : Option NormalizedGuestEvent :=
  if ¬ isText (py "guest") (field (py "execution_context") event) then none
  else
    let eventType := textOrUnknown builtins (field (py "event") event)
    if eventType = py "syscall" then
      let success :=
        match field (py "return_value") event with
        | .int n => some (decide (0 ≤ n))
        | _ => none
      some (.syscall (textOrUnknown builtins (field (py "syscall") event))
        (textOrNone (field (py "errno") event)) success (textOrNone (field (py "path") event))
        (textOrNone (field (py "remote_ip") event)) (intOrBool (field (py "remote_port") event)))
    else if eventType = py "signal" ∨ eventType = py "process_exit" then
      some (.outcome eventType (textOrUnknown builtins (field (py "result") event)))
    else some (.other eventType)

/-- `_normalize_guest_events`. -/
def normalizeGuestEvents (events : List (List (PyStr × Json))) : List NormalizedGuestEvent :=
  events.filterMap (normalizeGuestEvent builtins)

/-- An event of the network. -/
def normalizeNetworkEvent (event : List (PyStr × Json)) : NormalizedNetworkEvent where
  event := textOrUnknown builtins (field (py "event") event)
  listenerType := textOrNone (field (py "listener_type") event)
  originalRemoteIp := textOrNone (field (py "original_remote_ip") event)
  originalRemotePort := intOrBool (field (py "original_remote_port") event)
  udpRole := textOrNone (field (py "udp_role") event)
  responseObserved := isText (py "tcp_response") (field (py "event") event)

/-- `_normalize_network_events`. -/
def normalizeNetworkEvents (events : List (List (PyStr × Json))) : List NormalizedNetworkEvent :=
  events.map (normalizeNetworkEvent builtins)

end Builtins

/-! ### The observation -/

namespace ProgressOracle

/-- `ProgressMetrics`. -/
structure ProgressMetrics where
  guestEventsTotal : ℕ
  uniqueGuestEvents : ℕ
  networkEventsTotal : ℕ
  uniqueNetworkTargets : ℕ
  requirementsTotal : ℕ
  unmetTotal : ℕ
  likelyUnmetTotal : ℕ
  automaticCandidates : ℕ
  reviewRequired : ℕ
  manualAnalysis : ℕ
  fatalSignals : ℕ
  deriving DecidableEq

def ProgressMetrics.toDict (m : ProgressMetrics) : Json :=
  .obj
    [(py "guest_events_total", .int m.guestEventsTotal),
      (py "unique_guest_events", .int m.uniqueGuestEvents),
      (py "network_events_total", .int m.networkEventsTotal),
      (py "unique_network_targets", .int m.uniqueNetworkTargets),
      (py "requirements_total", .int m.requirementsTotal),
      (py "unmet_total", .int m.unmetTotal),
      (py "likely_unmet_total", .int m.likelyUnmetTotal),
      (py "automatic_candidates", .int m.automaticCandidates),
      (py "review_required", .int m.reviewRequired),
      (py "manual_analysis", .int m.manualAnalysis),
      (py "fatal_signals", .int m.fatalSignals)]

/-- `IterationObservation`. -/
structure IterationObservation where
  requirementsSha256 : PyStr
  requirementsFingerprint : PyStr
  repairPlanSha256 : PyStr
  repairFingerprint : PyStr
  behaviorFingerprint : PyStr
  stateFingerprint : PyStr
  metrics : ProgressMetrics
  normalizedGuestEvents : List (List (PyStr × Json))
  normalizedNetworkEvents : List (List (PyStr × Json))
  goalReached : Bool
  goalReason : Option PyStr
  generatedAtUtc : PyStr

namespace IterationObservation

/-- `to_dict`. -/
def toDict (o : IterationObservation) : Json :=
  .obj
    [(py "schema_version", .int 1),
      (py "generated_at_utc", .str o.generatedAtUtc),
      (py "requirements_sha256", .str o.requirementsSha256),
      (py "requirements_fingerprint", .str o.requirementsFingerprint),
      (py "repair_plan_sha256", .str o.repairPlanSha256),
      (py "repair_fingerprint", .str o.repairFingerprint),
      (py "behavior_fingerprint", .str o.behaviorFingerprint),
      (py "state_fingerprint", .str o.stateFingerprint),
      (py "goal_reached", .bool o.goalReached),
      (py "goal_reason", nullable .str o.goalReason),
      (py "metrics", o.metrics.toDict),
      (py "normalized_guest_events", .arr (o.normalizedGuestEvents.map .obj)),
      (py "normalized_network_events", .arr (o.normalizedNetworkEvents.map .obj))]

end IterationObservation

section Digests

variable (sha : Sha256) (ft : FloatText)

/-- `_digest_json`. -/
def digestJson (value : Json) : Except ProgressOracleError PyStr :=
  (canonicalSha256 sha ft value).mapError fun _ => .uncaught

/-- `_canonical_json`. -/
def canonicalJson (value : Json) : PyStr := Json.write ft .compact 0 value.sortKeys

/-- `_network_targets`; `True` and `1` are one port. -/
def networkTargets (events : List NormalizedNetworkEvent) : List (PyStr × ℤ) :=
  (events.filterMap fun event =>
    match event.originalRemoteIp, event.originalRemotePort with
    | some ip, some port => some (ip, port.value)
    | _, _ => none).dedup

/-- `_build_metrics`. -/
def buildMetrics (requirements : List NormalizedRequirement) (repairs : List NormalizedRepair)
    (guestEvents : List NormalizedGuestEvent) (networkEvents : List NormalizedNetworkEvent) : ProgressMetrics where
  guestEventsTotal := guestEvents.length
  uniqueGuestEvents := (guestEvents.map fun event => canonicalJson ft (.obj event.toDict)).dedup.length
  networkEventsTotal := networkEvents.length
  uniqueNetworkTargets := (networkTargets networkEvents).length
  requirementsTotal := requirements.length
  unmetTotal := requirements.countP fun item => item.status = py "unmet"
  likelyUnmetTotal := requirements.countP fun item => item.status = py "unmet" ∧ item.blocking = py "likely"
  automaticCandidates := repairs.countP fun item => item.automaticAllowed
  reviewRequired := repairs.countP fun item => item.disposition = py "review_required"
  manualAnalysis := repairs.countP fun item => item.disposition = py "manual_analysis"
  fatalSignals := guestEvents.countP fun event => isText (py "signal") (field (py "event") event.toDict)

/-- The four normalised parts of an iteration, with the digests of the two artifacts. -/
structure NormalizedArtifacts where
  requirementsSha256 : PyStr
  repairPlanSha256 : PyStr
  requirements : List NormalizedRequirement
  repairs : List NormalizedRepair
  guestEvents : List NormalizedGuestEvent
  networkEvents : List NormalizedNetworkEvent

/-- What `observe` reads. -/
def readArtifacts (builtins : PyBuiltins) (files : ArtifactFiles) :
    Except ProgressOracleError NormalizedArtifacts := do
  let requirementsFile ← locateFile files (py "runtime_requirements.json")
  let repairPlanFile ← locateFile files (py "repair_plan.json")
  let requirements ← loadJsonObject ft requirementsFile
  let repairPlan ← loadJsonObject ft repairPlanFile
  let sourceSha256 := field (py "source_sha256") repairPlan
  if ¬ isText (requirementsFile.sha256 sha) sourceSha256 then
    .error (.sourceMismatch (requirementsFile.sha256 sha) sourceSha256)
  else
    let normalizedRequirements ← normalizeRequirements requirements
    let normalizedRepairs ← normalizeRepairs repairPlan
    let syscallEvents ← readEvents ft files (py "syscall_events.jsonl")
    let networkEvents ← readEvents ft files (py "network_events.jsonl")
    return {
      requirementsSha256 := requirementsFile.sha256 sha
      repairPlanSha256 := repairPlanFile.sha256 sha
      requirements := normalizedRequirements
      repairs := normalizedRepairs
      guestEvents := normalizeGuestEvents builtins syscallEvents
      networkEvents := normalizeNetworkEvents builtins networkEvents }

/-- The behaviour that is digested. -/
def behaviorPayload (guestEvents : List NormalizedGuestEvent) (networkEvents : List NormalizedNetworkEvent) : Json :=
  .obj
    [(py "guest_events", .arr (guestEvents.map fun event => .obj event.toDict)),
      (py "network_events", .arr (networkEvents.map fun event => .obj event.toDict))]

/-- The state that is digested. -/
def statePayload (environmentSnapshotId requirementsFingerprint repairFingerprint behaviorFingerprint : PyStr) :
    Json :=
  .obj
    [(py "environment_snapshot_id", .str environmentSnapshotId),
      (py "requirements_fingerprint", .str requirementsFingerprint),
      (py "repair_fingerprint", .str repairFingerprint),
      (py "behavior_fingerprint", .str behaviorFingerprint)]

/-- `ProgressOracle.observe`. -/
def observe (builtins : PyBuiltins) (files : ArtifactFiles) (environmentSnapshotId : PyStr) (goalReached : Bool)
    (goalReason : Option PyStr) (now : PyStr) : Except ProgressOracleError IterationObservation := do
  let read ← readArtifacts sha ft builtins files
  let requirementsFingerprint ← digestJson sha ft (.arr (read.requirements.map NormalizedRequirement.toDict))
  let repairFingerprint ← digestJson sha ft (.arr (read.repairs.map NormalizedRepair.toDict))
  let behaviorFingerprint ← digestJson sha ft (behaviorPayload read.guestEvents read.networkEvents)
  let stateFingerprint ← digestJson sha ft
    (statePayload environmentSnapshotId requirementsFingerprint repairFingerprint behaviorFingerprint)
  return {
    requirementsSha256 := read.requirementsSha256
    requirementsFingerprint := requirementsFingerprint
    repairPlanSha256 := read.repairPlanSha256
    repairFingerprint := repairFingerprint
    behaviorFingerprint := behaviorFingerprint
    stateFingerprint := stateFingerprint
    metrics := buildMetrics ft read.requirements read.repairs read.guestEvents read.networkEvents
    normalizedGuestEvents := read.guestEvents.map NormalizedGuestEvent.toDict
    normalizedNetworkEvents := read.networkEvents.map NormalizedNetworkEvent.toDict
    goalReached := goalReached
    goalReason :=
      if goalReached ∧ (goalReason = none ∨ goalReason = some []) then some (py "explicit goal marker supplied")
      else goalReason
    generatedAtUtc := now }

end Digests

/-! ### The stored observation -/

/-- Comparison of a value with 1. -/
def isOne : Json → Bool
  | .int n => n == 1
  | .bool b => b
  | .float (.finite q) => q == 1
  | _ => false

/-- `_nonnegative_int`; a `KeyError` is caught. -/
def nonnegativeInt (raw : List (PyStr × Json)) (name : PyStr) : Except ProgressOracleError ℕ :=
  match Json.lookup name raw with
  | none => .error (.invalid (py "missing observation metric: '" ++ name ++ py "'"))
  | some (.int n) =>
    if n < 0 then .error (.invalid (py "metric " ++ name ++ py " must be non-negative integer"))
    else .ok n.toNat
  | some _ => .error (.invalid (py "metric " ++ name ++ py " must be non-negative integer"))

/-- The metrics of a stored observation. -/
def ProgressMetrics.fromDict (raw : List (PyStr × Json)) : Except ProgressOracleError ProgressMetrics := do
  let guestEventsTotal ← nonnegativeInt raw (py "guest_events_total")
  let uniqueGuestEvents ← nonnegativeInt raw (py "unique_guest_events")
  let networkEventsTotal ← nonnegativeInt raw (py "network_events_total")
  let uniqueNetworkTargets ← nonnegativeInt raw (py "unique_network_targets")
  let requirementsTotal ← nonnegativeInt raw (py "requirements_total")
  let unmetTotal ← nonnegativeInt raw (py "unmet_total")
  let likelyUnmetTotal ← nonnegativeInt raw (py "likely_unmet_total")
  let automaticCandidates ← nonnegativeInt raw (py "automatic_candidates")
  let reviewRequired ← nonnegativeInt raw (py "review_required")
  let manualAnalysis ← nonnegativeInt raw (py "manual_analysis")
  let fatalSignals ← nonnegativeInt raw (py "fatal_signals")
  return {
    guestEventsTotal := guestEventsTotal
    uniqueGuestEvents := uniqueGuestEvents
    networkEventsTotal := networkEventsTotal
    uniqueNetworkTargets := uniqueNetworkTargets
    requirementsTotal := requirementsTotal
    unmetTotal := unmetTotal
    likelyUnmetTotal := likelyUnmetTotal
    automaticCandidates := automaticCandidates
    reviewRequired := reviewRequired
    manualAnalysis := manualAnalysis
    fatalSignals := fatalSignals }

/-- A value that is an object. -/
def objectOf (message : PyStr) : Json → Except ProgressOracleError (List (PyStr × Json))
  | .obj fields => .ok fields
  | _ => .error (.invalid message)

/-- A list of objects. -/
def objectsOf (message : PyStr) : Json → Except ProgressOracleError (List (List (PyStr × Json)))
  | .arr items => items.mapM (objectOf message)
  | _ => .error (.invalid message)

/-- A digest of a stored observation. -/
def fingerprintOf (raw : List (PyStr × Json)) (name : PyStr) : Except ProgressOracleError PyStr :=
  match field name raw with
  | .str text =>
    if isSha256 text then .ok text else .error (.invalid (py "invalid observation field: " ++ name))
  | _ => .error (.invalid (py "invalid observation field: " ++ name))

/-- `IterationObservation.from_dict`. -/
def IterationObservation.fromDict (builtins : PyBuiltins) (raw : Json) :
    Except ProgressOracleError IterationObservation := do
  let raw ← objectOf (py "iteration observation must be an object") raw
  if ¬ isOne (field (py "schema_version") raw) then
    .error (.invalid (py "unsupported iteration observation schema"))
  else
    let metricsRaw ← objectOf (py "observation metrics must be an object") (field (py "metrics") raw)
    let metrics ← ProgressMetrics.fromDict metricsRaw
    let guestEvents ← objectsOf (py "normalized_guest_events must be objects")
      (fieldOr (py "normalized_guest_events") (.arr []) raw)
    let networkEvents ← objectsOf (py "normalized_network_events must be objects")
      (fieldOr (py "normalized_network_events") (.arr []) raw)
    let requirementsSha256 ← fingerprintOf raw (py "requirements_sha256")
    let requirementsFingerprint ← fingerprintOf raw (py "requirements_fingerprint")
    let repairPlanSha256 ← fingerprintOf raw (py "repair_plan_sha256")
    let repairFingerprint ← fingerprintOf raw (py "repair_fingerprint")
    let behaviorFingerprint ← fingerprintOf raw (py "behavior_fingerprint")
    let stateFingerprint ← fingerprintOf raw (py "state_fingerprint")
    let goalReached ←
      match fieldOr (py "goal_reached") (.bool false) raw with
      | .bool b => .ok b
      | _ => .error (.invalid (py "goal_reached must be boolean"))
    let goalReason ←
      match field (py "goal_reason") raw with
      | .null => .ok none
      | .str text => .ok (some text)
      | _ => .error (.invalid (py "goal_reason must be string or null"))
    return {
      requirementsSha256 := requirementsSha256
      requirementsFingerprint := requirementsFingerprint
      repairPlanSha256 := repairPlanSha256
      repairFingerprint := repairFingerprint
      behaviorFingerprint := behaviorFingerprint
      stateFingerprint := stateFingerprint
      metrics := metrics
      normalizedGuestEvents := guestEvents
      normalizedNetworkEvents := networkEvents
      goalReached := goalReached
      goalReason := goalReason
      generatedAtUtc := textOrUnknown builtins (field (py "generated_at_utc") raw) }

/-- `save`: what is written. -/
def IterationObservation.save (ft : FloatText) (o : IterationObservation) : Except DocumentError PyStr :=
  serialise ft o.toDict

/-- `IterationObservation.load` of a file with some text, if there is one. -/
def IterationObservation.load (ft : FloatText) (builtins : PyBuiltins) :
    Option PyStr → Except ProgressOracleError IterationObservation
  | none => .error (.invalid (py "observation does not exist"))
  | some text => do
    let raw ← loadsArtifact ft text
    IterationObservation.fromDict builtins raw

/-! ### Why a session stops -/

/-- `StopReason`. -/
inductive StopReason
  | goalReached | fixedPoint | cycleDetected | noAutomaticRepairs | budgetExhausted
  | executionTimedOut | executionCrashed | executionExitedWithoutGoal
  deriving DecidableEq

/-- The observations of the iterations before one; `records` has the paths of their files, and `store` the texts. -/
def priorObservations (ft : FloatText) (builtins : PyBuiltins) (store : PyStr → Option PyStr)
    (records : List (Option PyStr)) : Except ProgressOracleError (List IterationObservation) :=
  (records.filterMap id).mapM fun path => IterationObservation.load ft builtins (store path)

/-- `_decide_stop_reason`. -/
def decideStopReason (ft : FloatText) (builtins : PyBuiltins) (store : PyStr → Option PyStr)
    (records : List (Option PyStr)) (maxIterations iterationIndex : ℕ) (observation : IterationObservation) :
    Except ProgressOracleError (Option StopReason) :=
  if observation.goalReached then .ok (some .goalReached)
  else do
    let prior ← priorObservations ft builtins store (records.take iterationIndex)
    if prior.getLast?.any fun last => observation.stateFingerprint = last.stateFingerprint then
      return some .fixedPoint
    else if prior.dropLast.any fun item => observation.stateFingerprint = item.stateFingerprint then
      return some .cycleDetected
    else if observation.metrics.automaticCandidates = 0 then return some .noAutomaticRepairs
    else if maxIterations ≤ iterationIndex + 1 then return some .budgetExhausted
    else return none

end ProgressOracle

end TaintForge
