import TaintForge.Env.RepairPlan
import TaintForge.Lib.PosixPath

/-!
# The repair planner

The planner turns each requirement of a report into a decision and never changes the rootfs.  Only the
directory rule can authorise a repair without review.

* `validateGuestPath`, `isPseudoFilesystemPath`: what the planner asks of a path.
* `verdict`: the rules.
* `planRequirement`, `plan`: the decisions of a report.
-/

namespace TaintForge

/-- What `urlsplit` finds in a resource; the port is absent when there is none. -/
structure SplitResult where
  scheme : PyStr
  hostname : PyStr
  port : Option ℕ
  path : PyStr
  query : PyStr
  fragment : PyStr

/-- The configuration of the planner, with the standard function that takes URLs apart. -/
structure RepairPlannerConfig where
  minimumAutoConfidence : ℚ
  urlsplit : PyStr → Option SplitResult

/-- Why no plan is made. -/
inductive RepairPlanningError
  | automaticWithoutCandidate
  | unicode
  deriving DecidableEq

/-! ### Guest paths -/

/-- `_validate_guest_path`: what is wrong with a path. -/
def validateGuestPath (path : PyStr) : Option PyStr :=
  if 0 ∈ path then some (py "path contains a NUL byte")
  else if ¬ [slash].isPrefixOf path then some (py "path is not absolute")
  else if py ".." ∈ (purePosixPath path).parts then
    some (py "path contains a parent traversal component")
  else if (purePosixPath path).asPosix ≠ PyStr.rstripOf slash path ∧ path ≠ [slash] then
    some (py "path is not in normalized POSIX form")
  else none

/-- The directories whose content the kernel makes up. -/
def pseudoFilesystems : List PyStr := [py "/proc", py "/sys", py "/dev"]

/-- `_is_pseudo_filesystem_path`. -/
def isPseudoFilesystemPath (path : PyStr) : Bool :=
  pseudoFilesystems.any fun dir => beneath dir path

/-! ### Rules -/

/-- `_priority_from_blocking`. -/
def priorityFromBlocking : BlockingAssessment → RepairPriority
  | .likely => .critical
  | .possible => .high
  | .unknown => .normal
  | .unlikely => .low

/-- `_priority_order`. -/
def priorityOrder : RepairPriority → ℕ
  | .critical => 0
  | .high => 1
  | .normal => 2
  | .low => 3

/-- `dict(details).get(key)`: a later pair of the same key counts. -/
def detail (requirement : RuntimeRequirement) (key : PyStr) : Option PyStr :=
  ((requirement.details.reverse).find? fun pair => pair.1 == key).map Prod.snd

/-- `_needs_semantic_network_review`. -/
def needsSemanticNetworkReview (requirement : RuntimeRequirement) : Bool :=
  requirement.kind == .network &&
    detail requirement (py "semantic_satisfaction") != some (py "confirmed")

/-- What a rule decides about a requirement. -/
structure Verdict where
  action : RepairActionKind
  disposition : RepairDisposition
  priority : RepairPriority
  risk : RepairRisk
  automaticAllowed : Bool
  reason : PyStr
  parameters : List (PyStr × Json) := []

/-- `sorted(parameters.items())`; the keys of a dictionary differ. -/
def sortedItems (parameters : List (PyStr × Json)) : List (PyStr × Json) :=
  parameters.insertionSort fun a b => a.1 ≤ b.1

/-- A decision that nobody takes automatically. -/
def manual (priority : RepairPriority) (reason : PyStr) : Verdict where
  action := .none
  disposition := .manualAnalysis
  priority := priority
  risk := .high
  automaticAllowed := false
  reason := reason

/-- `_parse_endpoint`. -/
def parseEndpoint (config : RepairPlannerConfig) (resource : PyStr) :
    Option (PyStr × PyStr × ℕ) :=
  match config.urlsplit resource with
  | none => none
  | some parsed =>
    if parsed.scheme ≠ py "tcp" ∧ parsed.scheme ≠ py "udp" then none
    else
      match parsed.port with
      | none => none
      | some port =>
        if parsed.hostname = [] then none
        else if (parsed.path ≠ [] ∧ parsed.path ≠ [slash]) ∨ parsed.query ≠ [] ∨ parsed.fragment ≠ []
        then none
        else if ¬ (1 ≤ port ∧ port ≤ 65535) then none
        else some (parsed.scheme, parsed.hostname, port)

/-- The part of `_plan_filesystem` about directories. -/
def planDirectory (config : RepairPlannerConfig) (requirement : RuntimeRequirement)
    (priority : RepairPriority) : Verdict :=
  if requirement.resource = [slash] ∨ isPseudoFilesystemPath requirement.resource then
    { action := .createDirectory
      disposition := .manualAnalysis
      priority := priority
      risk := .high
      automaticAllowed := false
      reason := py ("Pseudo-filesystem and root paths require mount or backend semantics; mkdir is " ++
        "not sufficient.")
      parameters := [(py "mode", .str (py "0755")), (py "parents", .bool true)] }
  else
    let automatic : Bool :=
      requirement.status == .unmet && decide (config.minimumAutoConfidence ≤ requirement.confidence)
    { action := .createDirectory
      disposition := if automatic then .autoCandidate else .reviewRequired
      priority := priority
      risk := .low
      automaticAllowed := automatic
      reason :=
        if automatic then
          py ("Creating an absent directory inside a disposable rootfs is structurally reversible and " ++
            "does not invent file content.")
        else
          py ("The directory requirement is plausible, but the evidence is not strong enough for " ++
            "automatic application.")
      parameters := [(py "mode", .str (py "0755")), (py "parents", .bool true)] }

/-- `_plan_filesystem`. -/
def planFilesystem (config : RepairPlannerConfig) (requirement : RuntimeRequirement)
    (priority : RepairPriority) : Verdict :=
  match validateGuestPath requirement.resource with
  | some pathError =>
    manual priority (py "Unsafe or invalid guest path: " ++ pathError ++ py ".")
  | none =>
    if requirement.operation = py "directory_exists" then
      planDirectory config requirement priority
    else if requirement.operation = py "path_exists" then
      { action := .provideFile
        disposition := .reviewRequired
        priority := priority
        risk := .medium
        automaticAllowed := false
        reason := py ("Existence alone does not reveal required content. The planner must not create " ++
          "an empty file and claim semantic satisfaction.")
        parameters :=
          [(py "content_strategy", .str (py "derive_or_supply")), (py "create_empty", .bool false)] }
    else if requirement.operation = py "path_access" then
      { action := .adjustPathAccess
        disposition := .reviewRequired
        priority := priority
        risk := .high
        automaticAllowed := false
        reason := py ("Changing ownership or permissions may alter malware behavior and must be " ++
          "justified from the requested access mode and sandbox identity.")
        parameters := [(py "preserve_entry_type", .bool true)] }
    else if requirement.operation = py "path_writable" then
      { action := .makePathWritable
        disposition := .reviewRequired
        priority := priority
        risk := .medium
        automaticAllowed := false
        reason := py ("Writable access may require an overlay, tmpfs, ownership change, or mode " ++
          "change. The correct mechanism is not inferable from one failure alone.")
        parameters := [(py "strategy", .str (py "overlay_or_permissions"))] }
    else if requirement.operation = py "valid_path_layout" then
      { action := .repairPathLayout
        disposition := .manualAnalysis
        priority := priority
        risk := .high
        automaticAllowed := false
        reason := py ("ENOTDIR indicates a type conflict in an ancestor path. Replacing existing " ++
          "nodes automatically could destroy evidence or break unrelated dependencies.") }
    else
      manual priority (py "No safe filesystem repair rule exists for this operation.")

/-- `_plan_network`. -/
def planNetwork (config : RepairPlannerConfig) (requirement : RuntimeRequirement)
    (priority : RepairPriority) : Verdict :=
  match parseEndpoint config requirement.resource with
  | none => manual priority (py "The network resource is not a valid tcp:// or udp:// endpoint.")
  | some (transport, host, port) =>
    let copied (key : PyStr) : List (PyStr × Json) :=
      match detail requirement key with
      | none => []
      | some text => [(key, .str text)]
    { action := if transport = py "tcp" then .configureTcpService else .configureUdpService
      disposition := .reviewRequired
      priority := priority
      risk := .medium
      automaticAllowed := false
      reason := py ("Transport reachability is not equivalent to protocol satisfaction. Use a " ++
        "recorded response or a protocol-specific emulator rather than an arbitrary generic reply.")
      parameters := sortedItems <|
        [(py "transport", .str transport), (py "remote_ip", .str host),
          (py "remote_port", .int port),
          (py "response_strategy", .str (py "recorded_or_protocol_specific"))] ++
        copied (py "role") ++ copied (py "listener_type") }

/-- `_plan_library`. -/
def planLibrary (requirement : RuntimeRequirement) (priority : RepairPriority) : Verdict :=
  let interpreter : Bool := requirement.operation == py "interpreter_available"
  { action := if interpreter then .provideInterpreter else .resolveLibrary
    disposition := .reviewRequired
    priority := priority
    risk := .medium
    automaticAllowed := false
    reason :=
      if interpreter then
        py ("The ELF interpreter must match the target architecture and ABI. Resolve it from a " ++
          "verified sysroot before copying it.")
      else
        py ("A shared object must match architecture, ABI, SONAME, and dependency closure. A " ++
          "filename-only stub is unsafe.")
    parameters :=
      [(py "dependency_closure_required", .bool true), (py "exact_architecture_required", .bool true),
        (py "source", .str (py "verified_sysroot_or_bundle"))] }

/-- `_plan_execution`. -/
def planExecution (requirement : RuntimeRequirement) (priority : RepairPriority) : Verdict :=
  if requirement.operation = py "executable_available" then
    { action := .provideExecutable
      disposition := .reviewRequired
      priority := priority
      risk := .high
      automaticAllowed := false
      reason := py ("An executed path may be a helper binary, shell, interpreter, or second-stage " ++
        "payload. Its exact bytes and architecture must be established before adding it.")
      parameters := [(py "source", .str (py "verified_artifact"))] }
  else
    manual priority <| py ("Execution failures and fatal signals require crash, loader, or binary " ++
      "reconstruction analysis rather than environment mutation.")

/-- The rule that `_plan_requirement` chooses. -/
def verdict (config : RepairPlannerConfig) (requirement : RuntimeRequirement) : Verdict :=
  let priority := priorityFromBlocking requirement.blocking
  if requirement.status = .provided ∧ ¬ needsSemanticNetworkReview requirement then
    { action := .none
      disposition := .notRequired
      priority := .low
      risk := .low
      automaticAllowed := false
      reason := py ("The current execution already demonstrated that the environment provides this " ++
        "capability. Preserve it during later minimization, but do not add a repair.") }
  else if ¬ requirement.repairable then
    manual priority <| py ("The observation is important but cannot be repaired by a safe filesystem " ++
      "or network mutation. It requires backend, binary, syscall, or crash analysis.")
  else
    match requirement.kind with
    | .filesystem => planFilesystem config requirement priority
    | .device =>
      { action := .provideDeviceBackend
        disposition := .manualAnalysis
        priority := priority
        risk := .high
        automaticAllowed := false
        reason := py ("A device path may require ioctl and kernel semantics; creating a node alone is " ++
          "not evidence-equivalent.")
        parameters := [(py "backend_semantics_required", .bool true)] }
    | .network => planNetwork config requirement priority
    | .library => planLibrary requirement priority
    | .execution => planExecution requirement priority
    | .syscall =>
      manual priority <| py ("Kernel or QEMU syscall support cannot be synthesized as a rootfs repair. " ++
        "Select another backend or implement an explicit syscall compatibility layer.")

section Plan

variable (sha256 : PyStr → PyStr) (config : RepairPlannerConfig)

/-- `_decision`: the decision of a requirement from what its rule says. -/
def makeDecision (requirement : RuntimeRequirement) (v : Verdict) :
    Except RepairPlanningError RepairDecision :=
  if v.automaticAllowed ∧ v.disposition ≠ .autoCandidate then
    .error .automaticWithoutCandidate
  else
    match makeDecisionId sha256 requirement.requirementId v.action v.disposition
        requirement.resource with
    | .error _ => .error .unicode
    | .ok decisionId =>
      .ok
        { decisionId := decisionId
          requirementId := requirement.requirementId
          requirementKind := requirement.kind.value
          resource := requirement.resource
          operation := requirement.operation
          action := v.action
          disposition := v.disposition
          priority := v.priority
          risk := v.risk
          automaticAllowed := v.automaticAllowed
          reason := v.reason
          parameters := v.parameters }

/-- `_plan_requirement`. -/
def planRequirement (requirement : RuntimeRequirement) : Except RepairPlanningError RepairDecision :=
  makeDecision sha256 requirement (verdict config requirement)

/-- The key that decisions are sorted by. -/
def RepairDecision.sortKey (d : RepairDecision) : ℕ ×ₗ PyStr ×ₗ PyStr ×ₗ PyStr ×ₗ PyStr :=
  toLex (priorityOrder d.priority,
    toLex (d.requirementKind, toLex (d.resource, toLex (d.operation, d.decisionId))))

/-- The decisions of the requirements, in the order of the report. -/
def planRequirements : List RuntimeRequirement → Except RepairPlanningError (List RepairDecision)
  | [] => .ok []
  | requirement :: rest =>
    match planRequirement sha256 config requirement with
    | .error error => .error error
    | .ok decision =>
      match planRequirements rest with
      | .error error => .error error
      | .ok decisions => .ok (decision :: decisions)

/-- `RepairPlanner.plan`. -/
def plan (report : RequirementReport) (sourceRequirements sourceSha256 : PyStr) :
    Except RepairPlanningError RepairPlan :=
  match planRequirements sha256 config report.requirements with
  | .error error => .error error
  | .ok decisions =>
    .ok
      { sourceRequirements := sourceRequirements
        sourceSha256 := sourceSha256
        decisions := decisions.insertionSort fun a b => a.sortKey ≤ b.sortKey
        warnings := report.warnings }

end Plan

end TaintForge
