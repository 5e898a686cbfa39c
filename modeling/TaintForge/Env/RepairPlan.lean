import TaintForge.Env.Document
import Mathlib.Data.List.Sort
import Mathlib.Data.Prod.Lex

/-!
# Runtime requirements and repair plans

The documents between the stages of an iteration: what an execution was seen to need, and what the
planner decided about each need.  The digest of a text is a parameter, `sha256`; identifiers are made
from its first sixteen digits.

* `RuntimeRequirement`, `RequirementReport`: the input of the planner.
* `RepairDecision`, `RepairPlan`: its output.
* `RepairPlan.load`: the checks that a plan passes when it is read back.
-/

namespace TaintForge

/-! ### Requirements -/

inductive RequirementKind
  | filesystem | device | network | library | syscall | execution
  deriving DecidableEq

def RequirementKind.value : RequirementKind → PyStr
  | .filesystem => py "filesystem"
  | .device => py "device"
  | .network => py "network"
  | .library => py "library"
  | .syscall => py "syscall"
  | .execution => py "execution"

/-- Whether the environment of the execution already provided the resource. -/
inductive RequirementStatus
  | unmet | provided | unknown
  deriving DecidableEq

/-- How strongly the observations suggest that the requirement blocks progress. -/
inductive BlockingAssessment
  | likely | possible | unlikely | unknown
  deriving DecidableEq

structure RuntimeRequirement where
  requirementId : PyStr
  kind : RequirementKind
  resource : PyStr
  operation : PyStr
  status : RequirementStatus
  blocking : BlockingAssessment
  confidence : ℚ
  repairable : Bool
  details : List (PyStr × PyStr)

structure RequirementReport where
  requirements : List RuntimeRequirement
  warnings : List PyStr

/-! ### Decisions -/

inductive RepairDisposition
  | autoCandidate | reviewRequired | manualAnalysis | notRequired
  deriving DecidableEq

def RepairDisposition.value : RepairDisposition → PyStr
  | .autoCandidate => py "auto_candidate"
  | .reviewRequired => py "review_required"
  | .manualAnalysis => py "manual_analysis"
  | .notRequired => py "not_required"

inductive RepairPriority
  | critical | high | normal | low
  deriving DecidableEq

inductive RepairRisk
  | low | medium | high
  deriving DecidableEq

inductive RepairActionKind
  | none | createDirectory | provideFile | adjustPathAccess | makePathWritable | repairPathLayout
  | provideDeviceBackend | configureTcpService | configureUdpService | resolveLibrary
  | provideInterpreter | provideExecutable
  deriving DecidableEq

def RepairActionKind.value : RepairActionKind → PyStr
  | .none => py "none"
  | .createDirectory => py "create_directory"
  | .provideFile => py "provide_file"
  | .adjustPathAccess => py "adjust_path_access"
  | .makePathWritable => py "make_path_writable"
  | .repairPathLayout => py "repair_path_layout"
  | .provideDeviceBackend => py "provide_device_backend"
  | .configureTcpService => py "configure_tcp_service"
  | .configureUdpService => py "configure_udp_service"
  | .resolveLibrary => py "resolve_library"
  | .provideInterpreter => py "provide_interpreter"
  | .provideExecutable => py "provide_executable"

structure RepairDecision where
  decisionId : PyStr
  requirementId : PyStr
  requirementKind : PyStr
  resource : PyStr
  operation : PyStr
  action : RepairActionKind
  disposition : RepairDisposition
  priority : RepairPriority
  risk : RepairRisk
  automaticAllowed : Bool
  reason : PyStr
  parameters : List (PyStr × Json)

structure RepairPlan where
  sourceRequirements : PyStr
  sourceSha256 : PyStr
  decisions : List RepairDecision
  warnings : List PyStr

/-- `dict(decision.parameters).get(key)`. -/
def RepairDecision.parameter (decision : RepairDecision) (key : PyStr) : Json :=
  (Json.lookup key decision.parameters).getD .null

/-- A text that the strict UTF-8 encoder refuses. -/
inductive UnicodeEncodeError
  | surrogatesNotAllowed
  deriving DecidableEq

section Identifiers

variable (sha256 : PyStr → PyStr)

/-- `make_decision_id`. -/
def makeDecisionId (requirementId : PyStr) (action : RepairActionKind)
    (disposition : RepairDisposition) (resource : PyStr) : Except UnicodeEncodeError PyStr :=
  let canonical :=
    requirementId ++ [0] ++ action.value ++ [0] ++ disposition.value ++ [0] ++ resource
  if canonical.encodable then
    .ok (py "repair_" ++ (sha256 canonical).take 16)
  else
    .error .surrogatesNotAllowed

/-! ### Reading a plan back -/

/-- Why a persisted plan is refused; the number is the position of the decision. -/
inductive RepairPlanValidationError
  | emptyField (index : ℕ) (field : PyStr)
  | sourceSha256
  | automaticDisposition (index : ℕ)
  | automaticAction (index : ℕ)
  | decisionIdMismatch (index : ℕ)
  | duplicateDecisionId
  | duplicateRequirementId
  | unicode
  deriving DecidableEq

/-- The first of some string fields that is empty. -/
def firstEmpty : List (PyStr × PyStr) → Option PyStr
  | [] => none
  | (field, text) :: rest => if text = [] then some field else firstEmpty rest

/-- `RepairDecision.from_dict`, for a document whose fields have the types of a decision. -/
def RepairDecision.load (index : ℕ) (decision : RepairDecision) :
    Except RepairPlanValidationError RepairDecision :=
  match firstEmpty
      [(py "decision_id", decision.decisionId), (py "requirement_id", decision.requirementId),
        (py "requirement_kind", decision.requirementKind), (py "resource", decision.resource),
        (py "operation", decision.operation), (py "reason", decision.reason)] with
  | some field => .error (.emptyField index field)
  | none =>
    if decision.automaticAllowed ∧ decision.disposition ≠ .autoCandidate then
      .error (.automaticDisposition index)
    else if decision.automaticAllowed ∧ decision.action = .none then
      .error (.automaticAction index)
    else
      match makeDecisionId sha256 decision.requirementId decision.action decision.disposition
          decision.resource with
      | .error _ => .error .unicode
      | .ok expected =>
        if decision.decisionId ≠ expected then .error (.decisionIdMismatch index)
        else .ok decision

/-- The decisions of a plan, read one after another. -/
def loadDecisions : ℕ → List RepairDecision → Except RepairPlanValidationError (List RepairDecision)
  | _, [] => .ok []
  | index, decision :: rest =>
    match decision.load sha256 index with
    | .error error => .error error
    | .ok loaded =>
      match loadDecisions (index + 1) rest with
      | .error error => .error error
      | .ok others => .ok (loaded :: others)

/-- `RepairPlan.load`: the plan of a file, when the file holds one. -/
def RepairPlan.load (plan : RepairPlan) : Except RepairPlanValidationError RepairPlan :=
  if plan.sourceRequirements = [] then .error (.emptyField 0 (py "source_requirements"))
  else if ¬ isSha256 plan.sourceSha256 then .error .sourceSha256
  else
    match loadDecisions sha256 0 plan.decisions with
    | .error error => .error error
    | .ok decisions =>
      if ¬ (decisions.map RepairDecision.decisionId).Nodup then .error .duplicateDecisionId
      else if ¬ (decisions.map RepairDecision.requirementId).Nodup then
        .error .duplicateRequirementId
      else .ok { plan with decisions := decisions }

/-! ### What a loaded plan satisfies -/

variable {sha256} {plan loaded : RepairPlan}

theorem RepairDecision.load_ok {index : ℕ} {decision out : RepairDecision}
    (h : decision.load sha256 index = .ok out) :
    out = decision ∧
      (decision.automaticAllowed → decision.disposition = .autoCandidate ∧ decision.action ≠ .none) := by
  unfold RepairDecision.load at h
  split at h
  · cases h
  · split at h
    · cases h
    · rename_i hdisposition
      split at h
      · cases h
      · rename_i haction
        split at h
        · cases h
        · split at h
          · cases h
          · cases h
            refine ⟨rfl, fun hauto => ⟨?_, fun hnone => haction ⟨hauto, hnone⟩⟩⟩
            by_contra hne
            exact hdisposition ⟨hauto, hne⟩

theorem loadDecisions_ok {index : ℕ} {decisions out : List RepairDecision}
    (h : loadDecisions sha256 index decisions = .ok out) :
    out = decisions ∧ ∀ d ∈ decisions, d.automaticAllowed →
      d.disposition = .autoCandidate ∧ d.action ≠ .none := by
  induction decisions generalizing index out with
  | nil =>
    cases h
    exact ⟨rfl, by simp⟩
  | cons d rest ih =>
    unfold loadDecisions at h
    split at h
    · cases h
    · rename_i d' hd
      split at h
      · cases h
      · rename_i rest' hrest
        cases h
        obtain ⟨rfl, hauto⟩ := RepairDecision.load_ok hd
        obtain ⟨rfl, hothers⟩ := ih hrest
        refine ⟨rfl, fun e he => ?_⟩
        rcases List.mem_cons.mp he with rfl | he
        · exact hauto
        · exact hothers e he

/-- A plan that loads is unchanged, its decisions have different identifiers, and the automatic ones
carry a real action. -/
theorem RepairPlan.load_ok (h : plan.load sha256 = .ok loaded) :
    loaded = plan ∧ (plan.decisions.map RepairDecision.decisionId).Nodup ∧
      ∀ d ∈ plan.decisions, d.automaticAllowed →
        d.disposition = .autoCandidate ∧ d.action ≠ .none := by
  unfold RepairPlan.load at h
  split at h
  · cases h
  · split at h
    · cases h
    · split at h
      · cases h
      · rename_i decisions hdecisions
        obtain ⟨rfl, hauto⟩ := loadDecisions_ok hdecisions
        split at h
        · cases h
        · rename_i hids
          split at h
          · cases h
          · cases h
            exact ⟨rfl, not_not.mp hids, hauto⟩

end Identifiers

end TaintForge
