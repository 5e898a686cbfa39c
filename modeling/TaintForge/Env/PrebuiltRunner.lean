import TaintForge.Env.IterationController

/-!
# The runner of prepared iterations

One iteration is executed by a runner: it validates the session, claims the iteration by a file that only one process
can create, prepares a run directory, lets a launcher start the guest, and completes the iteration.  The claim says
how far the run has come.  A claim that failed before the guest was started can be removed by a reset.

The claim is a dictionary that the runner keeps and writes anew at every stage.  What the runner does between two
stages is left out where nothing of it is seen by another process: the contents of the run directory but for the two
files that the launcher writes, the host dependencies, the network, the postprocessing.

* `claimPayload`, `updateClaim`: the claim that is created, and what a stage makes of it.
* `selectIteration`, `matchRootfs`, `acceptReset`: the checks.
* `World`, `Step`: the processes that work on one iteration, with everything that can happen next.
-/

namespace TaintForge

namespace PrebuiltRunner

open IterationController (Host require ofStore passOn found validateContractBinding)

inductive RunnerStage
  | claimed
  | validated
  | prepared
  | executing
  | postprocessing
  | completing
  | completed
  | failed
  deriving DecidableEq

def RunnerStage.value : RunnerStage → PyStr
  | .claimed => py "claimed"
  | .validated => py "validated"
  | .prepared => py "prepared"
  | .executing => py "executing"
  | .postprocessing => py "postprocessing"
  | .completing => py "completing"
  | .completed => py "completed"
  | .failed => py "failed"

/-- What the configuration of a runner says in the claim. -/
structure PrebuiltRunnerConfig where
  networkMode : PyStr
  networkSelfTest : Bool

/-- What the plan of an execution says in the claim. -/
structure ExecutionPlan where
  backend : PyStr
  targetArch : PyStr
  traceBackend : PyStr
  qemuHostSha256 : Option PyStr

structure PreparedRunContext where
  session : SessionManifest
  iteration : IterationRecord
  environmentTreeSha256 : PyStr
  executionRootfs : PyStr
  runDir : PyStr
  executionPlan : ExecutionPlan
  attemptContract : AttemptContract

/-! ### The claim -/

section Claim

variable (host : Host) (config : PrebuiltRunnerConfig)

/-- The claim that `_create_claim` writes. -/
def claimPayload (context : PreparedRunContext) (startedAt updatedAt : PyStr) :
    Except ControllerError (List (PyStr × Json)) := do
  let contract := context.attemptContract
  let contractSha256 ← passOn (contract.contractSha256 host.sha host.ft)
  return [(py "schema_version", .int 1), (py "adapter_version", .int 5), (py "attempt_id", .str contract.attemptId),
    (py "attempt_contract_sha256", .str contractSha256), (py "session_id", .str context.session.sessionId),
    (py "iteration_index", .int context.iteration.index),
    (py "environment_manifest_id", .str contract.environmentManifestId),
    (py "environment_manifest_version", contract.environmentManifestVersion.toJson),
    (py "environment_snapshot_id", .str context.iteration.environmentSnapshotId),
    (py "environment_tree_sha256", .str context.environmentTreeSha256),
    (py "execution_rootfs", .str context.executionRootfs), (py "run_dir", .str context.runDir),
    (py "stage", .str RunnerStage.claimed.value), (py "started_at_utc", .str startedAt),
    (py "updated_at_utc", .str updatedAt), (py "malware_started", .bool false), (py "retry_safe", .bool false),
    (py "guest_exit_code", .null), (py "execution_backend", .str context.executionPlan.backend),
    (py "target_arch", .str context.executionPlan.targetArch),
    (py "trace_backend", .str context.executionPlan.traceBackend),
    (py "qemu_host_sha256", nullable .str context.executionPlan.qemuHostSha256),
    (py "network_mode", .str config.networkMode), (py "network_self_test", .bool config.networkSelfTest),
    (py "error", .null)]

/-- The dictionary that `_update_claim` writes. -/
def updateClaim (claim : List (PyStr × Json)) (stage : RunnerStage) (updates : List (PyStr × Json))
    (updatedAt finishedAt : PyStr) : List (PyStr × Json) :=
  let updated := updates.foldl (fun fields update => Json.setField update.1 update.2 fields) claim
  let updated := Json.setField (py "stage") (.str stage.value) updated
  let updated := Json.setField (py "updated_at_utc") (.str updatedAt) updated
  if stage = .completed ∨ stage = .failed then
    Json.setField (py "finished_at_utc") (.str finishedAt) updated
  else updated

/-- What is found where the claim should be.  A file is empty from its creation until it is written. -/
inductive ClaimFile
  | absent
  | torn
  | written (claim : Json)

/-- `_load_json_object`, of the claim. -/
def loadClaim (path : PyStr) : ClaimFile → Except ControllerError (List (PyStr × Json))
  | .absent => .error (.invalid (py "execution claim is not a regular file: " ++ path))
  | .torn => .error .wrapped
  | .written (.obj fields) => .ok fields
  | .written _ => .error (.invalid (py "execution claim must be a JSON object"))

end Claim

/-! ### Checks -/

/-- `value is b`, of a value that was read. -/
def isBool (b : Bool) : Json → Bool
  | .bool c => c == b
  | _ => false

section Checks

variable (host : Host) (snapshots : EnvironmentSnapshotStore) (index : ℕ)

/-- The checks of the verified session that `validate` begins with. -/
def selectIteration (session : SessionManifest) : Except ControllerError IterationRecord := do
  require (session.state = .active) (py "iteration session is not active: " ++ session.state.value)
  let iteration ← found (.invalid (py "iteration index does not exist")) session.iterations[index]?
  require (iteration.state = .prepared) (py "iteration is not prepared: " ++ iteration.state.value)
  require (index + 1 = session.iterations.length) (py "only the latest prepared iteration may run")
  return iteration

/-- The comparison of the root file system with the snapshot of the iteration, in `validate`. -/
def matchRootfs (iteration : IterationRecord) (rootfs : EnvironmentTree) : Except ControllerError PyStr := do
  let snapshot ← ofStore (snapshots.verify host.sha host.ft iteration.environmentSnapshotId)
  let actual ← ofStore (treeDigest host.sha host.ft rootfs.entries)
  require (actual = snapshot.treeSha256)
    (py "prepared execution rootfs no longer matches its environment snapshot: expected " ++
      snapshot.treeSha256 ++ py ", got " ++ actual)
  return actual

/-- `_rootfs_still_matches_snapshot`. -/
def rootfsStillMatches (context : PreparedRunContext) (rootfs : EnvironmentTree) : Except ControllerError Bool :=
  match ofStore (treeDigest host.sha host.ft rootfs.entries) with
  | .ok digest => .ok (digest == context.environmentTreeSha256)
  | .error (.invalid _) => .ok false
  | .error error => .error error

/-- The checks of the session that `reset_safe_failure` begins with. -/
def selectReset (session : SessionManifest) : Except ControllerError IterationRecord := do
  require (session.state = .active) (py "session is not active")
  let record ← found (.invalid (py "iteration index does not exist")) session.iterations[index]?
  require (record.state = .prepared) (py "iteration is not prepared")
  require (index + 1 = session.iterations.length) (py "only the latest prepared iteration may be reset")
  return record

/-- The checks of the claim in `reset_safe_failure`. -/
def acceptReset (path : PyStr) (record : IterationRecord) (file : ClaimFile) : Except ControllerError Unit := do
  let claim ← loadClaim path file
  require (isText record.attemptId (field (py "attempt_id") claim)) (py "execution claim attempt mismatch")
  require (isText RunnerStage.failed.value (field (py "stage") claim)) (py "execution claim is not failed")
  require (isBool false (field (py "malware_started") claim))
    (py "cannot reset an attempt after malware started")
  require (isBool true (field (py "retry_safe") claim)) (py "execution claim is not marked retry-safe")

/-- The comparison of the root file system in `reset_safe_failure`. -/
def confirmRootfs (record : IterationRecord) (rootfs : EnvironmentTree) : Except ControllerError Unit := do
  let snapshot ← ofStore (snapshots.verify host.sha host.ft record.environmentSnapshotId)
  let actual ← ofStore (treeDigest host.sha host.ft rootfs.entries)
  require (actual = snapshot.treeSha256) (py "execution rootfs changed; retry is unsafe")

end Checks

/-! ### Processes -/

/-- Where `run_and_complete` is after the claim was created, with the exit code of the guest once it is known. -/
inductive Point
  | claimed
  | validated
  | directoryMade
  | prepared
  | observed
  | executing
  | waiting
  | returned (guestExitCode : ℤ)
  | postprocessing (guestExitCode : ℤ)
  | evaluated (guestExitCode : ℤ)
  | completing (guestExitCode : ℤ)
  | completed (guestExitCode : ℤ)

/-- The exit code that the handler of exceptions finds. -/
def Point.guestExitCode : Point → Option ℤ
  | .returned code => some code
  | .postprocessing code => some code
  | .evaluated code => some code
  | .completing code => some code
  | .completed code => some code
  | _ => none

/-- A runner process. -/
inductive Runner
  | idle
  | selected (session : SessionManifest) (iteration : IterationRecord)
  | matched (session : SessionManifest) (iteration : IterationRecord) (treeSha256 : PyStr)
  | unprepared (context : PreparedRunContext)
  | validated (context : PreparedRunContext)
  | opened (context : PreparedRunContext) (claim : List (PyStr × Json))
  | running (context : PreparedRunContext) (claim : List (PyStr × Json)) (point : Point)
  | failing (context : PreparedRunContext) (claim : List (PyStr × Json)) (guestExitCode : Option ℤ)
  | inspected (context : PreparedRunContext) (claim : List (PyStr × Json)) (guestExitCode : Option ℤ)
      (malwareStarted : Bool)
  | judged (claim : List (PyStr × Json)) (guestExitCode : Option ℤ) (malwareStarted retrySafe : Bool)
  | over

/-- The script that a runner has launched. -/
inductive Launcher
  | idle
  | launched
  | marked
  | guest
  | ended
  deriving DecidableEq

/-- A process in `reset_safe_failure`. -/
inductive Reset
  | idle
  | locked
  | selected (record : IterationRecord)
  | accepted (record : IterationRecord)
  | confirmed (record : IterationRecord)
  | cleared (record : IterationRecord)
  | unlinked
  | over

/-- The files that the launcher writes to the run directory. -/
structure RunDirectory where
  malwareStarted : Bool
  guestExitCode : Option ℤ

/-- What the outside reports in the later stages. -/
structure Report where
  targetReached : Bool
  targetGoalId : Option PyStr
  stopReason : Option PyStr
  progress : Json
  attemptResult : Option PyStr

/-- The claim that is written at a point, and where the runner goes. -/
def Point.update (config : PrebuiltRunnerConfig) (report : Report) :
    Point → Option (RunnerStage × List (PyStr × Json) × Option Point)
  | .claimed => some (.validated, [], some .validated)
  | .directoryMade => some (.prepared, [], some .prepared)
  | .observed =>
    some (.executing, [(py "malware_started", .bool false), (py "network_mode", .str config.networkMode)],
      some .executing)
  | .returned code =>
    some (.postprocessing, [(py "malware_started", .bool true), (py "guest_exit_code", .int code)],
      some (.postprocessing code))
  | .evaluated code =>
    some (.completing, [(py "guest_exit_code", .int code), (py "target_reached", .bool report.targetReached),
      (py "target_goal_id", nullable .str report.targetGoalId)], some (.completing code))
  | .completed code =>
    some (.completed, [(py "guest_exit_code", .int code), (py "stop_reason", nullable .str report.stopReason),
      (py "progress", report.progress), (py "attempt_result", nullable .str report.attemptResult),
      (py "retry_safe", .bool false)], none)
  | _ => none

/-- The fields that the handler of exceptions changes. -/
def failedUpdates (config : PrebuiltRunnerConfig) (guestExitCode : Option ℤ) (malwareStarted retrySafe : Bool)
    (error : PyStr) : List (PyStr × Json) :=
  [(py "malware_started", .bool malwareStarted), (py "guest_exit_code", nullable .int guestExitCode),
    (py "error", .str error), (py "retry_safe", .bool retrySafe), (py "network_mode", .str config.networkMode)]

/-- One iteration and the processes that work on it: the files, the reset that holds the lock of the session, where
every process is, and the launchers that have started their guest. -/
structure World where
  session : SessionManifest
  claim : ClaimFile
  runDirectory : Option RunDirectory
  rootfs : EnvironmentTree
  lock : Option ℕ
  runner : ℕ → Runner
  launcher : ℕ → Launcher
  reset : ℕ → Reset
  started : List ℕ

namespace World

def setRunner (w : World) (p : ℕ) (r : Runner) : World := { w with runner := Function.update w.runner p r }

def setLauncher (w : World) (p : ℕ) (l : Launcher) : World := { w with launcher := Function.update w.launcher p l }

def setReset (w : World) (q : ℕ) (r : Reset) : World := { w with reset := Function.update w.reset q r }

end World

section Step

variable (host : Host) (config : PrebuiltRunnerConfig) (snapshots : EnvironmentSnapshotStore) (claimPath : PyStr)
  (index : ℕ)

/-- The iteration of a session stays the same attempt on the same environment. -/
def KeepsIteration (m n : SessionManifest) : Prop :=
  ∀ record, m.iterations[index]? = some record → ∃ next, n.iterations[index]? = some next ∧
    next.attemptId = record.attemptId ∧ next.environmentSnapshotId = record.environmentSnapshotId

/-- What can happen next.  Every process can stop at any point, which gives back a lock that it holds; what a runner
has launched goes on then.  The root file system is changed by launchers only. -/
inductive Step (w : World) : World → Prop
  -- other calls of the controller
  | session {m : SessionManifest} : KeepsIteration index w.session m → Step w { w with session := m }
  -- `validate`
  | select {p : ℕ} {iteration : IterationRecord} : w.runner p = .idle → w.lock = none →
      selectIteration index w.session = .ok iteration → Step w (w.setRunner p (.selected w.session iteration))
  | matchTree {p : ℕ} {session : SessionManifest} {iteration : IterationRecord} {digest : PyStr} :
      w.runner p = .selected session iteration → matchRootfs host snapshots iteration w.rootfs = .ok digest →
      Step w (w.setRunner p (.matched session iteration digest))
  | prepare {p : ℕ} {session : SessionManifest} {iteration : IterationRecord} {digest executionRootfs runDir : PyStr}
      {executionPlan : ExecutionPlan} {attemptContract : AttemptContract} :
      w.runner p = .matched session iteration digest →
      validateContractBinding session iteration attemptContract = .ok () → w.runDirectory = none →
      Step w (w.setRunner p (.unprepared
        ⟨session, iteration, digest, executionRootfs, runDir, executionPlan, attemptContract⟩))
  | validate {p : ℕ} {context : PreparedRunContext} : w.runner p = .unprepared context → w.claim = .absent →
      Step w (w.setRunner p (.validated context))
  -- `_create_claim`
  | openClaim {p : ℕ} {context : PreparedRunContext} {claim : List (PyStr × Json)} {startedAt updatedAt : PyStr} :
      w.runner p = .validated context → claimPayload host config context startedAt updatedAt = .ok claim →
      w.claim = .absent → Step w { w.setRunner p (.opened context claim) with claim := .torn }
  | writeClaim {p : ℕ} {context : PreparedRunContext} {claim : List (PyStr × Json)} {value : Json} :
      w.runner p = .opened context claim → writeDocument host.ft (.obj claim) = .ok value →
      Step w { w.setRunner p (.running context claim .claimed) with claim := .written value }
  -- `run_and_complete`
  | update {p : ℕ} {context : PreparedRunContext} {claim : List (PyStr × Json)} {point : Point} {report : Report}
      {stage : RunnerStage} {updates : List (PyStr × Json)} {next : Option Point} {updatedAt finishedAt : PyStr}
      {value : Json} : w.runner p = .running context claim point →
      point.update config report = some (stage, updates, next) →
      writeDocument host.ft (.obj (updateClaim claim stage updates updatedAt finishedAt)) = .ok value →
      Step w { w.setRunner p ((next.map (Runner.running context
        (updateClaim claim stage updates updatedAt finishedAt))).getD .over) with claim := .written value }
  | makeDirectory {p : ℕ} {context : PreparedRunContext} {claim : List (PyStr × Json)} :
      w.runner p = .running context claim .validated → w.runDirectory = none →
      Step w { w.setRunner p (.running context claim .directoryMade) with runDirectory := some ⟨false, none⟩ }
  | observe {p : ℕ} {context : PreparedRunContext} {claim : List (PyStr × Json)} :
      w.runner p = .running context claim .prepared → Step w (w.setRunner p (.running context claim .observed))
  | launch {p : ℕ} {context : PreparedRunContext} {claim : List (PyStr × Json)} :
      w.runner p = .running context claim .executing →
      Step w ((w.setRunner p (.running context claim .waiting)).setLauncher p .launched)
  | returnGuest {p : ℕ} {context : PreparedRunContext} {claim : List (PyStr × Json)} {directory : RunDirectory} {code : ℤ} :
      w.runner p = .running context claim .waiting → w.launcher p = .ended → w.runDirectory = some directory →
      directory.guestExitCode = some code → Step w (w.setRunner p (.running context claim (.returned code)))
  | postprocess {p : ℕ} {context : PreparedRunContext} {claim : List (PyStr × Json)} {code : ℤ} :
      w.runner p = .running context claim (.postprocessing code) →
      Step w (w.setRunner p (.running context claim (.evaluated code)))
  | complete {p : ℕ} {context : PreparedRunContext} {claim : List (PyStr × Json)} {code : ℤ} {m : SessionManifest} :
      w.runner p = .running context claim (.completing code) → w.lock = none → KeepsIteration index w.session m →
      Step w { w.setRunner p (.running context claim (.completed code)) with session := m }
  -- the handler of exceptions; what a runner waits for ends before it goes on
  | raise {p : ℕ} {context : PreparedRunContext} {claim : List (PyStr × Json)} {point : Point} :
      w.runner p = .running context claim point → (point = .waiting → w.launcher p = .ended) →
      Step w (w.setRunner p (.failing context claim point.guestExitCode))
  | inspect {p : ℕ} {context : PreparedRunContext} {claim : List (PyStr × Json)} {code : Option ℤ} :
      w.runner p = .failing context claim code →
      Step w (w.setRunner p (.inspected context claim code (w.runDirectory.elim false RunDirectory.malwareStarted)))
  | judge {p : ℕ} {context : PreparedRunContext} {claim : List (PyStr × Json)} {code : Option ℤ}
      {malwareStarted unchanged : Bool} : w.runner p = .inspected context claim code malwareStarted →
      (malwareStarted = false → rootfsStillMatches host context w.rootfs = .ok unchanged) →
      Step w (w.setRunner p (.judged claim code malwareStarted (!malwareStarted && unchanged)))
  | report {p : ℕ} {claim : List (PyStr × Json)} {code : Option ℤ} {malwareStarted retrySafe : Bool}
      {error updatedAt finishedAt : PyStr} {value : Json} :
      w.runner p = .judged claim code malwareStarted retrySafe →
      writeDocument host.ft (.obj (updateClaim claim .failed
        (failedUpdates config code malwareStarted retrySafe error) updatedAt finishedAt)) = .ok value →
      Step w { w.setRunner p .over with claim := .written value }
  | stopRunner {p : ℕ} : Step w (w.setRunner p .over)
  -- the script that was launched
  | disturb {p : ℕ} {rootfs : EnvironmentTree} : w.launcher p = .launched ∨ w.launcher p = .marked ∨
      w.launcher p = .guest → Step w { w with rootfs }
  | mark {p : ℕ} {directory : RunDirectory} : w.launcher p = .launched → w.runDirectory = some directory →
      Step w { w.setLauncher p .marked with runDirectory := some { directory with malwareStarted := true } }
  | start {p : ℕ} : w.launcher p = .marked → Step w { w.setLauncher p .guest with started := p :: w.started }
  | exit {p : ℕ} {directory : RunDirectory} {code : ℤ} : w.launcher p = .guest → w.runDirectory = some directory →
      Step w { w.setLauncher p .ended with runDirectory := some { directory with guestExitCode := some code } }
  | stopLauncher {p : ℕ} : w.launcher p ≠ .idle → Step w (w.setLauncher p .ended)
  -- `reset_safe_failure`
  | lock {q : ℕ} : w.reset q = .idle → w.lock = none → Step w { w.setReset q .locked with lock := some q }
  | selectReset {q : ℕ} {record : IterationRecord} : w.reset q = .locked →
      selectReset index w.session = .ok record → Step w (w.setReset q (.selected record))
  | accept {q : ℕ} {record : IterationRecord} : w.reset q = .selected record →
      acceptReset claimPath record w.claim = .ok () → Step w (w.setReset q (.accepted record))
  | confirm {q : ℕ} {record : IterationRecord} : w.reset q = .accepted record →
      confirmRootfs host snapshots record w.rootfs = .ok () → Step w (w.setReset q (.confirmed record))
  | clearPart {q : ℕ} {record : IterationRecord} {directory rest : RunDirectory} : w.reset q = .confirmed record →
      w.runDirectory = some directory → (rest.malwareStarted = true → directory.malwareStarted = true) →
      (rest.guestExitCode ≠ none → rest.guestExitCode = directory.guestExitCode) →
      Step w { w with runDirectory := some rest }
  | clear {q : ℕ} {record : IterationRecord} : w.reset q = .confirmed record →
      Step w { w.setReset q (.cleared record) with runDirectory := none }
  | unlink {q : ℕ} {record : IterationRecord} : w.reset q = .cleared record →
      Step w { w.setReset q .unlinked with claim := .absent }
  | stopReset {q : ℕ} : w.reset q ≠ .idle →
      Step w { w.setReset q .over with lock := if w.lock = some q then none else w.lock }

end Step

end PrebuiltRunner

end TaintForge
