import TaintForge.Env.RepairPlan
import TaintForge.Env.Rootfs
import TaintForge.Lib.PosixPath

/-!
# The repair applier

The applier makes the directories that a plan authorises.  It inspects every path before the first
change, and when something fails it removes the directories it has recorded, newest first.

Every system call may fail for a reason that does not lie in the tree; `Faults` says which ones do.  A
call is named by what it is about, and a run makes each call once at most.

* `prepareDirectory`, `preflight`: the inspection.
* `makeDirectories`, `applyPrepared`: the changes.
* `rollback`: their undoing.
* `applyFile`: the whole transaction.
-/

namespace TaintForge

inductive RepairResultStatus
  | notSelected | planned | applied | alreadySatisfied | rolledBack
  deriving DecidableEq

inductive RepairApplicationState
  | dryRun | completed | failed
  deriving DecidableEq

structure RepairDecisionResult where
  decisionId : PyStr
  requirementId : PyStr
  action : PyStr
  resource : PyStr
  status : RepairResultStatus
  reason : PyStr
  targetPath : Option GuestPath := none
  createdPaths : List GuestPath := []

/-- Why a plan is not applied. -/
inductive RepairApplicationError
  | invalidPlan (error : RepairPlanValidationError)
  | requirementsMismatch (expected actual : PyStr)
  | rootfsMissing
  | rootfsIsSymlink
  | rootfsNotDirectory
  | hostRoot
  | notAutoCandidate (decisionId : PyStr)
  | actionNotEnabled (decisionId : PyStr)
  | noImplementation (decisionId : PyStr)
  | nulByte
  | notAbsolute
  | rootDirectory
  | parentTraversal
  | notNormalized
  | pseudoFilesystem (normalized : PyStr)
  | parentsNotTrue (decisionId : PyStr)
  | invalidMode (decisionId : PyStr)
  | cannotInspect (path : GuestPath)
  | crossesSymlink (path : GuestPath)
  | targetNotDirectory (path : GuestPath)
  | ancestorNotDirectory (path : GuestPath)
  | becameSymlink (path : GuestPath)
  | becameNonDirectory (path : GuestPath)
  | cannotCreate (path : GuestPath)
  | cannotSave
  deriving DecidableEq

structure RepairApplicationReport where
  state : RepairApplicationState
  planSha256 : PyStr
  requirementsSha256 : PyStr
  dryRun : Bool
  results : List RepairDecisionResult
  rollbackErrors : List GuestPath := []
  error : Option RepairApplicationError := none

/-- A prepared repair. -/
structure PreparedDirectoryRepair where
  decision : RepairDecision
  guestPath : PyStr
  targetPath : GuestPath
  mode : ℕ
  createPaths : List GuestPath
  alreadySatisfied : Bool

structure RepairApplierConfig where
  allowedActions : List RepairActionKind := [.createDirectory]
  deniedPrefixes : List PyStr := [py "/proc", py "/sys", py "/dev"]

/-- The system calls of a run. -/
inductive Op
  | lstat (decisionId : PyStr) (path : GuestPath)
  | mkdir (path : GuestPath)
  | chmod (path : GuestPath)
  | rmdir (path : GuestPath)
  | save (state : RepairApplicationState)
  deriving DecidableEq

/-- The calls that fail by themselves. -/
abbrev Faults := Op → Bool

/-! ### Inspection -/

/-- `RepairApplier._validate_guest_path`. -/
def RepairApplierConfig.validateGuestPath (config : RepairApplierConfig) (path : PyStr) :
    Except RepairApplicationError PyStr :=
  if 0 ∈ path then .error .nulByte
  else if ¬ [slash].isPrefixOf path then .error .notAbsolute
  else if path = [slash] then .error .rootDirectory
  else if py ".." ∈ (purePosixPath path).parts then .error .parentTraversal
  else if (purePosixPath path).asPosix ≠ PyStr.rstripOf slash path then .error .notNormalized
  else if config.deniedPrefixes.any fun dir => beneath dir (purePosixPath path).asPosix then
    .error (.pseudoFilesystem (purePosixPath path).asPosix)
  else .ok (purePosixPath path).asPosix

/-- The three octal digits that `0?[0-7]{3}` matches. -/
def octalDigits : PyStr → Option (List ℕ)
  | [0x30, a, b, c] => if [a, b, c].all (fun d => 0x30 ≤ d ∧ d ≤ 0x37) then some [a, b, c] else none
  | [a, b, c] => if [a, b, c].all (fun d => 0x30 ≤ d ∧ d ≤ 0x37) then some [a, b, c] else none
  | _ => none

/-- `_parse_mode`; three octal digits never ask for special permission bits. -/
def parseMode (decisionId : PyStr) : Json → Except RepairApplicationError ℕ
  | .str text =>
    match octalDigits text with
    | some digits => .ok (digits.foldl (fun mode d => mode * 8 + (d - 0x30)) 0)
    | none => .error (.invalidMode decisionId)
  | _ => .error (.invalidMode decisionId)

/-- The walk of `_prepare_directory` from the directory `current` along the remaining components: the
directories that are missing, from above to below. -/
def walkComponents (fails : Faults) (fs : Rootfs) (decisionId : PyStr) (virtual : List GuestPath) :
    GuestPath → List PyStr → Except RepairApplicationError (List GuestPath)
  | _, [] => .ok []
  | current, component :: rest =>
    let path := current ++ [component]
    if path ∈ virtual then walkComponents fails fs decisionId virtual path rest
    else if fails (.lstat decisionId path) then .error (.cannotInspect path)
    else
      match fs.lstat path with
      | .error .enoent =>
        match walkComponents fails fs decisionId virtual path rest with
        | .ok createPaths => .ok (path :: createPaths)
        | .error error => .error error
      | .error _ => .error (.cannotInspect path)
      | .ok (.symlink _) => .error (.crossesSymlink path)
      | .ok (.file _) =>
        if rest = [] then .error (.targetNotDirectory path) else .error (.ancestorNotDirectory path)
      | .ok (.dir _) => walkComponents fails fs decisionId virtual path rest

/-- `PurePosixPath(guest_path).parts[1:]`. -/
def guestComponents (path : PyStr) : GuestPath := (purePosixPath path).parts.tail

/-- `_prepare_directory`. -/
def prepareDirectory (config : RepairApplierConfig) (fails : Faults) (fs : Rootfs)
    (virtual : List GuestPath) (decision : RepairDecision) :
    Except RepairApplicationError PreparedDirectoryRepair :=
  match config.validateGuestPath decision.resource with
  | .error error => .error error
  | .ok guestPath =>
    match decision.parameter (py "parents") with
    | .bool true =>
      match parseMode decision.decisionId (decision.parameter (py "mode")) with
      | .error error => .error error
      | .ok mode =>
        match walkComponents fails fs decision.decisionId virtual [] (guestComponents guestPath) with
        | .error error => .error error
        | .ok createPaths =>
          .ok
            { decision := decision
              guestPath := guestPath
              targetPath := guestComponents guestPath
              mode := mode
              createPaths := createPaths
              alreadySatisfied := createPaths.isEmpty }
    | _ => .error (.parentsNotTrue decision.decisionId)

/-- The result of a decision that the planner did not authorise. -/
def notSelected (decision : RepairDecision) : RepairDecisionResult where
  decisionId := decision.decisionId
  requirementId := decision.requirementId
  action := decision.action.value
  resource := decision.resource
  status := .notSelected
  reason := py "The planner did not authorize automatic application for this decision."

/-- The result of a prepared repair before anything is done. -/
def PreparedDirectoryRepair.result (item : PreparedDirectoryRepair) (dryRun : Bool) :
    RepairDecisionResult where
  decisionId := item.decision.decisionId
  requirementId := item.decision.requirementId
  action := item.decision.action.value
  resource := item.decision.resource
  status := if item.alreadySatisfied then .alreadySatisfied else .planned
  reason :=
    if item.alreadySatisfied then py "Target already exists as a real directory."
    else if dryRun then
      py "Validated automatic directory repair; no filesystem mutation performed in dry-run."
    else py "Validated automatic directory repair."
  targetPath := some item.targetPath
  createdPaths := item.createPaths

/-- The loop of `_preflight`.  What earlier decisions are going to make counts as made. -/
def preflightFrom (config : RepairApplierConfig) (fails : Faults) (fs : Rootfs) (dryRun : Bool) :
    List GuestPath → List RepairDecision →
      Except RepairApplicationError (List PreparedDirectoryRepair × List RepairDecisionResult)
  | _, [] => .ok ([], [])
  | virtual, decision :: rest =>
    if ¬ decision.automaticAllowed then
      match preflightFrom config fails fs dryRun virtual rest with
      | .error error => .error error
      | .ok (prepared, results) => .ok (prepared, notSelected decision :: results)
    else if decision.disposition ≠ .autoCandidate then
      .error (.notAutoCandidate decision.decisionId)
    else if decision.action ∉ config.allowedActions then
      .error (.actionNotEnabled decision.decisionId)
    else if decision.action = .createDirectory then
      match prepareDirectory config fails fs virtual decision with
      | .error error => .error error
      | .ok item =>
        match preflightFrom config fails fs dryRun (virtual ++ item.createPaths) rest with
        | .error error => .error error
        | .ok (prepared, results) => .ok (item :: prepared, item.result dryRun :: results)
    else .error (.noImplementation decision.decisionId)

/-- `_preflight`. -/
def preflight (config : RepairApplierConfig) (fails : Faults) (fs : Rootfs) (dryRun : Bool)
    (plan : RepairPlan) :
    Except RepairApplicationError (List PreparedDirectoryRepair × List RepairDecisionResult) :=
  preflightFrom config fails fs dryRun [] plan.decisions

/-! ### Changes -/

/-- A directory that was made, with the tree it was made in. -/
structure Made where
  path : GuestPath
  before : Rootfs

/-- The tree during a run, `created_paths`, and every directory that was made in the run. -/
structure ApplyState where
  fs : Rootfs
  created : List GuestPath
  made : List Made

/-- The permission bits that `mkdir` leaves of a mode. -/
def masked (umask mode : ℕ) : ℕ := mode &&& (0o777 - umask % 0o1000)

/-- The inner loop of `_apply_prepared`: the paths that were really made, when all could be. -/
def makeDirectories (fails : Faults) (umask mode : ℕ) :
    List GuestPath → ApplyState → Except RepairApplicationError (List GuestPath) × ApplyState
  | [], s => (.ok [], s)
  | path :: rest, s =>
    if fails (.mkdir path) then (.error (.cannotCreate path), s)
    else
      match s.fs.mkdir path (masked umask mode) with
      | .error .eexist =>
        match s.fs.lstat path with
        | .ok (.symlink _) => (.error (.becameSymlink path), s)
        | .ok (.file _) => (.error (.becameNonDirectory path), s)
        | .error _ => (.error (.cannotInspect path), s)
        | .ok (.dir _) => makeDirectories fails umask mode rest s
      | .error _ => (.error (.cannotCreate path), s)
      | .ok fs =>
        -- The directory is there from here on, and it is recorded when `chmod` has succeeded too.
        let s := { s with fs := fs, made := s.made ++ [⟨path, s.fs⟩] }
        if fails (.chmod path) then (.error (.cannotCreate path), s)
        else
          match fs.chmod path mode with
          | .error _ => (.error (.cannotCreate path), s)
          | .ok fs =>
            match makeDirectories fails umask mode rest
                { s with fs := fs, created := s.created ++ [path] } with
            | (.ok actuallyCreated, s) => (.ok (path :: actuallyCreated), s)
            | (.error error, s) => (.error error, s)

/-- The result of a repair after its directories were made. -/
def PreparedDirectoryRepair.applied (item : PreparedDirectoryRepair)
    (actuallyCreated : List GuestPath) : RepairDecisionResult where
  decisionId := item.decision.decisionId
  requirementId := item.decision.requirementId
  action := item.decision.action.value
  resource := item.decision.resource
  status := if actuallyCreated.isEmpty then .alreadySatisfied else .applied
  reason :=
    if actuallyCreated.isEmpty then py "Directory was satisfied by an earlier decision."
    else py "Created the authorized directory path inside rootfs."
  targetPath := some item.targetPath
  createdPaths := actuallyCreated

/-- The outer loop of `_apply_prepared`: `by_decision` after all repairs. -/
def applyItems (fails : Faults) (umask : ℕ) :
    List PreparedDirectoryRepair → (PyStr → Option RepairDecisionResult) → ApplyState →
      Except RepairApplicationError (PyStr → Option RepairDecisionResult) × ApplyState
  | [], byDecision, s => (.ok byDecision, s)
  | item :: rest, byDecision, s =>
    if item.alreadySatisfied then applyItems fails umask rest byDecision s
    else
      match makeDirectories fails umask item.mode item.createPaths s with
      | (.error error, s) => (.error error, s)
      | (.ok actuallyCreated, s) =>
        applyItems fails umask rest
          (Function.update byDecision item.decision.decisionId (some (item.applied actuallyCreated))) s

/-- The dictionary of some results by their decisions; a later one replaces an earlier one. -/
def resultsById (results : List RepairDecisionResult) : PyStr → Option RepairDecisionResult :=
  results.foldl (fun byDecision r => Function.update byDecision r.decisionId (some r)) fun _ => none

/-- `_apply_prepared`. -/
def applyPrepared (fails : Faults) (umask : ℕ) (prepared : List PreparedDirectoryRepair)
    (initialResults : List RepairDecisionResult) (s : ApplyState) :
    Except RepairApplicationError (List RepairDecisionResult) × ApplyState :=
  match applyItems fails umask prepared (resultsById initialResults) s with
  | (.error error, s) => (.error error, s)
  | (.ok byDecision, s) => (.ok (initialResults.filterMap fun r => byDecision r.decisionId), s)

/-! ### Undoing -/

/-- `_rollback`, of paths that are already in the order of the removals. -/
def rollback (fails : Faults) : List GuestPath → Rootfs → List GuestPath × Rootfs
  | [], fs => ([], fs)
  | path :: rest, fs =>
    if fails (.rmdir path) then
      let (errors, fs) := rollback fails rest fs
      (path :: errors, fs)
    else
      match fs.rmdir path with
      | .ok fs => rollback fails rest fs
      | .error .enoent => rollback fails rest fs
      | .error _ =>
        let (errors, fs) := rollback fails rest fs
        (path :: errors, fs)

/-- `_mark_rolled_back`. -/
def markRolledBack (created : List GuestPath) (result : RepairDecisionResult) :
    RepairDecisionResult :=
  if result.createdPaths.any (· ∈ created) then
    { result with
      status := .rolledBack
      reason := py ("The transaction failed and paths created for this decision were rolled back " ++
        "where possible.") }
  else result

/-! ### The transaction -/

/-- What is found where the rootfs should be. -/
inductive RootfsEntry
  | missing
  | symlink
  | notDirectory
  | hostRoot
  | directory (fs : Rootfs)

/-- `_validate_rootfs`. -/
def validateRootfs : RootfsEntry → Except RepairApplicationError Rootfs
  | .missing => .error .rootfsMissing
  | .symlink => .error .rootfsIsSymlink
  | .notDirectory => .error .rootfsNotDirectory
  | .hostRoot => .error .hostRoot
  | .directory fs => .ok fs

/-- How a call of `apply_file` ends: the report it returns or the error it raises, the report in the
output file, the errors of its rollback, the rootfs, and every directory that was made on the way. -/
structure ApplyOutcome where
  result : Except RepairApplicationError RepairApplicationReport
  saved : Option RepairApplicationReport
  rollbackErrors : List GuestPath
  rootfs : RootfsEntry
  made : List Made

/-- Nothing was done. -/
def ApplyOutcome.refused (error : RepairApplicationError) (rootfs : RootfsEntry) : ApplyOutcome where
  result := .error error
  saved := none
  rollbackErrors := []
  rootfs := rootfs
  made := []

/-- The handler at the end of `apply_file`.  The report of the failure is saved before the error is
raised, and an error in saving it is raised instead. -/
def handleFailure (fails : Faults) (blank : RepairApplicationReport)
    (results : List RepairDecisionResult) (error : RepairApplicationError) (s : ApplyState) :
    ApplyOutcome :=
  let (rollbackErrors, fs) := rollback fails s.created.reverse s.fs
  let report :=
    { blank with
      state := .failed
      results := results.map (markRolledBack s.created)
      rollbackErrors := rollbackErrors
      error := some error }
  { result := .error (if fails (.save .failed) then .cannotSave else error)
    saved := if fails (.save .failed) then none else some report
    rollbackErrors := rollbackErrors
    rootfs := .directory fs
    made := s.made }

/-- A report is saved and returned, or the failure to save it is handled. -/
def finish (fails : Faults) (report : RepairApplicationReport) (s : ApplyState) : ApplyOutcome :=
  if fails (.save report.state) then handleFailure fails report report.results .cannotSave s
  else
    { result := .ok report
      saved := some report
      rollbackErrors := []
      rootfs := .directory s.fs
      made := s.made }

/-- The part of `apply_file` after the inspection of a real run. -/
def runPrepared (fails : Faults) (umask : ℕ) (blank : RepairApplicationReport)
    (prepared : List PreparedDirectoryRepair) (results : List RepairDecisionResult)
    (start : ApplyState) : ApplyOutcome :=
  match applyPrepared fails umask prepared results start with
  | (.error error, s) => handleFailure fails blank results error s
  | (.ok results, s) => finish fails { blank with results := results } s

/-- `apply_file`, from the plan that the file holds and the digests of the two files. -/
def applyFile (sha256 : PyStr → PyStr) (config : RepairApplierConfig) (fails : Faults) (umask : ℕ)
    (plan : RepairPlan) (planSha256 requirementsSha256 : PyStr) (rootfs : RootfsEntry)
    (dryRun : Bool) : ApplyOutcome :=
  match plan.load sha256 with
  | .error error => .refused (.invalidPlan error) rootfs
  | .ok plan =>
    if requirementsSha256 ≠ plan.sourceSha256 then
      .refused (.requirementsMismatch plan.sourceSha256 requirementsSha256) rootfs
    else
      match validateRootfs rootfs with
      | .error error => .refused error rootfs
      | .ok fs =>
        let start : ApplyState := ⟨fs, [], []⟩
        let report (state : RepairApplicationState) (results : List RepairDecisionResult) :
            RepairApplicationReport :=
          { state := state
            planSha256 := planSha256
            requirementsSha256 := requirementsSha256
            dryRun := dryRun
            results := results }
        match preflight config fails fs dryRun plan with
        | .error error => handleFailure fails (report .failed []) [] error start
        | .ok (prepared, results) =>
          if dryRun then finish fails (report .dryRun results) start
          else runPrepared fails umask (report .completed []) prepared results start

end TaintForge
