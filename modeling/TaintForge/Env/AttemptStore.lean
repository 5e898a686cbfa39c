import TaintForge.Env.Attempt

/-!
# The store of attempts

A directory with one directory for each attempt, which holds its contract and, when it has ended, its result.
Nothing else writes to it.  No digest is made of the texts of these files, so a file is given by the value that
`json.loads` reads from it.

* `makeAttemptId`, `makeFailureFingerprint`, `AttemptContract.create`: how attempts are named and made.
* `AttemptStore.saveContract`, `AttemptStore.saveResult`: what is written, once for each attempt.
* `AttemptStore.verifyAttempt`, `AttemptStore.listAttemptIds`: what is read.
-/

namespace TaintForge

/-- A document is written; what is read later is the value. -/
def writeDocument (ft : FloatText) (j : Json) : Except DocumentError Json := do
  let _ ← serialise ft j
  return j

/-! ### Names -/

/-- `f"{n:03d}"`, for a number that is not negative. -/
def format03 (n : ℤ) : Except DocumentError PyStr :=
  if convertible n then
    .ok (List.replicate (3 - (decimal n.natAbs).length) 0x30 ++ decimal n.natAbs)
  else .error (.json .intTooLarge)

/-- `[0-9a-f]`. -/
def isHexLower (c : ℕ) : Bool :=
  (decide (0x30 ≤ c) && decide (c ≤ 0x39)) || (decide (0x61 ≤ c) && decide (c ≤ 0x66))

/-- The digits behind `attempt-`, and what follows them. -/
def attemptDigits (name : PyStr) : PyStr × PyStr := (name.drop 8).span Json.isDigit

/-- `attempt-[0-9]{3,}-[0-9a-f]{12}`. -/
def isAttemptId (name : PyStr) : Bool :=
  name.take 8 == py "attempt-" && decide (3 ≤ (attemptDigits name).1.length) &&
    (attemptDigits name).2.take 1 == py "-" && ((attemptDigits name).2.drop 1).length == 12 &&
    ((attemptDigits name).2.drop 1).all isHexLower

/-- `int(name.split("-", 2)[1])`, for the name of an attempt. -/
def attemptIndexOf (name : PyStr) : ℕ := Json.digitsValue (attemptDigits name).1

section Names

variable (sha : Sha256) (ft : FloatText) (iso : IsoFormat)

/-- `make_attempt_id`. -/
def makeAttemptId (attemptIndex : ℤ) (purpose : RunPurpose) (sampleSha256 environmentManifestId : PyStr) :
    Except DocumentError PyStr := do
  ensure (0 ≤ attemptIndex) (py "attempt_index must be non-negative")
  validateSha256 (py "sample_sha256") sampleSha256
  ensure (isAttemptIdentifier environmentManifestId) (py "environment_manifest_id is invalid")
  let digest ← canonicalSha256 sha ft
    (.obj [(py "attempt_index", .int attemptIndex), (py "purpose", .str purpose.value),
      (py "sample_sha256", .str sampleSha256), (py "environment_manifest_id", .str environmentManifestId)])
  let index ← format03 attemptIndex
  return py "attempt-" ++ index ++ py "-" ++ digest.take 12

/-- `make_failure_fingerprint`, without a signal. -/
def makeFailureFingerprint (outcome : AttemptOutcome) (stage : ExecutionStage) (exitCode : Option ℤ)
    (errorCode blockingResource : Option PyStr) : Except DocumentError PyStr := do
  ensure (outcome ≠ .goalReached) (py "goal_reached cannot be used to build a failure fingerprint")
  canonicalSha256 sha ft
    (.obj [(py "outcome", .str outcome.value), (py "stage", .str stage.value),
      (py "exit_code", nullable .int exitCode), (py "signal", .null),
      (py "error_code", nullable .str errorCode), (py "blocking_resource", nullable .str blockingResource)])

/-- `AttemptContract.create`; `now` is the time of the call. -/
def AttemptContract.create (now : PyStr) (attemptIndex : ℤ) (purpose : RunPurpose)
    (sampleSha256 packedBinarySha256 environmentManifestId : PyStr) (environmentManifestVersion : PyInt)
    (goalId : PyStr) (initialStage : ExecutionStage) : Except DocumentError AttemptContract := do
  let attemptId ← makeAttemptId sha ft attemptIndex purpose sampleSha256 environmentManifestId
  let contract : AttemptContract :=
    { attemptId
      attemptIndex := .int attemptIndex
      purpose
      sampleSha256
      packedBinarySha256
      environmentManifestId
      environmentManifestVersion
      goalId
      initialStage
      schemaVersion := .int 1
      contractVersion := .int 1
      createdAtUtc := now }
  contract.postInit iso
  return contract

end Names

/-! ### The directories -/

/-- The directory of an attempt. -/
structure AttemptDirectory where
  name : PyStr
  contract : Option Json
  result : Option Json

/-- The directories, in the order in which they were made. -/
structure AttemptStore where
  directories : List AttemptDirectory

namespace AttemptStore

/-- `_validate_attempt_id`. -/
def validateAttemptId (attemptId : PyStr) : Except DocumentError Unit :=
  ensure (isAttemptId attemptId) (py "attempt store id is invalid")

/-- The directory of an attempt. -/
def directory (store : AttemptStore) (attemptId : PyStr) : Option AttemptDirectory :=
  store.directories.find? fun d => d.name == attemptId

/-- `_prepare_attempt_directory`: the directory is made if it is not there. -/
def prepare (store : AttemptStore) (attemptId : PyStr) : AttemptStore :=
  if (store.directory attemptId).isSome then store
  else ⟨store.directories ++ [⟨attemptId, none, none⟩]⟩

/-- The files of one directory change. -/
def update (store : AttemptStore) (attemptId : PyStr) (change : AttemptDirectory → AttemptDirectory) :
    AttemptStore :=
  ⟨store.directories.map fun d => if d.name = attemptId then change d else d⟩

section Store

variable (sha : Sha256) (ft : FloatText) (iso : IsoFormat)

/-- `load_contract`. -/
def loadContract (store : AttemptStore) (attemptId : PyStr) : Except DocumentError AttemptContract := do
  validateAttemptId attemptId
  match store.directory attemptId with
  | none => .error (.invalid (py "attempt directory is invalid"))
  | some d =>
    match d.contract with
    | none => .error (.invalid (py "attempt contract is invalid: " ++ attemptId))
    | some raw => AttemptContract.fromDict sha ft iso raw

/-- `_validate_result_link`. -/
def validateResultLink (contract : AttemptContract) (result : AttemptResult) : Except DocumentError Unit := do
  ensure (result.attemptId = contract.attemptId) (py "attempt result id does not match contract")
  let contractSha256 ← contract.contractSha256 sha ft
  ensure (result.contractSha256 = contractSha256)
    (py "attempt result contract digest does not match persisted contract")
  ensure (result.initialStage = contract.initialStage)
    (py "attempt result initial stage does not match contract")

/-- `load_result`. -/
def loadResult (store : AttemptStore) (attemptId : PyStr) : Except DocumentError AttemptResult := do
  validateAttemptId attemptId
  match store.directory attemptId with
  | none => .error (.invalid (py "attempt directory is invalid"))
  | some d =>
    match d.result with
    | none => .error (.invalid (py "attempt result is invalid: " ++ attemptId))
    | some raw => do
      let result ← AttemptResult.fromDict sha ft iso raw
      let contract ← store.loadContract sha ft iso attemptId
      validateResultLink sha ft contract result
      return result

/-- The contract of an attempt is there already: it must be the same. -/
def checkContract (contract : AttemptContract) (raw : Json) : Except DocumentError Unit := do
  let existing ← AttemptContract.fromDict sha ft iso raw
  let existingSha256 ← existing.contractSha256 sha ft
  let contractSha256 ← contract.contractSha256 sha ft
  ensure (existingSha256 = contractSha256) (py "attempt contract is immutable: " ++ contract.attemptId)

/-- What `save_contract` writes. -/
def contractValue (contract : AttemptContract) : Except DocumentError Json := do
  let payload ← contract.toDict sha ft
  writeDocument ft payload

/-- `save_contract`. -/
def saveContract (store : AttemptStore) (contract : AttemptContract) :
    Except DocumentError Unit × AttemptStore :=
  match validateAttemptId contract.attemptId with
  | .error error => (.error error, store)
  | .ok () =>
    let prepared := store.prepare contract.attemptId
    match (prepared.directory contract.attemptId).bind AttemptDirectory.contract with
    | some raw => (checkContract sha ft iso contract raw, prepared)
    | none =>
      match contractValue sha ft contract with
      | .error error => (.error error, prepared)
      | .ok value =>
        (.ok (), prepared.update contract.attemptId fun d => { d with contract := some value })

/-- The result of an attempt is there already: it must be the same. -/
def checkResult (result : AttemptResult) (raw : Json) : Except DocumentError Unit := do
  let existing ← AttemptResult.fromDict sha ft iso raw
  let existingSha256 ← existing.resultSha256 sha ft
  let resultSha256 ← result.resultSha256 sha ft
  ensure (existingSha256 = resultSha256) (py "attempt result is immutable: " ++ result.attemptId)

/-- What `save_result` writes. -/
def resultValue (result : AttemptResult) : Except DocumentError Json := do
  let payload ← result.toDict sha ft
  writeDocument ft payload

/-- `save_result`. -/
def saveResult (store : AttemptStore) (result : AttemptResult) :
    Except DocumentError Unit × AttemptStore :=
  match store.loadContract sha ft iso result.attemptId with
  | .error error => (.error error, store)
  | .ok contract =>
    match validateResultLink sha ft contract result with
    | .error error => (.error error, store)
    | .ok () =>
      match (store.directory result.attemptId).bind AttemptDirectory.result with
      | some raw => (checkResult sha ft iso result raw, store)
      | none =>
        match resultValue sha ft result with
        | .error error => (.error error, store)
        | .ok value => (.ok (), store.update result.attemptId fun d => { d with result := some value })

/-- `verify_attempt`. -/
def verifyAttempt (store : AttemptStore) (attemptId : PyStr) (requireResult : Bool) :
    Except DocumentError (AttemptContract × Option AttemptResult) := do
  let contract ← store.loadContract sha ft iso attemptId
  match (store.directory attemptId).bind AttemptDirectory.result with
  | none =>
    if requireResult then .error (.invalid (py "completed attempt lacks a result: " ++ attemptId))
    else return (contract, none)
  | some _ => do
    let result ← store.loadResult sha ft iso attemptId
    return (contract, some result)

end Store

/-- `list_attempt_ids`. -/
def listAttemptIds (store : AttemptStore) : Except DocumentError (List PyStr) := do
  let names := store.directories.map AttemptDirectory.name
  let _ ← mapOk validateAttemptId names
  return names.insertionSort fun a b => attemptIndexOf a ≤ attemptIndexOf b

end AttemptStore

end TaintForge
