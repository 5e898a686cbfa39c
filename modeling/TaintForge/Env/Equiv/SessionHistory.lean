import TaintForge.Env.Equiv.EnvironmentSnapshot
import TaintForge.Env.Equiv.ManifestHistory
import TaintForge.Env.Equiv.ProgressOracle
import TaintForge.Env.Equiv.Session
import TaintForge.Env.IterationController

/-!
# The history of a session

What `session.json` says after any sequence of calls, whatever happens to the other files in between: calls that
fail, the runner, and other programs may change them in any way.

* `IterationController.Prepared`, `IterationController.Completed`: what a call has done that succeeds.
* `IterationController.Control`: what every session document satisfies.
* `IterationController.Step`, `IterationController.Run`: the sequences of calls.
-/

namespace TaintForge

namespace IterationController

/-! ### Errors that are passed on -/

section Errors

variable {α ε : Type} {a : α}

@[simp] theorem require_eq_ok {p : Prop} [Decidable p] {message : PyStr} {u : Unit} :
    require p message = .ok u ↔ p := by
  unfold require
  by_cases h : p
  · simp [h]
  · simp [h]

@[simp] theorem passOn_eq_ok {x : Except ε α} : passOn x = .ok a ↔ x = .ok a := by
  cases x <;> simp [passOn]

@[simp] theorem ofStore_eq_ok {x : Except DocumentError α} : ofStore x = .ok a ↔ x = .ok a := by
  unfold ofStore
  split <;> simp

@[simp] theorem ofOracle_eq_ok {x : Except ProgressOracleError α} : ofOracle x = .ok a ↔ x = .ok a := by
  unfold ofOracle
  split <;> simp

@[simp] theorem ofBuilder_eq_ok {x : Except ManifestBuilderError α} : ofBuilder x = .ok a ↔ x = .ok a := by
  unfold ofBuilder
  split <;> simp

@[simp] theorem found_eq_ok {error : ControllerError} {x : Option α} : found error x = .ok a ↔ x = some a := by
  cases x <;> simp [found]

end Errors

theorem writeDocument_self {ft : FloatText} {j value : Json} (h : writeDocument ft j = .ok value) : value = j := by
  obtain ⟨text, -, hvalue⟩ := bind_eq_ok.mp h
  exact (pure_eq_ok.mp hvalue).symm

variable {host : Host} {sessionDir : PyStr} {disk disk' : SessionDisk} {m : SessionManifest}

/-! ### What the calls do -/

/-- The session document after an iteration was prepared. -/
def preparedManifest (m : SessionManifest) (record : IterationRecord) (now : PyStr) : SessionManifest :=
  m.replace (m.iterations ++ [record]) m.state none now

/-- **What `prepare_next` has done** when it returns a record. -/
structure Prepared (host : Host) (sessionDir : PyStr) (p : Preparation) (d : SessionDisk) (r : IterationRecord)
    (d' : SessionDisk) (m : SessionManifest) (e : NextEnvironment) (c : AttemptContract) : Prop where
  loaded : load host sessionDir d = .ok m
  active : m.state = .active
  completed : ∀ last ∈ m.iterations.getLast?, last.state ≠ .prepared
  budget : (m.iterations.length : ℤ) < m.maxIterations
  environment : nextEnvironment host p d m = .ok e
  rootfs : e.manifest.rootfsSnapshotId = e.snapshotId
  contract : nextContract host m m.iterations.length e.manifest p.now = .ok c
  saved : (d.attempts.saveContract host.sha host.ft host.iso c).1 = .ok ()
  record : r = preparedRecord m.iterations.length e c
  written : writeDocument host.ft r.toDict = .ok r.toDict
  fresh : d.iteration (iterationPath m.iterations.length) = none
  session : writeDocument host.ft (preparedManifest m r p.now).toDict = .ok (preparedManifest m r p.now).toDict
  disk : d' =
    { d with
      session := (preparedManifest m r p.now).toDict
      manifests := e.manifests
      attempts := (d.attempts.saveContract host.sha host.ft host.iso c).2
      iterations := d.iterations ++ [⟨iterationPath m.iterations.length, r.toDict, none, none⟩]
      snapshots := if host.resolve m.snapshotStore = d.snapshots.storeDir then e.snapshots else d.snapshots }

theorem prepareNext_ok {p : Preparation} {r : IterationRecord}
    (h : prepareNext host sessionDir p disk = .ok (r, disk')) :
    ∃ m e c, Prepared host sessionDir p disk r disk' m e c := by
  simp only [prepareNext, bind_eq_ok, require_eq_ok, ofStore_eq_ok, passOn_eq_ok] at h
  obtain ⟨m, hload, _, hactive, _, hlast, _, hbudget, e, henvironment, _, hrootfs, c, hcontract, _, hsaved, _, -,
    value, hvalue, h⟩ := h
  obtain rfl := writeDocument_self hvalue
  cases hfree : disk.iteration (iterationPath m.iterations.length) with
  | some d =>
    rw [hfree] at h
    cases h
  | none =>
    rw [hfree] at h
    simp only [bind_eq_ok, passOn_eq_ok, pure_eq_ok, Prod.mk.injEq] at h
    obtain ⟨session, hsession, rfl, rfl⟩ := h
    obtain rfl := writeDocument_self hsession
    exact ⟨m, e, c, hload, hactive, hlast, hbudget, henvironment, hrootfs, hcontract, hsaved, rfl, hvalue, hfree,
      hsession, rfl⟩

/-- The session document after an iteration was completed. -/
def completedManifest (m : SessionManifest) (index : ℕ) (record : IterationRecord) (state : SessionState)
    (reason : Option ProgressOracle.StopReason) (now : PyStr) : SessionManifest :=
  m.replace (m.iterations.set index record) state (reason.map ProgressOracle.StopReason.value) now

/-- The evidence on which an iteration was completed. -/
structure Evidence where
  contract : AttemptContract
  bundle : ArtifactBundle
  observation : ProgressOracle.IterationObservation
  previous : Option ProgressOracle.IterationObservation
  artifactManifest : Json
  text : PyStr
  oracleReason : Option ProgressOracle.StopReason
  result : AttemptResult

/-- The decision that is recorded. -/
def Evidence.decision (ft : FloatText) (v : Evidence) : ProgressOracle.ProgressDecision :=
  ProgressOracle.compare ft v.previous v.observation

/-- The state and the stop reason of the session. -/
def Evidence.transition (v : Evidence) : SessionState × Option ProgressOracle.StopReason :=
  resolveTransition v.result.outcome v.oracleReason

/-- **What `complete_iteration` has done** when it returns a record. -/
structure Completed (host : Host) (sessionDir : PyStr) (p : Completion) (d : SessionDisk) (r : IterationRecord)
    (d' : SessionDisk) (m : SessionManifest) (index : ℕ) (old : IterationRecord) (directory : IterationDirectory)
    (v : Evidence) : Prop where
  loaded : load host sessionDir d = .ok m
  active : m.state = .active
  latest : p.iterationIndex = index ∧ index + 1 = m.iterations.length ∧ m.iterations[index]? = some old
  prepared : old.state = .prepared
  located : d.iteration old.directory = some directory
  contract : d.attempts.loadContract host.sha host.ft host.iso old.attemptId = .ok v.contract
  binding : validateContractBinding m old v.contract = .ok ()
  claim : validateExecutionClaim host directory.claim m.sessionId old v.contract = .ok ()
  bundle : takeArtifacts host p.source directory.artifacts = .ok v.bundle
  observation : ProgressOracle.observe host.sha host.ft host.builtins v.bundle.artifactFiles old.environmentSnapshotId
    p.goalReached p.goalReason p.observedAt = .ok v.observation
  previous : previousObservation host d m index = .ok v.previous
  artifactManifest : buildArtifactManifest host v.bundle p.bundledAt = .ok v.artifactManifest
  text : v.observation.save host.ft = .ok v.text
  oracle : decideStopReason host d m index v.observation = .ok v.oracleReason
  result : buildAttemptResult host v.contract v.observation v.text v.bundle.repairPlan p = .ok v.result
  saved : (d.attempts.saveResult host.sha host.ft host.iso v.result).1 = .ok ()
  record : r = completedRecord old (v.decision host.ft) v.transition.2
  written : writeDocument host.ft r.toDict = .ok r.toDict
  session : writeDocument host.ft (completedManifest m index r v.transition.1 v.transition.2 p.updatedAt).toDict =
    .ok (completedManifest m index r v.transition.1 v.transition.2 p.updatedAt).toDict
  disk : d' =
    { d with
      session := (completedManifest m index r v.transition.1 v.transition.2 p.updatedAt).toDict
      attempts := (d.attempts.saveResult host.sha host.ft host.iso v.result).2
      iterations := d.updateIteration old.directory fun directory =>
        { directory with record := r.toDict, artifacts := some v.bundle }
      observations := (old.directory ++ py "/observation.json", v.text) :: d.observations
      artifactManifests :=
        (old.directory ++ py "/artifacts/artifact_manifest.json", v.artifactManifest) :: d.artifactManifests }

theorem recordToComplete_ok {iterationIndex : ℤ} {old : IterationRecord}
    (h : recordToComplete m iterationIndex = .ok old) :
    (iterationIndex = iterationIndex.toNat ∧ iterationIndex.toNat + 1 = m.iterations.length ∧
      m.iterations[iterationIndex.toNat]? = some old) ∧ old.state = .prepared := by
  simp only [recordToComplete, bind_eq_ok, require_eq_ok, found_eq_ok, pure_eq_ok] at h
  obtain ⟨_, hrange, record, hrecord, _, hprepared, _, hlatest, rfl⟩ := h
  refine ⟨⟨?_, ?_, hrecord⟩, hprepared⟩
  · omega
  · omega

theorem completeIteration_ok {p : Completion} {r : IterationRecord}
    (h : completeIteration host sessionDir p disk = .ok (r, disk')) :
    ∃ m index old directory v, Completed host sessionDir p disk r disk' m index old directory v := by
  simp only [completeIteration, bind_eq_ok, require_eq_ok, ofStore_eq_ok, passOn_eq_ok, ofOracle_eq_ok, found_eq_ok,
    pure_eq_ok, Prod.mk.injEq] at h
  obtain ⟨m, hload, _, hactive, old, hold, directory, hdirectory, contract, hcontract, _, hbinding, _, hclaim, bundle,
    hbundle, observation, hobserve, previous, hprevious, manifest, hmanifest, value, hvalue, text, htext, reason,
    hreason, result, hresult, _, hsaved, recordValue, hrecord, session, hsession, rfl, rfl⟩ := h
  obtain rfl := writeDocument_self hvalue
  obtain rfl := writeDocument_self hrecord
  obtain rfl := writeDocument_self hsession
  obtain ⟨hlatest, hprepared⟩ := recordToComplete_ok hold
  exact ⟨m, p.iterationIndex.toNat, old, directory,
    ⟨contract, bundle, observation, previous, value, text, reason, result⟩, hload, hactive, hlatest, hprepared,
    hdirectory, hcontract, hbinding, hclaim, hbundle, hobserve, hprevious, hmanifest, htext, hreason, hresult, hsaved,
    rfl, hrecord, hsession, rfl⟩

/-! ### Paths of a session -/

/-- A name that stays in its directory. -/
def IsPlace (name : PyStr) : Prop := IsComponent name ∧ name ≠ py ".."

theorem isPlace_of_forall {name : PyStr} (hne : name ≠ []) (h : ∀ c ∈ name, c ≠ slash ∧ c ≠ 0x2E) :
    IsPlace name := by
  refine ⟨⟨hne, ?_, fun hmem => (h slash hmem).1 rfl⟩, ?_⟩
  · rintro rfl
    exact (h 0x2E (by simp [py])).2 rfl
  · rintro rfl
    exact (h 0x2E (by simp [py])).2 rfl

theorem relativePath_join {names : List PyStr} (hne : names ≠ []) (h : ∀ name ∈ names, IsPlace name) :
    RelativePath ([slash].intercalate names) := by
  rw [RelativePath, purePosixPath_join hne fun name hname => (h name hname).1]
  exact ⟨rfl, hne, fun hmem => (h _ hmem).2 rfl⟩

/-- A path of two names. -/
theorem relativePath_two {a b : PyStr} (ha : IsPlace a) (hb : IsPlace b) : RelativePath (a ++ slash :: b) := by
  have h : RelativePath ([slash].intercalate [a, b]) := relativePath_join (by simp) (by simp [ha, hb])
  simpa [intercalate_slash_cons] using h

theorem relativePath_three {a b c : PyStr} (ha : IsPlace a) (hb : IsPlace b) (hc : IsPlace c) :
    RelativePath (a ++ slash :: (b ++ slash :: c)) := by
  have h : RelativePath ([slash].intercalate [a, b, c]) := relativePath_join (by simp) (by simp [ha, hb, hc])
  simpa [intercalate_slash_cons] using h

theorem relativePath_four {a b c d : PyStr} (ha : IsPlace a) (hb : IsPlace b) (hc : IsPlace c) (hd : IsPlace d) :
    RelativePath (a ++ slash :: (b ++ slash :: (c ++ slash :: d))) := by
  have h : RelativePath ([slash].intercalate [a, b, c, d]) := relativePath_join (by simp) (by simp [ha, hb, hc, hd])
  simpa [intercalate_slash_cons] using h

theorem isPlace_index04 (index : ℕ) : IsPlace (index04 index) := by
  have hdigit : ∀ c ∈ index04 index, Json.isDigit c := padded_isDigit index
  apply isPlace_of_forall
  · intro hnil
    have hlength := congrArg List.length hnil
    simp only [index04, List.length_append, List.length_replicate, List.length_nil] at hlength
    omega
  · intro c hc
    have h := hdigit c hc
    simp only [Json.isDigit, Bool.and_eq_true, decide_eq_true_eq] at h
    exact ⟨by simp only [slash]; omega, by omega⟩

theorem isPlace_of_isAttemptId {name : PyStr} (h : isAttemptId name) : IsPlace name := by
  simp only [isAttemptId, Bool.and_eq_true, beq_iff_eq, decide_eq_true_eq, List.all_eq_true] at h
  obtain ⟨⟨⟨⟨hstart, hdigits⟩, hdash⟩, hlength⟩, hhex⟩ := h
  have hspan : attemptDigits name = ((name.drop 8).takeWhile Json.isDigit, (name.drop 8).dropWhile Json.isDigit) :=
    List.span_eq_takeWhile_dropWhile _ _
  have hname : name = py "attempt-" ++ ((attemptDigits name).1 ++ (py "-" ++ (attemptDigits name).2.drop 1)) := by
    rw [← hdash, List.take_append_drop, hspan, List.takeWhile_append_dropWhile, ← hstart, List.take_append_drop]
  have hletters : ∀ c ∈ py "attempt-", c ≠ slash ∧ c ≠ 0x2E := by decide
  have hdashes : ∀ c ∈ py "-", c ≠ slash ∧ c ≠ 0x2E := by decide
  rw [hname]
  apply isPlace_of_forall
  · simp [py]
  · intro c hc
    rcases List.mem_append.mp hc with hc | hc
    · exact hletters c hc
    · rcases List.mem_append.mp hc with hc | hc
      · have hdigit : Json.isDigit c := by
          rw [hspan] at hc
          exact List.mem_takeWhile_imp hc
        simp only [Json.isDigit, Bool.and_eq_true, decide_eq_true_eq] at hdigit
        exact ⟨by simp only [slash]; omega, by omega⟩
      · rcases List.mem_append.mp hc with hc | hc
        · exact hdashes c hc
        · have hdigit := hhex c hc
          simp only [isHexLower, Bool.or_eq_true, Bool.and_eq_true, decide_eq_true_eq] at hdigit
          exact ⟨by simp only [slash]; omega, by omega⟩

theorem isPlace_file {name : PyStr} (h : name ≠ [] ∧ name ≠ py "." ∧ slash ∉ name ∧ name ≠ py "..") : IsPlace name :=
  ⟨⟨h.1, h.2.1, h.2.2.1⟩, h.2.2.2⟩

/-- **The paths of an iteration stay in the session.** -/
theorem relativePath_iteration (index : ℕ) :
    RelativePath (iterationPath index) ∧ RelativePath (iterationPath index ++ py "/observation.json") ∧
      RelativePath (iterationPath index ++ py "/repair_application.json") ∧
      RelativePath (iterationPath index ++ py "/artifacts/artifact_manifest.json") := by
  have hiterations : IsPlace (py "iterations") := isPlace_file (by decide)
  have hindex := isPlace_index04 index
  have hpath : iterationPath index = py "iterations" ++ slash :: index04 index := by
    show py "iterations/" ++ _ = _
    rw [show py "iterations/" = py "iterations" ++ [slash] from rfl, List.append_assoc]
    rfl
  rw [hpath]
  refine ⟨relativePath_two hiterations hindex, ?_, ?_, ?_⟩
  · rw [List.append_assoc, List.cons_append, show py "/observation.json" = slash :: py "observation.json" from rfl]
    exact relativePath_three hiterations hindex (isPlace_file (by decide))
  · rw [List.append_assoc, List.cons_append,
      show py "/repair_application.json" = slash :: py "repair_application.json" from rfl]
    exact relativePath_three hiterations hindex (isPlace_file (by decide))
  · rw [List.append_assoc, List.cons_append, show py "/artifacts/artifact_manifest.json" =
      slash :: (py "artifacts" ++ slash :: py "artifact_manifest.json") from rfl]
    exact relativePath_four hiterations hindex (isPlace_file (by decide)) (isPlace_file (by decide))

theorem relativePath_attempt {attemptId : PyStr} (h : isAttemptId attemptId) :
    RelativePath (contractPath attemptId) ∧ RelativePath (resultPath attemptId) := by
  have hattempts : IsPlace (py "attempts") := isPlace_file (by decide)
  have hid := isPlace_of_isAttemptId h
  have hstart : py "attempts/" = py "attempts" ++ [slash] := rfl
  constructor
  · rw [contractPath, hstart, List.append_assoc, List.append_assoc]
    exact relativePath_three hattempts hid (isPlace_file (by decide))
  · rw [resultPath, hstart, List.append_assoc, List.append_assoc]
    exact relativePath_three hattempts hid (isPlace_file (by decide))

/-! ### Names that carry a version -/

/-- How the identifiers of a version begin. -/
def manifestStart (version : ℕ) : PyStr := py "manifest-v" ++ index04 version ++ py "-"

theorem isDigit_index04 (index : ℕ) : ∀ c ∈ index04 index, Json.isDigit c := padded_isDigit index

theorem manifestId_start {e : EnvironmentManifest} {version : ℕ} (hversion : e.manifestVersion.value = version)
    {id : PyStr} (h : e.manifestId host.sha host.ft = .ok id) : manifestStart version <+: id := by
  simp only [EnvironmentManifest.manifestId, bind_eq_ok, pure_eq_ok] at h
  obtain ⟨text, htext, digest, -, rfl⟩ := h
  have hindex : text = index04 version := by
    unfold format04 at htext
    split at htext
    · rw [hversion, Int.natAbs_natCast] at htext
      exact (Except.ok.inj htext).symm
    · cases htext
  rw [hindex]
  exact List.prefix_append _ _

/-- **An identifier has one version.** -/
theorem manifestStart_inj {a b : ℕ} {id : PyStr} (ha : manifestStart a <+: id) (hb : manifestStart b <+: id) :
    a = b := by
  have hdigits : ∀ {version}, manifestStart version <+: id →
      (id.drop 10).takeWhile Json.isDigit = index04 version := by
    rintro version ⟨rest, rfl⟩
    have hdrop : (manifestStart version ++ rest).drop 10 = index04 version ++ (py "-" ++ rest) := by
      rw [manifestStart, List.append_assoc, List.append_assoc]
      exact List.drop_left' rfl
    rw [hdrop, List.takeWhile_append_of_pos (isDigit_index04 version)]
    exact List.append_nil _
  exact padded_injective ((hdigits ha).symm.trans (hdigits hb))

/-- A name that begins so is the identifier of a manifest. -/
theorem isPrefixOf_of_manifestStart {version : ℕ} {id : PyStr} (h : manifestStart version <+: id) :
    (py "manifest-v").isPrefixOf id := by
  rw [List.isPrefixOf_iff_prefix]
  refine List.IsPrefix.trans ?_ h
  rw [manifestStart, List.append_assoc]
  exact List.prefix_append _ _

/-- The name of a snapshot that is captured, whatever the store holds. -/
theorem isPrefixOf_of_capture {sha : Sha256} {ft : FloatText} {store store' : EnvironmentSnapshotStore}
    {source now : PyStr} {tree copied : EnvironmentTree} {c : EnvironmentSnapshotManifest}
    (h : store.capture sha ft source tree copied now = .ok (c, store')) : (py "env_").isPrefixOf c.snapshotId := by
  simp only [EnvironmentSnapshotStore.capture, bind_eq_ok, makeSnapshotId_iff] at h
  obtain ⟨digest, -, snapshotId, ⟨-, hid⟩, h⟩ := h
  cases hdirectory : store.directory snapshotId with
  | some d =>
    rw [hdirectory] at h
    simp only [bind_eq_ok, ensure_eq_ok, pure_eq_ok, Prod.mk.injEq] at h
    obtain ⟨m, hverify, _, -, rfl, -⟩ := h
    rw [EnvironmentSnapshotStore.verify, hdirectory] at hverify
    simp only [bind_eq_ok, pure_eq_ok, ensure_eq_ok] at hverify
    obtain ⟨_, hcheck, _, -, _, -, _, -, rfl⟩ := hverify
    simp only [EnvironmentSnapshotManifest.check, bind_eq_ok, ensure_eq_ok] at hcheck
    exact hcheck.choose_spec.1
  | none =>
    rw [hdirectory] at h
    simp only [bind_eq_ok, ensure_eq_ok, pure_eq_ok, Prod.mk.injEq] at h
    obtain ⟨_, -, _, -, _, -, rfl, -⟩ := h
    show (py "env_").isPrefixOf snapshotId
    rw [hid, List.isPrefixOf_iff_prefix]
    exact List.prefix_append _ _

theorem isAttemptId_of_saveContract {store : AttemptStore} {c : AttemptContract}
    (h : (store.saveContract host.sha host.ft host.iso c).1 = .ok ()) : isAttemptId c.attemptId := by
  unfold AttemptStore.saveContract at h
  split at h
  · cases h
  · rename_i _ hid
    exact ensure_eq_ok.mp hid

/-! ### The environment of the next iteration -/

/-- What the contract of the next attempt says. -/
theorem nextContract_ok {index : ℕ} {e : EnvironmentManifest} {now : PyStr} {c : AttemptContract}
    (h : nextContract host m index e now = .ok c) :
    e.manifestId host.sha host.ft = .ok c.environmentManifestId ∧ now ≠ [] ∧
      AttemptContract.create host.sha host.ft host.iso now index .discovery m.sampleSha256 m.packedBinarySha256
        c.environmentManifestId e.manifestVersion m.goalId .preOepDiscovery = .ok c := by
  simp only [nextContract, bind_eq_ok, passOn_eq_ok, ofStore_eq_ok] at h
  obtain ⟨manifestId, hid, hcreate⟩ := h
  have hcreate' := hcreate
  simp only [AttemptContract.create, bind_eq_ok, pure_eq_ok] at hcreate
  obtain ⟨attemptId, -, _, hinit, rfl⟩ := hcreate
  simp only [AttemptContract.postInit, bind_eq_ok] at hinit
  obtain ⟨_, -, _, -, _, -, _, -, _, -, _, -, _, -, _, -, _, -, t, htime, -⟩ := hinit
  exact ⟨hid, ne_nil_of_parseTimestamp htime, hcreate'⟩

theorem digitsValue_zeros (zeros n : ℕ) : Json.digitsValue (List.replicate zeros 0x30 ++ decimal n) = n := by
  have hzero : Json.digitsValue (List.replicate zeros 0x30) = 0 := by
    induction zeros with
    | zero => rfl
    | succ k ih =>
      rw [List.replicate_succ', digitsValue_append, ih]
      rfl
  rw [digitsValue_append, hzero, digitsValue_decimal]
  omega

/-- **The name of an attempt carries its number.** -/
theorem attemptIndexOf_create {index : ℕ} {now sample packed id goal : PyStr} {purpose : RunPurpose}
    {version : PyInt} {stage : ExecutionStage} {c : AttemptContract}
    (h : AttemptContract.create host.sha host.ft host.iso now index purpose sample packed id version goal stage =
      .ok c) : attemptIndexOf c.attemptId = index := by
  simp only [AttemptContract.create, makeAttemptId, bind_eq_ok, pure_eq_ok] at h
  obtain ⟨_, ⟨_, -, _, -, _, -, digest, -, text, htext, rfl⟩, _, -, rfl⟩ := h
  have hdigits : text = List.replicate (3 - (decimal index).length) 0x30 ++ decimal index := by
    unfold format03 at htext
    split at htext
    · rw [Int.natAbs_natCast] at htext
      exact (Except.ok.inj htext).symm
    · cases htext
  have hall : ∀ c ∈ text, Json.isDigit c := by
    intro c hc
    rw [hdigits] at hc
    rcases List.mem_append.mp hc with hc | hc
    · rw [List.eq_of_mem_replicate hc]
      rfl
    · exact decimal_isDigit index c hc
  have hdrop : (py "attempt-" ++ text ++ py "-" ++ digest.take 12).drop 8 = text ++ (py "-" ++ digest.take 12) := by
    rw [List.append_assoc, List.append_assoc]
    exact List.drop_left' rfl
  show Json.digitsValue (attemptDigits (py "attempt-" ++ text ++ py "-" ++ digest.take 12)).1 = index
  rw [attemptDigits, hdrop, List.span_eq_takeWhile_dropWhile, List.takeWhile_append_of_pos hall]
  show Json.digitsValue (text ++ []) = index
  rw [List.append_nil, hdigits, digitsValue_zeros]

/-- **The environment of the next iteration**, whatever is stored: its version is the number of the iteration. -/
structure Follows (m : SessionManifest) (e : NextEnvironment) : Prop where
  version : e.manifest.manifestVersion.value = m.iterations.length
  snapshotId : (py "env_").isPrefixOf e.snapshotId
  parent : e.parentSnapshotId = m.iterations.getLast?.map IterationRecord.environmentSnapshotId
  application : e.repairApplication =
    if m.iterations = [] then none else some (iterationPath m.iterations.length ++ py "/repair_application.json")

/-- A stored manifest has a version that is not negative. -/
theorem version_of_load {store : EnvironmentManifestStore} {version : PyInt} {e : EnvironmentManifest}
    (h : store.load host.sha host.ft host.iso version = .ok e) : ∃ n : ℕ, e.manifestVersion.value = n := by
  simp only [EnvironmentManifestStore.load, bind_eq_ok] at h
  obtain ⟨path, -, h⟩ := h
  cases hread : store.read path with
  | none =>
    rw [hread] at h
    cases h
  | some text =>
    rw [hread] at h
    simp only [EnvironmentManifestStore.loadText, bind_eq_ok, EnvironmentManifest.fromDict_iff] at h
    obtain ⟨_, -, _, -, -, -, -, -, hconstruct, -⟩ := h
    have hvalid := EnvironmentManifest.postInit_iff.mp (EnvironmentManifest.construct_iff.mp hconstruct).2
    exact ⟨e.manifestVersion.value.toNat, (Int.toNat_of_nonneg hvalid.version).symm⟩

/-- The version of a manifest with a known identifier. -/
theorem version_of_start {store : EnvironmentManifestStore} {asked : PyInt} {e : EnvironmentManifest} {id : PyStr}
    {version : ℕ} (hload : store.load host.sha host.ft host.iso asked = .ok e)
    (hid : e.manifestId host.sha host.ft = .ok id) (hstart : manifestStart version <+: id) :
    e.manifestVersion.value = version := by
  obtain ⟨n, hn⟩ := version_of_load hload
  rw [hn, manifestStart_inj (manifestId_start hn hid) hstart]

theorem follows_seed {e : NextEnvironment} (hseed : (py "env_").isPrefixOf m.seedSnapshotId)
    (hid : (py "manifest-v0000-").isPrefixOf m.seedEnvironmentManifestId) (hempty : m.iterations = [])
    (h : seedEnvironment host disk m = .ok e) : Follows m e := by
  simp only [seedEnvironment, bind_eq_ok, ofStore_eq_ok, passOn_eq_ok, require_eq_ok, pure_eq_ok] at h
  obtain ⟨manifest, hload, id, hmanifestId, _, rfl, rfl⟩ := h
  have hstart : manifestStart 0 <+: m.seedEnvironmentManifestId := List.isPrefixOf_iff_prefix.mp hid
  refine ⟨?_, hseed, ?_, ?_⟩
  · rw [hempty]
    exact version_of_start hload hmanifestId hstart
  · rw [hempty]
    rfl
  · rw [if_pos hempty]

theorem follows_repaired {p : Preparation} {e : NextEnvironment} {previous : IterationRecord} {index : ℕ}
    (hlast : m.iterations.getLast? = some previous) (hindex : m.iterations.length = index + 1)
    (hstart : manifestStart index <+: previous.environmentManifestId)
    (h : repairedEnvironment host p disk m m.iterations.length previous = .ok e) : Follows m e := by
  simp only [repairedEnvironment, bind_eq_ok, ofStore_eq_ok, passOn_eq_ok, require_eq_ok, pure_eq_ok] at h
  obtain ⟨_, -, bundle, -, requirementsFile, -, planFile, -, path, -, parent, hload, ⟨contract, result⟩, -, result, -,
    _, -, _, -, id, hid, _, rfl, _, -, ⟨snapshotId, next, snapshots⟩, hbuild, _, -, rfl⟩ := h
  have hversion := version_of_start hload hid hstart
  simp only [buildRepairedSnapshot, bind_eq_ok, passOn_eq_ok, ofBuilder_eq_ok, pure_eq_ok, Prod.mk.injEq] at hbuild
  obtain ⟨_, -, ⟨plan, report, rootfs⟩, -, ⟨capture, store⟩, hcapture, text, -, derived, hderive, rfl, rfl, rfl⟩ :=
    hbuild
  refine ⟨?_, isPrefixOf_of_capture hcapture, ?_, ?_⟩
  · rw [hindex, Nat.cast_add_one, ← hversion]
    have hderive' : RepairInputs.derive host.sha host.ft host.iso host.display ⟨_, _, _, _, _, _⟩ = .ok derived :=
      hderive
    obtain ⟨_, _, _, hderivation⟩ := derive_eq_ok.mp hderive'
    obtain ⟨_, _, -, -, -, -, hnext⟩ := hderivation.records
    simp only [EnvironmentManifest.derive, bind_eq_ok, pure_eq_ok] at hnext
    obtain ⟨_, -, _, -, rfl⟩ := hnext
    rfl
  · rw [hlast]
    rfl
  · rw [if_neg]
    intro hnil
    rw [hnil] at hindex
    cases hindex

/-! ### What every session document satisfies -/

/-- The state that a reason to stop leads to. -/
def stateOf : Option ProgressOracle.StopReason → SessionState
  | none => .active
  | some .executionTimedOut => .failed
  | some .executionCrashed => .failed
  | some .executionExitedWithoutGoal => .failed
  | some _ => .completed

/-- What the record of an iteration says, by its number. -/
structure Placed (i : ℕ) (r : IterationRecord) : Prop where
  index : r.index = i
  directory : r.directory = iterationPath i
  attemptId : isAttemptId r.attemptId
  attemptIndex : attemptIndexOf r.attemptId = i
  attemptContract : r.attemptContract = contractPath r.attemptId
  version : r.environmentManifestVersion = i
  manifestId : manifestStart i <+: r.environmentManifestId
  application : r.repairApplication = if i = 0 then none else some (iterationPath i ++ py "/repair_application.json")
  snapshotId : (py "env_").isPrefixOf r.environmentSnapshotId
  prepared : r.state = .prepared → r.observation = none ∧ r.artifactManifest = none ∧ r.attemptResult = none ∧
    r.progress = none ∧ r.stopReason = none
  completed : r.state = .completed → r.observation = some (iterationPath i ++ py "/observation.json") ∧
    r.artifactManifest = some (iterationPath i ++ py "/artifacts/artifact_manifest.json") ∧
    r.attemptResult = some (resultPath r.attemptId) ∧ r.progress.isSome

/-- **What every session document satisfies**: the records are numbered, each environment is made from the one
before, all iterations but the last are completed, and the last one gives the state of the session. -/
structure Control (m : SessionManifest) : Prop where
  valid : m.Valid
  placed : ∀ (i : ℕ) (r : IterationRecord), m.iterations[i]? = some r → Placed i r
  first : ∀ r, m.iterations[0]? = some r → r.parentSnapshotId = none
  later : ∀ (i : ℕ) (r next : IterationRecord), m.iterations[i]? = some r → m.iterations[i + 1]? = some next →
    r.state = .completed ∧ r.stopReason = none ∧ next.parentSnapshotId = some r.environmentSnapshotId
  budget : m.iterations.length ≤ m.maxIterations
  reason : ∃ reason, m.state = stateOf reason ∧ m.stopReason = reason.map ProgressOracle.StopReason.value ∧
    m.iterations.getLast?.bind IterationRecord.stopReason = m.stopReason

/-- What a session keeps: completed iterations, and everything once it has stopped. -/
structure Extends (m n : SessionManifest) : Prop where
  session : n = m.replace n.iterations n.state n.stopReason n.updatedAtUtc
  kept : ∀ (i : ℕ) (r : IterationRecord), m.iterations[i]? = some r → r.state = .completed → n.iterations[i]? = some r
  identity : ∀ (i : ℕ) (r : IterationRecord), m.iterations[i]? = some r → ∃ next, n.iterations[i]? = some next ∧
    next.attemptId = r.attemptId ∧ next.environmentSnapshotId = r.environmentSnapshotId ∧
    next.environmentManifestId = r.environmentManifestId ∧ next.parentSnapshotId = r.parentSnapshotId
  stopped : m.state ≠ .active → n = m

/-! ### What a call keeps -/

theorem getElem?_concat_iff {α : Type*} {l : List α} {a b : α} {i : ℕ} :
    (l ++ [a])[i]? = some b ↔ l[i]? = some b ∨ i = l.length ∧ b = a := by
  rw [List.getElem?_append]
  by_cases hi : i < l.length
  · rw [if_pos hi]
    exact ⟨Or.inl, fun h => h.resolve_right fun hend => absurd hi (hend.1 ▸ lt_irrefl _)⟩
  · rw [if_neg hi, List.getElem?_eq_none (not_lt.mp hi), List.getElem?_singleton]
    constructor
    · intro h
      right
      split at h
      · rename_i hzero
        exact ⟨by omega, (Option.some.inj h).symm⟩
      · cases h
    · rintro (h | ⟨rfl, rfl⟩)
      · cases h
      · simp

theorem stateOf_eq_active {reason : Option ProgressOracle.StopReason} (h : stateOf reason = .active) :
    reason = none := by
  cases reason with
  | none => rfl
  | some reason => cases reason <;> cases h

theorem reason_ne_nil (reason : Option ProgressOracle.StopReason) :
    reason.map ProgressOracle.StopReason.value ≠ some [] := by
  cases reason with
  | none => simp
  | some reason => cases reason <;> decide

/-- **A placed record is valid.** -/
theorem Placed.valid {i : ℕ} {r : IterationRecord} (h : Placed i r)
    (hparent : ∀ s ∈ r.parentSnapshotId, (py "env_").isPrefixOf s)
    (hreason : r.stopReason ≠ some []) : r.Valid := by
  obtain ⟨hpath, hobservation, happlication, hmanifest⟩ := relativePath_iteration i
  obtain ⟨hcontract, hresult⟩ := relativePath_attempt h.attemptId
  have hattempt : (py "attempt-").isPrefixOf r.attemptId := by
    have hid := h.attemptId
    simp only [isAttemptId, Bool.and_eq_true, beq_iff_eq] at hid
    rw [← hid.1.1.1.1, List.isPrefixOf_iff_prefix]
    exact List.take_prefix _ _
  have hne : ∀ start rest : PyStr, start ≠ [] → start ++ rest ≠ [] := fun start rest hstart hnil =>
    hstart (List.append_eq_nil_iff.mp hnil).1
  have hplace : iterationPath i ≠ [] := hne _ _ (by decide)
  refine ⟨?_, ?_, h.snapshotId, hparent, isPrefixOf_of_manifestStart h.manifestId, ?_, hattempt, ?_, ?_, hreason⟩
  · rw [h.index]
    exact Int.natCast_nonneg i
  · rw [h.directory]
    exact ⟨hplace, hpath⟩
  · rw [h.version]
    exact Int.natCast_nonneg i
  · rw [h.attemptContract, contractPath, List.append_assoc]
    refine ⟨hne _ _ (by decide), ?_⟩
    rw [← List.append_assoc]
    exact hcontract
  · have hrepair : r.repairApplication ≠ some [] ∧ ∀ s ∈ r.repairApplication, RelativePath s := by
      rw [h.application]
      split
      · simp
      · simpa using ⟨fun hnil => absurd hnil hplace, happlication⟩
    cases hstate : r.state with
    | prepared =>
      obtain ⟨h1, h2, h3, -, -⟩ := h.prepared hstate
      simp [h1, h2, h3, hrepair.1]
      exact hrepair.2
    | completed =>
      obtain ⟨h1, h2, h3, -⟩ := h.completed hstate
      have hresultPath : resultPath r.attemptId ≠ [] := by
        rw [resultPath, List.append_assoc]
        exact hne _ _ (by decide)
      simp [h1, h2, h3, hrepair.1, hplace, hresultPath, hobservation, hmanifest, hresult]
      exact hrepair.2

theorem Control.follows (h : Control m) {p : Preparation} {e : NextEnvironment}
    (henvironment : nextEnvironment host p disk m = .ok e) : Follows m e := by
  unfold nextEnvironment at henvironment
  cases hlast : m.iterations.getLast? with
  | none =>
    rw [hlast] at henvironment
    exact follows_seed h.valid.seedSnapshotId h.valid.seedEnvironmentManifestId (List.getLast?_eq_none_iff.mp hlast)
      henvironment
  | some previous =>
    rw [hlast] at henvironment
    have hlength : m.iterations.length = m.iterations.length - 1 + 1 := by
      have hne : m.iterations ≠ [] := by
        rintro hnil
        rw [hnil] at hlast
        cases hlast
      have := List.length_pos_iff.mpr hne
      omega
    have hplaced := h.placed (m.iterations.length - 1) previous (by rw [← List.getLast?_eq_getElem?, hlast])
    exact follows_repaired hlast hlength hplaced.manifestId henvironment

/-- The record of an iteration that was prepared is placed. -/
theorem placed_preparedRecord {e : NextEnvironment} {c : AttemptContract} {now : PyStr} (hfollows : Follows m e)
    (hcontract : nextContract host m m.iterations.length e.manifest now = .ok c)
    (hid : isAttemptId c.attemptId) : Placed m.iterations.length (preparedRecord m.iterations.length e c) where
  index := rfl
  directory := rfl
  attemptId := hid
  attemptIndex := attemptIndexOf_create (nextContract_ok hcontract).2.2
  attemptContract := rfl
  version := hfollows.version
  manifestId := manifestId_start hfollows.version (nextContract_ok hcontract).1
  application := by
    show e.repairApplication = _
    rw [hfollows.application]
    simp
  snapshotId := hfollows.snapshotId
  prepared _ := ⟨rfl, rfl, rfl, rfl, rfl⟩
  completed hstate := by cases hstate

/-- A session that goes on has no reason to stop. -/
theorem Control.of_active (h : Control m) (hactive : m.state = .active) :
    m.stopReason = none ∧ ∀ last ∈ m.iterations.getLast?, last.stopReason = none := by
  obtain ⟨reason, hstate, hreason, hlast⟩ := h.reason
  obtain rfl := stateOf_eq_active (hstate.symm.trans hactive)
  refine ⟨hreason, fun last hmem => ?_⟩
  rw [hmem] at hlast
  exact hlast.trans hreason

/-- **A prepared iteration keeps the session well formed.** -/
theorem Control.prepare {p : Preparation} {r : IterationRecord} {e : NextEnvironment} {c : AttemptContract}
    (h : Control m) (hdone : Prepared host sessionDir p disk r disk' m e c) :
    Control (preparedManifest m r p.now) ∧ Extends m (preparedManifest m r p.now) := by
  have hfollows := h.follows hdone.environment
  have hid := isAttemptId_of_saveContract hdone.saved
  have hplaced : Placed m.iterations.length r := hdone.record ▸ placed_preparedRecord hfollows hdone.contract hid
  have hparent : r.parentSnapshotId = m.iterations.getLast?.map IterationRecord.environmentSnapshotId := by
    rw [hdone.record]
    exact hfollows.parent
  have hreason : r.stopReason = none := by
    rw [hdone.record]
    rfl
  obtain ⟨hstop, hlast⟩ := h.of_active hdone.active
  have hvalid : r.Valid := by
    apply hplaced.valid
    · rw [hparent]
      intro s hs
      obtain ⟨last, hmem, rfl⟩ := Option.mem_map.mp hs
      exact (h.valid.records last (List.mem_of_getLast? hmem)).environmentSnapshotId
    · simp [hreason]
  constructor
  · refine ⟨?_, ?_, ?_, ?_, ?_, ⟨none, hdone.active, rfl, ?_⟩⟩
    · refine { h.valid with stopReason := by simp [preparedManifest, SessionManifest.replace],
                            records := ?_, indexes := ?_, times := ⟨h.valid.times.1, (nextContract_ok hdone.contract).2.1⟩ }
      · intro record hrecord
        rcases List.mem_append.mp hrecord with hrecord | hrecord
        · exact h.valid.records record hrecord
        · exact List.mem_singleton.mp hrecord ▸ hvalid
      · show (m.iterations ++ [r]).map _ = (List.range (m.iterations ++ [r]).length).map _
        rw [List.map_append, h.valid.indexes, List.length_append, List.length_singleton, List.range_succ,
          List.map_append, List.map_singleton, List.map_singleton, hplaced.index]
        rfl
    · intro i record hrecord
      rcases getElem?_concat_iff.mp hrecord with hrecord | ⟨rfl, rfl⟩
      · exact h.placed i record hrecord
      · exact hplaced
    · intro record hrecord
      rcases getElem?_concat_iff.mp hrecord with hrecord | ⟨hzero, rfl⟩
      · exact h.first record hrecord
      · rw [hparent, List.length_eq_zero_iff.mp hzero.symm]
        rfl
    · intro i record next hrecord hnext
      rcases getElem?_concat_iff.mp hnext with hnext | ⟨hend, rfl⟩
      · have hi : i < m.iterations.length := by
          have := (List.getElem?_eq_some_iff.mp hnext).1
          omega
        rcases getElem?_concat_iff.mp hrecord with hrecord | ⟨rfl, -⟩
        · exact h.later i record next hrecord hnext
        · exact absurd hi (lt_irrefl _)
      · -- The record before the new one is the last one, which is completed.
        rcases getElem?_concat_iff.mp hrecord with hrecord | ⟨rfl, -⟩
        · have hmem : m.iterations.getLast? = some record := by
            rw [List.getLast?_eq_getElem?, ← hend]
            exact hrecord
          refine ⟨?_, hlast record hmem, ?_⟩
          · have hstate := hdone.completed record hmem
            cases hcase : record.state with
            | prepared => exact absurd hcase hstate
            | completed => rfl
          · rw [hparent, hmem]
            rfl
        · omega
    · show ((m.iterations ++ [r]).length : ℤ) ≤ m.maxIterations
      have := hdone.budget
      simp only [List.length_append, List.length_singleton]
      omega
    · show (m.iterations ++ [r]).getLast?.bind _ = none
      rw [List.getLast?_concat]
      exact hreason
  · refine ⟨rfl, fun i record hrecord _ => getElem?_concat_iff.mpr (Or.inl hrecord), fun i record hrecord => ?_,
      fun hstate => absurd hdone.active hstate⟩
    exact ⟨record, getElem?_concat_iff.mpr (Or.inl hrecord), rfl, rfl, rfl, rfl⟩

/-- The oracle never says how an execution failed. -/
theorem decideStopReason_completed {index : ℕ} {observation : ProgressOracle.IterationObservation}
    {reason : Option ProgressOracle.StopReason} (h : decideStopReason host disk m index observation = .ok reason) :
    ∀ stop ∈ reason, stateOf (some stop) = .completed := by
  unfold decideStopReason ProgressOracle.decideStopReason at h
  split at h
  · cases h
    simp [stateOf]
  · obtain ⟨prior, -, h⟩ := bind_eq_ok.mp h
    split at h
    · cases h
      simp [stateOf]
    · split at h
      · cases h
        simp [stateOf]
      · split at h
        · cases h
          simp [stateOf]
        · split at h
          · cases h
            simp [stateOf]
          · cases h
            simp

/-- **The state of the session is that of the reason to stop.** -/
theorem resolveTransition_state {outcome : AttemptOutcome} {reason : Option ProgressOracle.StopReason}
    (h : ∀ stop ∈ reason, stateOf (some stop) = .completed) :
    (resolveTransition outcome reason).1 = stateOf (resolveTransition outcome reason).2 := by
  cases reason with
  | some stop =>
    have hstop := h stop rfl
    unfold resolveTransition
    split
    · rfl
    · split
      · rfl
      · split
        · rfl
        · exact hstop.symm
  | none => cases outcome <;> simp [resolveTransition, stateOf]

theorem placed_completedRecord {i : ℕ} {old : IterationRecord} (h : Placed i old)
    (decision : ProgressOracle.ProgressDecision) (reason : Option ProgressOracle.StopReason) :
    Placed i (completedRecord old decision reason) where
  index := h.index
  directory := h.directory
  attemptId := h.attemptId
  attemptIndex := h.attemptIndex
  attemptContract := h.attemptContract
  version := h.version
  manifestId := h.manifestId
  application := h.application
  snapshotId := h.snapshotId
  prepared hstate := by cases hstate
  completed _ := by simp [completedRecord, h.directory]

/-- **A completed iteration keeps the session well formed.** -/
theorem Control.complete {p : Completion} {r : IterationRecord} {index : ℕ} {old : IterationRecord}
    {directory : IterationDirectory} {v : Evidence} (h : Control m)
    (hdone : Completed host sessionDir p disk r disk' m index old directory v) :
    Control (completedManifest m index r v.transition.1 v.transition.2 p.updatedAt) ∧
      Extends m (completedManifest m index r v.transition.1 v.transition.2 p.updatedAt) := by
  obtain ⟨-, hlength, hold⟩ := hdone.latest
  have hplaced : Placed index r := hdone.record ▸ placed_completedRecord (h.placed index old hold) _ _
  have hparent : r.parentSnapshotId = old.parentSnapshotId := by
    rw [hdone.record]
    rfl
  have hreason : r.stopReason = v.transition.2.map ProgressOracle.StopReason.value := by
    rw [hdone.record]
    rfl
  have hvalid : r.Valid := by
    apply hplaced.valid
    · rw [hparent]
      exact (h.valid.records old (List.mem_of_getElem? hold)).parentSnapshotId
    · rw [hreason]
      exact reason_ne_nil _
  have hget : ∀ {i record}, (m.iterations.set index r)[i]? = some record →
      (i = index ∧ record = r) ∨ (i ≠ index ∧ m.iterations[i]? = some record) := by
    intro i record hrecord
    rw [List.getElem?_set] at hrecord
    split at hrecord
    · rename_i heq
      split at hrecord
      · exact Or.inl ⟨heq.symm, (Option.some.inj hrecord).symm⟩
      · cases hrecord
    · rename_i hne
      exact Or.inr ⟨Ne.symm hne, hrecord⟩
  have hset : ∀ {i record}, i ≠ index → m.iterations[i]? = some record →
      (m.iterations.set index r)[i]? = some record := by
    intro i record hne hrecord
    rw [List.getElem?_set_ne (Ne.symm hne), hrecord]
  have hself : (m.iterations.set index r)[index]? = some r := List.getElem?_set_self (by omega)
  constructor
  · refine ⟨?_, ?_, ?_, ?_, ?_, v.transition.2, ?_, rfl, ?_⟩
    · refine { h.valid with stopReason := reason_ne_nil _, records := ?_, indexes := ?_,
                            times := ⟨h.valid.times.1, p.updatedAt_ne_nil⟩ }
      · intro record hrecord
        rcases List.mem_or_eq_of_mem_set hrecord with hrecord | rfl
        · exact h.valid.records record hrecord
        · exact hvalid
      · show (m.iterations.set index r).map _ = (List.range (m.iterations.set index r).length).map _
        have hbound : index < (m.iterations.map IterationRecord.index).length := by
          rw [List.length_map]
          omega
        have hindex : r.index = (m.iterations.map IterationRecord.index)[index] := by
          rw [List.getElem_map, (List.getElem_eq_iff (by omega)).mpr hold, hplaced.index,
            (h.placed index old hold).index]
        rw [List.length_set, ← h.valid.indexes, List.map_set, hindex, List.set_getElem_self]
    · intro i record hrecord
      rcases hget hrecord with ⟨rfl, rfl⟩ | ⟨-, hrecord⟩
      · exact hplaced
      · exact h.placed i record hrecord
    · intro record hrecord
      rcases hget hrecord with ⟨rfl, rfl⟩ | ⟨-, hrecord⟩
      · exact hparent.trans (h.first old hold)
      · exact h.first record hrecord
    · intro i record next hrecord hnext
      rcases hget hnext with ⟨hi, rfl⟩ | ⟨-, hnext⟩
      · rcases hget hrecord with ⟨rfl, -⟩ | ⟨-, hrecord⟩
        · omega
        · rw [hparent]
          exact h.later i record old hrecord (hi ▸ hold)
      · have hlt := (List.getElem?_eq_some_iff.mp hnext).1
        rcases hget hrecord with ⟨rfl, -⟩ | ⟨-, hrecord⟩
        · omega
        · exact h.later i record next hrecord hnext
    · show ((m.iterations.set index r).length : ℤ) ≤ m.maxIterations
      rw [List.length_set]
      exact h.budget
    · exact resolveTransition_state (decideStopReason_completed hdone.oracle)
    · show (m.iterations.set index r).getLast?.bind _ = _
      rw [List.getLast?_eq_getElem?, List.length_set, ← hlength, Nat.add_sub_cancel, hself]
      exact hreason
  · refine ⟨rfl, fun i record hrecord hstate => ?_, fun i record hrecord => ?_,
      fun hstate => absurd hdone.active hstate⟩
    · apply hset ?_ hrecord
      rintro rfl
      rw [hold, Option.some.injEq] at hrecord
      rw [← hrecord, hdone.prepared] at hstate
      cases hstate
    · by_cases hi : i = index
      · subst hi
        rw [hold, Option.some.injEq] at hrecord
        subst hrecord
        refine ⟨r, hself, ?_⟩
        rw [hdone.record]
        exact ⟨rfl, rfl, rfl, rfl⟩
      · exact ⟨record, hset hi hrecord, rfl, rfl, rfl, rfl⟩

/-! ### Runs -/

theorem Extends.refl (m : SessionManifest) : Extends m m where
  session := rfl
  kept _ _ h _ := h
  identity _ r h := ⟨r, h, rfl, rfl, rfl, rfl⟩
  stopped _ := rfl

theorem Extends.trans {n k : SessionManifest} (h : Extends m n) (h' : Extends n k) : Extends m k where
  session := by
    have hsession := h'.session
    rw [h.session] at hsession
    exact hsession
  kept i r hr hstate := h'.kept i r (h.kept i r hr hstate) hstate
  identity i r hr := by
    obtain ⟨next, hnext, h1, h2, h3, h4⟩ := h.identity i r hr
    obtain ⟨last, hlast, h1', h2', h3', h4'⟩ := h'.identity i next hnext
    exact ⟨last, hlast, h1'.trans h1, h2'.trans h2, h3'.trans h3, h4'.trans h4⟩
  stopped hstate := by
    obtain rfl := h.stopped hstate
    exact h'.stopped hstate

/-- The directory of a session, as it was resolved. -/
structure IsSessionDir (host : Host) (sessionDir : PyStr) : Prop where
  ne_nil : sessionDir ≠ []
  resolve : host.resolve sessionDir = sessionDir
  manifests : host.resolve (sessionDir ++ py "/manifests") = sessionDir ++ py "/manifests"

/-- The session document on a disk. -/
structure Stands (dir : PyStr) (d : SessionDisk) (m : SessionManifest) : Prop where
  session : d.session = m.toDict
  control : Control m
  sessionDir : m.sessionDir = dir
  manifests : m.environmentManifestStore = dir ++ py "/manifests"

/-- **The session document is read as it was written.** -/
theorem Stands.load (h : Stands sessionDir disk m) (hdir : IsSessionDir host sessionDir) :
    load host sessionDir disk = .ok m := by
  have hread : SessionManifest.fromDict host.builtins disk.session = .ok m :=
    h.session ▸ SessionManifest.fromDict_toDict_iff.mpr h.control.valid
  simp only [IterationController.load, hread, bind_eq_ok, ofStore_eq_ok, require_eq_ok, pure_eq_ok]
  refine ⟨m, rfl, (), ?_, (), ?_, rfl⟩
  · rw [h.sessionDir, hdir.resolve]
  · rw [h.manifests, hdir.manifests]

/-- A call that succeeds, or anything that leaves the session document as it is: a call that fails, the runner, and
whatever else happens to the other files. -/
inductive Step (host : Host) (sessionDir : PyStr) : SessionDisk → SessionDisk → Prop
  | prepare {p : Preparation} {d d' : SessionDisk} {r : IterationRecord}
      (h : prepareNext host sessionDir p d = .ok (r, d')) : Step host sessionDir d d'
  | complete {p : Completion} {d d' : SessionDisk} {r : IterationRecord}
      (h : completeIteration host sessionDir p d = .ok (r, d')) : Step host sessionDir d d'
  | other {d d' : SessionDisk} (h : d'.session = d.session) : Step host sessionDir d d'

/-- Any number of steps. -/
abbrev Run (host : Host) (sessionDir : PyStr) : SessionDisk → SessionDisk → Prop :=
  Relation.ReflTransGen (Step host sessionDir)

/-- **One step.** -/
theorem Stands.step (h : Stands sessionDir disk m) (hdir : IsSessionDir host sessionDir)
    (hstep : Step host sessionDir disk disk') : ∃ n, Stands sessionDir disk' n ∧ Extends m n := by
  have hload := h.load hdir
  cases hstep with
  | prepare hprepare =>
    obtain ⟨n, e, c, hdone⟩ := prepareNext_ok hprepare
    obtain rfl := Except.ok.inj (hload.symm.trans hdone.loaded)
    obtain ⟨hcontrol, hextends⟩ := h.control.prepare hdone
    exact ⟨_, ⟨by rw [hdone.disk], hcontrol, h.sessionDir, h.manifests⟩, hextends⟩
  | complete hcomplete =>
    obtain ⟨n, index, old, directory, v, hdone⟩ := completeIteration_ok hcomplete
    obtain rfl := Except.ok.inj (hload.symm.trans hdone.loaded)
    obtain ⟨hcontrol, hextends⟩ := h.control.complete hdone
    exact ⟨_, ⟨by rw [hdone.disk], hcontrol, h.sessionDir, h.manifests⟩, hextends⟩
  | other hsession => exact ⟨m, ⟨hsession.trans h.session, h.control, h.sessionDir, h.manifests⟩, Extends.refl m⟩

/-- **Any number of steps.** -/
theorem Stands.run (h : Stands sessionDir disk m) (hdir : IsSessionDir host sessionDir)
    (hrun : Run host sessionDir disk disk') : ∃ n, Stands sessionDir disk' n ∧ Extends m n := by
  induction hrun with
  | refl => exact ⟨m, h, Extends.refl m⟩
  | tail _ hstep ih =>
    obtain ⟨n, hn, hextends⟩ := ih
    obtain ⟨k, hk, hextends'⟩ := hn.step hdir hstep
    exact ⟨k, hk, hextends.trans hextends'⟩

/-! ### The beginning -/

theorem capture_storeDir {sha : Sha256} {ft : FloatText} {store store' : EnvironmentSnapshotStore}
    {source now : PyStr} {tree copied : EnvironmentTree} {c : EnvironmentSnapshotManifest}
    (h : store.capture sha ft source tree copied now = .ok (c, store')) : store'.storeDir = store.storeDir := by
  simp only [EnvironmentSnapshotStore.capture, bind_eq_ok] at h
  obtain ⟨digest, -, snapshotId, -, h⟩ := h
  cases hdirectory : store.directory snapshotId with
  | some d =>
    rw [hdirectory] at h
    simp only [bind_eq_ok, pure_eq_ok, Prod.mk.injEq] at h
    obtain ⟨m, -, _, -, -, rfl⟩ := h
    rfl
  | none =>
    rw [hdirectory] at h
    simp only [bind_eq_ok, pure_eq_ok, Prod.mk.injEq] at h
    obtain ⟨_, -, _, -, _, -, -, rfl⟩ := h
    rfl

/-- **What `initialize` has done** when it returns a session. -/
structure Initialized (host : Host) (sessionDir : PyStr) (g : Initialization) (m : SessionManifest)
    (d : SessionDisk) (c : EnvironmentSnapshotManifest) (seed : EnvironmentManifest) : Prop where
  given : 1 ≤ g.maxIterations ∧ isSha256 g.sampleSha256 ∧ isSha256 g.packedBinarySha256 ∧ isGoalId g.goalId
  capture : g.snapshots.capture host.sha host.ft g.seedPath g.seed g.copied g.now = .ok (c, d.snapshots)
  created : createSeedEnvironmentManifest host g.sampleSha256 c.snapshotId g.now = .ok seed
  saved : ∃ path, (EnvironmentManifestStore.save host.sha host.ft host.iso ⟨[]⟩ seed g.random).1 = .ok path
  seedId : seed.manifestId host.sha host.ft = .ok m.seedEnvironmentManifestId
  session : writeDocument host.ft m.toDict = .ok m.toDict
  manifest : m =
    { sessionId := py "session_" ++ g.random
      sessionDir := sessionDir
      snapshotStore := d.snapshots.storeDir
      seedSnapshotId := c.snapshotId
      environmentManifestStore := sessionDir ++ py "/manifests"
      seedEnvironmentManifestId := m.seedEnvironmentManifestId
      sampleSha256 := g.sampleSha256
      packedBinarySha256 := g.packedBinarySha256
      goalId := g.goalId
      maxIterations := g.maxIterations
      state := .active
      stopReason := none
      iterations := []
      createdAtUtc := g.now
      updatedAtUtc := g.now }
  disk : d =
    { session := m.toDict
      manifests := (EnvironmentManifestStore.save host.sha host.ft host.iso ⟨[]⟩ seed g.random).2
      attempts := ⟨[]⟩
      iterations := []
      observations := []
      artifactManifests := []
      snapshots := d.snapshots }

theorem initializeSession_ok {g : Initialization} (h : initializeSession host sessionDir g = .ok (m, disk)) :
    ∃ c seed, Initialized host sessionDir g m disk c seed := by
  simp only [initializeSession, bind_eq_ok, require_eq_ok, ofStore_eq_ok, passOn_eq_ok, pure_eq_ok,
    Prod.mk.injEq] at h
  obtain ⟨_, hmax, _, hsample, _, hpacked, _, hgoal, ⟨c, snapshots⟩, hcapture, seed, hseed, path, hsaved, seedId,
    hseedId, session, hsession, rfl, rfl⟩ := h
  obtain rfl := writeDocument_self hsession
  exact ⟨c, seed, ⟨hmax, hsample, hpacked, hgoal⟩, hcapture, hseed, ⟨path, hsaved⟩, hseedId, hsession, rfl, rfl⟩

/-- **A new session stands.** -/
theorem Initialized.stands {g : Initialization} {c : EnvironmentSnapshotManifest} {seed : EnvironmentManifest}
    (hdir : IsSessionDir host sessionDir) (h : Initialized host sessionDir g m disk c seed) :
    Stands sessionDir disk m := by
  obtain ⟨hmax, hsample, hpacked, hgoal⟩ := h.given
  have hsession : disk.session = m.toDict := by rw [h.disk]
  have hcreated := h.created
  simp only [createSeedEnvironmentManifest, bind_eq_ok, pure_eq_ok] at hcreated
  obtain ⟨_, hconstruct, hseed⟩ := hcreated
  have htime : g.now ≠ [] := by
    obtain ⟨t, ht⟩ := (EnvironmentManifest.postInit_iff.mp (EnvironmentManifest.construct_iff.mp hconstruct).2).time
    exact ne_nil_of_parseTimestamp ht
  have hstart : manifestStart 0 <+: m.seedEnvironmentManifestId := manifestId_start (hseed ▸ rfl) h.seedId
  refine ⟨hsession, ⟨?_, ?_, ?_, ?_, ?_, none, ?_⟩, ?_, ?_⟩
  · rw [h.manifest]
    refine ⟨?_, ⟨hdir.ne_nil, ?_, ?_⟩, isPrefixOf_of_capture h.capture, List.isPrefixOf_iff_prefix.mpr hstart, hsample,
      hpacked, hgoal, hmax, by simp, by simp, rfl, htime, htime⟩
    · exact List.isPrefixOf_iff_prefix.mpr (List.prefix_append _ _)
    · show disk.snapshots.storeDir ≠ []
      rw [capture_storeDir h.capture]
      exact g.storeDir_ne_nil
    · exact fun hnil => hdir.ne_nil (List.append_eq_nil_iff.mp hnil).1
  all_goals rw [h.manifest]
  · simp
  · simp
  · simp
  · show ((0 : ℕ) : ℤ) ≤ g.maxIterations
    omega
  · exact ⟨rfl, rfl, rfl⟩

/-- **The history of a session**: after any calls, whatever happened to the other files, the session document is
read, it is well formed, and what it says of the past is never taken back. -/
theorem session_history {g : Initialization} {m₀ : SessionManifest} {d₀ d : SessionDisk}
    (hdir : IsSessionDir host sessionDir) (hstart : initializeSession host sessionDir g = .ok (m₀, d₀))
    (hrun : Run host sessionDir d₀ d) :
    ∃ m, load host sessionDir d = .ok m ∧ Control m ∧ Extends m₀ m ∧
      ∀ d', Run host sessionDir d d' → ∃ n, load host sessionDir d' = .ok n ∧ Extends m n := by
  obtain ⟨c, seed, hinitialized⟩ := initializeSession_ok hstart
  obtain ⟨m, hm, hextends⟩ := (hinitialized.stands hdir).run hdir hrun
  refine ⟨m, hm.load hdir, hm.control, hextends, fun d' hrun' => ?_⟩
  obtain ⟨n, hn, hextends'⟩ := hm.run hdir hrun'
  exact ⟨n, hn.load hdir, hextends'⟩

/-! ### An example -/

/-- A tree of one directory. -/
def emptyTree : EnvironmentTree where
  rootMode := 0o755
  rest := []
  checked := by
    intro location e he
    obtain rfl := List.mem_singleton.mp he
    rfl
  sorted := by simp

def exampleHost : Host where
  sha := seedSha
  ft := seedFloat
  iso := isoOne
  display := noDisplay
  builtins := asciiBuiltins
  resolve path := path

def exampleGiven : Initialization where
  snapshots := ⟨py "/snapshots", []⟩
  storeDir_ne_nil := by decide
  seedPath := py "/rootfs"
  seedPath_ne_nil := by decide
  seed := emptyTree
  copied := emptyTree
  sampleSha256 := List.replicate 64 0x30
  packedBinarySha256 := List.replicate 64 0x30
  goalId := py "main"
  maxIterations := 3
  now := py "2026-01-01T00:00:00+00:00"
  random := py "0001"

theorem isSessionDir_example : IsSessionDir exampleHost (py "/session") where
  ne_nil := by decide
  resolve := rfl
  manifests := rfl

theorem isSha256_zeros : isSha256 (List.replicate 64 0x30) := by decide

theorem stagingPath_ne_nil : py "/staging" ≠ [] := by decide

def examplePreparation : Preparation where
  candidate := emptyTree
  candidateFs := .bare 0o755
  fails := fun _ => false
  umask := 0o022
  repaired := emptyTree
  captured := emptyTree
  applicationSha256 := List.replicate 64 0x30
  isSha256_applicationSha256 := isSha256_zeros
  execution := emptyTree
  stagingPath := py "/staging"
  stagingPath_ne_nil := stagingPath_ne_nil
  now := py "2026-01-01T00:00:00+00:00"
  random := py "0002"

theorem exists_of_isSome {ε α β : Type} {x : Except ε α} {f : α → Except ε β}
    (h : (x >>= f).toOption.isSome) : ∃ a b, x = .ok a ∧ f a = .ok b := by
  cases hx : x with
  | error _ =>
    rw [hx] at h
    cases h
  | ok a =>
    rw [hx] at h
    cases hb : f a with
    | error _ =>
      have hfailed : (f a).toOption.isSome := h
      rw [hb] at hfailed
      cases hfailed
    | ok b => exact ⟨a, b, rfl, hb⟩

/-- A session is made, and its first iteration is prepared. -/
theorem example_prepared : ∃ started prepared,
    initializeSession exampleHost (py "/session") exampleGiven = .ok started ∧
      prepareNext exampleHost (py "/session") examplePreparation started.2 = .ok prepared := by
  apply exists_of_isSome
  decide +kernel

/-- The session is read after its first iteration was prepared. -/
theorem session_history_prepared : ∃ started prepared m,
    initializeSession exampleHost (py "/session") exampleGiven = .ok started ∧
      prepareNext exampleHost (py "/session") examplePreparation started.2 = .ok prepared ∧
      load exampleHost (py "/session") prepared.2 = .ok m ∧ Control m ∧ Extends started.1 m := by
  obtain ⟨started, prepared, hstarted, hprepared⟩ := example_prepared
  obtain ⟨m, hload, hcontrol, hextends, -⟩ :=
    session_history isSessionDir_example hstarted (Relation.ReflTransGen.single (.prepare hprepared))
  exact ⟨started, prepared, m, hstarted, hprepared, hload, hcontrol, hextends⟩

end IterationController

end TaintForge
