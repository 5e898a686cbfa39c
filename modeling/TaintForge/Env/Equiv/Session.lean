import TaintForge.Env.Equiv.AttemptStore
import TaintForge.Env.Session

/-!
# The documents of a session are read back

* `IterationRecord.Valid`, `SessionManifest.Valid`: what the loader accepts.
* `SessionManifest.fromDict_toDict_iff`: exactly such a manifest is read back as it was written.
* `IterationRecord.sameAs_self`: the record of an iteration is the one in the session.
-/

namespace TaintForge

/-! ### Reading fields -/

section Fields

variable {message label start : PyStr} {j : Json} {s : PyStr}

theorem requireObject_iff {fields : List (PyStr × Json)} :
    IterationRecord.requireObject message j = .ok fields ↔ j = .obj fields := by
  cases j <;> simp [IterationRecord.requireObject]

theorem boundedInt_iff {bound n : ℤ} : boundedInt bound message j = .ok n ↔ j = .int n ∧ bound ≤ n := by
  cases j <;> simp only [boundedInt, reduceCtorEq, false_and, Json.int.injEq]
  split
  · rename_i k hlt
    constructor
    · intro h
      cases h
    · rintro ⟨rfl, hle⟩
      omega
  · rename_i k hle
    constructor
    · intro h
      cases h
      exact ⟨rfl, by omega⟩
    · rintro ⟨rfl, -⟩
      rfl

theorem prefixedString_iff :
    prefixedString start message j = .ok s ↔ j = .str s ∧ start.isPrefixOf s := by
  cases j <;> simp only [prefixedString, reduceCtorEq, false_and, Json.str.injEq]
  split
  · rename_i hstart
    constructor
    · intro h
      cases h
      exact ⟨rfl, hstart⟩
    · rintro ⟨rfl, -⟩
      rfl
  · rename_i hstart
    constructor
    · intro h
      cases h
    · rintro ⟨rfl, h⟩
      exact absurd h hstart

theorem nonemptyString_iff : nonemptyString message j = .ok s ↔ j = .str s ∧ s ≠ [] := by
  cases j <;> simp only [nonemptyString, reduceCtorEq, false_and, Json.str.injEq]
  split
  · rename_i hnil
    constructor
    · intro h
      cases h
    · rintro ⟨rfl, h⟩
      exact absurd hnil h
  · rename_i hne
    constructor
    · intro h
      cases h
      exact ⟨rfl, hne⟩
    · rintro ⟨rfl, -⟩
      rfl

theorem requireSha256_iff : requireSha256 label j = .ok s ↔ j = .str s ∧ isSha256 s := by
  cases j <;> simp only [requireSha256, reduceCtorEq, false_and, Json.str.injEq]
  split
  · rename_i hsha
    constructor
    · intro h
      cases h
      exact ⟨rfl, hsha⟩
    · rintro ⟨rfl, -⟩
      rfl
  · rename_i hsha
    constructor
    · intro h
      cases h
    · rintro ⟨rfl, h⟩
      exact absurd h hsha

theorem requireGoalId_iff : requireGoalId j = .ok s ↔ j = .str s ∧ isGoalId s := by
  cases j <;> simp only [requireGoalId, reduceCtorEq, false_and, Json.str.injEq]
  split
  · rename_i hgoal
    constructor
    · intro h
      cases h
      exact ⟨rfl, hgoal⟩
    · rintro ⟨rfl, -⟩
      rfl
  · rename_i hgoal
    constructor
    · intro h
      cases h
    · rintro ⟨rfl, h⟩
      exact absurd h hgoal

/-- A path that stays in the directory of the session. -/
def RelativePath (path : PyStr) : Prop :=
  (purePosixPath path).root = [] ∧ (purePosixPath path).parts ≠ [] ∧ py ".." ∉ (purePosixPath path).parts

theorem validateRelativePath_iff {u : Unit} : validateRelativePath s label = .ok u ↔ RelativePath s :=
  ensure_eq_ok

theorem validateOptionalPath_iff {value : Option PyStr} {u : Unit} :
    IterationRecord.validateOptionalPath label value = .ok u ↔ ∀ path ∈ value, RelativePath path := by
  cases value with
  | none => simp [IterationRecord.validateOptionalPath]
  | some path =>
    rw [IterationRecord.validateOptionalPath, validateRelativePath_iff]
    simp

theorem optionalString_nullable {value : Option PyStr} :
    Session.optionalString (nullable .str value) = value ↔ value ≠ some [] := by
  cases value with
  | none => simp [nullable, Session.optionalString]
  | some s =>
    by_cases hnil : s = []
    · simp [nullable, Session.optionalString, hnil]
    · simp [nullable, Session.optionalString, hnil]

theorem optionalSnapshotId_nullable {value : Option PyStr} :
    IterationRecord.optionalSnapshotId (nullable .str value) = .ok value ↔
      ∀ s ∈ value, (py "env_").isPrefixOf s := by
  cases value with
  | none => simp [nullable, IterationRecord.optionalSnapshotId]
  | some s =>
    show (prefixedString (py "env_") _ (.str s)).map some = _ ↔ _
    rw [prefixedString]
    by_cases hstart : (py "env_").isPrefixOf s
    · rw [if_pos hstart]
      simpa [Except.map] using List.isPrefixOf_iff_prefix.mp hstart
    · rw [if_neg hstart]
      simpa [Except.map] using fun h => hstart (List.isPrefixOf_iff_prefix.mpr h)

theorem optionalObject_nullable (value : Option (List (PyStr × Json))) :
    IterationRecord.optionalObject (nullable .obj value) = .ok value := by
  cases value <;> rfl

theorem textOrUnknown_str {builtins : PyBuiltins} : textOrUnknown builtins (.str s) = s ↔ s ≠ [] := by
  by_cases hnil : s = []
  · subst hnil
    simp [textOrUnknown, Json.truthy, py]
  · simp [textOrUnknown, Json.truthy, PyBuiltins.strOf, hnil]

theorem isNumber_int {n m : ℤ} : isNumber n (.int m) = true ↔ m = n := by
  simp [isNumber]

end Fields

theorem IterationState.enumerates : Enumerates IterationState.members IterationState.value := by
  intro s
  cases s <;> rfl

theorem SessionState.enumerates : Enumerates SessionState.members SessionState.value := by
  intro s
  cases s <;> rfl

/-! ### Records -/

namespace IterationRecord

/-- What the loader accepts. -/
structure Valid (r : IterationRecord) : Prop where
  index : 0 ≤ r.index
  directory : r.directory ≠ [] ∧ RelativePath r.directory
  environmentSnapshotId : (py "env_").isPrefixOf r.environmentSnapshotId
  parentSnapshotId : ∀ s ∈ r.parentSnapshotId, (py "env_").isPrefixOf s
  environmentManifestId : (py "manifest-v").isPrefixOf r.environmentManifestId
  environmentManifestVersion : 0 ≤ r.environmentManifestVersion
  attemptId : (py "attempt-").isPrefixOf r.attemptId
  attemptContract : r.attemptContract ≠ [] ∧ RelativePath r.attemptContract
  paths : ∀ path ∈ [r.repairApplication, r.observation, r.artifactManifest, r.attemptResult],
    path ≠ some [] ∧ ∀ s ∈ path, RelativePath s
  stopReason : r.stopReason ≠ some []

/-- The fields of a record. -/
def fields (r : IterationRecord) : List (PyStr × Json) :=
  [(py "index", .int r.index), (py "state", .str r.state.value), (py "directory", .str r.directory),
    (py "environment_snapshot_id", .str r.environmentSnapshotId),
    (py "parent_snapshot_id", nullable .str r.parentSnapshotId),
    (py "environment_manifest_id", .str r.environmentManifestId),
    (py "environment_manifest_version", .int r.environmentManifestVersion),
    (py "attempt_id", .str r.attemptId), (py "attempt_contract", .str r.attemptContract),
    (py "repair_application", nullable .str r.repairApplication),
    (py "observation", nullable .str r.observation),
    (py "artifact_manifest", nullable .str r.artifactManifest),
    (py "attempt_result", nullable .str r.attemptResult), (py "progress", nullable .obj r.progress),
    (py "stop_reason", nullable .str r.stopReason)]

def keys : List PyStr :=
  [py "index", py "state", py "directory", py "environment_snapshot_id", py "parent_snapshot_id",
    py "environment_manifest_id", py "environment_manifest_version", py "attempt_id", py "attempt_contract",
    py "repair_application", py "observation", py "artifact_manifest", py "attempt_result", py "progress",
    py "stop_reason"]

theorem fields_nodup (r : IterationRecord) : (r.fields.map Prod.fst).Nodup := by
  show keys.Nodup
  decide

theorem field_fields {r : IterationRecord} {key : PyStr} {x : Json} (h : (key, x) ∈ r.fields) :
    field key r.fields = x := field_of_mem r.fields_nodup h

/-- **A record is read back exactly when it is valid.** -/
theorem fromDict_toDict_iff {r : IterationRecord} : fromDict r.toDict = .ok r ↔ r.Valid := by
  have hindex : field (py "index") r.fields = .int r.index := field_fields (by simp [fields])
  have hstate : field (py "state") r.fields = .str r.state.value := field_fields (by simp [fields])
  have hdirectory : field (py "directory") r.fields = .str r.directory := field_fields (by simp [fields])
  have hsnapshot : field (py "environment_snapshot_id") r.fields = .str r.environmentSnapshotId :=
    field_fields (by simp [fields])
  have hparent : field (py "parent_snapshot_id") r.fields = nullable .str r.parentSnapshotId :=
    field_fields (by simp [fields])
  have hmanifest : field (py "environment_manifest_id") r.fields = .str r.environmentManifestId :=
    field_fields (by simp [fields])
  have hversion : field (py "environment_manifest_version") r.fields = .int r.environmentManifestVersion :=
    field_fields (by simp [fields])
  have hattempt : field (py "attempt_id") r.fields = .str r.attemptId := field_fields (by simp [fields])
  have hcontract : field (py "attempt_contract") r.fields = .str r.attemptContract :=
    field_fields (by simp [fields])
  have hrepair : field (py "repair_application") r.fields = nullable .str r.repairApplication :=
    field_fields (by simp [fields])
  have hobservation : field (py "observation") r.fields = nullable .str r.observation :=
    field_fields (by simp [fields])
  have hartifact : field (py "artifact_manifest") r.fields = nullable .str r.artifactManifest :=
    field_fields (by simp [fields])
  have hresult : field (py "attempt_result") r.fields = nullable .str r.attemptResult :=
    field_fields (by simp [fields])
  have hprogress : field (py "progress") r.fields = nullable .obj r.progress := field_fields (by simp [fields])
  have hstop : field (py "stop_reason") r.fields = nullable .str r.stopReason := field_fields (by simp [fields])
  show fromDict (.obj r.fields) = .ok r ↔ r.Valid
  simp only [fromDict, bind_eq_ok, requireObject_iff, Json.obj.injEq, exists_eq_left', hindex, hstate, hdirectory,
    hsnapshot, hparent, hmanifest, hversion, hattempt, hcontract, hrepair, hobservation, hartifact, hresult, hprogress,
    hstop, boundedInt_iff, enumOf_iff IterationState.enumerates, nonemptyString_iff, prefixedString_iff, validateRelativePath_iff,
    validateOptionalPath_iff, optionalObject_nullable, Json.int.injEq, Json.str.injEq, pure_eq_ok]
  constructor
  · rintro ⟨_, ⟨rfl, h1⟩, state, -, _, ⟨rfl, h2⟩, _, ⟨rfl, h3⟩, parent, h4, _, ⟨rfl, h5⟩, _, ⟨rfl, h6⟩, _, ⟨rfl, h7⟩,
      _, ⟨rfl, h8⟩, _, h9, _, h10, _, h11, _, h12, _, h13, _, h14, _, -, heq⟩
    have hparent' : parent = r.parentSnapshotId := congrArg parentSnapshotId heq
    have hrepair' : Session.optionalString (nullable .str r.repairApplication) = r.repairApplication :=
      congrArg repairApplication heq
    have hobservation' : Session.optionalString (nullable .str r.observation) = r.observation :=
      congrArg observation heq
    have hartifact' : Session.optionalString (nullable .str r.artifactManifest) = r.artifactManifest :=
      congrArg artifactManifest heq
    have hresult' : Session.optionalString (nullable .str r.attemptResult) = r.attemptResult :=
      congrArg attemptResult heq
    have hstop' : Session.optionalString (nullable .str r.stopReason) = r.stopReason := congrArg stopReason heq
    subst hparent'
    rw [hrepair'] at h11
    rw [hobservation'] at h12
    rw [hartifact'] at h13
    rw [hresult'] at h14
    refine ⟨h1, ⟨h2, h9⟩, h3, optionalSnapshotId_nullable.mp h4, h5, h6, h7, ⟨h8, h10⟩, ?_,
      optionalString_nullable.mp hstop'⟩
    simp only [List.forall_mem_cons, List.not_mem_nil, IsEmpty.forall_iff, implies_true, and_true]
    exact ⟨⟨optionalString_nullable.mp hrepair', h11⟩, ⟨optionalString_nullable.mp hobservation', h12⟩,
      ⟨optionalString_nullable.mp hartifact', h13⟩, optionalString_nullable.mp hresult', h14⟩
  · intro h
    have hpaths := h.paths
    simp only [List.forall_mem_cons, List.not_mem_nil, IsEmpty.forall_iff, implies_true, and_true] at hpaths
    obtain ⟨⟨n1, p1⟩, ⟨n2, p2⟩, ⟨n3, p3⟩, n4, p4⟩ := hpaths
    rw [optionalString_nullable.mpr n1, optionalString_nullable.mpr n2, optionalString_nullable.mpr n3,
      optionalString_nullable.mpr n4, optionalString_nullable.mpr h.stopReason,
      optionalSnapshotId_nullable.mpr h.parentSnapshotId]
    exact ⟨_, ⟨rfl, h.index⟩, r.state, rfl, _, ⟨rfl, h.directory.1⟩, _, ⟨rfl, h.environmentSnapshotId⟩, _, rfl, _,
      ⟨rfl, h.environmentManifestId⟩, _, ⟨rfl, h.environmentManifestVersion⟩, _, ⟨rfl, h.attemptId⟩, _,
      ⟨rfl, h.attemptContract.1⟩, (), h.directory.2, (), h.attemptContract.2, (), p1, (), p2, (), p3, (), p4, _, rfl,
      rfl⟩

/-- The progress of a record can be read back from a text. -/
def PlainProgress (r : IterationRecord) : Prop := ∀ f ∈ r.progress, Plain (.obj f)

theorem plain {r : IterationRecord} (h : r.PlainProgress) : Plain r.toDict := by
  have hprogress : Plain (nullable .obj r.progress) := by
    cases hvalue : r.progress with
    | none => exact plain_null
    | some f => exact h f hvalue
  apply plain_obj r.fields_nodup
  simp [fields, hprogress]

/-- **A record that can be written equals itself.** -/
theorem sameAs_self {r : IterationRecord} (h : r.PlainProgress) (hwritable : Writable r.toDict) :
    r.sameAs r = true := by
  have hprogress : sameProgress r.progress r.progress = true := by
    cases hvalue : r.progress with
    | none => rfl
    | some f =>
      have hf := (writable_obj _).mp hwritable (py "progress", nullable .obj r.progress) (by simp)
      rw [hvalue] at hf
      exact Json.eq_self (h f hvalue hf.2.1)
  rw [sameAs, hprogress, Bool.and_true]
  simp

end IterationRecord

/-! ### Sessions -/

namespace SessionManifest

/-- What the loader accepts. -/
structure Valid (m : SessionManifest) : Prop where
  sessionId : (py "session_").isPrefixOf m.sessionId
  directories : m.sessionDir ≠ [] ∧ m.snapshotStore ≠ [] ∧ m.environmentManifestStore ≠ []
  seedSnapshotId : (py "env_").isPrefixOf m.seedSnapshotId
  seedEnvironmentManifestId : (py "manifest-v0000-").isPrefixOf m.seedEnvironmentManifestId
  sampleSha256 : isSha256 m.sampleSha256
  packedBinarySha256 : isSha256 m.packedBinarySha256
  goalId : isGoalId m.goalId
  maxIterations : 1 ≤ m.maxIterations
  stopReason : m.stopReason ≠ some []
  records : ∀ r ∈ m.iterations, r.Valid
  indexes : m.iterations.map IterationRecord.index = (List.range m.iterations.length).map Int.ofNat
  times : m.createdAtUtc ≠ [] ∧ m.updatedAtUtc ≠ []

/-- The fields of a manifest. -/
def fields (m : SessionManifest) : List (PyStr × Json) :=
  [(py "schema_version", .int 2), (py "controller_version", .int 2), (py "session_id", .str m.sessionId),
    (py "created_at_utc", .str m.createdAtUtc), (py "updated_at_utc", .str m.updatedAtUtc),
    (py "session_dir", .str m.sessionDir), (py "snapshot_store", .str m.snapshotStore),
    (py "seed_snapshot_id", .str m.seedSnapshotId),
    (py "environment_manifest_store", .str m.environmentManifestStore),
    (py "seed_environment_manifest_id", .str m.seedEnvironmentManifestId),
    (py "sample_sha256", .str m.sampleSha256), (py "packed_binary_sha256", .str m.packedBinarySha256),
    (py "goal_id", .str m.goalId), (py "max_iterations", .int m.maxIterations),
    (py "state", .str m.state.value), (py "stop_reason", nullable .str m.stopReason),
    (py "iterations", .arr (m.iterations.map IterationRecord.toDict))]

def keys : List PyStr :=
  [py "schema_version", py "controller_version", py "session_id", py "created_at_utc", py "updated_at_utc",
    py "session_dir", py "snapshot_store", py "seed_snapshot_id", py "environment_manifest_store",
    py "seed_environment_manifest_id", py "sample_sha256", py "packed_binary_sha256", py "goal_id",
    py "max_iterations", py "state", py "stop_reason", py "iterations"]

theorem fields_nodup (m : SessionManifest) : (m.fields.map Prod.fst).Nodup := by
  show keys.Nodup
  decide

theorem field_fields {m : SessionManifest} {key : PyStr} {x : Json} (h : (key, x) ∈ m.fields) :
    field key m.fields = x := field_of_mem m.fields_nodup h

theorem mapOk_fromDict_iff {records : List IterationRecord} :
    mapOk IterationRecord.fromDict (records.map IterationRecord.toDict) = .ok records ↔ ∀ r ∈ records, r.Valid := by
  rw [mapOk_ok, List.forall₂_map_left_iff, List.forall₂_same]
  simp only [IterationRecord.fromDict_toDict_iff]

/-- **A manifest is read back exactly when it is valid.** -/
theorem fromDict_toDict_iff {builtins : PyBuiltins} {m : SessionManifest} :
    fromDict builtins m.toDict = .ok m ↔ m.Valid := by
  have hschema : field (py "schema_version") m.fields = .int 2 := field_fields (by simp [fields])
  have hcontroller : field (py "controller_version") m.fields = .int 2 := field_fields (by simp [fields])
  have hid : field (py "session_id") m.fields = .str m.sessionId := field_fields (by simp [fields])
  have hcreated : field (py "created_at_utc") m.fields = .str m.createdAtUtc := field_fields (by simp [fields])
  have hupdated : field (py "updated_at_utc") m.fields = .str m.updatedAtUtc := field_fields (by simp [fields])
  have hdir : field (py "session_dir") m.fields = .str m.sessionDir := field_fields (by simp [fields])
  have hstore : field (py "snapshot_store") m.fields = .str m.snapshotStore := field_fields (by simp [fields])
  have hseed : field (py "seed_snapshot_id") m.fields = .str m.seedSnapshotId := field_fields (by simp [fields])
  have hmanifests : field (py "environment_manifest_store") m.fields = .str m.environmentManifestStore :=
    field_fields (by simp [fields])
  have hseedManifest : field (py "seed_environment_manifest_id") m.fields = .str m.seedEnvironmentManifestId :=
    field_fields (by simp [fields])
  have hsample : field (py "sample_sha256") m.fields = .str m.sampleSha256 := field_fields (by simp [fields])
  have hpacked : field (py "packed_binary_sha256") m.fields = .str m.packedBinarySha256 :=
    field_fields (by simp [fields])
  have hgoal : field (py "goal_id") m.fields = .str m.goalId := field_fields (by simp [fields])
  have hmax : field (py "max_iterations") m.fields = .int m.maxIterations := field_fields (by simp [fields])
  have hstate : field (py "state") m.fields = .str m.state.value := field_fields (by simp [fields])
  have hstop : field (py "stop_reason") m.fields = nullable .str m.stopReason := field_fields (by simp [fields])
  have hiterations : fieldOr (py "iterations") (.arr []) m.fields =
      .arr (m.iterations.map IterationRecord.toDict) := by
    rw [fieldOr, Json.lookup_eq_some_of_mem m.fields_nodup
      (by simp [fields] : (py "iterations", Json.arr (m.iterations.map IterationRecord.toDict)) ∈ m.fields)]
    rfl
  show fromDict builtins (.obj m.fields) = .ok m ↔ m.Valid
  simp only [fromDict, bind_eq_ok, requireObject_iff, Json.obj.injEq, exists_eq_left', hschema, hcontroller, hid,
    hcreated, hupdated, hdir, hstore, hseed, hmanifests, hseedManifest, hsample, hpacked, hgoal, hmax, hstate, hstop,
    hiterations, ensure_eq_ok, isNumber_int, boundedInt_iff, enumOf_iff SessionState.enumerates, nonemptyString_iff,
    prefixedString_iff, requireSha256_iff, requireGoalId_iff, requireList_iff, Json.int.injEq, Json.str.injEq,
    Json.arr.injEq, pure_eq_ok]
  constructor
  · rintro ⟨_, -, _, ⟨rfl, h1⟩, _, ⟨rfl, h2⟩, _, ⟨rfl, h3⟩, _, ⟨rfl, h4⟩, _, ⟨rfl, h5⟩, _, ⟨rfl, h6⟩, _, ⟨rfl, h7⟩, _,
      ⟨rfl, h8⟩, _, ⟨rfl, h9⟩, _, ⟨rfl, h10⟩, state, -, records, hrecords, _, hindexes, heq⟩
    have hrecords' : records = m.iterations := congrArg iterations heq
    have hstop' : Session.optionalString (nullable .str m.stopReason) = m.stopReason := congrArg stopReason heq
    have hcreated' : textOrUnknown builtins (.str m.createdAtUtc) = m.createdAtUtc := congrArg createdAtUtc heq
    have hupdated' : textOrUnknown builtins (.str m.updatedAtUtc) = m.updatedAtUtc := congrArg updatedAtUtc heq
    subst hrecords'
    exact ⟨h1, ⟨h2, h3, h4⟩, h5, h6, h7, h8, h9, h10, optionalString_nullable.mp hstop',
      mapOk_fromDict_iff.mp hrecords, hindexes, textOrUnknown_str.mp hcreated', textOrUnknown_str.mp hupdated'⟩
  · intro h
    rw [optionalString_nullable.mpr h.stopReason, textOrUnknown_str.mpr h.times.1, textOrUnknown_str.mpr h.times.2]
    exact ⟨(), ⟨trivial, trivial⟩, _, ⟨rfl, h.sessionId⟩, _, ⟨rfl, h.directories.1⟩, _, ⟨rfl, h.directories.2.1⟩, _,
      ⟨rfl, h.directories.2.2⟩, _, ⟨rfl, h.seedSnapshotId⟩, _, ⟨rfl, h.seedEnvironmentManifestId⟩, _,
      ⟨rfl, h.sampleSha256⟩, _, ⟨rfl, h.packedBinarySha256⟩, _, ⟨rfl, h.goalId⟩, _, ⟨rfl, h.maxIterations⟩, _, rfl, _,
      mapOk_fromDict_iff.mpr h.records, (), h.indexes, rfl⟩

end SessionManifest

end TaintForge
