import TaintForge.Env.Equiv.Documents

/-!
# Contracts and results are read back

* `AttemptContract.reload_iff`, `AttemptResult.reload_iff`: which of them are read back as they were.
* `AttemptContract.tamperEvident`, `AttemptResult.tamperEvident`: their digests.
-/

namespace TaintForge

/-! ### Contracts -/

section Contract

variable {sha : Sha256} {ft : FloatText} {iso : IsoFormat} {c d : AttemptContract}

theorem RunPurpose.enumerates : Enumerates RunPurpose.members RunPurpose.value := by
  intro p
  cases p <;> rfl

theorem ExecutionStage.enumerates : Enumerates ExecutionStage.members ExecutionStage.value := by
  intro s
  cases s <;> rfl

def AttemptContract.integers (c : AttemptContract) : List PyInt :=
  [c.schemaVersion, c.contractVersion, c.attemptIndex, c.environmentManifestVersion]

def AttemptContract.texts (c : AttemptContract) : List PyStr :=
  [c.attemptId, c.sampleSha256, c.packedBinarySha256, c.environmentManifestId, c.goalId, c.createdAtUtc]

/-- The integers of a contract are not booleans and not too large, and its strings can be encoded. -/
def AttemptContract.Storable (c : AttemptContract) : Prop :=
  (∀ n ∈ c.integers, n.Storable) ∧ ∀ s ∈ c.texts, PyStr.encodable s

/-- What the loader asks of a contract beyond the checks of its constructor. -/
def AttemptContract.Readable (c : AttemptContract) : Prop :=
  (∀ n ∈ c.integers, n.IsInt) ∧ ∀ s ∈ c.texts, s ≠ []

def AttemptContract.schema : List (PyStr × (Json → Json)) :=
  [(py "schema_version", id), (py "contract_version", id), (py "attempt_id", id),
    (py "attempt_index", id), (py "purpose", id), (py "sample_sha256", id),
    (py "packed_binary_sha256", id), (py "environment_manifest_id", id),
    (py "environment_manifest_version", id), (py "goal_id", id), (py "initial_stage", id)]

theorem AttemptContract.identity_nodup (c : AttemptContract) : (c.identityDict.map Prod.fst).Nodup := by
  show (schema.map Prod.fst).Nodup
  decide

theorem AttemptContract.plain (c : AttemptContract) : Plain (.obj c.identityDict) :=
  plain_obj c.identity_nodup (by simp [identityDict])

theorem AttemptContract.writable_iff :
    Writable (.obj c.identityDict) ↔ (∀ n ∈ c.integers, Writable n.toJson) ∧
      ∀ s ∈ c.texts.dropLast, PyStr.encodable s := by
  have hpurpose : c.purpose.value.encodable := by cases c.purpose <;> exact PyStr.encodable_py _
  have hstage : c.initialStage.value.encodable := by cases c.initialStage <;> exact PyStr.encodable_py _
  simp only [identityDict, integers, texts, writable_obj, writable_str, List.forall_mem_cons,
    List.dropLast, hpurpose, hstage, PyStr.encodable_py, true_and, List.not_mem_nil,
    IsEmpty.forall_iff, implies_true, and_true]
  tauto

theorem AttemptContract.postInit_texts (h : c.postInit iso = .ok ()) : ∀ s ∈ c.texts, s ≠ [] := by
  simp only [postInit, bind_eq_ok, ensure_eq_ok, validateSha256_eq_ok] at h
  obtain ⟨_, -, _, -, _, hid, _, -, _, hsample, _, hpacked, _, hmanifest, _, -, _, hgoal, t, htime, -⟩ := h
  simp only [texts, List.forall_mem_cons, List.not_mem_nil, IsEmpty.forall_iff, implies_true, and_true]
  exact ⟨ne_nil_of_matchesName hid, ne_nil_of_isSha256 hsample, ne_nil_of_isSha256 hpacked,
    ne_nil_of_matchesName hmanifest, ne_nil_of_matchesName hgoal, ne_nil_of_parseTimestamp htime⟩

theorem AttemptContract.read_iff {value : List (PyStr × Json)} : read value = .ok c ↔
    projectObject schema (.obj value) = .obj c.identityDict ∧
      field (py "created_at_utc") value = .str c.createdAtUtc ∧ c.Readable := by
  simp only [read, bind_eq_ok, pure_eq_ok, requireInt_iff, requireString_iff,
    enumOf_iff RunPurpose.enumerates, enumOf_iff ExecutionStage.enumerates]
  simp only [projectObject, schema, List.map, id, identityDict, Json.obj.injEq, List.cons.injEq,
    Prod.mk.injEq, true_and, and_true, Readable, integers, texts, List.forall_mem_cons, List.not_mem_nil,
    IsEmpty.forall_iff, implies_true]
  constructor
  · rintro ⟨_, ⟨h1, i1⟩, _, ⟨h2, i2⟩, _, ⟨h3, s3⟩, _, ⟨h4, i4⟩, _, h5, _, ⟨h6, s6⟩, _, ⟨h7, s7⟩, _,
      ⟨h8, s8⟩, _, ⟨h9, i9⟩, _, ⟨h10, s10⟩, _, h11, _, ⟨h12, s12⟩, rfl⟩
    exact ⟨⟨h1, h2, h3, h4, h5, h6, h7, h8, h9, h10, h11⟩, h12, ⟨i1, i2, i4, i9⟩, s3, s6, s7, s8, s10, s12⟩
  · rintro ⟨⟨h1, h2, h3, h4, h5, h6, h7, h8, h9, h10, h11⟩, h12, ⟨i1, i2, i4, i9⟩, s3, s6, s7, s8, s10,
      s12⟩
    exact ⟨_, ⟨h1, i1⟩, _, ⟨h2, i2⟩, _, ⟨h3, s3⟩, _, ⟨h4, i4⟩, _, h5, _, ⟨h6, s6⟩, _, ⟨h7, s7⟩, _,
      ⟨h8, s8⟩, _, ⟨h9, i9⟩, _, ⟨h10, s10⟩, _, h11, _, ⟨h12, s12⟩, rfl⟩

/-- The fields of a written contract. -/
def AttemptContract.fields (c : AttemptContract) (digest : PyStr) : List (PyStr × Json) :=
  c.identityDict ++ [(py "created_at_utc", .str c.createdAtUtc), (py "contract_sha256", .str digest)]

theorem AttemptContract.fields_nodup (digest : PyStr) : ((c.fields digest).map Prod.fst).Nodup := by
  show (schema.map Prod.fst ++ [py "created_at_utc", py "contract_sha256"]).Nodup
  decide

theorem AttemptContract.fromDict_iff {j : Json} : fromDict sha ft iso j = .ok c ↔
    ∃ value, j = .obj value ∧ read value = .ok c ∧ c.postInit iso = .ok () ∧
      ∃ digest, field (py "contract_sha256") value = .str digest ∧
        c.contractSha256 sha ft = .ok digest := by
  simp only [fromDict, bind_eq_ok, pure_eq_ok, requireDict_iff, requireString_iff, validateSha256_eq_ok,
    ensure_eq_ok]
  constructor
  · rintro ⟨value, hvalue, c', hread, _, hinit, digest, ⟨hfield, -⟩, -, -, _, hsha, -, rfl, rfl⟩
    exact ⟨value, hvalue, hread, hinit, digest, hfield, hsha⟩
  · rintro ⟨value, hvalue, hread, hinit, digest, hfield, hsha⟩
    have hdigest := isSha256_of_canonicalSha256 hsha
    exact ⟨value, hvalue, c, hread, (), hinit, digest, ⟨hfield, ne_nil_of_isSha256 hdigest⟩, (), hdigest,
      digest, hsha, (), rfl, rfl⟩

theorem AttemptContract.writable_fields {digest : PyStr} (hdigest : isSha256 digest) :
    Writable (.obj (c.fields digest)) ↔ (∀ n ∈ c.integers, Writable n.toJson) ∧
      ∀ s ∈ c.texts, PyStr.encodable s := by
  have henc := encodable_of_isSha256 hdigest
  have htexts : c.texts = c.texts.dropLast ++ [c.createdAtUtc] := rfl
  rw [fields, writable_append, writable_iff, htexts, List.forall_mem_append, List.forall_mem_singleton,
    and_assoc]
  simp [henc]

theorem AttemptContract.toDict_iff {j : Json} : c.toDict sha ft = .ok j ↔
    ∃ digest, c.contractSha256 sha ft = .ok digest ∧ j = .obj (c.fields digest) := by
  simp only [toDict, bind_eq_ok, pure_eq_ok]
  exact exists_congr fun digest => and_congr_right fun _ => eq_comm

theorem AttemptContract.fromDict_fields (hinit : c.postInit iso = .ok ())
    (hints : ∀ n ∈ c.integers, n.IsInt) {digest : PyStr}
    (hsha : c.contractSha256 sha ft = .ok digest) :
    fromDict sha ft iso (.obj (c.fields digest)) = .ok c := by
  apply fromDict_iff.mpr
  refine ⟨_, rfl, read_iff.mpr ⟨?_, ?_, hints, postInit_texts hinit⟩, hinit, digest, ?_, hsha⟩
  · apply projectObject_append (c.fields_nodup digest)
    simp [schema, identityDict]
  · exact field_of_mem (c.fields_nodup digest) (by simp [fields])
  · exact field_of_mem (c.fields_nodup digest) (by simp [fields])

/-- **A contract is read back exactly when it is storable.** -/
theorem AttemptContract.reload_iff (hinit : c.postInit iso = .ok ()) :
    (contractDocument sha ft iso).reload ft c = .ok c ↔ c.Storable := by
  apply Document.reload_iff
  · intro j hdict
    obtain ⟨digest, hsha, rfl⟩ := toDict_iff.mp hdict
    refine ⟨plain_obj (c.fields_nodup digest) (by simp [fields, identityDict]), ?_⟩
    intro hwritable hfrom
    obtain ⟨hints, htexts⟩ := (writable_fields (isSha256_of_canonicalSha256 hsha)).mp hwritable
    obtain ⟨value, -, hread, -⟩ := fromDict_iff.mp hfrom
    obtain ⟨hint, -⟩ := (read_iff.mp hread).2.2
    exact ⟨fun n hn => PyInt.storable_iff.mpr ⟨hint n hn, hints n hn⟩, htexts⟩
  · rintro ⟨hints, htexts⟩
    have hwrite : ∀ n ∈ c.integers, Writable n.toJson := fun n hn => (PyInt.storable_iff.mp (hints n hn)).2
    have hint : ∀ n ∈ c.integers, n.IsInt := fun n hn => (PyInt.storable_iff.mp (hints n hn)).1
    have hidentity : Writable (.obj c.identityDict) :=
      writable_iff.mpr ⟨hwrite, fun s hs => htexts s (List.mem_of_mem_dropLast hs)⟩
    have hsha : c.contractSha256 sha ft = .ok _ := (canonicalSha256_eq_ok c.plain).mpr ⟨hidentity, rfl⟩
    refine ⟨_, toDict_iff.mpr ⟨_, hsha, rfl⟩, ?_, fromDict_fields hinit hint hsha⟩
    exact (writable_fields (isSha256_of_canonicalSha256 hsha)).mpr ⟨hwrite, htexts⟩

theorem AttemptContract.tamperEvident : (contractDocument sha ft iso).TamperEvident sha ft
    (py "contract_sha256") (projectObject schema) := by
  have hread : ∀ raw v, fromDict sha ft iso raw = .ok v →
      projectObject schema raw = .obj v.identityDict := by
    intro raw v h
    obtain ⟨value, rfl, hread, -⟩ := fromDict_iff.mp h
    exact (read_iff.mp hread).1
  apply Document.tamperEvident (fun v j => j = .obj v.identityDict) hread
  · rintro v - rfl
    exact v.plain
  · rintro v v' - - rfl rfl
    exact sameKeys_obj v.identity_nodup (by simp [identityDict])
  · intro raw v h
    obtain ⟨value, rfl, -, -, digest, hfield, hsha⟩ := fromDict_iff.mp h
    rw [hread _ v h]
    exact ⟨digest, hfield, hsha⟩

end Contract

/-! ### The parts of a result -/

section Parts

variable {iso : IsoFormat}

theorem AttemptOutcome.enumerates : Enumerates AttemptOutcome.members AttemptOutcome.value := by
  intro o
  cases o <;> rfl

@[simp] theorem ExecutionStage.encodable_value (s : ExecutionStage) : PyStr.encodable s.value := by
  cases s <;> exact PyStr.encodable_py _

@[simp] theorem AttemptOutcome.encodable_value (o : AttemptOutcome) : PyStr.encodable o.value := by
  cases o <;> exact PyStr.encodable_py _

def StageTransition.schema : List (PyStr × (Json → Json)) :=
  [(py "sequence", id), (py "from_stage", id), (py "to_stage", id), (py "reason", id),
    (py "evidence_event_id", id), (py "timestamp_utc", id)]

theorem StageTransition.schema_nodup : (schema.map Prod.fst).Nodup := by
  decide

/-- The sequence number of a transition is not a boolean and not too large, and its strings can be
encoded. -/
def StageTransition.Storable (t : StageTransition) : Prop :=
  t.sequence.Storable ∧ ∀ s ∈ [t.reason, t.evidenceEventId, t.timestampUtc], PyStr.encodable s

theorem StageTransition.plain (t : StageTransition) : Plain t.toDict :=
  plain_obj schema_nodup (by simp)

theorem StageTransition.sameKeys (t u : StageTransition) : SameKeys t.toDict u.toDict :=
  sameKeys_obj schema_nodup (by simp)

theorem StageTransition.storable_iff {t : StageTransition} :
    t.Storable ↔ t.sequence.IsInt ∧ Writable t.toDict := by
  simp only [Storable, PyInt.storable_iff, toDict, writable_obj, List.forall_mem_cons, PyStr.encodable_py,
    writable_str, ExecutionStage.encodable_value, true_and, List.not_mem_nil, IsEmpty.forall_iff,
    implies_true, and_true, and_assoc, PyInt.IsInt]

theorem StageTransition.fromDict_iff {j : Json} {t : StageTransition} : fromDict iso j = .ok t ↔
    projectObject schema j = t.toDict ∧ t.postInit iso = .ok () ∧ t.sequence.IsInt := by
  have hstrings : t.postInit iso = .ok () →
      t.reason ≠ [] ∧ t.evidenceEventId ≠ [] ∧ t.timestampUtc ≠ [] := by
    intro h
    simp only [postInit, bind_eq_ok, ensure_eq_ok, pure_eq_ok] at h
    obtain ⟨_, -, _, -, _, hreason, _, hid, _, htime, -⟩ := h
    exact ⟨ne_nil_of_strip hreason, ne_nil_of_matchesName hid, ne_nil_of_parseTimestamp htime⟩
  simp only [fromDict, bind_eq_ok, pure_eq_ok, requireDict_iff, requireInt_iff, requireString_iff,
    enumOf_iff ExecutionStage.enumerates]
  rw [toDict, projectObject_eq_obj]
  simp only [projectObject, schema, List.map, id, Json.obj.injEq, List.cons.injEq, Prod.mk.injEq, true_and,
    and_true]
  constructor
  · rintro ⟨value, hvalue, _, ⟨h1, i1⟩, _, h2, _, h3, _, ⟨h4, -⟩, _, ⟨h5, -⟩, _, ⟨h6, -⟩, _, hinit, rfl⟩
    exact ⟨⟨value, hvalue, h1, h2, h3, h4, h5, h6⟩, hinit, i1⟩
  · rintro ⟨⟨value, hvalue, h1, h2, h3, h4, h5, h6⟩, hinit, i1⟩
    obtain ⟨s4, s5, s6⟩ := hstrings hinit
    exact ⟨value, hvalue, _, ⟨h1, i1⟩, _, h2, _, h3, _, ⟨h4, s4⟩, _, ⟨h5, s5⟩, _, ⟨h6, s6⟩, (), hinit, rfl⟩

def AttemptProgress.schema : List (PyStr × (Json → Json)) :=
  [(py "goal_reached", id), (py "oracle_reason", id), (py "guest_events_total", id),
    (py "coverage_edges", id), (py "observation_sha256", id)]

theorem AttemptProgress.schema_nodup : (schema.map Prod.fst).Nodup := by
  decide

/-- What the loader asks of a progress beyond the checks of its constructor. -/
def AttemptProgress.Readable (p : AttemptProgress) : Prop :=
  p.oracleReason ≠ some [] ∧ p.guestEventsTotal.IsInt ∧ ∀ n ∈ p.coverageEdges, n.IsInt

/-- The reason is not the empty string and can be encoded, and the integers are not booleans and not too
large. -/
def AttemptProgress.Storable (p : AttemptProgress) : Prop :=
  p.oracleReason ≠ some [] ∧ (∀ s ∈ p.oracleReason, PyStr.encodable s) ∧ p.guestEventsTotal.Storable ∧
    ∀ n ∈ p.coverageEdges, n.Storable

theorem AttemptProgress.plain (p : AttemptProgress) : Plain p.toDict :=
  plain_obj schema_nodup (by simp)

theorem AttemptProgress.sameKeys (p q : AttemptProgress) : SameKeys p.toDict q.toDict :=
  sameKeys_obj schema_nodup (by simp)

theorem AttemptProgress.observation_isSha256 {p : AttemptProgress} (h : p.postInit = .ok ()) :
    ∀ s ∈ p.observationSha256, isSha256 s := by
  simp only [postInit, bind_eq_ok, ensure_eq_ok] at h
  obtain ⟨_, -, _, -, _, -, hsha⟩ := h
  exact hsha

theorem AttemptProgress.storable_iff {p : AttemptProgress} (h : p.postInit = .ok ()) :
    p.Storable ↔ p.Readable ∧ Writable p.toDict := by
  have hsha : ∀ s ∈ p.observationSha256, PyStr.encodable s := fun s hs =>
    encodable_of_isSha256 (observation_isSha256 h s hs)
  simp only [Storable, Readable, PyInt.storable_iff, toDict, writable_obj, List.forall_mem_cons,
    PyStr.encodable_py, writable_bool, writable_nullable_str, writable_nullable_toJson, true_and,
    List.not_mem_nil, IsEmpty.forall_iff, implies_true, and_true, forall_and, PyInt.IsInt]
  tauto

theorem AttemptProgress.fromDict_iff {j : Json} {p : AttemptProgress} : fromDict j = .ok p ↔
    projectObject schema j = p.toDict ∧ p.postInit = .ok () ∧ p.Readable := by
  have hstring : p.postInit = .ok () → p.observationSha256 ≠ some [] := by
    intro h hnil
    exact ne_nil_of_isSha256 (observation_isSha256 h [] hnil) rfl
  simp only [fromDict, bind_eq_ok, pure_eq_ok, requireDict_iff, requireInt_iff, requireBool_iff,
    requireOptional_int_iff, requireOptional_string_iff, Readable]
  rw [toDict, projectObject_eq_obj]
  simp only [projectObject, schema, List.map, id, Json.obj.injEq, List.cons.injEq, Prod.mk.injEq, true_and,
    and_true]
  constructor
  · rintro ⟨value, hvalue, _, h1, _, ⟨h2, i2⟩, _, ⟨h3, -⟩, _, ⟨h4, s4⟩, _, ⟨h5, i5⟩, _, hinit, rfl⟩
    exact ⟨⟨value, hvalue, h1, h4, h5, h2, h3⟩, hinit, s4, i5, i2⟩
  · rintro ⟨⟨value, hvalue, h1, h4, h5, h2, h3⟩, hinit, s4, i5, i2⟩
    exact ⟨value, hvalue, _, h1, _, ⟨h2, i2⟩, _, ⟨h3, hstring hinit⟩, _, ⟨h4, s4⟩, _, ⟨h5, i5⟩, (), hinit,
      rfl⟩

end Parts

/-! ### Results -/

section Result

variable {sha : Sha256} {ft : FloatText} {iso : IsoFormat} {r : AttemptResult}

def AttemptResult.integers (r : AttemptResult) : List PyInt := [r.schemaVersion, r.resultVersion]

def AttemptResult.texts (r : AttemptResult) : List PyStr :=
  [r.attemptId, r.contractSha256, r.startedAtUtc, r.finishedAtUtc]

/-- The integers of a result are not booleans and not too large, its strings can be encoded, and the same
is true of its parts. -/
def AttemptResult.Storable (r : AttemptResult) : Prop :=
  (∀ n ∈ r.integers, n.Storable) ∧ (∀ s ∈ r.texts, PyStr.encodable s) ∧ r.progress.Storable ∧
    ∀ t ∈ r.transitions, t.Storable

/-- What the loader asks of a result beyond the checks of its constructor. -/
def AttemptResult.Readable (r : AttemptResult) : Prop :=
  (∀ n ∈ r.integers, n.IsInt) ∧ r.progress.Readable ∧ ∀ t ∈ r.transitions, t.sequence.IsInt

def AttemptResult.schema : List (PyStr × (Json → Json)) :=
  [(py "schema_version", id), (py "result_version", id), (py "attempt_id", id),
    (py "contract_sha256", id), (py "started_at_utc", id), (py "finished_at_utc", id),
    (py "outcome", id), (py "initial_stage", id), (py "final_stage", id),
    (py "failure_fingerprint", id), (py "progress", projectObject AttemptProgress.schema),
    (py "stage_transitions", projectArray (projectObject StageTransition.schema))]

theorem AttemptResult.construct_iff : r.construct iso = .ok () ↔ r.progress.postInit = .ok () ∧
    (∀ t ∈ r.transitions, t.postInit iso = .ok ()) ∧ r.postInit iso = .ok () := by
  simp only [construct, bind_eq_ok, mapOk_ok]
  constructor
  · rintro ⟨_, hprogress, us, htransitions, hinit⟩
    refine ⟨hprogress, ?_, hinit⟩
    intro t ht
    obtain ⟨u, -, hu⟩ := forall₂_exists htransitions ht
    exact hu
  · rintro ⟨hprogress, htransitions, hinit⟩
    refine ⟨(), hprogress, r.transitions.map fun _ => (), ?_, hinit⟩
    rw [List.forall₂_map_right_iff, List.forall₂_same]
    exact htransitions

theorem AttemptResult.identity_nodup (r : AttemptResult) : (r.identityDict.map Prod.fst).Nodup := by
  show (schema.map Prod.fst).Nodup
  decide

theorem AttemptResult.plain_values (r : AttemptResult) : ∀ f ∈ r.identityDict, Plain f.2 := by
  have htransitions : Plain (.arr (r.transitions.map StageTransition.toDict)) := by
    apply plain_arr
    simp [StageTransition.plain]
  simp [identityDict, htransitions, AttemptProgress.plain]

theorem AttemptResult.plain (r : AttemptResult) : Plain (.obj r.identityDict) :=
  plain_obj r.identity_nodup r.plain_values

theorem AttemptResult.sameKeys (r r' : AttemptResult) :
    SameKeys (.obj r.identityDict) (.obj r'.identityDict) := by
  apply sameKeys_obj r.identity_nodup
  have htransitions : SameKeys (.arr (r.transitions.map StageTransition.toDict))
      (.arr (r'.transitions.map StageTransition.toDict)) := by
    apply sameKeys_arr
    simp [StageTransition.sameKeys]
  simp [identityDict, htransitions, AttemptProgress.sameKeys]

theorem AttemptResult.postInit_texts (h : r.postInit iso = .ok ()) :
    (∀ s ∈ r.texts, s ≠ []) ∧ ∀ s ∈ r.failureFingerprint, isSha256 s := by
  simp only [postInit, bind_eq_ok, ensure_eq_ok, validateSha256_eq_ok] at h
  obtain ⟨_, -, _, -, _, hid, _, hsha, started, hstarted, finished, hfinished, _, -, _, -, _, -, _, hfailure, -⟩ := h
  simp only [texts, List.forall_mem_cons, List.not_mem_nil, IsEmpty.forall_iff, implies_true, and_true]
  exact ⟨⟨ne_nil_of_matchesName hid, ne_nil_of_isSha256 hsha, ne_nil_of_parseTimestamp hstarted,
    ne_nil_of_parseTimestamp hfinished⟩, hfailure⟩

theorem AttemptResult.storable_iff (h : r.construct iso = .ok ()) :
    r.Storable ↔ r.Readable ∧ Writable (.obj r.identityDict) := by
  obtain ⟨hprogress, -, hinit⟩ := construct_iff.mp h
  have hfailure : ∀ s ∈ r.failureFingerprint, PyStr.encodable s := fun s hs =>
    encodable_of_isSha256 ((postInit_texts hinit).2 s hs)
  simp only [Storable, Readable, integers, texts, PyInt.storable_iff, AttemptProgress.storable_iff hprogress,
    StageTransition.storable_iff, identityDict, writable_obj, List.forall_mem_cons, PyStr.encodable_py,
    writable_str, writable_nullable_str, writable_arr, List.forall_mem_map, ExecutionStage.encodable_value,
    AttemptOutcome.encodable_value, true_and, List.not_mem_nil, IsEmpty.forall_iff, implies_true, and_true,
    forall_and, PyInt.IsInt]
  tauto

theorem AttemptResult.read_iff {value : List (PyStr × Json)} : read iso value = .ok r ↔
    projectObject schema (.obj value) = .obj r.identityDict ∧ r.Readable ∧
      r.progress.postInit = .ok () ∧ (∀ t ∈ r.transitions, t.postInit iso = .ok ()) ∧
      (∀ s ∈ r.texts, s ≠ []) ∧ r.failureFingerprint ≠ some [] := by
  simp only [read, bind_eq_ok, pure_eq_ok, requireInt_iff, requireString_iff, requireList_iff,
    requireOptional_string_iff, enumOf_iff AttemptOutcome.enumerates,
    enumOf_iff ExecutionStage.enumerates, AttemptProgress.fromDict_iff,
    mapOk_iff fun j a => StageTransition.fromDict_iff (j := j) (t := a)]
  simp only [projectObject, schema, List.map_cons, List.map_nil, id, identityDict, Json.obj.injEq,
    List.cons.injEq, Prod.mk.injEq, true_and, and_true, Readable, integers, texts, List.forall_mem_cons,
    List.not_mem_nil, IsEmpty.forall_iff, implies_true, projectArray_eq_arr, forall_and]
  constructor
  · rintro ⟨items, h0, _, ⟨h1, s1⟩, _, ⟨h2, i2⟩, _, ⟨h3, i3⟩, _, ⟨h4, s4⟩, _, ⟨h5, s5⟩, _, ⟨h6, s6⟩, _,
      ⟨h7, s7⟩, _, h8, _, h9, _, h10, _, ⟨h11, p11, q11⟩, _, ⟨h12, p12, q12⟩, rfl⟩
    exact ⟨⟨h2, h3, h4, h5, h6, h7, h8, h9, h10, h1, h11, items, h0, h12⟩, ⟨⟨i2, i3⟩, q11, q12⟩, p11, p12,
      ⟨s4, s5, s6, s7⟩, s1⟩
  · rintro ⟨⟨h2, h3, h4, h5, h6, h7, h8, h9, h10, h1, h11, items, h0, h12⟩, ⟨⟨i2, i3⟩, q11, q12⟩, p11, p12,
      ⟨s4, s5, s6, s7⟩, s1⟩
    exact ⟨items, h0, _, ⟨h1, s1⟩, _, ⟨h2, i2⟩, _, ⟨h3, i3⟩, _, ⟨h4, s4⟩, _, ⟨h5, s5⟩, _, ⟨h6, s6⟩, _,
      ⟨h7, s7⟩, _, h8, _, h9, _, h10, _, ⟨h11, p11, q11⟩, _, ⟨h12, p12, q12⟩, rfl⟩

/-- The fields of a written result. -/
def AttemptResult.fields (r : AttemptResult) (digest : PyStr) : List (PyStr × Json) :=
  r.identityDict ++ [(py "result_sha256", .str digest)]

theorem AttemptResult.fields_nodup (digest : PyStr) : ((r.fields digest).map Prod.fst).Nodup := by
  show (schema.map Prod.fst ++ [py "result_sha256"]).Nodup
  decide

theorem AttemptResult.toDict_iff {j : Json} : r.toDict sha ft = .ok j ↔
    ∃ digest, r.resultSha256 sha ft = .ok digest ∧ j = .obj (r.fields digest) := by
  simp only [toDict, bind_eq_ok, pure_eq_ok]
  exact exists_congr fun digest => and_congr_right fun _ => eq_comm

theorem AttemptResult.fromDict_iff {j : Json} : fromDict sha ft iso j = .ok r ↔
    ∃ value, j = .obj value ∧ read iso value = .ok r ∧ r.postInit iso = .ok () ∧
      ∃ digest, field (py "result_sha256") value = .str digest ∧ r.resultSha256 sha ft = .ok digest := by
  simp only [fromDict, bind_eq_ok, pure_eq_ok, requireDict_iff, requireString_iff, validateSha256_eq_ok,
    ensure_eq_ok]
  constructor
  · rintro ⟨value, hvalue, r', hread, _, hinit, digest, ⟨hfield, -⟩, -, -, _, hsha, -, rfl, rfl⟩
    exact ⟨value, hvalue, hread, hinit, digest, hfield, hsha⟩
  · rintro ⟨value, hvalue, hread, hinit, digest, hfield, hsha⟩
    have hdigest := isSha256_of_canonicalSha256 hsha
    exact ⟨value, hvalue, r, hread, (), hinit, digest, ⟨hfield, ne_nil_of_isSha256 hdigest⟩, (), hdigest,
      digest, hsha, (), rfl, rfl⟩

theorem AttemptResult.fromDict_fields (h : r.construct iso = .ok ()) (hreadable : r.Readable)
    {digest : PyStr} (hsha : r.resultSha256 sha ft = .ok digest) :
    fromDict sha ft iso (.obj (r.fields digest)) = .ok r := by
  obtain ⟨hprogress, htransitions, hinit⟩ := construct_iff.mp h
  obtain ⟨htexts, hfailure⟩ := postInit_texts hinit
  have hfailure' : r.failureFingerprint ≠ some [] := fun hnil => ne_nil_of_isSha256 (hfailure [] hnil) rfl
  have hproject : projectObject schema (.obj (r.fields digest)) = .obj r.identityDict := by
    apply projectObject_append (r.fields_nodup digest)
    have hparts : projectObject AttemptProgress.schema r.progress.toDict = r.progress.toDict ∧
        projectArray (projectObject StageTransition.schema)
            (.arr (r.transitions.map StageTransition.toDict)) =
          .arr (r.transitions.map StageTransition.toDict) := by
      constructor
      · rfl
      · simp only [projectArray, List.map_map]
        rfl
    simp [schema, identityDict, hparts]
  apply fromDict_iff.mpr
  refine ⟨_, rfl, read_iff.mpr ⟨hproject, hreadable, hprogress, htransitions, htexts, hfailure'⟩, hinit,
    digest, ?_, hsha⟩
  exact field_of_mem (r.fields_nodup digest) (by simp [fields])

/-- **A result is read back exactly when it is storable.** -/
theorem AttemptResult.reload_iff (h : r.construct iso = .ok ()) :
    (resultDocument sha ft iso).reload ft r = .ok r ↔ r.Storable := by
  rw [storable_iff h]
  have hfields : ∀ {digest}, isSha256 digest →
      (Writable (.obj (r.fields digest)) ↔ Writable (.obj r.identityDict)) := by
    intro digest hdigest
    rw [fields, writable_append]
    simp [encodable_of_isSha256 hdigest]
  apply Document.reload_iff
  · intro j hdict
    obtain ⟨digest, hsha, rfl⟩ := toDict_iff.mp hdict
    constructor
    · apply plain_obj (r.fields_nodup digest)
      rw [fields, List.forall_mem_append]
      exact ⟨r.plain_values, by simp⟩
    · intro hwritable hfrom
      obtain ⟨value, -, hread, -⟩ := fromDict_iff.mp hfrom
      exact ⟨(read_iff.mp hread).2.1, (hfields (isSha256_of_canonicalSha256 hsha)).mp hwritable⟩
  · rintro ⟨hreadable, hwritable⟩
    have hsha : r.resultSha256 sha ft = .ok _ := (canonicalSha256_eq_ok r.plain).mpr ⟨hwritable, rfl⟩
    exact ⟨_, toDict_iff.mpr ⟨_, hsha, rfl⟩, (hfields (isSha256_of_canonicalSha256 hsha)).mpr hwritable,
      fromDict_fields h hreadable hsha⟩

theorem AttemptResult.tamperEvident : (resultDocument sha ft iso).TamperEvident sha ft
    (py "result_sha256") (projectObject schema) := by
  have hread : ∀ raw v, fromDict sha ft iso raw = .ok v →
      projectObject schema raw = .obj v.identityDict := by
    intro raw v h
    obtain ⟨value, rfl, hread, -⟩ := fromDict_iff.mp h
    exact (read_iff.mp hread).1
  apply Document.tamperEvident (fun v j => j = .obj v.identityDict) hread
  · rintro v - rfl
    exact v.plain
  · rintro v v' - - rfl rfl
    exact v.sameKeys v'
  · intro raw v h
    obtain ⟨value, rfl, -, -, digest, hfield, hsha⟩ := fromDict_iff.mp h
    rw [hread _ v h]
    exact ⟨digest, hfield, hsha⟩

end Result

end TaintForge
