import TaintForge.Env.EnvironmentManifest
import TaintForge.Env.Equiv.AttemptDocuments

/-!
# Manifests are read back

* `ManifestEntry.toDict_eq`: an entry that passed its checks can always be written.
* `EnvironmentManifest.reload_iff`: which manifests are read back as they were.
* `documents_reload`: the same for all kinds of documents.
-/

namespace TaintForge

/-! ### Enumerations -/

theorem ManifestResourceKind.enumerates :
    Enumerates ManifestResourceKind.members ManifestResourceKind.value := by
  intro k
  cases k <;> rfl

theorem LifecycleScope.enumerates : Enumerates LifecycleScope.members LifecycleScope.value := by
  intro s
  cases s <;> rfl

theorem ManifestConfidence.enumerates :
    Enumerates ManifestConfidence.members ManifestConfidence.value := by
  intro c
  cases c <;> rfl

theorem ManifestEntryStatus.enumerates :
    Enumerates ManifestEntryStatus.members ManifestEntryStatus.value := by
  intro s
  cases s <;> rfl

theorem EvidenceKind.enumerates : Enumerates EvidenceKind.members EvidenceKind.value := by
  intro k
  cases k <;> rfl

@[simp] theorem ManifestResourceKind.encodable_value (k : ManifestResourceKind) :
    PyStr.encodable k.value := by
  cases k <;> exact PyStr.encodable_py _

@[simp] theorem LifecycleScope.encodable_value (s : LifecycleScope) : PyStr.encodable s.value := by
  cases s <;> exact PyStr.encodable_py _

@[simp] theorem ManifestConfidence.encodable_value (c : ManifestConfidence) :
    PyStr.encodable c.value := by
  cases c <;> exact PyStr.encodable_py _

@[simp] theorem ManifestEntryStatus.encodable_value (s : ManifestEntryStatus) :
    PyStr.encodable s.value := by
  cases s <;> exact PyStr.encodable_py _

@[simp] theorem EvidenceKind.encodable_value (k : EvidenceKind) : PyStr.encodable k.value := by
  cases k <;> exact PyStr.encodable_py _

/-! ### Names can be encoded -/

theorem encodable_of_matchesName {first rest : ℕ → Bool} {limit : ℕ} {s : PyStr}
    (hfirst : ∀ c, first c → c < 0x80) (hrest : ∀ c, rest c → c < 0x80)
    (h : matchesName first rest limit s) : s.encodable := by
  apply Json.encodable_of_ascii
  cases s with
  | nil => simp
  | cons c s =>
    simp only [matchesName, Bool.and_eq_true, List.all_eq_true] at h
    rw [List.forall_mem_cons]
    exact ⟨hfirst c h.1.1, fun d hd => hrest d (h.1.2 d hd)⟩

theorem lt_of_isAlphanumeric {c : ℕ} (h : isAlphanumeric c) : c < 0x80 := by
  simp only [isAlphanumeric, Bool.or_eq_true, Bool.and_eq_true, decide_eq_true_eq] at h
  omega

theorem encodable_of_isManifestIdentifier {s : PyStr} (h : isManifestIdentifier s) : s.encodable := by
  apply encodable_of_matchesName (fun c hc => lt_of_isAlphanumeric hc) _ h
  intro c hc
  simp only [Bool.or_eq_true, beq_iff_eq] at hc
  rcases hc with ((((hc | hc) | hc) | hc) | hc) | hc
  · exact lt_of_isAlphanumeric hc
  all_goals omega

theorem encodable_of_isProvider {s : PyStr} (h : isProvider s) : s.encodable := by
  apply encodable_of_matchesName _ _ h
  · intro c hc
    simp only [Bool.and_eq_true, decide_eq_true_eq] at hc
    omega
  · intro c hc
    simp only [Bool.or_eq_true, Bool.and_eq_true, decide_eq_true_eq, beq_iff_eq] at hc
    omega

theorem encodable_of_isConsumerPc {s : PyStr} (h : isConsumerPc s) : s.encodable := by
  unfold isConsumerPc at h
  split at h
  · rename_i digits
    simp only [Bool.and_eq_true, List.all_eq_true] at h
    apply Json.encodable_of_ascii
    intro c hc
    rcases List.mem_cons.mp hc with rfl | hc
    · omega
    rcases List.mem_cons.mp hc with rfl | hc
    · omega
    have hdigit := h.2 c hc
    by_contra hlarge
    have hnone : Json.hexValue c = none := by
      unfold Json.hexValue
      split_ifs <;> first | rfl | omega
    rw [hnone] at hdigit
    exact absurd hdigit (by decide)
  · exact absurd h (by nofun)

/-! ### Evidence -/

def ManifestEvidence.schema : List (PyStr × (Json → Json)) :=
  [(py "evidence_id", id), (py "kind", id), (py "attempt_id", id), (py "artifact_sha256", id)]

theorem ManifestEvidence.schema_nodup : (schema.map Prod.fst).Nodup := by
  decide

theorem ManifestEvidence.plain (e : ManifestEvidence) : Plain e.toDict :=
  plain_obj schema_nodup (by simp)

theorem ManifestEvidence.sameKeys (e f : ManifestEvidence) : SameKeys e.toDict f.toDict :=
  sameKeys_obj schema_nodup (by simp)

theorem ManifestEvidence.postInit_iff {e : ManifestEvidence} : e.postInit = .ok () ↔
    isManifestIdentifier e.evidenceId ∧ isManifestIdentifier e.attemptId ∧ isSha256 e.artifactSha256 := by
  simp only [postInit, validateIdentifier, bind_eq_ok, ensure_eq_ok, validateSha256_eq_ok, exists_const]

theorem ManifestEvidence.writable {e : ManifestEvidence} (h : e.postInit = .ok ()) :
    Writable e.toDict := by
  obtain ⟨hid, hattempt, hsha⟩ := postInit_iff.mp h
  simp [toDict, encodable_of_isManifestIdentifier hid, encodable_of_isManifestIdentifier hattempt,
    encodable_of_isSha256 hsha]

theorem ManifestEvidence.fromDict_iff {j : Json} {e : ManifestEvidence} : fromDict j = .ok e ↔
    projectObject schema j = e.toDict ∧ e.postInit = .ok () := by
  simp only [fromDict, bind_eq_ok, pure_eq_ok, requireDict_iff, requireString_iff,
    enumOf_iff EvidenceKind.enumerates]
  rw [toDict, projectObject_eq_obj]
  simp only [projectObject, schema, List.map, id, Json.obj.injEq, List.cons.injEq, Prod.mk.injEq, true_and,
    and_true]
  constructor
  · rintro ⟨value, hvalue, _, ⟨h1, -⟩, _, h2, _, ⟨h3, -⟩, _, ⟨h4, -⟩, _, hinit, rfl⟩
    exact ⟨⟨value, hvalue, h1, h2, h3, h4⟩, hinit⟩
  · rintro ⟨⟨value, hvalue, h1, h2, h3, h4⟩, hinit⟩
    obtain ⟨hid, hattempt, hsha⟩ := postInit_iff.mp hinit
    exact ⟨value, hvalue, _, ⟨h1, ne_nil_of_matchesName hid⟩, _, h2, _,
      ⟨h3, ne_nil_of_matchesName hattempt⟩, _, ⟨h4, ne_nil_of_isSha256 hsha⟩, (), hinit, rfl⟩

/-! ### Entries -/

section Entry

variable {sha : Sha256} {ft : FloatText} {e : ManifestEntry}

def ManifestEntry.identitySchema : List (PyStr × (Json → Json)) :=
  [(py "resource_id", id), (py "kind", id), (py "lifecycle_scope", id), (py "first_seen_stage", id),
    (py "first_seen_attempt_id", id), (py "consumer_pc", id), (py "provider", id), (py "value_id", id),
    (py "value_sha256", id), (py "evidence", projectArray (projectObject ManifestEvidence.schema)),
    (py "confidence", id), (py "status", id)]

def ManifestEntry.schema : List (PyStr × (Json → Json)) :=
  identitySchema ++ [(py "entry_sha256", id)]

theorem ManifestEntry.schema_nodup : (schema.map Prod.fst).Nodup := by
  decide

theorem ManifestEntry.construct_iff : e.construct = .ok () ↔
    (∀ v ∈ e.evidence, v.postInit = .ok ()) ∧ e.postInit = .ok () := by
  simp only [construct, bind_eq_ok, mapOk_ok]
  constructor
  · rintro ⟨us, hevidence, hinit⟩
    refine ⟨?_, hinit⟩
    intro v hv
    obtain ⟨u, -, hu⟩ := forall₂_exists hevidence hv
    exact hu
  · rintro ⟨hevidence, hinit⟩
    refine ⟨e.evidence.map fun _ => (), ?_, hinit⟩
    rw [List.forall₂_map_right_iff, List.forall₂_same]
    exact hevidence

/-- The strings of an entry, by the name they have to be. -/
theorem ManifestEntry.postInit_names (h : e.postInit = .ok ()) :
    (∀ s ∈ [e.resourceId, e.firstSeenAttemptId, e.valueId], isManifestIdentifier s) ∧
      isProvider e.provider ∧ isSha256 e.valueSha256 ∧ ∀ s ∈ e.consumerPc, isConsumerPc s := by
  simp only [postInit, validateIdentifier, bind_eq_ok, ensure_eq_ok, validateSha256_eq_ok] at h
  obtain ⟨_, hid, _, hattempt, _, hprovider, _, hvalue, _, hsha, _, -, _, -, _, -, _, hpc, -⟩ := h
  simp only [List.forall_mem_cons, List.not_mem_nil, IsEmpty.forall_iff, implies_true, and_true]
  exact ⟨⟨hid, hattempt, hvalue⟩, hprovider, hsha, hpc⟩

theorem ManifestEntry.plain_values (e : ManifestEntry) : ∀ f ∈ e.identityDict, Plain f.2 := by
  have hevidence : Plain (.arr (e.evidence.map ManifestEvidence.toDict)) := by
    apply plain_arr
    simp [ManifestEvidence.plain]
  simp [identityDict, hevidence]

theorem ManifestEntry.plain (e : ManifestEntry) : Plain (.obj e.identityDict) := by
  apply plain_obj _ e.plain_values
  show (identitySchema.map Prod.fst).Nodup
  decide

theorem ManifestEntry.writable (h : e.construct = .ok ()) : Writable (.obj e.identityDict) := by
  obtain ⟨hevidence, hinit⟩ := construct_iff.mp h
  obtain ⟨hnames, hprovider, hsha, hpc⟩ := postInit_names hinit
  simp only [List.forall_mem_cons, List.not_mem_nil, IsEmpty.forall_iff, implies_true, and_true] at hnames
  obtain ⟨hid, hattempt, hvalue⟩ := hnames
  have hitems : Writable (.arr (e.evidence.map ManifestEvidence.toDict)) := by
    rw [writable_arr, List.forall_mem_map]
    exact fun v hv => ManifestEvidence.writable (hevidence v hv)
  have hconsumer : Writable (nullable .str e.consumerPc) :=
    (writable_nullable_str e.consumerPc).mpr fun s hs => encodable_of_isConsumerPc (hpc s hs)
  rw [writable_obj]
  simp only [identityDict, List.forall_mem_cons, PyStr.encodable_py, writable_str, true_and,
    ManifestResourceKind.encodable_value, LifecycleScope.encodable_value, ExecutionStage.encodable_value,
    ManifestConfidence.encodable_value, ManifestEntryStatus.encodable_value, and_true]
  exact ⟨encodable_of_isManifestIdentifier hid, encodable_of_isManifestIdentifier hattempt, hconsumer,
    encodable_of_isProvider hprovider, encodable_of_isManifestIdentifier hvalue,
    encodable_of_isSha256 hsha, hitems, by simp⟩

/-- The fields of a written entry. -/
def ManifestEntry.fields (sha : Sha256) (ft : FloatText) (e : ManifestEntry) : List (PyStr × Json) :=
  e.identityDict ++
    [(py "entry_sha256", .str (sha.hexdigest (canonicalText ft (.obj e.identityDict))))]

theorem ManifestEntry.fields_nodup : ((e.fields sha ft).map Prod.fst).Nodup := by
  show (schema.map Prod.fst).Nodup
  exact schema_nodup

theorem ManifestEntry.projectObject_fields :
    projectObject schema (.obj (e.fields sha ft)) = .obj (e.fields sha ft) := by
  have hevidence : projectArray (projectObject ManifestEvidence.schema)
      (.arr (e.evidence.map ManifestEvidence.toDict)) =
        .arr (e.evidence.map ManifestEvidence.toDict) := by
    simp only [projectArray, List.map_map]
    rfl
  have happend : projectObject schema (.obj (e.fields sha ft ++ [])) = .obj (e.fields sha ft) := by
    apply projectObject_append
    · rw [List.append_nil]
      exact fields_nodup
    · simp [schema, identitySchema, fields, identityDict, hevidence]
  rwa [List.append_nil] at happend

theorem ManifestEntry.fields_plain : Plain (.obj (e.fields sha ft)) := by
  apply plain_obj fields_nodup
  rw [fields, List.forall_mem_append]
  exact ⟨e.plain_values, by simp⟩

theorem ManifestEntry.fields_writable (h : e.construct = .ok ()) : Writable (.obj (e.fields sha ft)) := by
  rw [fields, writable_append]
  exact ⟨writable h, by simp [encodable_of_isSha256 (sha.isSha256_hexdigest _)]⟩

theorem ManifestEntry.fields_sameKeys {f : ManifestEntry} :
    SameKeys (.obj (e.fields sha ft)) (.obj (f.fields sha ft)) := by
  apply sameKeys_obj fields_nodup
  have hevidence : SameKeys (.arr (e.evidence.map ManifestEvidence.toDict))
      (.arr (f.evidence.map ManifestEvidence.toDict)) := by
    apply sameKeys_arr
    simp [ManifestEvidence.sameKeys]
  simp [fields, identityDict, hevidence]

/-- **An entry that passed its checks can always be written.** -/
theorem ManifestEntry.toDict_eq (h : e.construct = .ok ()) :
    e.toDict sha ft = .ok (.obj (e.fields sha ft)) := by
  have hsha : e.entrySha256 sha ft = .ok _ := (canonicalSha256_eq_ok e.plain).mpr ⟨writable h, rfl⟩
  exact bind_eq_ok.mpr ⟨_, hsha, rfl⟩

theorem ManifestEntry.read_iff {value : List (PyStr × Json)} : read value = .ok e ↔
    projectObject identitySchema (.obj value) = .obj e.identityDict ∧
      (∀ v ∈ e.evidence, v.postInit = .ok ()) ∧
      (∀ s ∈ [e.resourceId, e.firstSeenAttemptId, e.provider, e.valueId, e.valueSha256], s ≠ []) ∧
      e.consumerPc ≠ some [] := by
  simp only [read, bind_eq_ok, pure_eq_ok, requireString_iff, requireList_iff, requireOptional_string_iff,
    enumOf_iff ManifestResourceKind.enumerates, enumOf_iff LifecycleScope.enumerates,
    enumOf_iff ExecutionStage.enumerates, enumOf_iff ManifestConfidence.enumerates,
    enumOf_iff ManifestEntryStatus.enumerates,
    mapOk_iff fun j a => ManifestEvidence.fromDict_iff (j := j) (e := a)]
  simp only [projectObject, identitySchema, List.map_cons, List.map_nil, id, identityDict, Json.obj.injEq,
    List.cons.injEq, Prod.mk.injEq, true_and, and_true, List.forall_mem_cons, List.not_mem_nil,
    IsEmpty.forall_iff, implies_true, projectArray_eq_arr]
  constructor
  · rintro ⟨items, h0, _, ⟨h1, s1⟩, _, ⟨h2, s2⟩, _, h3, _, h4, _, h5, _, ⟨h6, s6⟩, _, ⟨h7, s7⟩, _, ⟨h8, s8⟩,
      _, ⟨h9, s9⟩, _, ⟨h10, p10⟩, _, h11, _, h12, rfl⟩
    exact ⟨⟨h2, h3, h4, h5, h6, h1, h7, h8, h9, ⟨items, h0, h10⟩, h11, h12⟩, p10, ⟨s2, s6, s7, s8, s9⟩, s1⟩
  · rintro ⟨⟨h2, h3, h4, h5, h6, h1, h7, h8, h9, ⟨items, h0, h10⟩, h11, h12⟩, p10, ⟨s2, s6, s7, s8, s9⟩, s1⟩
    exact ⟨items, h0, _, ⟨h1, s1⟩, _, ⟨h2, s2⟩, _, h3, _, h4, _, h5, _, ⟨h6, s6⟩, _, ⟨h7, s7⟩, _, ⟨h8, s8⟩,
      _, ⟨h9, s9⟩, _, ⟨h10, p10⟩, _, h11, _, h12, rfl⟩

theorem projectObject_append_one {schema : List (PyStr × (Json → Json))} {key : PyStr}
    {value fields : List (PyStr × Json)} {x : Json} :
    projectObject (schema ++ [(key, id)]) (.obj value) = .obj (fields ++ [(key, x)]) ↔
      projectObject schema (.obj value) = .obj fields ∧ field key value = x := by
  simp only [projectObject, List.map_append, List.map_cons, List.map_nil, id, Json.obj.injEq]
  constructor
  · intro h
    obtain ⟨hfields, hlast⟩ := List.append_inj' h rfl
    exact ⟨hfields, congrArg Prod.snd (List.cons.inj hlast).1⟩
  · rintro ⟨rfl, rfl⟩
    rfl

/-- **An entry is accepted when it is one that can be written.** -/
theorem ManifestEntry.fromDict_iff {j : Json} : fromDict sha ft j = .ok e ↔
    projectObject schema j = .obj (e.fields sha ft) ∧ e.construct = .ok () := by
  rw [projectObject_eq_obj]
  simp only [fromDict, bind_eq_ok, pure_eq_ok, requireDict_iff, requireString_iff, validateSha256_eq_ok,
    ensure_eq_ok, schema, fields, projectObject_append_one, construct_iff]
  constructor
  · rintro ⟨value, hvalue, e', hread, _, hinit, digest, ⟨hfield, -⟩, -, -, _, hsha, -, rfl, rfl⟩
    obtain ⟨hproject, hevidence, -⟩ := read_iff.mp hread
    obtain ⟨-, rfl⟩ := (canonicalSha256_eq_ok e'.plain).mp hsha
    exact ⟨⟨value, hvalue, hproject, hfield⟩, hevidence, hinit⟩
  · rintro ⟨⟨value, hvalue, hproject, hfield⟩, hevidence, hinit⟩
    obtain ⟨hnames, hprovider, hvaluesha, hpc⟩ := postInit_names hinit
    simp only [List.forall_mem_cons, List.not_mem_nil, IsEmpty.forall_iff, implies_true, and_true] at hnames
    obtain ⟨hid, hattempt, hvalueid⟩ := hnames
    have hwritable := writable (construct_iff.mpr ⟨hevidence, hinit⟩)
    have hsha : e.entrySha256 sha ft = .ok _ := (canonicalSha256_eq_ok e.plain).mpr ⟨hwritable, rfl⟩
    have hdigest := isSha256_of_canonicalSha256 hsha
    have hread : read value = .ok e := by
      refine read_iff.mpr ⟨hproject, hevidence, ?_, ?_⟩
      · simp only [List.forall_mem_cons, List.not_mem_nil, IsEmpty.forall_iff, implies_true, and_true]
        exact ⟨ne_nil_of_matchesName hid, ne_nil_of_matchesName hattempt,
          ne_nil_of_matchesName hprovider, ne_nil_of_matchesName hvalueid, ne_nil_of_isSha256 hvaluesha⟩
      · intro hnil
        exact absurd (hpc [] hnil) (by decide)
    exact ⟨value, hvalue, e, hread, (), hinit, _, ⟨hfield, ne_nil_of_isSha256 hdigest⟩, (), hdigest, _, hsha,
      (), rfl, rfl⟩

end Entry

/-! ### The summary -/

theorem convertible_of_le {n k : ℕ} (hnk : n ≤ k) (h : convertible k) : convertible n := by
  have hlength : (decimal n).length ≤ (decimal k).length := by
    unfold decimal
    split_ifs with hn hk hk
    · exact le_rfl
    · rw [List.length_map, List.length_reverse]
      exact Nat.pos_of_ne_zero fun hzero => hk (Nat.digits_eq_nil_iff_eq_zero.mp
        (List.length_eq_zero_iff.mp hzero))
    · omega
    · simp only [List.length_map, List.length_reverse]
      exact Nat.le_length_digits_le 10 n k hnk
  simp only [convertible, Int.natAbs_natCast, decide_eq_true_eq] at h ⊢
  omega

theorem counts_perm (texts : List PyStr) :
    (counts texts).Perm (texts.dedup.map fun text => (text, Json.int (texts.count text))) :=
  List.perm_insertionSort _ _

theorem counts_plain (texts : List PyStr) : Plain (.obj (counts texts)) := by
  apply plain_obj
  · rw [((counts_perm texts).map Prod.fst).nodup_iff, List.map_map]
    show (texts.dedup.map id).Nodup
    rw [List.map_id]
    exact texts.nodup_dedup
  · intro f hf
    obtain ⟨text, -, rfl⟩ := List.mem_map.mp ((counts_perm texts).mem_iff.mp hf)
    exact plain_int _

theorem counts_writable {texts : List PyStr} (henc : ∀ text ∈ texts, PyStr.encodable text)
    (hlength : convertible texts.length) : Writable (.obj (counts texts)) := by
  rw [writable_obj]
  intro f hf
  obtain ⟨text, htext, rfl⟩ := List.mem_map.mp ((counts_perm texts).mem_iff.mp hf)
  refine ⟨henc text (List.mem_dedup.mp htext), ?_⟩
  rw [writable_int]
  exact convertible_of_le List.count_le_length hlength

section Manifest

variable {sha : Sha256} {ft : FloatText} {iso : IsoFormat} {m : EnvironmentManifest}

theorem EnvironmentManifest.summary_plain (m : EnvironmentManifest) : Plain m.summary := by
  apply plain_obj
  · show [py "entries_total", py "by_lifecycle_scope", py "by_status"].Nodup
    decide
  · simp [counts_plain]

theorem EnvironmentManifest.summary_writable :
    Writable m.summary ↔ convertible m.entries.length := by
  constructor
  · intro h
    rw [summary, writable_obj, List.forall_mem_cons] at h
    exact (writable_int _).mp h.1.2
  · intro h
    have hscope : Writable (.obj (counts (m.entries.map fun e => e.lifecycleScope.value))) := by
      apply counts_writable
      · simp
      · rwa [List.length_map]
    have hstatus : Writable (.obj (counts (m.entries.map fun e => e.status.value))) := by
      apply counts_writable
      · simp
      · rwa [List.length_map]
    rw [summary, writable_obj]
    simp only [List.forall_mem_cons, PyStr.encodable_py, writable_int, h, hscope, hstatus, true_and,
      List.not_mem_nil, IsEmpty.forall_iff, implies_true]

/-! ### Manifests -/

/-- The identity fields of a manifest whose entries passed their checks. -/
def EnvironmentManifest.identityFields (sha : Sha256) (ft : FloatText) (m : EnvironmentManifest) :
    List (PyStr × Json) :=
  [(py "schema_version", m.schemaVersion.toJson), (py "model_version", m.modelVersion.toJson),
    (py "sample_id", .str m.sampleId), (py "sample_sha256", .str m.sampleSha256),
    (py "manifest_version", m.manifestVersion.toJson),
    (py "parent_version", nullable PyInt.toJson m.parentVersion),
    (py "parent_manifest_id", nullable .str m.parentManifestId),
    (py "rootfs_snapshot_id", .str m.rootfsSnapshotId),
    (py "created_by_attempt_id", .str m.createdByAttemptId),
    (py "change_reason", .str m.changeReason),
    (py "entries", .arr (m.entries.map fun e => .obj (e.fields sha ft)))]

def EnvironmentManifest.schema : List (PyStr × (Json → Json)) :=
  [(py "schema_version", id), (py "model_version", id), (py "sample_id", id), (py "sample_sha256", id),
    (py "manifest_version", id), (py "parent_version", id), (py "parent_manifest_id", id),
    (py "rootfs_snapshot_id", id), (py "created_by_attempt_id", id), (py "change_reason", id),
    (py "entries", projectArray (projectObject ManifestEntry.schema))]

/-- The digest of a manifest. -/
def EnvironmentManifest.digest (sha : Sha256) (ft : FloatText) (m : EnvironmentManifest) : PyStr :=
  sha.hexdigest (canonicalText ft (.obj (m.identityFields sha ft)))

/-- The identifier of a manifest. -/
def EnvironmentManifest.name (sha : Sha256) (ft : FloatText) (m : EnvironmentManifest) : PyStr :=
  py "manifest-v" ++ (List.replicate (4 - (decimal m.manifestVersion.value.natAbs).length) 0x30 ++
    decimal m.manifestVersion.value.natAbs) ++ py "-" ++ (m.digest sha ft).take 16

/-- The fields of a written manifest. -/
def EnvironmentManifest.fields (sha : Sha256) (ft : FloatText) (m : EnvironmentManifest) :
    List (PyStr × Json) :=
  m.identityFields sha ft ++ [(py "manifest_id", .str (m.name sha ft)),
    (py "manifest_sha256", .str (m.digest sha ft)), (py "generated_at_utc", .str m.generatedAtUtc),
    (py "summary", m.summary)]

def EnvironmentManifest.integers (m : EnvironmentManifest) : List PyInt :=
  [m.schemaVersion, m.modelVersion, m.manifestVersion] ++ m.parentVersion.toList

def EnvironmentManifest.texts (m : EnvironmentManifest) : List PyStr := [m.changeReason, m.generatedAtUtc]

/-- The integers of a manifest are not booleans and not too large, its reason and its time can be encoded,
and the number of its entries is not too large. -/
def EnvironmentManifest.Storable (m : EnvironmentManifest) : Prop :=
  (∀ n ∈ m.integers, n.Storable) ∧ (∀ s ∈ m.texts, PyStr.encodable s) ∧ convertible m.entries.length

theorem EnvironmentManifest.identity_nodup : ((m.identityFields sha ft).map Prod.fst).Nodup := by
  show (schema.map Prod.fst).Nodup
  decide

theorem EnvironmentManifest.plain_values : ∀ f ∈ m.identityFields sha ft, Plain f.2 := by
  have hentries : Plain (.arr (m.entries.map fun e => .obj (e.fields sha ft))) := by
    apply plain_arr
    simp [ManifestEntry.fields_plain]
  simp [identityFields, hentries]

theorem EnvironmentManifest.plain : Plain (.obj (m.identityFields sha ft)) :=
  plain_obj identity_nodup plain_values

theorem EnvironmentManifest.fields_nodup : ((m.fields sha ft).map Prod.fst).Nodup := by
  show (schema.map Prod.fst ++
    [py "manifest_id", py "manifest_sha256", py "generated_at_utc", py "summary"]).Nodup
  decide

theorem EnvironmentManifest.fields_plain : Plain (.obj (m.fields sha ft)) := by
  apply plain_obj fields_nodup
  rw [fields, List.forall_mem_append]
  exact ⟨plain_values, by simp [m.summary_plain]⟩

theorem EnvironmentManifest.sameKeys {m' : EnvironmentManifest} :
    SameKeys (.obj (m.identityFields sha ft)) (.obj (m'.identityFields sha ft)) := by
  apply sameKeys_obj identity_nodup
  have hentries : SameKeys (.arr (m.entries.map fun e => .obj (e.fields sha ft)))
      (.arr (m'.entries.map fun e => .obj (e.fields sha ft))) := by
    apply sameKeys_arr
    simp [ManifestEntry.fields_sameKeys]
  simp [identityFields, hentries]

theorem EnvironmentManifest.construct_iff : m.construct iso = .ok () ↔
    (∀ e ∈ m.entries, e.construct = .ok ()) ∧ m.postInit iso = .ok () := by
  simp only [construct, bind_eq_ok, mapOk_ok]
  constructor
  · rintro ⟨us, hentries, hinit⟩
    refine ⟨?_, hinit⟩
    intro e he
    obtain ⟨u, -, hu⟩ := forall₂_exists hentries he
    exact hu
  · rintro ⟨hentries, hinit⟩
    refine ⟨m.entries.map fun _ => (), ?_, hinit⟩
    rw [List.forall₂_map_right_iff, List.forall₂_same]
    exact hentries

/-- What the checks of a manifest say. -/
structure EnvironmentManifest.Valid (iso : IsoFormat) (m : EnvironmentManifest) : Prop where
  schema : m.schemaVersion.value = 2
  model : m.modelVersion.value = 1
  sample : isSha256 m.sampleSha256
  version : 0 ≤ m.manifestVersion.value
  rootfs : isManifestIdentifier m.rootfsSnapshotId
  attempt : isManifestIdentifier m.createdByAttemptId
  reason : PyStr.strip m.changeReason ≠ []
  time : ∃ t, parseTimestamp iso (py "generated_at_utc") m.generatedAtUtc = .ok t
  seed : m.manifestVersion.value = 0 → m.parentVersion = none ∧ m.parentManifestId = none
  child : m.manifestVersion.value ≠ 0 →
    m.parentVersion.map PyInt.value = some (m.manifestVersion.value - 1) ∧
      ∃ parent, m.parentManifestId = some parent ∧ isManifestIdentifier parent
  sorted : (m.entries.map ManifestEntry.resourceId).Pairwise (· ≤ ·)
  nodup : (m.entries.map ManifestEntry.resourceId).Nodup

theorem EnvironmentManifest.postInit_iff : m.postInit iso = .ok () ↔ m.Valid iso := by
  unfold postInit
  simp only [validateIdentifier, bind_eq_ok, ensure_eq_ok, validateSha256_eq_ok, exists_const]
  by_cases hseed : m.manifestVersion.value = 0
  · simp only [if_pos hseed, bind_eq_ok, ensure_eq_ok, exists_const]
    constructor
    · rintro ⟨h1, h2, h3, h4, h5, h6, h7, t, htime, h8, h9, h10⟩
      exact ⟨h1, h2, h3, h4, h5, h6, h7, ⟨t, htime⟩, fun _ => h8, fun hne => absurd hseed hne, h9, h10⟩
    · rintro ⟨h1, h2, h3, h4, h5, h6, h7, ⟨t, htime⟩, h8, -, h9, h10⟩
      exact ⟨h1, h2, h3, h4, h5, h6, h7, t, htime, h8 hseed, h9, h10⟩
  · simp only [if_neg hseed, bind_eq_ok, ensure_eq_ok, exists_const]
    cases hparent : m.parentManifestId with
    | none =>
      constructor
      · rintro ⟨_, _, _, _, _, _, _, _, _, _, _, ⟨⟩⟩
      · rintro h
        obtain ⟨-, parent, hsome, -⟩ := h.child hseed
        cases hparent.symm.trans hsome
    | some parent =>
      simp only [bind_eq_ok, ensure_eq_ok, exists_const]
      constructor
      · rintro ⟨h1, h2, h3, h4, h5, h6, h7, t, htime, h8, hid, h9, h10⟩
        exact ⟨h1, h2, h3, h4, h5, h6, h7, ⟨t, htime⟩, fun hzero => absurd hzero hseed,
          fun _ => ⟨h8, parent, hparent, hid⟩, h9, h10⟩
      · rintro ⟨h1, h2, h3, h4, h5, h6, h7, ⟨t, htime⟩, -, h8, h9, h10⟩
        obtain ⟨hversion, parent', hsome, hid⟩ := h8 hseed
        obtain rfl : parent = parent' := Option.some.inj (hparent.symm.trans hsome)
        exact ⟨h1, h2, h3, h4, h5, h6, h7, t, htime, hversion, hid, h9, h10⟩

theorem EnvironmentManifest.Valid.parent (h : m.Valid iso) :
    ∀ s ∈ m.parentManifestId, isManifestIdentifier s := by
  intro s hs
  by_cases hseed : m.manifestVersion.value = 0
  · rw [(h.seed hseed).2] at hs
    exact absurd hs (by nofun)
  · obtain ⟨-, parent, hsome, hid⟩ := h.child hseed
    obtain rfl : parent = s := Option.some.inj (hsome.symm.trans hs)
    exact hid

theorem EnvironmentManifest.encodable_sampleId (h : isSha256 m.sampleSha256) :
    m.sampleId.encodable := by
  have hall := List.all_eq_true.mp (encodable_of_isSha256 h)
  rw [sampleId, PyStr.encodable_append, PyStr.encodable_py, Bool.true_and]
  exact List.all_eq_true.mpr fun c hc => hall c (List.mem_of_mem_take hc)

theorem EnvironmentManifest.writable_iff (h : m.construct iso = .ok ()) :
    Writable (.obj (m.identityFields sha ft)) ↔
      (∀ n ∈ m.integers, Writable n.toJson) ∧ PyStr.encodable m.changeReason := by
  obtain ⟨hentries, hinit⟩ := construct_iff.mp h
  have hvalid := postInit_iff.mp hinit
  have hid := encodable_sampleId hvalid.sample
  have hsample := encodable_of_isSha256 hvalid.sample
  have hroot := encodable_of_isManifestIdentifier hvalid.rootfs
  have hcreated := encodable_of_isManifestIdentifier hvalid.attempt
  have hparents : ∀ s ∈ m.parentManifestId, PyStr.encodable s := fun s hs =>
    encodable_of_isManifestIdentifier (hvalid.parent s hs)
  have hitems : Writable (.arr (m.entries.map fun e => .obj (e.fields sha ft))) := by
    rw [writable_arr, List.forall_mem_map]
    exact fun e he => ManifestEntry.fields_writable (hentries e he)
  rw [writable_obj]
  simp only [identityFields, integers, List.forall_mem_cons, List.cons_append, List.nil_append, PyStr.encodable_py, writable_str, writable_nullable_str, writable_nullable_toJson,
    true_and, hid, hsample, hroot, hcreated, hitems, List.not_mem_nil, IsEmpty.forall_iff, implies_true,
    and_true, Option.mem_toList]
  tauto

theorem EnvironmentManifest.identityDict_eq (h : ∀ e ∈ m.entries, e.construct = .ok ()) :
    m.identityDict sha ft = .ok (m.identityFields sha ft) := by
  simp only [identityDict, bind_eq_ok, pure_eq_ok]
  refine ⟨_, ?_, rfl⟩
  rw [mapOk_ok, List.forall₂_map_right_iff, List.forall₂_same]
  exact fun e he => ManifestEntry.toDict_eq (h e he)

theorem EnvironmentManifest.manifestSha256_iff (h : ∀ e ∈ m.entries, e.construct = .ok ())
    {text : PyStr} : m.manifestSha256 sha ft = .ok text ↔
      Writable (.obj (m.identityFields sha ft)) ∧ text = m.digest sha ft := by
  rw [manifestSha256, identityDict_eq h, bind_eq_ok, digest, ← canonicalSha256_eq_ok plain]
  constructor
  · rintro ⟨identity, hidentity, hsha⟩
    cases hidentity
    exact hsha
  · intro hsha
    exact ⟨_, rfl, hsha⟩

/-- **A manifest has an identifier when it can be written.** -/
theorem EnvironmentManifest.manifestId_iff (h : ∀ e ∈ m.entries, e.construct = .ok ()) {text : PyStr} :
    m.manifestId sha ft = .ok text ↔ convertible m.manifestVersion.value ∧
      Writable (.obj (m.identityFields sha ft)) ∧ text = m.name sha ft := by
  simp only [manifestId, bind_eq_ok, manifestSha256_iff h, pure_eq_ok, format04]
  by_cases hversion : convertible m.manifestVersion.value
  · simp only [if_pos hversion, Except.ok.injEq]
    constructor
    · rintro ⟨_, rfl, _, ⟨hwritable, rfl⟩, rfl⟩
      exact ⟨hversion, hwritable, rfl⟩
    · rintro ⟨-, hwritable, rfl⟩
      exact ⟨_, rfl, _, ⟨hwritable, rfl⟩, rfl⟩
  · rw [if_neg hversion]
    constructor
    · rintro ⟨_, hversion', -⟩
      cases hversion'
    · rintro ⟨hversion', -⟩
      exact absurd hversion' hversion

theorem EnvironmentManifest.toDict_iff (h : ∀ e ∈ m.entries, e.construct = .ok ()) {j : Json} :
    m.toDict sha ft = .ok j ↔ convertible m.manifestVersion.value ∧
      Writable (.obj (m.identityFields sha ft)) ∧ j = .obj (m.fields sha ft) := by
  simp only [toDict, bind_eq_ok, identityDict_eq h, manifestSha256_iff h, manifestId_iff h, pure_eq_ok]
  constructor
  · rintro ⟨_, hidentity, _, ⟨hversion, -, rfl⟩, _, ⟨hwritable, rfl⟩, rfl⟩
    cases hidentity
    exact ⟨hversion, hwritable, rfl⟩
  · rintro ⟨hversion, hwritable, rfl⟩
    exact ⟨_, rfl, _, ⟨hversion, hwritable, rfl⟩, _, ⟨hwritable, rfl⟩, rfl⟩

theorem EnvironmentManifest.read_iff {value : List (PyStr × Json)} :
    read sha ft value = .ok m ∧ field (py "sample_id") value = .str m.sampleId ↔
      projectObject schema (.obj value) = .obj (m.identityFields sha ft) ∧
      field (py "generated_at_utc") value = .str m.generatedAtUtc ∧
      (∀ e ∈ m.entries, e.construct = .ok ()) ∧ (∀ n ∈ m.integers, n.IsInt) ∧
      (∀ s ∈ [m.sampleSha256, m.rootfsSnapshotId, m.createdByAttemptId, m.changeReason, m.generatedAtUtc],
        s ≠ []) ∧ m.parentManifestId ≠ some [] := by
  simp only [read, bind_eq_ok, pure_eq_ok, requireInt_iff, requireString_iff, requireList_iff,
    requireOptional_int_iff, requireOptional_string_iff,
    mapOk_iff fun j a => ManifestEntry.fromDict_iff (j := j) (e := a)]
  simp only [projectObject, schema, List.map_cons, List.map_nil, id, identityFields, Json.obj.injEq,
    List.cons.injEq, Prod.mk.injEq, true_and, and_true, integers, List.forall_mem_cons,
    List.cons_append, List.nil_append, List.not_mem_nil, IsEmpty.forall_iff, implies_true, projectArray_eq_arr, Option.mem_toList]
  constructor
  · rintro ⟨⟨items, h0, _, ⟨h1, i1⟩, _, ⟨h2, s2⟩, _, ⟨h3, i3⟩, _, ⟨h4, i4⟩, _, ⟨h5, s5⟩, _, ⟨h6, i6⟩, _,
      ⟨h7, s7⟩, _, ⟨h8, p8⟩, _, ⟨h9, s9⟩, _, ⟨h10, s10⟩, _, ⟨h11, s11⟩, rfl⟩, h12⟩
    exact ⟨⟨h3, h4, h12, h5, h6, h1, h2, h7, h9, h10, items, h0, h8⟩, h11, p8, ⟨i3, i4, i6, i1⟩,
      ⟨s5, s7, s9, s10, s11⟩, s2⟩
  · rintro ⟨⟨h3, h4, h12, h5, h6, h1, h2, h7, h9, h10, items, h0, h8⟩, h11, p8, ⟨i3, i4, i6, i1⟩,
      ⟨s5, s7, s9, s10, s11⟩, s2⟩
    exact ⟨⟨items, h0, _, ⟨h1, i1⟩, _, ⟨h2, s2⟩, _, ⟨h3, i3⟩, _, ⟨h4, i4⟩, _, ⟨h5, s5⟩, _, ⟨h6, i6⟩, _,
      ⟨h7, s7⟩, _, ⟨h8, p8⟩, _, ⟨h9, s9⟩, _, ⟨h10, s10⟩, _, ⟨h11, s11⟩, rfl⟩, h12⟩

theorem EnvironmentManifest.ne_nil_of_append {s t : PyStr} (h : s ≠ []) : s ++ t ≠ [] := by
  simp [h]

theorem EnvironmentManifest.Valid.texts_ne_nil (h : m.Valid iso) :
    (∀ s ∈ [m.sampleSha256, m.rootfsSnapshotId, m.createdByAttemptId, m.changeReason, m.generatedAtUtc],
      s ≠ []) ∧ m.parentManifestId ≠ some [] := by
  obtain ⟨t, htime⟩ := h.time
  simp only [List.forall_mem_cons, List.not_mem_nil, IsEmpty.forall_iff, implies_true, and_true]
  refine ⟨⟨ne_nil_of_isSha256 h.sample, ne_nil_of_matchesName h.rootfs, ne_nil_of_matchesName h.attempt,
    ne_nil_of_strip h.reason, ne_nil_of_parseTimestamp htime⟩, ?_⟩
  intro hnil
  exact ne_nil_of_matchesName (h.parent [] hnil) rfl

/-- **A manifest is accepted when it is one that can be written**, and it carries its own digest and
identifier. -/
theorem EnvironmentManifest.fromDict_iff {j : Json} : fromDict sha ft iso j = .ok m ↔
    ∃ value, j = .obj value ∧ projectObject schema (.obj value) = .obj (m.identityFields sha ft) ∧
      field (py "generated_at_utc") value = .str m.generatedAtUtc ∧
      field (py "manifest_id") value = .str (m.name sha ft) ∧
      field (py "manifest_sha256") value = .str (m.digest sha ft) ∧ m.construct iso = .ok () ∧
      (∀ n ∈ m.integers, n.Storable) ∧ PyStr.encodable m.changeReason := by
  have hints : m.construct iso = .ok () → (((∀ n ∈ m.integers, n.Storable) ∧
      PyStr.encodable m.changeReason) ↔ (∀ n ∈ m.integers, n.IsInt) ∧
        Writable (.obj (m.identityFields sha ft))) := by
    intro h
    rw [writable_iff h]
    simp only [PyInt.storable_iff, forall_and, PyInt.IsInt]
    tauto
  have hversion : (∀ n ∈ m.integers, n.Storable) → convertible m.manifestVersion.value := by
    intro h
    obtain ⟨k, hk, hconvertible⟩ := h m.manifestVersion (by simp [integers])
    rw [hk]
    exact hconvertible
  have hsample : m.sampleId ≠ [] := ne_nil_of_append (by decide)
  have hname : m.name sha ft ≠ [] := by
    rw [name, List.append_assoc, List.append_assoc]
    exact ne_nil_of_append (by decide)
  simp only [fromDict, bind_eq_ok, pure_eq_ok, requireDict_iff, requireString_iff, validateSha256_eq_ok,
    ensure_eq_ok]
  constructor
  · rintro ⟨value, hvalue, m', hread, _, hinit, _, ⟨hsampleId, -⟩, _, rfl, id', ⟨hid, -⟩, digest',
      ⟨hfield, -⟩, _, -, _, hsha, _, rfl, _, hmanifestId, _, rfl, rfl⟩
    obtain ⟨hproject, htime, hentries, hint, -⟩ := read_iff.mp ⟨hread, hsampleId⟩
    obtain ⟨hwritable, rfl⟩ := (manifestSha256_iff hentries).mp hsha
    obtain ⟨-, -, rfl⟩ := (manifestId_iff hentries).mp hmanifestId
    have hconstruct := construct_iff.mpr ⟨hentries, hinit⟩
    exact ⟨value, hvalue, hproject, htime, hid, hfield, hconstruct,
      (hints hconstruct).mpr ⟨hint, hwritable⟩⟩
  · rintro ⟨value, hvalue, hproject, htime, hid, hfield, hconstruct, hstorable⟩
    obtain ⟨hentries, hinit⟩ := construct_iff.mp hconstruct
    obtain ⟨hint, hwritable⟩ := (hints hconstruct).mp hstorable
    obtain ⟨htexts, hparent⟩ := (postInit_iff.mp hinit).texts_ne_nil
    obtain ⟨hread, hsampleId⟩ := read_iff.mpr ⟨hproject, htime, hentries, hint, htexts, hparent⟩
    have hsha := (manifestSha256_iff hentries).mpr ⟨hwritable, rfl⟩
    have hdigest : isSha256 (m.digest sha ft) := sha.isSha256_hexdigest _
    have hmanifestId := (manifestId_iff hentries).mpr ⟨hversion hstorable.1, hwritable, rfl⟩
    exact ⟨value, hvalue, m, hread, (), hinit, _, ⟨hsampleId, hsample⟩, (), rfl, _, ⟨hid, hname⟩, _,
      ⟨hfield, ne_nil_of_isSha256 hdigest⟩, (), hdigest, _, hsha, (), rfl, _, hmanifestId, (), rfl, rfl⟩

theorem EnvironmentManifest.fields_writable (h : m.construct iso = .ok ()) :
    Writable (.obj (m.fields sha ft)) ↔ (∀ n ∈ m.integers, Writable n.toJson) ∧
      (∀ s ∈ m.texts, PyStr.encodable s) ∧ convertible m.entries.length := by
  have hdigest : PyStr.encodable (m.digest sha ft) := encodable_of_isSha256 (sha.isSha256_hexdigest _)
  have hname : PyStr.encodable (m.name sha ft) := by
    have htake : PyStr.encodable ((m.digest sha ft).take 16) :=
      List.all_eq_true.mpr fun c hc => List.all_eq_true.mp hdigest c (List.mem_of_mem_take hc)
    have hversion : PyStr.encodable
        (List.replicate (4 - (decimal m.manifestVersion.value.natAbs).length) 0x30 ++
          decimal m.manifestVersion.value.natAbs) := by
      apply Json.encodable_of_ascii
      intro c hc
      rcases List.mem_append.mp hc with hc | hc
      · rw [List.eq_of_mem_replicate hc]
        omega
      · exact (Json.printable_of_mem_decimal hc).2
    rw [name, PyStr.encodable_append, PyStr.encodable_append, PyStr.encodable_append, hversion, htake,
      PyStr.encodable_py, PyStr.encodable_py]
    rfl
  rw [fields, writable_append, writable_iff h, writable_obj]
  simp only [List.forall_mem_cons, PyStr.encodable_py, writable_str, hname, hdigest, summary_writable,
    texts, true_and, List.not_mem_nil, IsEmpty.forall_iff, implies_true, and_true, and_assoc]

/-- **A manifest is read back exactly when it is storable.** -/
theorem EnvironmentManifest.reload_iff (h : m.construct iso = .ok ()) :
    (manifestDocument sha ft iso).reload ft m = .ok m ↔ m.Storable := by
  obtain ⟨hentries, hinit⟩ := construct_iff.mp h
  apply Document.reload_iff
  · intro j hdict
    obtain ⟨-, -, rfl⟩ := (toDict_iff hentries).mp hdict
    refine ⟨fields_plain, ?_⟩
    intro hwritable hfrom
    obtain ⟨-, htexts, hlength⟩ := (fields_writable h).mp hwritable
    obtain ⟨value, -, -, -, -, -, -, hints, -⟩ := fromDict_iff.mp hfrom
    exact ⟨hints, htexts, hlength⟩
  · rintro ⟨hints, htexts, hlength⟩
    have hwrite : ∀ n ∈ m.integers, Writable n.toJson := fun n hn => (PyInt.storable_iff.mp (hints n hn)).2
    obtain ⟨k, hk, hconvertible⟩ := hints m.manifestVersion (by simp [integers])
    have hversion : convertible m.manifestVersion.value := by
      rw [hk]
      exact hconvertible
    have hreason : PyStr.encodable m.changeReason := htexts _ (by simp [texts])
    have hidentity : Writable (.obj (m.identityFields sha ft)) := (writable_iff h).mpr ⟨hwrite, hreason⟩
    refine ⟨_, (toDict_iff hentries).mpr ⟨hversion, hidentity, rfl⟩,
      (fields_writable h).mpr ⟨hwrite, htexts, hlength⟩, ?_⟩
    refine fromDict_iff.mpr ⟨_, rfl, ?_, ?_, ?_, ?_, h, hints, hreason⟩
    · apply projectObject_append fields_nodup
      have hparts : projectArray (projectObject ManifestEntry.schema)
          (.arr (m.entries.map fun e => .obj (e.fields sha ft))) =
            .arr (m.entries.map fun e => .obj (e.fields sha ft)) := by
        simp only [projectArray, List.map_map]
        congr 1
        apply List.map_congr_left
        intro e _
        exact ManifestEntry.projectObject_fields
      simp [schema, identityFields, hparts]
    all_goals exact field_of_mem fields_nodup (by simp [fields])

theorem EnvironmentManifest.tamperEvident : (manifestDocument sha ft iso).TamperEvident sha ft
    (py "manifest_sha256") (projectObject schema) := by
  have hread : ∀ raw v, fromDict sha ft iso raw = .ok v →
      projectObject schema raw = .obj (v.identityFields sha ft) := by
    intro raw v h
    obtain ⟨value, rfl, hproject, -⟩ := fromDict_iff.mp h
    exact hproject
  apply Document.tamperEvident (fun v j => j = .obj (v.identityFields sha ft)) hread
  · rintro v - rfl
    exact plain
  · rintro v v' - - rfl rfl
    exact sameKeys
  · intro raw v h
    obtain ⟨value, rfl, hproject, -, -, hfield, hconstruct, hints, hreason⟩ := fromDict_iff.mp h
    rw [hproject]
    refine ⟨_, hfield, (canonicalSha256_eq_ok plain).mpr ⟨?_, rfl⟩⟩
    exact (writable_iff hconstruct).mpr ⟨fun n hn => (PyInt.storable_iff.mp (hints n hn)).2, hreason⟩

end Manifest

/-! ### All documents -/

/-- **A contract, result or manifest is read back as it was exactly when it is storable**: its integers are
not booleans and not too large for a decimal text, its strings can be encoded, and the reason of a progress
is not the empty string.  Of each document that is accepted, the digest is made from the identity fields,
so with this digest none of them can be changed. -/
theorem documents_reload (sha : Sha256) (ft : FloatText) (iso : IsoFormat) :
    (∀ c : AttemptContract, c.postInit iso = .ok () →
      ((contractDocument sha ft iso).reload ft c = .ok c ↔ c.Storable)) ∧
    (∀ r : AttemptResult, r.construct iso = .ok () →
      ((resultDocument sha ft iso).reload ft r = .ok r ↔ r.Storable)) ∧
    (∀ m : EnvironmentManifest, m.construct iso = .ok () →
      ((manifestDocument sha ft iso).reload ft m = .ok m ↔ m.Storable)) ∧
    (contractDocument sha ft iso).TamperEvident sha ft (py "contract_sha256")
      (projectObject AttemptContract.schema) ∧
    (resultDocument sha ft iso).TamperEvident sha ft (py "result_sha256")
      (projectObject AttemptResult.schema) ∧
    (manifestDocument sha ft iso).TamperEvident sha ft (py "manifest_sha256")
      (projectObject EnvironmentManifest.schema) :=
  ⟨fun _ => AttemptContract.reload_iff, fun _ => AttemptResult.reload_iff,
    fun _ => EnvironmentManifest.reload_iff, AttemptContract.tamperEvident, AttemptResult.tamperEvident,
    EnvironmentManifest.tamperEvident⟩

/-- One point in time is known. -/
def isoOne : IsoFormat where
  parse text := if text = py "2026-01-01T00:00:00+00:00" then some ⟨0, true⟩ else none
  parse_nil := by decide

/-- A result of an attempt that exited, with an empty reason. -/
def emptyReason : AttemptResult where
  attemptId := py "attempt-1"
  contractSha256 := List.replicate 64 0x30
  outcome := .exited
  initialStage := .staticPreflight
  finalStage := .staticPreflight
  progress :=
    { goalReached := false, oracleReason := some [], guestEventsTotal := .int 0, coverageEdges := none,
      observationSha256 := none }
  transitions := []
  failureFingerprint := none
  startedAtUtc := py "2026-01-01T00:00:00+00:00"
  finishedAtUtc := py "2026-01-01T00:00:00+00:00"
  schemaVersion := .int 1
  resultVersion := .int 1

/-- **A progress that was not successful may have the empty reason, which the loader refuses.** -/
theorem emptyReason_not_reloaded : emptyReason.construct isoOne = .ok () ∧
    ∀ sha ft, (resultDocument sha ft isoOne).reload ft emptyReason ≠ .ok emptyReason := by
  have hconstruct : emptyReason.construct isoOne = .ok () := by decide
  refine ⟨hconstruct, ?_⟩
  intro sha ft hreload
  obtain ⟨-, -, hprogress, -⟩ := (AttemptResult.reload_iff hconstruct).mp hreload
  exact hprogress.1 rfl

end TaintForge
