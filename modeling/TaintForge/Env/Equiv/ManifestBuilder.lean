import TaintForge.Env.Equiv.ManifestMerge

/-!
# The manifest after a completed repair

The builder reads the report of the applier back, makes an entry for each directory and merges it into the
manifest of the attempt.

* `recordResults_iff`: when all results of a report are recorded, and what is recorded then.
* `admissible_of_derive`, `derive_of_admissible`: when the next manifest is derived.
* `repair_stages_agree`: the planner, the applier and the builder agree exactly when the targets are no
  other files, the paths make names and the evidence is new.
-/

namespace TaintForge

/-! ### The results of a report -/

section Results

variable {sha : Sha256} {ft : FloatText} {display : PyDisplay} {fs : Rootfs} {contract : AttemptContract}
  {plan : RepairPlan} {observationSha256 applicationSha256 : PyStr} {d : RepairDecision}
  {r : RepairDecisionResult} {fields : List (PyStr × Json)} {recorded next : Recorded}

/-- The fields of a result that is read back. -/
theorem fields_of_toDict (h : r.toDict = .obj fields) :
    field (py "decision_id") fields = .str r.decisionId ∧
      field (py "requirement_id") fields = .str r.requirementId ∧
      field (py "action") fields = .str r.action ∧ field (py "resource") fields = .str r.resource ∧
      field (py "status") fields = .str r.status.value := by
  cases h
  exact ⟨rfl, rfl, rfl, rfl, rfl⟩

/-- An element is found under its key when the keys differ. -/
theorem find?_of_nodup {α : Type} {key : α → PyStr} {l : List α} (hnodup : (l.map key).Nodup) {a : α}
    (ha : a ∈ l) : (l.find? fun b => key b == key a) = some a := by
  cases hfind : l.find? fun b => key b == key a with
  | none => exact absurd (List.find?_eq_none.mp hfind a ha) (by simp)
  | some b =>
    have hkey : key b = key a := by simpa using List.find?_some hfind
    rw [List.inj_on_of_nodup_map hnodup (List.mem_of_find?_eq_some hfind) ha hkey]

/-- The steps of the loop, for the result of a decision that was not seen before. -/
theorem recordResult_iff (hids : (plan.decisions.map RepairDecision.decisionId).Nodup)
    (hd : d ∈ plan.decisions) (hne : d.decisionId ≠ [])
    (happlicable : d.automaticAllowed → d.disposition = .autoCandidate ∧ d.action = .createDirectory)
    (hreports : Reports d r) (hfields : r.toDict = .obj fields)
    (hnew : d.decisionId ∉ recorded.seenDecisions) :
    recordResult sha ft display fs contract plan observationSha256 applicationSha256 recorded fields =
        .ok next ↔
      (¬ d.automaticAllowed ∧
        next = { recorded with seenDecisions := recorded.seenDecisions ++ [d.decisionId] }) ∨
      (d.automaticAllowed ∧ ∃ replacement entries,
        directoryEntry sha ft fs contract d observationSha256 applicationSha256 = .ok replacement ∧
        mergeEntry display recorded.entries replacement = .ok entries ∧
        next = ⟨entries, recorded.selectedTotal + 1, recorded.seenDecisions ++ [d.decisionId]⟩) := by
  obtain ⟨hid, hrequirement, haction, hresource, hstatus⟩ := fields_of_toDict hfields
  rw [hreports.decisionId] at hid
  rw [hreports.requirementId] at hrequirement
  rw [hreports.action] at haction
  rw [hreports.resource] at hresource
  have hfind := find?_of_nodup hids hd
  have hvalue : ∀ status : RepairResultStatus, status.value ≠ [] := by
    intro status
    cases status <;> decide
  simp only [recordResult, hid, hrequirement, haction, hresource, hstatus, requiredString, if_neg hne,
    if_neg (hvalue _), isText, bind_eq_ok, check_eq_ok, Except.ok.injEq, exists_eq_left', hnew,
    not_false_eq_true, hfind, beq_self_eq_true, exists_const, true_and]
  by_cases hauto : d.automaticAllowed
  · obtain ⟨hdisposition, haction⟩ := happlicable hauto
    have hselected : r.status.value ∈ [py "applied", py "already_satisfied"] ∧
        r.status.value ≠ py "not_selected" := by
      rcases hreports.selected hauto with h | h
      · rw [h]
        decide
      · rw [h]
        decide
    rw [if_pos hauto, or_iff_right fun h => h.1 hauto, and_iff_right hauto]
    simp only [bind_eq_ok, check_eq_ok, hdisposition, hselected.1, haction, if_neg hselected.2, exists_const,
      true_and, pure_eq_ok]
    constructor
    · rintro ⟨replacement, hreplacement, entries, hentries, rfl⟩
      exact ⟨replacement, entries, hreplacement, hentries, rfl⟩
    · rintro ⟨replacement, entries, hreplacement, hentries, rfl⟩
      exact ⟨replacement, hreplacement, entries, hentries, rfl⟩
  · have hpassed : r.status.value = py "not_selected" := by
      rw [hreports.passed hauto]
      rfl
    rw [if_neg hauto, or_iff_left fun h => hauto h.1, and_iff_right hauto]
    simp only [bind_eq_ok, check_eq_ok, hpassed, if_true, exists_const, true_and, pure_eq_ok]
    exact eq_comm

/-- The evidence of two decisions agrees. -/
theorem decisionEvidence_agree {e : RepairDecision} (hne : e.decisionId ≠ d.decisionId) :
    Agree (decisionEvidence contract e observationSha256 applicationSha256)
      (decisionEvidence contract d observationSha256 applicationSha256) := by
  intro v hv w hw heq
  simp only [decisionEvidence, List.mem_cons, List.not_mem_nil, or_false] at hv hw
  rcases hv with rfl | rfl
  · rcases hw with rfl | rfl
    · rfl
    · exact absurd heq (evidence_sorted contract d observationSha256 applicationSha256).ne
  · rcases hw with rfl | rfl
    · exact absurd heq.symm (evidence_sorted contract e observationSha256 applicationSha256).ne
    · exact absurd (List.append_cancel_left heq) hne

/-- The decision gets an entry: its path makes a name, and its evidence agrees with that of the manifest. -/
def Admissible (parent : List ManifestEntry) (contract : AttemptContract)
    (observationSha256 applicationSha256 : PyStr) (d : RepairDecision) : Prop :=
  Nameable d.resource ∧ Fresh parent (py "fs:" ++ d.resource)
    (decisionEvidence contract d observationSha256 applicationSha256)

variable {parent : List ManifestEntry} {done : List RepairDecision}

/-- **What the loop has recorded** after the results of some decisions. -/
structure RecordedFor (parent : List ManifestEntry) (contract : AttemptContract)
    (observationSha256 applicationSha256 : PyStr) (done : List RepairDecision) (recorded : Recorded) :
    Prop where
  valid : Entries recorded.entries
  seen : recorded.seenDecisions = done.map RepairDecision.decisionId
  total : recorded.selectedTotal = (done.filter RepairDecision.automaticAllowed).length
  evidenced : ∀ id v, Evidenced recorded.entries id v ↔ Evidenced parent id v ∨
    ∃ d ∈ done, d.automaticAllowed ∧ id = py "fs:" ++ d.resource ∧
      v ∈ decisionEvidence contract d observationSha256 applicationSha256
  kind : ∀ d ∈ done, d.automaticAllowed → HasKind recorded.entries (py "fs:" ++ d.resource) .directory

/-- Evidence of a new decision agrees with what was recorded when it agrees with the manifest. -/
theorem RecordedFor.fresh_iff
    (h : RecordedFor parent contract observationSha256 applicationSha256 done recorded)
    (hnew : d.decisionId ∉ done.map RepairDecision.decisionId) (id : PyStr) :
    Fresh recorded.entries id (decisionEvidence contract d observationSha256 applicationSha256) ↔
      Fresh parent id (decisionEvidence contract d observationSha256 applicationSha256) := by
  constructor
  · exact fun hfresh v hv => hfresh v ((h.evidenced id v).mpr (Or.inl hv))
  · intro hfresh v hv w hw heq
    rcases (h.evidenced id v).mp hv with hv | ⟨e, he, -, -, hv⟩
    · exact hfresh v hv w hw heq
    · have hne : e.decisionId ≠ d.decisionId := fun h => hnew (h ▸ List.mem_map_of_mem he)
      exact decisionEvidence_agree hne v hv w hw heq

/-- A decision that is passed over changes nothing but the list of what was seen. -/
theorem RecordedFor.pass
    (h : RecordedFor parent contract observationSha256 applicationSha256 done recorded)
    (hmanual : ¬ d.automaticAllowed) :
    RecordedFor parent contract observationSha256 applicationSha256 (done ++ [d])
      { recorded with seenDecisions := recorded.seenDecisions ++ [d.decisionId] } where
  valid := h.valid
  seen := by rw [h.seen, List.map_append, List.map_singleton]
  total := by
    rw [h.total, List.filter_append, List.filter_singleton, eq_false_of_ne_true hmanual, cond_false,
      List.append_nil]
  evidenced id v := by
    rw [h.evidenced]
    simp only [List.mem_append, List.mem_singleton, or_and_right, exists_or, exists_eq_left, hmanual]
    simp
  kind e he hauto := by
    rcases List.mem_append.mp he with he | he
    · exact h.kind e he hauto
    · rw [List.mem_singleton.mp he] at hauto
      exact absurd hauto hmanual

/-- A decision that was carried out gets its evidence and its entry. -/
theorem RecordedFor.take
    (h : RecordedFor parent contract observationSha256 applicationSha256 done recorded)
    (hauto : d.automaticAllowed) {mode : ℕ} {entries : List ManifestEntry}
    (hmerged : Merged recorded.entries
      (directoryOf sha ft contract d observationSha256 applicationSha256 mode) entries) :
    RecordedFor parent contract observationSha256 applicationSha256 (done ++ [d])
      ⟨entries, recorded.selectedTotal + 1, recorded.seenDecisions ++ [d.decisionId]⟩ where
  valid := hmerged.valid
  seen := by rw [h.seen, List.map_append, List.map_singleton]
  total := by
    rw [h.total, List.filter_append, List.filter_singleton, hauto, cond_true, List.length_append]
    rfl
  evidenced id v := by
    rw [hmerged.evidenced, h.evidenced, or_assoc]
    simp only [List.mem_append, List.mem_singleton, or_and_right, exists_or, exists_eq_left, hauto, true_and]
    rfl
  kind e he hauto' := by
    rcases List.mem_append.mp he with he | he
    · by_cases hsame : py "fs:" ++ e.resource = py "fs:" ++ d.resource
      · rw [hsame]
        exact hmerged.kind
      · exact (hmerged.others _ hsame _).mpr (h.kind e he hauto')
    · rw [List.mem_singleton.mp he]
      exact hmerged.kind

/-- The decisions of a plan that was carried out, and what their entries are made from. -/
structure CarriedOut (sha : Sha256) (fs : Rootfs) (contract : AttemptContract) (plan : RepairPlan)
    (observationSha256 applicationSha256 : PyStr) : Prop where
  ids : (plan.decisions.map RepairDecision.decisionId).Nodup
  named : ∀ d ∈ plan.decisions, d.decisionId ≠ []
  recordable : ∀ d ∈ plan.decisions, d.automaticAllowed →
    Recordable sha contract d observationSha256 applicationSha256
  isDir : ∀ d ∈ plan.decisions, d.automaticAllowed → fs.IsDir (guestComponents d.resource)

variable (ft display) in
/-- **One result**: it is recorded exactly when its decision gets an entry. -/
theorem recordResult_step (hplan : CarriedOut sha fs contract plan observationSha256 applicationSha256)
    (h : RecordedFor parent contract observationSha256 applicationSha256 done recorded)
    (hd : d ∈ plan.decisions) (hnew : d.decisionId ∉ done.map RepairDecision.decisionId)
    (hreports : Reports d r) (hfields : r.toDict = .obj fields) :
    ((∃ next, recordResult sha ft display fs contract plan observationSha256 applicationSha256 recorded
        fields = .ok next) ↔
      (d.automaticAllowed → Admissible parent contract observationSha256 applicationSha256 d)) ∧
    ∀ next, recordResult sha ft display fs contract plan observationSha256 applicationSha256 recorded
        fields = .ok next →
      RecordedFor parent contract observationSha256 applicationSha256 (done ++ [d]) next := by
  have hstep : ∀ next, recordResult sha ft display fs contract plan observationSha256 applicationSha256
      recorded fields = .ok next ↔ _ ∨ _ := fun next =>
    recordResult_iff hplan.ids hd (hplan.named d hd)
      (fun hauto => ⟨(hplan.recordable d hd hauto).applicable.disposition,
        (hplan.recordable d hd hauto).applicable.action⟩) hreports hfields (h.seen ▸ hnew)
  simp only [hstep]
  by_cases hauto : d.automaticAllowed
  · have hrecordable := hplan.recordable d hd hauto
    obtain ⟨mode, hentry⟩ := directoryEntry_iff ft hrecordable (hplan.isDir d hd hauto)
    have hfresh := h.fresh_iff hnew (py "fs:" ++ d.resource)
    constructor
    · constructor
      · rintro ⟨next, ⟨hmanual, -⟩ | ⟨-, replacement, entries, hreplacement, hentries, -⟩⟩ -
        · exact absurd hauto hmanual
        · obtain ⟨hname, rfl⟩ := (hentry replacement).mp hreplacement
          have hmerge := (mergeEntry_iff display h.valid (directoryOf_construct ft hrecordable hname mode)).mp
            ⟨entries, hentries⟩
          exact ⟨hname, hfresh.mp hmerge⟩
      · intro hadmissible
        obtain ⟨hname, hagree⟩ := hadmissible hauto
        obtain ⟨entries, hentries⟩ := (mergeEntry_iff display h.valid
          (directoryOf_construct ft hrecordable hname mode)).mpr (hfresh.mpr hagree)
        exact ⟨_, Or.inr ⟨hauto, _, entries, (hentry _).mpr ⟨hname, rfl⟩, hentries, rfl⟩⟩
    · rintro next (⟨hmanual, -⟩ | ⟨-, replacement, entries, hreplacement, hentries, rfl⟩)
      · exact absurd hauto hmanual
      · obtain ⟨hname, rfl⟩ := (hentry replacement).mp hreplacement
        exact h.take hauto (mergeEntry_merged h.valid (directoryOf_construct ft hrecordable hname mode) hentries)
  · constructor
    · exact iff_of_true ⟨_, Or.inl ⟨hauto, rfl⟩⟩ fun h => absurd h hauto
    · rintro next (⟨-, rfl⟩ | ⟨hauto', -⟩)
      · exact h.pass hauto
      · exact absurd hauto' hauto

variable (ft display) in
/-- **All results of a report**, in whatever order they are read. -/
theorem recordResults_iff (hplan : CarriedOut sha fs contract plan observationSha256 applicationSha256)
    {decisions : List RepairDecision} {results : List (List (PyStr × Json))}
    (hresults : List.Forall₂ (fun d fields => ∃ r, Reports d r ∧ r.toDict = .obj fields) decisions results)
    (hsub : ∀ d ∈ decisions, d ∈ plan.decisions)
    (hnodup : ((done ++ decisions).map RepairDecision.decisionId).Nodup)
    (h : RecordedFor parent contract observationSha256 applicationSha256 done recorded) :
    ((∃ out, recordResults sha ft display fs contract plan observationSha256 applicationSha256 recorded
        results = .ok out) ↔
      ∀ d ∈ decisions, d.automaticAllowed →
        Admissible parent contract observationSha256 applicationSha256 d) ∧
    ∀ out, recordResults sha ft display fs contract plan observationSha256 applicationSha256 recorded
        results = .ok out →
      RecordedFor parent contract observationSha256 applicationSha256 (done ++ decisions) out := by
  induction hresults generalizing done recorded with
  | nil =>
    constructor
    · exact iff_of_true ⟨recorded, rfl⟩ (by simp)
    · rintro out hout
      cases hout
      rwa [List.append_nil]
  | @cons d fields decisions results hhead _ ih =>
    obtain ⟨r, hreports, hfields⟩ := hhead
    have hd := hsub d List.mem_cons_self
    have hassoc : done ++ d :: decisions = done ++ [d] ++ decisions := by simp
    have hnew : d.decisionId ∉ done.map RepairDecision.decisionId := by
      rw [List.map_append, List.nodup_append] at hnodup
      intro hmem
      exact hnodup.2.2 _ hmem _ List.mem_cons_self rfl
    obtain ⟨hiff, hnext⟩ := recordResult_step ft display hplan h hd hnew hreports hfields
    rw [hassoc] at hnodup ⊢
    have hrest : ∀ next, recordResult sha ft display fs contract plan observationSha256 applicationSha256
        recorded fields = .ok next → _ := fun next hok =>
      ih (fun e he => hsub e (List.mem_cons_of_mem _ he)) hnodup (hnext next hok)
    simp only [recordResults, bind_eq_ok, List.forall_mem_cons]
    constructor
    · constructor
      · rintro ⟨out, next, hok, hout⟩
        exact ⟨hiff.mp ⟨next, hok⟩, (hrest next hok).1.mp ⟨out, hout⟩⟩
      · rintro ⟨hfirst, hothers⟩
        obtain ⟨next, hok⟩ := hiff.mpr hfirst
        obtain ⟨out, hout⟩ := (hrest next hok).1.mpr hothers
        exact ⟨out, next, hok, hout⟩
    · rintro out ⟨next, hok, hout⟩
      exact (hrest next hok).2 out hout

end Results

/-! ### The next manifest -/

/-- What the next manifest is derived from. -/
structure RepairInputs where
  now : PyStr
  parent : EnvironmentManifest
  rootfsSnapshotId : PyStr
  contract : AttemptContract
  result : AttemptResult
  evidence : RepairEvidence

/-- The evidence that the attempt of some inputs gives for a decision. -/
def RepairInputs.evidenceOf (inputs : RepairInputs) (d : RepairDecision) : List ManifestEvidence :=
  decisionEvidence inputs.contract d inputs.evidence.observation.sha256
    inputs.evidence.repairApplication.sha256

/-- Inputs that belong together: the plan was applied to the end, the files say so, and the attempt refers
to the parent manifest. -/
structure CompletedRepair (sha : Sha256) (ft : FloatText) (iso : IsoFormat) (p : RepairPlan)
    (inputs : RepairInputs) : Prop where
  applied : ∃ fails umask requirementsSha256 rootfs dryRun report after,
    (applyFile sha.hexdigest {} fails umask p inputs.evidence.repairPlan.sha256 requirementsSha256 rootfs
      dryRun).result = .ok report ∧
    (applyFile sha.hexdigest {} fails umask p inputs.evidence.repairPlan.sha256 requirementsSha256 rootfs
      dryRun).rootfs = .directory after ∧
    report.state = .completed ∧ inputs.evidence.rootfs = some after ∧
    inputs.evidence.repairApplication.content = .ok report.toDict
  files : inputs.evidence.repairPlan.regular ∧ inputs.evidence.repairApplication.regular ∧
    inputs.evidence.observation.regular
  plan : inputs.evidence.repairPlan.content = .ok p
  observation : ∃ o, inputs.evidence.observation.content = .ok o ∧
    o.repairPlanSha256 = inputs.evidence.repairPlan.sha256 ∧ o.requirementsSha256 = p.sourceSha256
  observed : inputs.result.progress.observationSha256 = some inputs.evidence.observation.sha256
  parent : inputs.parent.construct iso = .ok ()
  contract : inputs.contract.postInit iso = .ok ()
  result : inputs.result.construct iso = .ok ()
  sample : inputs.contract.sampleSha256 = inputs.parent.sampleSha256
  manifest : inputs.parent.manifestId sha ft = .ok inputs.contract.environmentManifestId
  version : inputs.contract.environmentManifestVersion.value = inputs.parent.manifestVersion.value
  attempt : inputs.result.attemptId = inputs.contract.attemptId
  contractSha256 : inputs.contract.contractSha256 sha ft = .ok inputs.result.contractSha256
  outcome : inputs.result.outcome = .repairRequired
  snapshot : isManifestIdentifier inputs.rootfsSnapshotId
  now : ∃ t, parseTimestamp iso (py "generated_at_utc") inputs.now = .ok t

/-- A valid next version with an entry, and with the evidence of the attempt, for each automatic decision. -/
structure NextManifest (iso : IsoFormat) (p : RepairPlan) (inputs : RepairInputs)
    (m : EnvironmentManifest) : Prop where
  construct : m.construct iso = .ok ()
  version : m.manifestVersion.value = inputs.parent.manifestVersion.value + 1
  parent : m.parentManifestId = some inputs.contract.environmentManifestId
  snapshot : m.rootfsSnapshotId = inputs.rootfsSnapshotId
  entry : ∀ d ∈ p.decisions, d.automaticAllowed → ∃ e ∈ m.entries,
    e.resourceId = py "fs:" ++ d.resource ∧ e.kind = .directory ∧ ∀ v ∈ inputs.evidenceOf d, v ∈ e.evidence

theorem PyStr.strip_cons_ne_nil {c : ℕ} {s : PyStr} (h : ¬ isSpace c) : strip (c :: s) ≠ [] := by
  intro hnil
  have hleft : lstrip (c :: s) = c :: s := List.dropWhile_cons_of_neg h
  rw [strip, hleft] at hnil
  exact h (List.rdropWhile_eq_nil_iff.mp hnil c List.mem_cons_self)

section Derive

variable {sha : Sha256} {ft : FloatText} {iso : IsoFormat} {display : PyDisplay} {p : RepairPlan}
  {inputs : RepairInputs}

theorem AttemptContract.postInit_attemptId {c : AttemptContract} (h : c.postInit iso = .ok ()) :
    isAttemptIdentifier c.attemptId ∧ isAttemptIdentifier c.environmentManifestId := by
  simp only [postInit, bind_eq_ok, ensure_eq_ok, validateSha256_eq_ok] at h
  obtain ⟨_, -, _, -, _, hid, _, -, _, -, _, -, _, hmanifest, -⟩ := h
  exact ⟨hid, hmanifest⟩

/-- The next version of a manifest is valid when its entries are. -/
theorem derive_valid (h : CompletedRepair sha ft iso p inputs) {entries : List ManifestEntry}
    (hentries : Entries entries) (n : ℕ) :
    ∃ m, inputs.parent.derive sha ft iso inputs.now inputs.rootfsSnapshotId entries
        inputs.contract.attemptId (py "Recorded " ++ decimal n ++
          py " deterministic repair result(s) from " ++ inputs.contract.attemptId ++ py ".") = .ok m ∧
      m.construct iso = .ok () ∧ m.manifestVersion.value = inputs.parent.manifestVersion.value + 1 ∧
      m.parentManifestId = some inputs.contract.environmentManifestId ∧
      m.rootfsSnapshotId = inputs.rootfsSnapshotId ∧ ∀ e, e ∈ m.entries ↔ e ∈ entries := by
  obtain ⟨hattempt, hmanifest⟩ := AttemptContract.postInit_attemptId h.contract
  obtain ⟨-, hinit⟩ := EnvironmentManifest.construct_iff.mp h.parent
  have hparent := EnvironmentManifest.postInit_iff.mp hinit
  simp only [EnvironmentManifest.derive, h.manifest, bind_eq_ok, pure_eq_ok, Except.ok.injEq,
    exists_eq_left']
  have hvalid : EnvironmentManifest.Valid iso
      { sampleSha256 := inputs.parent.sampleSha256
        manifestVersion := .int (inputs.parent.manifestVersion.value + 1)
        rootfsSnapshotId := inputs.rootfsSnapshotId
        entries := entries.insertionSort fun a b => a.resourceId ≤ b.resourceId
        createdByAttemptId := inputs.contract.attemptId
        changeReason := py "Recorded " ++ decimal n ++
          py " deterministic repair result(s) from " ++ inputs.contract.attemptId ++ py "."
        parentVersion := some inputs.parent.manifestVersion
        parentManifestId := some inputs.contract.environmentManifestId
        schemaVersion := .int 2
        modelVersion := .int 1
        generatedAtUtc := inputs.now } :=
    { schema := rfl
      model := rfl
      sample := hparent.sample
      version := by
        show 0 ≤ inputs.parent.manifestVersion.value + 1
        have hversion := hparent.version
        omega
      rootfs := h.snapshot
      attempt := (isManifestIdentifier_of_isAttemptIdentifier hattempt).1
      reason := by
        apply PyStr.strip_cons_ne_nil
        decide
      time := h.now
      seed := by
        intro hzero
        have hversion := hparent.version
        have hzero' : inputs.parent.manifestVersion.value + 1 = 0 := hzero
        omega
      child := by
        intro _
        refine ⟨?_, _, rfl, (isManifestIdentifier_of_isAttemptIdentifier hmanifest).1⟩
        show some inputs.parent.manifestVersion.value =
          some (inputs.parent.manifestVersion.value + 1 - 1)
        rw [add_sub_cancel_right]
      sorted := map_insertionSort_pairwise _ entries
      nodup := (((List.perm_insertionSort _ entries).map _).nodup_iff).mpr hentries.nodup }
  have hconstruct := EnvironmentManifest.postInit_iff.mpr hvalid
  refine ⟨_, ⟨(), hconstruct, rfl⟩, EnvironmentManifest.construct_iff.mpr ⟨?_, hconstruct⟩, rfl, rfl, rfl, ?_⟩
  · exact fun e he => hentries.construct e ((List.mem_insertionSort _).mp he)
  · exact fun e => List.mem_insertionSort _

/-- The fields of a result. -/
def RepairDecisionResult.fields (r : RepairDecisionResult) : List (PyStr × Json) :=
  [(py "decision_id", .str r.decisionId), (py "requirement_id", .str r.requirementId),
    (py "action", .str r.action), (py "resource", .str r.resource), (py "status", .str r.status.value),
    (py "reason", .str r.reason)]

theorem requiredObjects_results (results : List RepairDecisionResult) :
    requiredObjects (.arr (results.map RepairDecisionResult.toDict)) =
      .ok (results.map RepairDecisionResult.fields) := by
  have hobjects : (results.map RepairDecisionResult.toDict).mapM asObject =
      some (results.map RepairDecisionResult.fields) := by
    induction results with
    | nil => rfl
    | cons r rest ih =>
      rw [List.map_cons, List.mapM_cons, ih]
      rfl
  unfold requiredObjects
  dsimp only
  rw [hobjects]

/-- The fields of a report that is read back. -/
theorem fields_of_report {report : RepairApplicationReport} {fields : List (PyStr × Json)}
    (h : report.toDict = .obj fields) :
    field (py "schema_version") fields = .int 1 ∧ field (py "applier_version") fields = .int 1 ∧
      field (py "state") fields = .str report.state.value ∧
      field (py "plan_sha256") fields = .str report.planSha256 ∧
      field (py "requirements_sha256") fields = .str report.requirementsSha256 ∧
      field (py "dry_run") fields = .bool report.dryRun ∧
      field (py "results") fields = .arr (report.results.map RepairDecisionResult.toDict) := by
  cases h
  exact ⟨rfl, rfl, rfl, rfl, rfl, rfl, rfl⟩

variable (display) in
/-- **The way to the next manifest**, for inputs that belong together. -/
theorem derive_iff_recorded (h : CompletedRepair sha ft iso p inputs)
    (happlicable : ∀ d ∈ p.decisions, d.automaticAllowed → Applicable {} d) :
    ∃ results after,
      List.Forall₂ Reports p.decisions results ∧
      CarriedOut sha after inputs.contract p inputs.evidence.observation.sha256
        inputs.evidence.repairApplication.sha256 ∧
      ∀ m, deriveEnvironmentManifestFromRepair sha ft iso display inputs.now inputs.parent
          inputs.rootfsSnapshotId inputs.contract inputs.result inputs.evidence = .ok m ↔
        ∃ recorded, recordResults sha ft display after inputs.contract p
            inputs.evidence.observation.sha256 inputs.evidence.repairApplication.sha256
            ⟨inputs.parent.entries, 0, []⟩ ((results.map RepairDecisionResult.fields).insertionSort
              fun a b => resultKey display a ≤ resultKey display b) = .ok recorded ∧
          (p.decisions.map RepairDecision.decisionId).filter (· ∉ recorded.seenDecisions) = [] ∧
          recorded.selectedTotal ≠ 0 ∧
          inputs.parent.derive sha ft iso inputs.now inputs.rootfsSnapshotId recorded.entries
            inputs.contract.attemptId (py "Recorded " ++ decimal recorded.selectedTotal ++
              py " deterministic repair result(s) from " ++ inputs.contract.attemptId ++ py ".") = .ok m := by
  obtain ⟨fails, umask, requirementsSha256, rootfs, dryRun, report, after, hreport, hafter, hstate, hrootfs,
    happlication⟩ := h.applied
  obtain ⟨hload, hrequirements, hplanSha, hrequirementsSha, hreal, hresults, hdirs⟩ :=
    completed_reports hreport hafter hstate
  obtain ⟨o, ho, hoplan, horequirements⟩ := h.observation
  obtain ⟨hplanFile, happlicationFile, hobservationFile⟩ := h.files
  refine ⟨report.results, after, hresults, ?_, fun m => ?_⟩
  · obtain ⟨-, hids, -⟩ := RepairPlan.load_ok hload
    refine ⟨hids, fun d hd => (RepairPlan.load_ids hload hd).2.1, fun d hd hauto => ?_, hdirs⟩
    obtain ⟨hencodable, -, hid⟩ := RepairPlan.load_ids hload hd
    exact ⟨happlicable d hd hauto, (AttemptContract.postInit_attemptId h.contract).1, hencodable, hid,
      inputs.evidence.observation.isSha256_sha256, inputs.evidence.repairApplication.isSha256_sha256⟩
  · obtain ⟨fields, hfields⟩ : ∃ fields, report.toDict = .obj fields := ⟨_, rfl⟩
    obtain ⟨hschema, happlier, hstateField, hplanField, hrequirementsField, hdryField, hresultsField⟩ :=
      fields_of_report hfields
    have hcompleted : (report.state.value == py "completed") = true := by
      rw [hstate]
      exact beq_self_eq_true _
    rw [hplanSha] at hplanField
    rw [hrequirementsSha, hrequirements] at hrequirementsField
    rw [hreal] at hdryField
    simp only [deriveEnvironmentManifestFromRepair, bind_eq_ok, check_eq_ok, ofManifest_eq_ok, h.sample,
      h.manifest, h.version, h.attempt, h.contractSha256, h.outcome, hrootfs, SourceFile.regularFile, hplanFile,
      happlicationFile, hobservationFile, SourceFile.read, h.plan, hload, h.observed, ho, hoplan,
      horequirements, happlication, hfields, exists_const, true_and, Except.ok.injEq, exists_eq_left',
      hschema, happlier, requiredInt, hstateField, hcompleted, hplanField, hrequirementsField, hdryField,
      hresultsField, requiredObjects_results, isText, isBool, beq_self_eq_true, and_self]

/-- Every automatic decision gets an entry from the evidence of the attempt. -/
def AllAdmissible (p : RepairPlan) (inputs : RepairInputs) : Prop :=
  ∀ d ∈ p.decisions, d.automaticAllowed →
    Nameable d.resource ∧ Fresh inputs.parent.entries (py "fs:" ++ d.resource) (inputs.evidenceOf d)

variable (display) in
/-- The results of a completed repair, in the order of their identifiers. -/
theorem sorted_results {results : List RepairDecisionResult}
    (hresults : List.Forall₂ Reports p.decisions results) : ∃ decisions,
    List.Forall₂ (fun d fields => ∃ r, Reports d r ∧ r.toDict = .obj fields) decisions
      ((results.map RepairDecisionResult.fields).insertionSort
        fun a b => resultKey display a ≤ resultKey display b) ∧ decisions.Perm p.decisions := by
  have hfields : List.Forall₂ (fun d fields => ∃ r, Reports d r ∧ r.toDict = .obj fields) p.decisions
      (results.map RepairDecisionResult.fields) := by
    rw [List.forall₂_map_right_iff]
    exact hresults.imp fun d r hr => ⟨r, hr, rfl⟩
  have hsort := List.perm_insertionSort (fun a b => resultKey display a ≤ resultKey display b)
    (results.map RepairDecisionResult.fields)
  obtain ⟨decisions, hdecisions, hperm⟩ := List.perm_comp_forall₂ hsort hfields.flip
  exact ⟨decisions, hdecisions.flip, hperm⟩

/-- Nothing is recorded before the first result. -/
theorem CompletedRepair.start (h : CompletedRepair sha ft iso p inputs) :
    RecordedFor inputs.parent.entries inputs.contract inputs.evidence.observation.sha256
      inputs.evidence.repairApplication.sha256 [] ⟨inputs.parent.entries, 0, []⟩ := by
  obtain ⟨hentries, hinit⟩ := EnvironmentManifest.construct_iff.mp h.parent
  exact ⟨⟨hentries, (EnvironmentManifest.postInit_iff.mp hinit).nodup⟩, rfl, rfl, by simp, by simp⟩

variable {m : EnvironmentManifest}

/-- A manifest is only derived when every automatic decision gets an entry. -/
theorem admissible_of_derive (h : CompletedRepair sha ft iso p inputs)
    (happlicable : ∀ d ∈ p.decisions, d.automaticAllowed → Applicable {} d)
    (hm : deriveEnvironmentManifestFromRepair sha ft iso display inputs.now inputs.parent
      inputs.rootfsSnapshotId inputs.contract inputs.result inputs.evidence = .ok m) :
    AllAdmissible p inputs := by
  obtain ⟨results, after, hresults, hcarried, hderive⟩ :=
    derive_iff_recorded display h happlicable
  obtain ⟨decisions, hsorted, hperm⟩ := sorted_results display hresults
  obtain ⟨recorded, hok, -⟩ := (hderive m).mp hm
  have hall := (recordResults_iff ft display hcarried hsorted (fun d hd => hperm.mem_iff.mp hd) (by
    rw [List.nil_append]
    exact ((hperm.map _).nodup_iff).mpr hcarried.ids) h.start).1.mp ⟨recorded, hok⟩
  exact fun d hd => hall d (hperm.mem_iff.mpr hd)

/-- A manifest is derived when every automatic decision gets an entry, and it has these entries. -/
theorem derive_of_admissible (h : CompletedRepair sha ft iso p inputs)
    (happlicable : ∀ d ∈ p.decisions, d.automaticAllowed → Applicable {} d)
    (hauto : ∃ d ∈ p.decisions, d.automaticAllowed) (hadmissible : AllAdmissible p inputs) :
    ∃ m, deriveEnvironmentManifestFromRepair sha ft iso display inputs.now inputs.parent
        inputs.rootfsSnapshotId inputs.contract inputs.result inputs.evidence = .ok m ∧
      NextManifest iso p inputs m := by
  obtain ⟨results, after, hresults, hcarried, hderive⟩ :=
    derive_iff_recorded display h happlicable
  obtain ⟨decisions, hsorted, hperm⟩ := sorted_results display hresults
  obtain ⟨hiff, hrecorded⟩ := recordResults_iff ft display hcarried hsorted
    (fun d hd => hperm.mem_iff.mp hd) (by
      rw [List.nil_append]
      exact ((hperm.map _).nodup_iff).mpr hcarried.ids) h.start
  obtain ⟨recorded, hok⟩ := hiff.mpr fun d hd => hadmissible d (hperm.mem_iff.mp hd)
  have hfor := hrecorded recorded hok
  rw [List.nil_append] at hfor
  obtain ⟨m, hm, hconstruct, hversion, hparent, hsnapshot, hmem⟩ :=
    derive_valid h hfor.valid recorded.selectedTotal
  refine ⟨m, (hderive m).mpr ⟨recorded, hok, ?_, ?_, hm⟩, hconstruct, hversion, hparent, hsnapshot, ?_⟩
  · -- Every decision was seen.
    rw [List.filter_eq_nil_iff]
    intro id hid
    rw [hfor.seen]
    simpa using ((hperm.map RepairDecision.decisionId).mem_iff).mpr hid
  · obtain ⟨d, hd, hdauto⟩ := hauto
    rw [hfor.total]
    apply Nat.ne_of_gt
    have hmem : d ∈ decisions.filter RepairDecision.automaticAllowed :=
      List.mem_filter.mpr ⟨hperm.mem_iff.mpr hd, hdauto⟩
    exact List.length_pos_of_mem hmem
  · intro d hd hdauto
    obtain ⟨e, he, hid, hkind⟩ := hfor.kind d (hperm.mem_iff.mpr hd) hdauto
    refine ⟨e, (hmem e).mpr he, hid, hkind, fun v hv => ?_⟩
    obtain ⟨e', he', hid', hv'⟩ := (hfor.evidenced (py "fs:" ++ d.resource) v).mpr
      (Or.inr ⟨d, hperm.mem_iff.mpr hd, hdauto, rfl, hv⟩)
    obtain rfl := List.inj_on_of_nodup_map hfor.valid.nodup he he' (hid.trans hid'.symm)
    exact hv'

end Derive

/-- The applier accepts what a planner allows. -/
theorem applicable_of_plan {sha256 : PyStr → PyStr} {config : RepairPlannerConfig} {report : RequirementReport}
    {source digest : PyStr} {p : RepairPlan} (hplan : plan sha256 config report source digest = .ok p) :
    ∀ d ∈ p.decisions, d.automaticAllowed → Applicable {} d := by
  intro d hd hauto
  obtain ⟨r, -, hrauto, -, hrequirement⟩ := exists_automatic hplan hd hauto
  exact applicable_of_automatic hrauto hrequirement

/-- **The planner, the applier and the builder agree, for every plan of the planner**: below clear ancestors
the inspection passes exactly when the targets are clear, and after a completed repair the next manifest
is derived exactly when the paths make names and the evidence is new. -/
theorem repair_stages_agree (sha : Sha256) (ft : FloatText) (iso : IsoFormat) (display : PyDisplay)
    (config : RepairPlannerConfig) (report : RequirementReport) (source digest : PyStr) (p : RepairPlan)
    (hplan : plan sha.hexdigest config report source digest = .ok p) :
    (∀ fs, AncestorsClear fs p → ∀ dryRun,
      ((preflight {} (fun _ => false) fs dryRun p).isOk ↔ TargetsClear fs p)) ∧
    ∀ inputs, CompletedRepair sha ft iso p inputs → (∃ d ∈ p.decisions, d.automaticAllowed) →
      ((∃ m, deriveEnvironmentManifestFromRepair sha ft iso display inputs.now inputs.parent
          inputs.rootfsSnapshotId inputs.contract inputs.result inputs.evidence = .ok m ∧
        NextManifest iso p inputs m) ↔ AllAdmissible p inputs) := by
  have happlicable := applicable_of_plan hplan
  refine ⟨fun fs hclear dryRun => preflight_isOk_iff hplan hclear dryRun, fun inputs h hauto => ?_⟩
  constructor
  · rintro ⟨m, hm, -⟩
    exact admissible_of_derive h happlicable hm
  · exact derive_of_admissible h happlicable hauto

/-! ### A path with a space -/

/-- The report of a sample that looked for a directory. -/
def directoryReport (requirementId resource : PyStr) : RequirementReport where
  requirements :=
    [{ requirementId := requirementId
       kind := .filesystem
       resource := resource
       operation := py "directory_exists"
       status := .unmet
       blocking := .likely
       confidence := 1
       repairable := true
       details := [] }]
  warnings := []

/-- The digests of the texts that are met here, which differ in their first characters. -/
def optSha : Sha256 where
  hexdigest text :=
    if (py "req_01627e557f344938").isPrefixOf text then
      py "0d6515327e720271108a7764704ee55badb3a5988560e39f4a83d1bbea84e326"
    else if (py "req_fa502d82d1528598").isPrefixOf text then
      py "4057676ac9b863be82d93460614d273e4fc1065c5216d1f7f93f60570c55e990"
    else if [0x7B, 0x22, 0x61, 0x63].isPrefixOf text then
      py "7c6912214a861e95c32f3d5f8e5f8b6f2beb4540a59edf42a88ca20e507e4e8c"
    else if [0x7B, 0x22, 0x61, 0x74].isPrefixOf text then
      py "add54f926722721072f7026c8855a7eef32a3faabc4267cc7d21e34ac60c25f1"
    else seedSha.hexdigest text
  isSha256_hexdigest text := by
    split_ifs
    · decide
    · decide
    · decide
    · decide
    · exact seedSha.isSha256_hexdigest text

section Example

variable (sha : Sha256) (ft : FloatText)

/-- The contract of an attempt in the seed environment. -/
def seedContract : AttemptContract where
  attemptId := py "attempt-1"
  attemptIndex := .int 0
  purpose := .discovery
  sampleSha256 := List.replicate 64 0x30
  packedBinarySha256 := List.replicate 64 0x30
  environmentManifestId := (plainManifest sha ft 0).name sha ft
  environmentManifestVersion := .int 0
  goalId := py "goal"
  initialStage := .staticPreflight
  schemaVersion := .int 1
  contractVersion := .int 1
  createdAtUtc := py "2026-01-01T00:00:00+00:00"

/-- Its result, which asks for a repair. -/
def seedResult : AttemptResult where
  attemptId := py "attempt-1"
  contractSha256 := sha.hexdigest (canonicalText ft (.obj (seedContract sha ft).identityDict))
  outcome := .repairRequired
  initialStage := .staticPreflight
  finalStage := .staticPreflight
  progress :=
    { goalReached := false, oracleReason := none, guestEventsTotal := .int 0, coverageEdges := none,
      observationSha256 := some (List.replicate 64 0x30) }
  transitions := []
  failureFingerprint := some (List.replicate 64 0x30)
  startedAtUtc := py "2026-01-01T00:00:00+00:00"
  finishedAtUtc := py "2026-01-01T00:00:00+00:00"
  schemaVersion := .int 1
  resultVersion := .int 1

/-- A regular file with some content. -/
def regularFile {α : Type} (content : α) : SourceFile α where
  path := py "file"
  regular := true
  content := .ok content
  sha256 := List.replicate 64 0x30
  isSha256_sha256 := by decide

variable {sha ft}

variable (sha ft) in
theorem isAttemptIdentifier_seed : isAttemptIdentifier ((plainManifest sha ft 0).name sha ft) := by
  have hname : (plainManifest sha ft 0).name sha ft =
      0x6D :: (py "anifest-v0000-" ++ ((plainManifest sha ft 0).digest sha ft).take 16) := rfl
  have hsha : isSha256 ((plainManifest sha ft 0).digest sha ft) := sha.isSha256_hexdigest _
  rw [isSha256, Bool.and_eq_true, List.all_eq_true] at hsha
  rw [hname, isAttemptIdentifier, matchesName, Bool.and_eq_true, Bool.and_eq_true, List.all_eq_true,
    decide_eq_true_eq]
  refine ⟨⟨rfl, fun c hc => ?_⟩, ?_⟩
  · rcases List.mem_append.mp hc with hc | hc
    · have hall : ∀ c ∈ py "anifest-v0000-",
          (isAlphanumeric c || c == 0x5F || c == 0x2E || c == 0x3A || c == 0x2D) := by decide
      exact hall c hc
    · have hhex := hsha.2 c (List.mem_of_mem_take hc)
      simp only [Bool.or_eq_true, Bool.and_eq_true, decide_eq_true_eq] at hhex
      simp only [isAlphanumeric, Bool.or_eq_true, Bool.and_eq_true, decide_eq_true_eq, beq_iff_eq]
      omega
  · have h14 : (py "anifest-v0000-").length = 14 := rfl
    simp only [List.length_append, List.length_take]
    omega

theorem seedContract_postInit : (seedContract sha ft).postInit isoOne = .ok () := by
  have hzeros : isSha256 (List.replicate 64 0x30) := by decide
  have hattempt : isAttemptIdentifier (py "attempt-1") := by decide
  have hgoal : isAttemptIdentifier (py "goal") := by decide
  have htime : parseTimestamp isoOne (py "created_at_utc") (py "2026-01-01T00:00:00+00:00") =
      .ok ⟨0, true⟩ := rfl
  simp only [AttemptContract.postInit, seedContract, bind_eq_ok, ensure_eq_ok, validateSha256_eq_ok,
    PyInt.value, hattempt, hgoal, htime, isAttemptIdentifier_seed, exists_const, true_and,
    Except.ok.injEq, exists_eq_left']
  simp [hzeros, -List.reduceReplicate]

theorem seedResult_construct : (seedResult sha ft).construct isoOne = .ok () := by
  have hzeros : isSha256 (List.replicate 64 0x30) := by decide
  have hattempt : isAttemptIdentifier (py "attempt-1") := by decide
  have hstart : parseTimestamp isoOne (py "started_at_utc") (py "2026-01-01T00:00:00+00:00") =
      .ok ⟨0, true⟩ := rfl
  have hfinish : parseTimestamp isoOne (py "finished_at_utc") (py "2026-01-01T00:00:00+00:00") =
      .ok ⟨0, true⟩ := rfl
  simp only [AttemptResult.construct, AttemptResult.postInit, AttemptProgress.postInit, seedResult, mapOk,
    validateTransitions, bind_eq_ok, ensure_eq_ok, validateSha256_eq_ok, PyInt.value, hattempt, hstart,
    hfinish, sha.isSha256_hexdigest, exists_const, true_and, Except.ok.injEq, exists_eq_left']
  simp [hzeros, -List.reduceReplicate]

theorem seedContract_sha256 :
    (seedContract sha ft).contractSha256 sha ft = .ok (seedResult sha ft).contractSha256 := by
  apply (canonicalSha256_eq_ok (AttemptContract.plain _)).mpr
  refine ⟨AttemptContract.writable_iff.mpr ⟨?_, ?_⟩, rfl⟩
  · intro n hn
    simp only [AttemptContract.integers, seedContract, List.mem_cons, List.not_mem_nil, or_false] at hn
    rcases hn with rfl | rfl | rfl | rfl
    all_goals
      show Writable (.int _)
      rw [writable_int]
      decide
  · have hname := encodable_of_isManifestIdentifier
      (isManifestIdentifier_of_isAttemptIdentifier (isAttemptIdentifier_seed sha ft)).1
    have hzeros : PyStr.encodable (List.replicate 64 0x30) := by decide
    intro s hs
    simp only [AttemptContract.texts, seedContract, List.dropLast, List.mem_cons, List.not_mem_nil,
      or_false] at hs
    rcases hs with rfl | rfl | rfl | rfl | rfl
    · exact PyStr.encodable_py _
    · exact hzeros
    · exact hzeros
    · exact hname
    · exact PyStr.encodable_py _

variable (ft) in
/-- Every plan that can be read back can be applied to an empty rootfs, in the first attempt. -/
theorem exists_completedRepair {config : RepairPlannerConfig} {report : RequirementReport}
    {source digest : PyStr} {p : RepairPlan} (hplan : plan sha.hexdigest config report source digest = .ok p)
    (hload : p.load sha.hexdigest = .ok p) :
    ∃ inputs, CompletedRepair sha ft isoOne p inputs ∧ inputs.parent.entries = [] := by
  obtain ⟨prepared, results, hpre⟩ := preflight_passes (fun _ => false) (Rootfs.bare 0o755) false [] (by
    intro d hd hauto
    obtain ⟨r, -, hrauto, -, hrequirement⟩ := exists_automatic hplan hd hauto
    refine ⟨applicable_of_automatic hrauto hrequirement, by simp, fun path hpath => Or.inl ?_⟩
    exact Rootfs.node?_bare (List.length_pos_iff.mp (prefix_of_mem_below hpath).2))
  have hruns : Runs sha.hexdigest {} (fun _ => false) p p.sourceSha256 (.directory (Rootfs.bare 0o755))
      false (Rootfs.bare 0o755) prepared results := ⟨hload, rfl, rfl, rfl, hpre⟩
  obtain ⟨applied, after, happlied, hafter, hstate⟩ :=
    hruns.completes 0o022 (List.replicate 64 0x30)
  have hkept : (plainManifest sha ft 0).Kept isoOne 0 := plainManifest_kept (Nat.zero_le 10000)
  have hsnapshot : isManifestIdentifier (py "rootfs-1") := by decide
  refine ⟨
    { now := py "2026-01-01T00:00:00+00:00"
      parent := plainManifest sha ft 0
      rootfsSnapshotId := py "rootfs-1"
      contract := seedContract sha ft
      result := seedResult sha ft
      evidence :=
        { rootfsPath := py "rootfs"
          rootfs := some after
          repairPlan := regularFile p
          repairApplication := regularFile applied.toDict
          observation := regularFile ⟨p.sourceSha256, List.replicate 64 0x30⟩ } }, ?_, rfl⟩
  exact
    { applied := ⟨_, 0o022, _, _, _, applied, after, happlied, hafter, hstate, rfl, rfl⟩
      files := ⟨rfl, rfl, rfl⟩
      plan := rfl
      observation := ⟨_, rfl, rfl, rfl⟩
      observed := rfl
      parent := hkept.construct
      contract := seedContract_postInit
      result := seedResult_construct
      sample := rfl
      manifest := hkept.manifestId
      version := rfl
      attempt := rfl
      contractSha256 := seedContract_sha256
      outcome := rfl
      snapshot := hsnapshot
      now := ⟨⟨0, true⟩, rfl⟩ }

end Example

/-- How the values of the examples are shown; nothing is shown in them. -/
def noDisplay : PyDisplay where
  repr text := text
  str _ := []

/-- The directory `/opt/a` is planned, made and named. -/
theorem opt_repair : ∃ p inputs,
    plan optSha.hexdigest procPlanner (directoryReport (py "req_fa502d82d1528598") (py "/opt/a"))
      (py "requirements.json") (List.replicate 64 0x30) = .ok p ∧
    CompletedRepair optSha seedFloat isoOne p inputs ∧ (∃ d ∈ p.decisions, d.automaticAllowed) ∧
    AllAdmissible p inputs := by
  have hreads : readsBack optSha.hexdigest (plan optSha.hexdigest procPlanner
      (directoryReport (py "req_fa502d82d1528598") (py "/opt/a")) (py "requirements.json")
      (List.replicate 64 0x30)) := by decide +kernel
  obtain ⟨p, hplan, hload⟩ := exists_of_readsBack hreads
  obtain ⟨inputs, hcompleted, hentries⟩ := exists_completedRepair seedFloat hplan hload
  obtain ⟨d, hd, hrequirement⟩ := (mem_plan_decisions hplan).2 _ List.mem_cons_self
  have hauto : d.automaticAllowed := by
    rw [(planRequirement_ok hrequirement).2.1]
    decide +kernel
  refine ⟨p, inputs, hplan, hcompleted, ⟨d, hd, hauto⟩, fun e he _ => ?_⟩
  obtain ⟨r, hr, hplanned⟩ := (mem_plan_decisions hplan).1 e he
  obtain rfl := List.mem_singleton.mp hr
  rw [(planRequirement_ok hplanned).1]
  refine ⟨⟨by decide, by decide⟩, ?_⟩
  rintro v ⟨entry, hentry, -⟩
  rw [hentries] at hentry
  exact absurd hentry List.not_mem_nil

/-- The directory `/opt/a` gets its entry. -/
theorem opt_stages_agree : ∃ p inputs m,
    plan optSha.hexdigest procPlanner (directoryReport (py "req_fa502d82d1528598") (py "/opt/a"))
      (py "requirements.json") (List.replicate 64 0x30) = .ok p ∧
    deriveEnvironmentManifestFromRepair optSha seedFloat isoOne noDisplay inputs.now inputs.parent
      inputs.rootfsSnapshotId inputs.contract inputs.result inputs.evidence = .ok m ∧
    NextManifest isoOne p inputs m := by
  obtain ⟨p, inputs, hplan, hcompleted, hauto, hadmissible⟩ := opt_repair
  have hagree := (repair_stages_agree optSha seedFloat isoOne noDisplay procPlanner _ _ _ p hplan).2 inputs
    hcompleted hauto
  obtain ⟨m, hm, hnext⟩ := hagree.mpr hadmissible
  exact ⟨p, inputs, m, hplan, hm, hnext⟩

/-- **The planner authorises the directory `/opt/a b`, the applier makes it, and then no manifest can be
derived**, since a name has no space. -/
theorem space_not_recorded : ∃ p inputs,
    plan optSha.hexdigest procPlanner (directoryReport (py "req_01627e557f344938") (py "/opt/a b"))
      (py "requirements.json") (List.replicate 64 0x30) = .ok p ∧
    (∃ d ∈ p.decisions, d.automaticAllowed) ∧ CompletedRepair optSha seedFloat isoOne p inputs ∧
    ∀ m, deriveEnvironmentManifestFromRepair optSha seedFloat isoOne noDisplay inputs.now inputs.parent
      inputs.rootfsSnapshotId inputs.contract inputs.result inputs.evidence ≠ .ok m := by
  have hreads : readsBack optSha.hexdigest (plan optSha.hexdigest procPlanner
      (directoryReport (py "req_01627e557f344938") (py "/opt/a b")) (py "requirements.json")
      (List.replicate 64 0x30)) := by decide +kernel
  obtain ⟨p, hplan, hload⟩ := exists_of_readsBack hreads
  obtain ⟨inputs, hcompleted, -⟩ := exists_completedRepair seedFloat hplan hload
  obtain ⟨d, hd, hrequirement⟩ := (mem_plan_decisions hplan).2 _ List.mem_cons_self
  obtain ⟨hresource, hautomatic, -⟩ := planRequirement_ok hrequirement
  have hauto : d.automaticAllowed := by
    rw [hautomatic]
    decide +kernel
  refine ⟨p, inputs, hplan, ⟨d, hd, hauto⟩, hcompleted, fun m hm => ?_⟩
  have hadmissible := admissible_of_derive hcompleted (applicable_of_plan hplan) hm
  have hspace := (hadmissible d hd hauto).1.1 0x20 (by
    rw [hresource]
    decide)
  exact absurd hspace (by decide)

end TaintForge
