import TaintForge.Env.Equiv.ManifestBuilder

/-!
# What the next manifest keeps

The results of a repair are merged into the entries of the parent manifest one by one.  Each step keeps the
history of every entry, and the value of a directory depends on nothing but its path, so that several
decisions about one directory count as one.

* `ManifestEntry.Continues`: what is kept of an entry.
* `recordResult_ok`, `recordResults_ok`: one result, and all of them.
* `derive_eq_ok`: when a manifest is derived, whatever the files say.
* `derive_keeps_history`: the next manifest has the history of its parent.
-/

namespace TaintForge

/-! ### Entries -/

namespace ManifestEntry

/-- The value of an entry. -/
def value (e : ManifestEntry) : ManifestResourceKind × PyStr × PyStr := (e.kind, e.provider, e.valueSha256)

/-- A later entry for a resource has the history of an earlier one. -/
structure Keeps (e later : ManifestEntry) : Prop where
  resource : later.resourceId = e.resourceId
  stage : later.firstSeenStage = e.firstSeenStage
  attempt : later.firstSeenAttemptId = e.firstSeenAttemptId
  consumer : later.consumerPc = e.consumerPc
  scope : later.lifecycleScope = e.lifecycleScope
  evidence : e.evidence ⊆ later.evidence

/-- It has the history and, as long as the value is the same, the verdict. -/
structure Continues (e later : ManifestEntry) : Prop extends e.Keeps later where
  verdict : later.value = e.value → later.status = e.status ∧ later.confidence = e.confidence

variable {a b c : ManifestEntry}

theorem Keeps.refl (e : ManifestEntry) : e.Keeps e := ⟨rfl, rfl, rfl, rfl, rfl, List.Subset.refl _⟩

theorem Keeps.trans (h : a.Keeps b) (h' : b.Keeps c) : a.Keeps c where
  resource := h'.resource.trans h.resource
  stage := h'.stage.trans h.stage
  attempt := h'.attempt.trans h.attempt
  consumer := h'.consumer.trans h.consumer
  scope := h'.scope.trans h.scope
  evidence := List.Subset.trans h.evidence h'.evidence

end ManifestEntry

section Merge

variable {display : PyDisplay} {entries out : List ManifestEntry} {r merged : ManifestEntry}

/-- **A merge keeps the history**, and the verdict when the value is the same. -/
theorem mergeExisting_keeps {existing : ManifestEntry} (hexisting : existing.construct = .ok ())
    (hid : existing.resourceId = r.resourceId) (h : mergeExisting display existing r = .ok merged) :
    existing.Keeps merged ∧ merged.value = r.value ∧
      (existing.value = r.value →
        merged.status = existing.status ∧ merged.confidence = existing.confidence) := by
  simp only [mergeExisting, bind_eq_ok, ofManifest_eq_ok, pure_eq_ok] at h
  obtain ⟨evidence, hevidence, -, -, rfl⟩ := h
  obtain ⟨-, hentry⟩ := ManifestEntry.construct_iff.mp hexisting
  obtain ⟨-, -, -, -, -, -, -, hnodup, -⟩ := ManifestEntry.postInit_iff.mp hentry
  obtain ⟨-, -, hmem⟩ := mergeEvidence_ok hnodup hevidence
  refine ⟨⟨hid.symm, rfl, rfl, rfl, rfl, fun v hv => ?_⟩, rfl, fun hvalue => ?_⟩
  · exact (List.mem_insertionSort _).mpr ((hmem v).mpr (Or.inl hv))
  · simp only [ManifestEntry.value, Prod.mk.injEq] at hvalue
    simp [hvalue]

/-- What a merge makes of the entry that is there. -/
theorem mergeEntry_ok (hentries : Entries entries) (h : mergeEntry display entries r = .ok out) :
    ∃ merged, (∀ e, e ∈ out ↔ (e ∈ entries ∧ e.resourceId ≠ r.resourceId) ∨ e = merged) ∧
      merged.resourceId = r.resourceId ∧ merged.value = r.value ∧
      ∀ e ∈ entries, e.resourceId = r.resourceId → e.Keeps merged ∧
        (e.value = r.value → merged.status = e.status ∧ merged.confidence = e.confidence) := by
  cases hfind : entries.find? fun entry => entry.resourceId == r.resourceId with
  | none =>
    have hnone : ∀ e ∈ entries, e.resourceId ≠ r.resourceId := by simpa using hfind
    rw [mergeEntry_none hfind] at h
    cases h
    exact ⟨r, fun _ => mem_replaced, rfl, rfl, fun e he hid => absurd hid (hnone e he)⟩
  | some existing =>
    have hid : existing.resourceId = r.resourceId := by simpa using List.find?_some hfind
    have hmem := List.mem_of_find?_eq_some hfind
    obtain ⟨merged, hmerged, rfl⟩ := (mergeEntry_some hfind).mp h
    obtain ⟨hkeeps, hvalue, hverdict⟩ := mergeExisting_keeps (hentries.construct existing hmem) hid hmerged
    refine ⟨merged, fun _ => mem_replaced, hkeeps.resource.trans hid, hvalue, fun e he heid => ?_⟩
    obtain rfl := List.inj_on_of_nodup_map hentries.nodup he hmem (heid.trans hid.symm)
    exact ⟨hkeeps, hverdict⟩

end Merge

/-! ### Directories -/

section Directory

variable {sha : Sha256} {ft : FloatText} {fs : Rootfs} {contract : AttemptContract} {d : RepairDecision}
  {observationSha256 applicationSha256 : PyStr} {r : ManifestEntry}

/-- The value of a directory: it is made from the path and the mode that is seen there. -/
def DirectoryValue (sha : Sha256) (ft : FloatText) (fs : Rootfs) (resourceId : PyStr)
    (value : ManifestResourceKind × PyStr × PyStr) : Prop :=
  ∃ resource mode digest, resourceId = py "fs:" ++ resource ∧
    (∃ decisionId, observedDirectoryMode fs resource decisionId = .ok mode) ∧
    canonicalSha256 sha ft (.obj [(py "action", .str RepairActionKind.createDirectory.value),
      (py "mode", .str mode), (py "parents", .bool true), (py "resource", .str resource)]) = .ok digest ∧
    value = (.directory, py "static_directory", digest)

/-- The mode that is seen does not depend on the decision. -/
theorem observedDirectoryMode_congr {resource id mode : PyStr} (id' : PyStr)
    (h : observedDirectoryMode fs resource id = .ok mode) :
    observedDirectoryMode fs resource id' = .ok mode := by
  simp only [observedDirectoryMode, bind_eq_ok, check_eq_ok] at h ⊢
  obtain ⟨u, hpath, observed, hobserved, hmode⟩ := h
  refine ⟨u, hpath, observed, hobserved, ?_⟩
  cases observed with
  | none => cases hmode
  | some _ => exact hmode

/-- **A directory has one value.** -/
theorem DirectoryValue.unique {resourceId : PyStr} {value value' : ManifestResourceKind × PyStr × PyStr}
    (h : DirectoryValue sha ft fs resourceId value) (h' : DirectoryValue sha ft fs resourceId value') :
    value = value' := by
  obtain ⟨resource, mode, digest, rfl, ⟨id, hmode⟩, hdigest, rfl⟩ := h
  obtain ⟨resource', mode', digest', hresource, ⟨id', hmode'⟩, hdigest', rfl⟩ := h'
  obtain rfl := List.append_cancel_left hresource
  obtain rfl := Except.ok.inj ((observedDirectoryMode_congr id' hmode).symm.trans hmode')
  obtain rfl := Except.ok.inj (hdigest.symm.trans hdigest')
  rfl

/-- The entry of a directory is valid, it names the path of the decision and has the value of the
directory. -/
theorem directoryEntry_ok
    (h : directoryEntry sha ft fs contract d observationSha256 applicationSha256 = .ok r) :
    r.construct = .ok () ∧ r.resourceId = py "fs:" ++ d.resource ∧
      DirectoryValue sha ft fs r.resourceId r.value := by
  simp only [directoryEntry, bind_eq_ok, check_eq_ok, ofManifest_eq_ok, pure_eq_ok] at h
  obtain ⟨_, -, mode, hmode, digest, hdigest, _, hobservation, _, happlication, _, hentry, rfl⟩ := h
  refine ⟨ManifestEntry.construct_iff.mpr ⟨fun v hv => ?_, hentry⟩, rfl, d.resource, mode, digest, rfl,
    ⟨_, hmode⟩, hdigest, rfl⟩
  rw [List.mem_insertionSort, List.mem_cons, List.mem_singleton] at hv
  rcases hv with rfl | rfl
  · exact hobservation
  · exact happlication

end Directory

/-! ### What is recorded -/

section Recorded

variable {sha : Sha256} {ft : FloatText} {display : PyDisplay} {fs : Rootfs} {contract : AttemptContract}
  {plan : RepairPlan} {observationSha256 applicationSha256 : PyStr} {d : RepairDecision}
  {parent entries out : List ManifestEntry} {done : List RepairDecision} {r : ManifestEntry}
  {recorded next : Recorded} {item : List (PyStr × Json)}

/-- One of these decisions is selected and is about a resource. -/
def SelectsFile (decisions : List RepairDecision) (resourceId : PyStr) : Prop :=
  ∃ d ∈ decisions, d.automaticAllowed ∧ resourceId = py "fs:" ++ d.resource

/-- **What was recorded after some decisions**: an entry of the parent is still there, or one that continues
it, with the value of the directory. -/
structure HistoryOf (sha : Sha256) (ft : FloatText) (fs : Rootfs) (parent : List ManifestEntry)
    (done : List RepairDecision) (entries : List ManifestEntry) : Prop where
  valid : Entries entries
  others : ∀ e, ¬ SelectsFile done e.resourceId → (e ∈ entries ↔ e ∈ parent)
  kept : ∀ e ∈ parent, ∃ later ∈ entries, e.Continues later ∧
    (later = e ∨ DirectoryValue sha ft fs later.resourceId later.value)

theorem HistoryOf.start (h : Entries parent) : HistoryOf sha ft fs parent [] parent where
  valid := h
  others _ _ := Iff.rfl
  kept e he := ⟨e, he, ⟨ManifestEntry.Keeps.refl e, fun _ => ⟨rfl, rfl⟩⟩, Or.inl rfl⟩

theorem selects_append {resourceId : PyStr} :
    SelectsFile (done ++ [d]) resourceId ↔
      SelectsFile done resourceId ∨ d.automaticAllowed ∧ resourceId = py "fs:" ++ d.resource := by
  simp [SelectsFile, or_and_right, exists_or]

theorem HistoryOf.pass (h : HistoryOf sha ft fs parent done entries) :
    HistoryOf sha ft fs parent (done ++ [d]) entries where
  valid := h.valid
  others e he := h.others e fun hselects => he (selects_append.mpr (Or.inl hselects))
  kept := h.kept

/-- **A merge continues the history.** An entry that was replaced before already has the value of the
directory, so its verdict stays. -/
theorem HistoryOf.take (h : HistoryOf sha ft fs parent done entries) (hauto : d.automaticAllowed)
    (hentry : directoryEntry sha ft fs contract d observationSha256 applicationSha256 = .ok r)
    (hmerge : mergeEntry display entries r = .ok out) :
    HistoryOf sha ft fs parent (done ++ [d]) out := by
  obtain ⟨hr, hid, hdirectory⟩ := directoryEntry_ok hentry
  obtain ⟨merged, hmem, hmergedId, hvalue, hkeeps⟩ := mergeEntry_ok h.valid hmerge
  refine ⟨(mergeEntry_merged h.valid hr hmerge).valid, fun e he => ?_, fun e he => ?_⟩
  · rw [selects_append, not_or] at he
    have hne : e.resourceId ≠ r.resourceId := fun heq => he.2 ⟨hauto, heq.trans hid⟩
    have hother : e ≠ merged := fun heq => hne (heq ▸ hmergedId)
    rw [hmem, ← h.others e he.1, or_iff_left hother, and_iff_left hne]
  · obtain ⟨later, hlater, hcontinues, hsame⟩ := h.kept e he
    by_cases hreplaced : later.resourceId = r.resourceId
    · obtain ⟨hkept, hverdict⟩ := hkeeps later hlater hreplaced
      refine ⟨merged, (hmem merged).mpr (Or.inr rfl), ⟨hcontinues.toKeeps.trans hkept, fun heq => ?_⟩, ?_⟩
      · -- The value of the directory is that of the entry, so the step before had it too.
        have hlaterValue : later.value = e.value := by
          rcases hsame with rfl | hsame
          · rfl
          · rw [hreplaced] at hsame
            rw [hsame.unique hdirectory, ← hvalue, heq]
        obtain ⟨hstatus, hconfidence⟩ := hverdict (by rw [hlaterValue, ← heq, hvalue])
        obtain ⟨hstatus', hconfidence'⟩ := hcontinues.verdict hlaterValue
        exact ⟨hstatus.trans hstatus', hconfidence.trans hconfidence'⟩
      · right
        rw [hmergedId, hvalue]
        exact hdirectory
    · exact ⟨later, (hmem later).mpr (Or.inl ⟨hlater, hreplaced⟩), hcontinues, hsame⟩

/-- A result accounts for a decision. -/
structure AccountsFor (d : RepairDecision) (item : List (PyStr × Json)) : Prop where
  decisionId : field (py "decision_id") item = .str d.decisionId
  requirementId : field (py "requirement_id") item = .str d.requirementId
  action : field (py "action") item = .str d.action.value
  resource : field (py "resource") item = .str d.resource
  status : ∃ status, field (py "status") item = .str status ∧
    (if d.automaticAllowed then status ∈ [py "applied", py "already_satisfied"]
      else status = py "not_selected")

theorem isText_iff {text : PyStr} {j : Json} : isText text j = true ↔ j = .str text := by
  cases j with
  | str s => simp [isText]
  | _ => simp [isText]

theorem requiredString_eq_ok {label s : PyStr} {j : Json} :
    requiredString label j = .ok s ↔ j = .str s ∧ s ≠ [] := by
  cases j with
  | str text =>
    unfold requiredString
    dsimp only
    split
    · rename_i hnil
      refine iff_of_false (by nofun) ?_
      rintro ⟨heq, hne⟩
      exact hne (Json.str.inj heq ▸ hnil)
    · rename_i hne
      rw [Except.ok.injEq, Json.str.injEq]
      exact ⟨fun h => ⟨h, h ▸ hne⟩, fun h => h.1⟩
  | _ => exact iff_of_false (by nofun) (by nofun)

/-- **One result**, whatever it says: it accounts for a decision that was not seen before, and a selected
decision is merged. -/
theorem recordResult_ok
    (h : recordResult sha ft display fs contract plan observationSha256 applicationSha256 recorded item =
      .ok next) :
    ∃ d ∈ plan.decisions, AccountsFor d item ∧ d.decisionId ∉ recorded.seenDecisions ∧
      next.seenDecisions = recorded.seenDecisions ++ [d.decisionId] ∧
      (¬ d.automaticAllowed ∧ next.entries = recorded.entries ∨
        d.automaticAllowed ∧ ∃ r,
          directoryEntry sha ft fs contract d observationSha256 applicationSha256 = .ok r ∧
          mergeEntry display recorded.entries r = .ok next.entries) := by
  simp only [recordResult, bind_eq_ok, check_eq_ok, requiredString_eq_ok] at h
  obtain ⟨id, ⟨hid, -⟩, _, hnew, h⟩ := h
  cases hfind : plan.decisions.find? fun decision => decision.decisionId == id with
  | none =>
    rw [hfind] at h
    cases h
  | some d =>
    rw [hfind] at h
    have hd := List.mem_of_find?_eq_some hfind
    obtain rfl : d.decisionId = id := by simpa using List.find?_some hfind
    simp only [bind_eq_ok, check_eq_ok, requiredString_eq_ok, isText_iff] at h
    obtain ⟨_, hresource, _, haction, _, hrequirement, status, ⟨hstatus, -⟩, h⟩ := h
    by_cases hauto : d.automaticAllowed
    · rw [if_pos hauto] at h
      simp only [bind_eq_ok, check_eq_ok] at h
      obtain ⟨_, -, _, hselected, h⟩ := h
      have hne : status ≠ py "not_selected" := by
        rintro rfl
        exact absurd hselected (by decide)
      rw [if_neg hne] at h
      simp only [bind_eq_ok, check_eq_ok, pure_eq_ok] at h
      obtain ⟨_, -, r, hr, entries, hentries, rfl⟩ := h
      refine ⟨d, hd, ⟨hid, hrequirement, haction, hresource, status, hstatus, ?_⟩, hnew, rfl,
        Or.inr ⟨hauto, r, hr, hentries⟩⟩
      rwa [if_pos hauto]
    · rw [if_neg hauto] at h
      simp only [bind_eq_ok, check_eq_ok] at h
      obtain ⟨_, rfl, h⟩ := h
      rw [if_pos rfl, pure_eq_ok] at h
      refine ⟨d, hd, ⟨hid, hrequirement, haction, hresource, _, hstatus, ?_⟩, hnew, ?_, Or.inl ⟨hauto, ?_⟩⟩
      · rw [if_neg hauto]
      · rw [← h]
      · rw [← h]

/-- **All results**: they account for different decisions, and what is recorded has the history of the
parent. -/
theorem recordResults_ok {items : List (List (PyStr × Json))} {final : Recorded}
    (hhistory : HistoryOf sha ft fs parent done recorded.entries)
    (hseen : recorded.seenDecisions = done.map RepairDecision.decisionId)
    (hnodup : (done.map RepairDecision.decisionId).Nodup)
    (h : recordResults sha ft display fs contract plan observationSha256 applicationSha256 recorded items =
      .ok final) :
    ∃ decisions, List.Forall₂ AccountsFor decisions items ∧ (∀ d ∈ decisions, d ∈ plan.decisions) ∧
      HistoryOf sha ft fs parent (done ++ decisions) final.entries ∧
      final.seenDecisions = (done ++ decisions).map RepairDecision.decisionId ∧
      ((done ++ decisions).map RepairDecision.decisionId).Nodup := by
  induction items generalizing recorded done with
  | nil =>
    cases h
    rw [← List.append_nil done] at hhistory hseen hnodup
    exact ⟨[], .nil, by simp, hhistory, hseen, hnodup⟩
  | cons item items ih =>
    simp only [recordResults, bind_eq_ok] at h
    obtain ⟨next, hnext, hfinal⟩ := h
    obtain ⟨d, hd, haccounts, hnew, hnextSeen, hstep⟩ := recordResult_ok hnext
    have hhistory' : HistoryOf sha ft fs parent (done ++ [d]) next.entries := by
      rcases hstep with ⟨-, hentries⟩ | ⟨hauto, r, hr, hmerge⟩
      · rw [hentries]
        exact hhistory.pass
      · exact hhistory.take hauto hr hmerge
    have hnodup' : ((done ++ [d]).map RepairDecision.decisionId).Nodup := by
      rw [List.map_append, List.map_singleton, List.nodup_append_comm, List.singleton_append,
        List.nodup_cons, ← hseen]
      exact ⟨hnew, hseen ▸ hnodup⟩
    obtain ⟨decisions, hall, hplan, hrest⟩ := ih hhistory' (by
      rw [hnextSeen, hseen, List.map_append, List.map_singleton]) hnodup' hfinal
    rw [List.append_assoc, List.singleton_append] at hrest
    exact ⟨d :: decisions, .cons haccounts hall, List.forall_mem_cons.mpr ⟨hd, hplan⟩, hrest⟩

end Recorded

/-! ### The derivation -/

section Derivation

variable (sha : Sha256) (ft : FloatText) (iso : IsoFormat) (display : PyDisplay)

/-- `deriveEnvironmentManifestFromRepair`, from inputs. -/
def RepairInputs.derive (inputs : RepairInputs) : Except ManifestBuilderError EnvironmentManifest :=
  deriveEnvironmentManifestFromRepair sha ft iso display inputs.now inputs.parent inputs.rootfsSnapshotId
    inputs.contract inputs.result inputs.evidence

/-- What is recorded of some results, and the manifest that is made from it. -/
def Records (inputs : RepairInputs) (plan : RepairPlan) (results : List (List (PyStr × Json)))
    (m : EnvironmentManifest) : Prop :=
  ∃ fs recorded, inputs.evidence.rootfs = some fs ∧
    recordResults sha ft display fs inputs.contract plan inputs.evidence.observation.sha256
      inputs.evidence.repairApplication.sha256 ⟨inputs.parent.entries, 0, []⟩ results = .ok recorded ∧
    (plan.decisions.map RepairDecision.decisionId).filter (· ∉ recorded.seenDecisions) = [] ∧
    recorded.selectedTotal ≠ 0 ∧
    inputs.parent.derive sha ft iso inputs.now inputs.rootfsSnapshotId recorded.entries
      inputs.contract.attemptId (py "Recorded " ++ decimal recorded.selectedTotal ++
        py " deterministic repair result(s) from " ++ inputs.contract.attemptId ++ py ".") = .ok m

/-- The inputs belong together, and a manifest is made from the results of the application. -/
structure Derivation (inputs : RepairInputs) (plan : RepairPlan) (application : List (PyStr × Json))
    (items : List (List (PyStr × Json))) (m : EnvironmentManifest) : Prop where
  sample : inputs.contract.sampleSha256 = inputs.parent.sampleSha256
  manifest : inputs.parent.manifestId sha ft = .ok inputs.contract.environmentManifestId
  version : inputs.contract.environmentManifestVersion.value = inputs.parent.manifestVersion.value
  attempt : inputs.result.attemptId = inputs.contract.attemptId
  contractSha256 : inputs.contract.contractSha256 sha ft = .ok inputs.result.contractSha256
  outcome : inputs.result.outcome = .repairRequired
  files : inputs.evidence.repairPlan.regular ∧ inputs.evidence.repairApplication.regular ∧
    inputs.evidence.observation.regular
  loads : ∃ raw, inputs.evidence.repairPlan.content = .ok raw ∧ raw.load sha.hexdigest = .ok plan
  observed : inputs.result.progress.observationSha256 = some inputs.evidence.observation.sha256
  observation : ∃ o, inputs.evidence.observation.content = .ok o ∧
    o.repairPlanSha256 = inputs.evidence.repairPlan.sha256 ∧ o.requirementsSha256 = plan.sourceSha256
  reported : inputs.evidence.repairApplication.content = .ok (.obj application)
  schema : requiredInt (py "schema_version") (field (py "schema_version") application) = .ok 1
  applier : requiredInt (py "applier_version") (field (py "applier_version") application) = .ok 1
  completed : isText (py "completed") (field (py "state") application)
  real : isBool false (field (py "dry_run") application)
  planSha256 : isText inputs.evidence.repairPlan.sha256 (field (py "plan_sha256") application)
  requirements : isText plan.sourceSha256 (field (py "requirements_sha256") application)
  results : requiredObjects (field (py "results") application) = .ok items
  records : Records sha ft iso display inputs plan
    (items.insertionSort fun a b => resultKey display a ≤ resultKey display b) m

variable {sha ft iso display} {inputs : RepairInputs} {m : EnvironmentManifest}

theorem SourceFile.read_eq_ok {α : Type} {file : SourceFile α} {content : α} :
    file.read = .ok content ↔ file.content = .ok content := by
  unfold SourceFile.read
  cases file.content with
  | ok _ =>
    dsimp only
    rw [Except.ok.injEq, Except.ok.injEq]
  | error _ => exact iff_of_false (by nofun) (by nofun)

/-- **When a manifest is derived**, whatever the files say. -/
theorem derive_eq_ok : inputs.derive sha ft iso display = .ok m ↔
    ∃ plan application items, Derivation sha ft iso display inputs plan application items m := by
  unfold RepairInputs.derive
  constructor
  · intro h
    simp only [deriveEnvironmentManifestFromRepair, bind_eq_ok, check_eq_ok, ofManifest_eq_ok] at h
    obtain ⟨_, hsample, manifestId, hmanifest, _, rfl, _, hversion, _, hattempt, contractSha256, hcontract,
      _, rfl, _, houtcome, h⟩ := h
    cases hrootfs : inputs.evidence.rootfs with
    | none =>
      rw [hrootfs] at h
      cases h
    | some fs =>
      rw [hrootfs] at h
      simp only [bind_eq_ok, check_eq_ok, SourceFile.regularFile, SourceFile.read_eq_ok] at h
      obtain ⟨_, hplanFile, _, happlicationFile, _, hobservationFile, raw, hraw, h⟩ := h
      cases hload : raw.load sha.hexdigest with
      | error _ =>
        rw [hload] at h
        cases h
      | ok plan =>
      rw [hload] at h
      simp only [bind_eq_ok, check_eq_ok, SourceFile.read_eq_ok, Except.ok.injEq, exists_eq_left'] at h
      obtain ⟨_, hobserved, o, ho, _, hoplan, _, horequirements, loaded, hloaded, h⟩ := h
      cases loaded with
      | obj application =>
        simp only [bind_eq_ok, check_eq_ok, ofManifest_eq_ok] at h
        obtain ⟨_, hschema, _, rfl, _, happlier, _, rfl, _, ⟨hcompleted, hreal⟩, _, hplanSha, _,
          hrequirements, items, hitems, recorded, hrecorded, _, hmissing, _, htotal, hm⟩ := h
        exact ⟨plan, application, items, hsample, hmanifest, hversion, hattempt, hcontract, houtcome,
          ⟨hplanFile, happlicationFile, hobservationFile⟩, ⟨raw, hraw, hload⟩, hobserved,
          ⟨o, ho, hoplan, horequirements⟩, hloaded, hschema, happlier, hcompleted, hreal, hplanSha,
          hrequirements, hitems, fs, recorded, hrootfs, hrecorded, hmissing, htotal, hm⟩
      | _ => cases h
  · rintro ⟨plan, application, items, h⟩
    obtain ⟨fs, recorded, hrootfs, hrecorded, hmissing, htotal, hm⟩ := h.records
    obtain ⟨raw, hraw, hload⟩ := h.loads
    obtain ⟨o, ho, hoplan, horequirements⟩ := h.observation
    simp only [deriveEnvironmentManifestFromRepair, bind_eq_ok, check_eq_ok, ofManifest_eq_ok, h.sample,
      h.manifest, h.version, h.attempt, h.contractSha256, h.outcome, hrootfs, SourceFile.regularFile, h.files,
      SourceFile.read_eq_ok, hraw, hload, h.observed, ho, hoplan, horequirements, h.reported, h.schema,
      h.applier, h.completed, h.real, h.planSha256, h.requirements, h.results, hrecorded, hmissing, htotal,
      hm, exists_const, true_and, Except.ok.injEq, exists_eq_left', ne_eq, not_false_eq_true, and_self]

/-! ### The order of the results -/

/-- Two reports that differ in the order of their results at most. -/
structure Reordered (application other : List (PyStr × Json)) : Prop where
  results : ∃ items items' : List Json, items.Perm items' ∧
    field (py "results") application = .arr items ∧ field (py "results") other = .arr items'
  others : ∀ key, key ≠ py "results" → field key other = field key application

theorem Reordered.symm {application other : List (PyStr × Json)} (h : Reordered application other) :
    Reordered other application := by
  obtain ⟨items, items', hperm, hitems, hitems'⟩ := h.results
  exact ⟨⟨items', items, hperm.symm, hitems', hitems⟩, fun key hkey => (h.others key hkey).symm⟩

/-- What is recorded has the history of the parent, and the results account for the decisions. -/
theorem Derivation.recorded {plan : RepairPlan} {application : List (PyStr × Json)}
    {items : List (List (PyStr × Json))} (h : Derivation sha ft iso display inputs plan application items m)
    (hparent : inputs.parent.construct iso = .ok ()) :
    ∃ (fs : Rootfs) (recorded : Recorded) (decisions : List RepairDecision),
      List.Forall₂ AccountsFor decisions
        (items.insertionSort fun a b => resultKey display a ≤ resultKey display b) ∧
      (∀ d ∈ decisions, d ∈ plan.decisions) ∧
      HistoryOf sha ft fs inputs.parent.entries decisions recorded.entries ∧
      (decisions.map RepairDecision.decisionId).Nodup ∧
      (∀ d ∈ plan.decisions, d.decisionId ∈ decisions.map RepairDecision.decisionId) ∧
      inputs.parent.derive sha ft iso inputs.now inputs.rootfsSnapshotId recorded.entries
        inputs.contract.attemptId (py "Recorded " ++ decimal recorded.selectedTotal ++
          py " deterministic repair result(s) from " ++ inputs.contract.attemptId ++ py ".") = .ok m := by
  obtain ⟨fs, recorded, -, hrecorded, hmissing, -, hm⟩ := h.records
  obtain ⟨hentries, hinit⟩ := EnvironmentManifest.construct_iff.mp hparent
  have hstart : HistoryOf sha ft fs inputs.parent.entries [] inputs.parent.entries :=
    .start ⟨hentries, (EnvironmentManifest.postInit_iff.mp hinit).nodup⟩
  obtain ⟨decisions, hall, hplan, hhistory, hseen, hnodup⟩ :=
    recordResults_ok hstart rfl (by rw [List.map_nil]; exact List.nodup_nil) hrecorded
  rw [List.nil_append] at hhistory hseen hnodup
  refine ⟨fs, recorded, decisions, hall, hplan, hhistory, hnodup, fun d hd => ?_, hm⟩
  rw [← hseen]
  have hid := List.filter_eq_nil_iff.mp hmissing _ (List.mem_map_of_mem hd)
  simpa using hid

/-- **What a manifest has of its parent**, by the results that account for a plan. -/
structure KeepsHistory (iso : IsoFormat) (plan : RepairPlan) (items : List (List (PyStr × Json)))
    (parent m : EnvironmentManifest) : Prop where
  valid : m.construct iso = .ok ()
  sorted : (m.entries.map ManifestEntry.resourceId).Pairwise (· < ·)
  others : ∀ e, ¬ SelectsFile plan.decisions e.resourceId → (e ∈ m.entries ↔ e ∈ parent.entries)
  kept : ∀ e ∈ parent.entries, ∃ later ∈ m.entries, e.Continues later
  accounted : ∀ d ∈ plan.decisions,
    items.countP (fun item => isText d.decisionId (field (py "decision_id") item)) = 1
  accounts : ∀ item ∈ items, ∃ d ∈ plan.decisions, AccountsFor d item

/-- A manifest with valid entries is valid, and its entries are the given ones. -/
theorem derive_entries {parent : EnvironmentManifest} {now snapshot attempt reason : PyStr}
    {entries : List ManifestEntry} (hentries : ∀ e ∈ entries, e.construct = .ok ())
    (h : parent.derive sha ft iso now snapshot entries attempt reason = .ok m) :
    m.construct iso = .ok () ∧ ∀ e, e ∈ m.entries ↔ e ∈ entries := by
  simp only [EnvironmentManifest.derive, bind_eq_ok, pure_eq_ok] at h
  obtain ⟨_, -, _, hinit, rfl⟩ := h
  refine ⟨EnvironmentManifest.construct_iff.mpr ⟨fun e he => ?_, hinit⟩, fun e => List.mem_insertionSort _⟩
  exact hentries e ((List.mem_insertionSort _).mp he)

/-- Each decision has one result. -/
theorem countP_decision {decisions : List RepairDecision} {items : List (List (PyStr × Json))}
    (h : List.Forall₂ AccountsFor decisions items) (id : PyStr) :
    items.countP (fun item => isText id (field (py "decision_id") item)) =
      (decisions.map RepairDecision.decisionId).count id := by
  induction h with
  | nil => rfl
  | @cons d item _ _ haccounts _ ih =>
    rw [List.countP_cons, List.map_cons, List.count_cons, ih, haccounts.decisionId]
    rfl

theorem Derivation.keepsHistory {plan : RepairPlan} {application : List (PyStr × Json)}
    {items : List (List (PyStr × Json))} (h : Derivation sha ft iso display inputs plan application items m)
    (hparent : inputs.parent.construct iso = .ok ()) : KeepsHistory iso plan items inputs.parent m := by
  obtain ⟨fs, recorded, decisions, hall, hplan, hhistory, hnodup, hcovered, hm⟩ := h.recorded hparent
  obtain ⟨hvalid, hmem⟩ := derive_entries hhistory.valid.construct hm
  have hinit := EnvironmentManifest.postInit_iff.mp (EnvironmentManifest.construct_iff.mp hvalid).2
  have hsort := List.perm_insertionSort (fun a b => resultKey display a ≤ resultKey display b) items
  refine ⟨hvalid, ?_, fun e he => ?_, fun e he => ?_, fun d hd => ?_, fun item hitem => ?_⟩
  · exact (hinit.sorted.and hinit.nodup).imp fun h => lt_of_le_of_ne h.1 h.2
  · rw [hmem]
    apply hhistory.others
    rintro ⟨d, hd, hselected⟩
    exact he ⟨d, hplan d hd, hselected⟩
  · obtain ⟨later, hlater, hcontinues, -⟩ := hhistory.kept e he
    exact ⟨later, (hmem later).mpr hlater, hcontinues⟩
  · rw [← hsort.countP_eq, countP_decision hall]
    exact List.count_eq_one_of_mem hnodup (hcovered d hd)
  · obtain ⟨d, hd, haccounts⟩ := forall₂_exists hall.flip (hsort.mem_iff.mpr hitem)
    exact ⟨d, hplan d hd, haccounts⟩

/-- A manifest that is derived from another one. -/
def Derives (sha : Sha256) (ft : FloatText) (iso : IsoFormat) (display : PyDisplay)
    (parent m : EnvironmentManifest) : Prop :=
  ∃ inputs : RepairInputs, inputs.parent = parent ∧ inputs.derive sha ft iso display = .ok m

/-- **Later generations keep the history**: where an entry was first seen, and all evidence for it. -/
theorem derives_keeps {parent : EnvironmentManifest} (hparent : parent.construct iso = .ok ())
    (h : Relation.ReflTransGen (Derives sha ft iso display) parent m) :
    m.construct iso = .ok () ∧ ∀ e ∈ parent.entries, ∃ later ∈ m.entries, e.Keeps later := by
  induction h with
  | refl => exact ⟨hparent, fun e he => ⟨e, he, .refl e⟩⟩
  | @tail parent m _ hstep ih =>
    obtain ⟨inputs, rfl, hm⟩ := hstep
    obtain ⟨hvalid, hkept⟩ := ih
    obtain ⟨plan, application, items, hderivation⟩ := derive_eq_ok.mp hm
    have hhistory := hderivation.keepsHistory hvalid
    refine ⟨hhistory.valid, fun e he => ?_⟩
    obtain ⟨later, hlater, hkeeps⟩ := hkept e he
    obtain ⟨last, hlast, hcontinues⟩ := hhistory.kept later hlater
    exact ⟨last, hlast, hkeeps.trans hcontinues.toKeeps⟩

end Derivation

end TaintForge
