import TaintForge.Env.Equiv.CompletedRepair
import TaintForge.Env.Equiv.ManifestStore
import TaintForge.Env.ManifestBuilder

/-!
# Entries of directories and how they are merged

The path of a directory becomes part of the name of its entry, and the rule for names knows fewer
characters than the rules for paths.  An entry that was there before keeps its evidence.

* `isManifestIdentifier_resource`: which paths make names.
* `directoryEntry_iff`: when a directory gets an entry.
* `mergeEntry_iff`, `Merged`: what a merge needs and what it makes.
-/

namespace TaintForge

/-! ### Names -/

/-- The characters of the identifiers of a manifest. -/
def isManifestChar (c : ℕ) : Bool :=
  isAlphanumeric c || c == 0x5F || c == 0x2E || c == 0x3A || c == 0x2F || c == 0x2D

theorem isManifestIdentifier_cons {c : ℕ} {s : PyStr} :
    isManifestIdentifier (c :: s) ↔ isAlphanumeric c ∧ (∀ d ∈ s, isManifestChar d) ∧ s.length ≤ 255 := by
  show (isAlphanumeric c && s.all isManifestChar && decide (s.length ≤ 255)) = true ↔ _
  rw [Bool.and_eq_true, Bool.and_eq_true, List.all_eq_true, decide_eq_true_eq, and_assoc]

theorem isManifestChar_of_isAlphanumeric {c : ℕ} (h : isAlphanumeric c) : isManifestChar c := by
  simp [isManifestChar, h]

/-- An identifier that gets longer. -/
theorem isManifestIdentifier_append {s t : PyStr} (hs : isManifestIdentifier s)
    (ht : ∀ c ∈ t, isManifestChar c) (hlength : (s ++ t).length ≤ 256) :
    isManifestIdentifier (s ++ t) := by
  cases s with
  | nil => exact absurd hs (by nofun)
  | cons c s =>
    obtain ⟨hc, hrest, -⟩ := isManifestIdentifier_cons.mp hs
    have hle : (s ++ t).length ≤ 255 := Nat.le_of_succ_le_succ hlength
    apply isManifestIdentifier_cons.mpr
    refine ⟨hc, fun d hd => ?_, hle⟩
    rcases List.mem_append.mp hd with hd | hd
    · exact hrest d hd
    · exact ht d hd

theorem isManifestIdentifier_of_isAttemptIdentifier {s : PyStr} (h : isAttemptIdentifier s) :
    isManifestIdentifier s ∧ s.length ≤ 128 := by
  cases s with
  | nil => exact absurd h (by nofun)
  | cons c s =>
    simp only [isAttemptIdentifier, matchesName, Bool.and_eq_true, List.all_eq_true,
      decide_eq_true_eq] at h
    obtain ⟨⟨hc, hrest⟩, hlength⟩ := h
    constructor
    · apply isManifestIdentifier_cons.mpr
      refine ⟨hc, fun d hd => ?_, by omega⟩
      have hchar := hrest d hd
      simp only [Bool.or_eq_true] at hchar
      simp only [isManifestChar, Bool.or_eq_true]
      tauto
    · rw [List.length_cons]
      omega

/-- A path that can be part of the name of an entry. -/
def Nameable (resource : PyStr) : Prop := (∀ c ∈ resource, isManifestChar c) ∧ resource.length ≤ 253

/-- **Which paths make names**: those of at most 253 of the characters of a name. -/
theorem isManifestIdentifier_resource (resource : PyStr) :
    isManifestIdentifier (py "fs:" ++ resource) ↔ Nameable resource := by
  have hcons : py "fs:" ++ resource = 0x66 :: 0x73 :: 0x3A :: resource := rfl
  rw [hcons, isManifestIdentifier_cons, Nameable]
  simp only [List.forall_mem_cons, List.length_cons]
  constructor
  · rintro ⟨-, ⟨-, -, hchars⟩, hlength⟩
    exact ⟨hchars, by omega⟩
  · rintro ⟨hchars, hlength⟩
    exact ⟨rfl, ⟨rfl, rfl, hchars⟩, by omega⟩

/-! ### Steps -/

@[simp] theorem check_eq_ok {q : Prop} [Decidable q] {message : PyStr} {u : Unit} :
    check q message = .ok u ↔ q := by
  unfold check
  split
  · rename_i h
    exact iff_of_true rfl h
  · rename_i h
    exact iff_of_false (by nofun) h

@[simp] theorem ofManifest_eq_ok {α : Type} {x : Except DocumentError α} {a : α} :
    ofManifest x = .ok a ↔ x = .ok a := by
  cases x with
  | ok b =>
    constructor
    · intro h
      exact congrArg Except.ok (Except.ok.inj h)
    · intro h
      exact congrArg Except.ok (Except.ok.inj h)
  | error error => exact iff_of_false (by nofun) (by nofun)

/-! ### The identifier of a decision -/

/-- The digest of a decision that can be loaded is the one its identifier is made from, and its path can be
encoded. -/
theorem RepairDecision.load_id {sha256 : PyStr → PyStr} {index : ℕ} {d out : RepairDecision}
    (h : d.load sha256 index = .ok out) :
    d.resource.encodable ∧ d.decisionId ≠ [] ∧ ∃ text, d.decisionId = py "repair_" ++ (sha256 text).take 16 := by
  unfold RepairDecision.load at h
  split at h
  · cases h
  · split at h
    · cases h
    · split at h
      · cases h
      · split at h
        · cases h
        · rename_i expected hexpected
          split at h
          · cases h
          · rename_i hid
            unfold makeDecisionId at hexpected
            dsimp only at hexpected
            split at hexpected
            · rename_i hencodable
              cases hexpected
              rw [PyStr.encodable_append, Bool.and_eq_true] at hencodable
              rw [not_not.mp hid]
              exact ⟨hencodable.2, by simp [py], _, rfl⟩
            · cases hexpected

theorem loadDecisions_mem {sha256 : PyStr → PyStr} {index : ℕ} {decisions out : List RepairDecision}
    (h : loadDecisions sha256 index decisions = .ok out) {d : RepairDecision} (hd : d ∈ decisions) :
    ∃ i loaded, d.load sha256 i = .ok loaded := by
  induction decisions generalizing index out with
  | nil => exact absurd hd List.not_mem_nil
  | cons e rest ih =>
    unfold loadDecisions at h
    split at h
    · cases h
    · rename_i loaded hloaded
      split at h
      · cases h
      · rename_i others hothers
        rcases List.mem_cons.mp hd with rfl | hd
        · exact ⟨index, loaded, hloaded⟩
        · exact ih hothers hd

theorem RepairPlan.load_ids {sha256 : PyStr → PyStr} {p loaded : RepairPlan}
    (h : p.load sha256 = .ok loaded) {d : RepairDecision} (hd : d ∈ p.decisions) :
    d.resource.encodable ∧ d.decisionId ≠ [] ∧
      ∃ text, d.decisionId = py "repair_" ++ (sha256 text).take 16 := by
  unfold RepairPlan.load at h
  split at h
  · cases h
  · split at h
    · cases h
    · split at h
      · cases h
      · rename_i decisions hdecisions
        obtain ⟨i, loaded, hload⟩ := loadDecisions_mem hdecisions hd
        exact RepairDecision.load_id hload

/-! ### The entry of a directory -/

section Entry

variable {sha : Sha256} {ft : FloatText} {fs : Rootfs} {contract : AttemptContract} {d : RepairDecision}
  {observationSha256 applicationSha256 : PyStr}

/-- The observation of the attempt as evidence. -/
def observationEvidence (contract : AttemptContract) (observationSha256 : PyStr) : ManifestEvidence where
  evidenceId := contract.attemptId ++ py ":observation"
  kind := .runtimeEvent
  attemptId := contract.attemptId
  artifactSha256 := observationSha256

/-- The application of a decision as evidence. -/
def applicationEvidence (contract : AttemptContract) (d : RepairDecision) (applicationSha256 : PyStr) :
    ManifestEvidence where
  evidenceId := contract.attemptId ++ py ":repair:" ++ d.decisionId
  kind := .repairApplication
  attemptId := contract.attemptId
  artifactSha256 := applicationSha256

/-- The walk ends with the mode of the last directory. -/
theorem observeComponents_eq (resource : PyStr) (observed : Option ℕ) {components : List PyStr}
    {current : GuestPath} (h : ∀ q ∈ below current components, fs.IsDir q) (hne : components ≠ []) :
    ∃ mode, observeComponents fs resource current observed components = .ok (some mode) := by
  induction components generalizing current observed with
  | nil => exact absurd rfl hne
  | cons component rest ih =>
    obtain ⟨mode, hmode⟩ := h (current ++ [component]) List.mem_cons_self
    have hstat : fs.lstat (current ++ [component]) = .ok (.dir mode) := by
      unfold Rootfs.lstat
      rw [hmode]
    unfold observeComponents
    rw [hstat]
    dsimp only
    cases rest with
    | nil => exact ⟨mode, rfl⟩
    | cons next rest =>
      apply ih
      · exact fun q hq => h q (List.mem_cons_of_mem _ hq)
      · simp

/-- The mode of a directory that the applier accepts and that is there can be observed. -/
theorem observedDirectoryMode_eq (hd : Applicable {} d) (hdir : fs.IsDir (guestComponents d.resource)) :
    ∃ mode, observedDirectoryMode fs d.resource d.decisionId = .ok (octal04 mode) := by
  obtain ⟨guestPath, hguest⟩ := hd.path
  obtain ⟨habs, hparent, hnormal, -, -⟩ := RepairApplierConfig.validateGuestPath_ok hguest
  obtain ⟨-, -, hne⟩ := guestComponents_of_valid hguest
  have hroot : d.resource ≠ [slash] := by
    intro hroot
    rw [hroot] at hne
    exact hne rfl
  obtain ⟨mode, hmode⟩ := observeComponents_eq d.resource none (by
    intro q hq
    have hpre := (prefix_of_mem_below hq).1
    rw [List.nil_append] at hpre
    exact hdir.prefix_of hpre) hne
  refine ⟨mode, ?_⟩
  simp only [observedDirectoryMode, bind_eq_ok, check_eq_ok]
  refine ⟨(), ⟨by simpa using habs, hroot, hparent, hnormal⟩, some mode, hmode, rfl⟩

theorem isManifestChar_of_hexdigest {text : PyStr} {n : ℕ} :
    ∀ c ∈ (sha.hexdigest text).take n, isManifestChar c := by
  have hsha := sha.isSha256_hexdigest text
  rw [isSha256, Bool.and_eq_true, List.all_eq_true] at hsha
  intro c hc
  have hhex := hsha.2 c (List.mem_of_mem_take hc)
  simp only [Bool.or_eq_true, Bool.and_eq_true, decide_eq_true_eq] at hhex
  apply isManifestChar_of_isAlphanumeric
  simp only [isAlphanumeric, Bool.or_eq_true, Bool.and_eq_true, decide_eq_true_eq]
  omega

/-- What the entry of a decision is made from. -/
structure Recordable (sha : Sha256) (contract : AttemptContract) (d : RepairDecision)
    (observationSha256 applicationSha256 : PyStr) : Prop where
  applicable : Applicable {} d
  attempt : isAttemptIdentifier contract.attemptId
  encodable : d.resource.encodable
  decisionId : ∃ text, d.decisionId = py "repair_" ++ (sha.hexdigest text).take 16
  observation : isSha256 observationSha256
  application : isSha256 applicationSha256

theorem Recordable.evidence (h : Recordable sha contract d observationSha256 applicationSha256) :
    (observationEvidence contract observationSha256).postInit = .ok () ∧
      (applicationEvidence contract d applicationSha256).postInit = .ok () := by
  obtain ⟨hid, hlength⟩ := isManifestIdentifier_of_isAttemptIdentifier h.attempt
  constructor
  · apply ManifestEvidence.postInit_iff.mpr
    refine ⟨?_, hid, h.observation⟩
    apply isManifestIdentifier_append hid
    · decide
    · have h12 : (py ":observation").length = 12 := rfl
      rw [List.length_append]
      omega
  · apply ManifestEvidence.postInit_iff.mpr
    refine ⟨?_, hid, h.application⟩
    show isManifestIdentifier (contract.attemptId ++ py ":repair:" ++ d.decisionId)
    obtain ⟨text, htext⟩ := h.decisionId
    rw [htext, List.append_assoc]
    apply isManifestIdentifier_append hid
    · intro c hc
      rcases List.mem_append.mp hc with hc | hc
      · have hall : ∀ c ∈ py ":repair:", isManifestChar c := by decide
        exact hall c hc
      rcases List.mem_append.mp hc with hc | hc
      · have hall : ∀ c ∈ py "repair_", isManifestChar c := by decide
        exact hall c hc
      · exact isManifestChar_of_hexdigest c hc
    · have h8 : (py ":repair:").length = 8 := rfl
      have h7 : (py "repair_").length = 7 := rfl
      simp only [List.length_append, List.length_take]
      omega

/-- The evidence of a directory that was made for a decision. -/
def decisionEvidence (contract : AttemptContract) (d : RepairDecision)
    (observationSha256 applicationSha256 : PyStr) : List ManifestEvidence :=
  [observationEvidence contract observationSha256, applicationEvidence contract d applicationSha256]

/-- What the value of a directory is the digest of. -/
def directoryPayload (d : RepairDecision) (mode : ℕ) : Json :=
  .obj [(py "action", .str RepairActionKind.createDirectory.value), (py "mode", .str (octal04 mode)),
    (py "parents", .bool true), (py "resource", .str d.resource)]

/-- The entry of a directory. -/
def directoryOf (sha : Sha256) (ft : FloatText) (contract : AttemptContract) (d : RepairDecision)
    (observationSha256 applicationSha256 : PyStr) (mode : ℕ) : ManifestEntry where
  resourceId := py "fs:" ++ d.resource
  kind := .directory
  lifecycleScope := .unknown
  firstSeenStage := contract.initialStage
  firstSeenAttemptId := contract.attemptId
  provider := py "static_directory"
  valueId := py "directory-" ++ octal04 mode ++ py "-" ++
    (sha.hexdigest (canonicalText ft (directoryPayload d mode))).take 12
  valueSha256 := sha.hexdigest (canonicalText ft (directoryPayload d mode))
  evidence := decisionEvidence contract d observationSha256 applicationSha256
  confidence := .observed
  status := .active
  consumerPc := none

theorem octal04_digits (mode : ℕ) : ∀ c ∈ octal04 mode, 0x30 ≤ c ∧ c < 0x38 := by
  intro c hc
  simp only [octal04, List.mem_cons, List.not_mem_nil, or_false] at hc
  rcases hc with rfl | rfl | rfl | rfl <;> omega

theorem canonicalSha256_directoryPayload (hencodable : d.resource.encodable) (mode : ℕ) {text : PyStr} :
    canonicalSha256 sha ft (directoryPayload d mode) = .ok text ↔
      text = sha.hexdigest (canonicalText ft (directoryPayload d mode)) := by
  have hplain : Plain (directoryPayload d mode) := by
    apply plain_obj
    · show [py "action", py "mode", py "parents", py "resource"].Nodup
      decide
    · simp
  have hmode : PyStr.encodable (octal04 mode) := by
    apply Json.encodable_of_ascii
    intro c hc
    have hdigit := octal04_digits mode c hc
    omega
  have hwritable : Writable (directoryPayload d mode) := by
    simp [directoryPayload, RepairActionKind.value, hmode, hencodable]
  rw [canonicalSha256_eq_ok hplain]
  exact and_iff_right hwritable

/-- The two pieces of evidence are already in order. -/
theorem evidence_sorted (contract : AttemptContract) (d : RepairDecision)
    (observationSha256 applicationSha256 : PyStr) :
    (observationEvidence contract observationSha256).evidenceId <
      (applicationEvidence contract d applicationSha256).evidenceId := by
  show contract.attemptId ++ py ":observation" < contract.attemptId ++ py ":repair:" ++ d.decisionId
  rw [List.append_assoc]
  apply List.append_left_lt
  show (0x3A :: 0x6F :: py "bservation") < (0x3A :: 0x72 :: (py "epair:" ++ d.decisionId))
  apply List.cons_lt_cons_self.mpr
  exact List.cons_lt_cons_iff.mpr (Or.inl (by decide))

theorem sort_evidence (contract : AttemptContract) (d : RepairDecision)
    (observationSha256 applicationSha256 : PyStr) :
    (decisionEvidence contract d observationSha256 applicationSha256).insertionSort
        (fun a b => a.evidenceId ≤ b.evidenceId) =
      decisionEvidence contract d observationSha256 applicationSha256 := by
  apply List.Pairwise.insertionSort_eq
  exact List.pairwise_pair.mpr (evidence_sorted contract d observationSha256 applicationSha256).le

theorem ManifestEntry.postInit_iff {e : ManifestEntry} : e.postInit = .ok () ↔
    isManifestIdentifier e.resourceId ∧ isManifestIdentifier e.firstSeenAttemptId ∧ isProvider e.provider ∧
      isManifestIdentifier e.valueId ∧ isSha256 e.valueSha256 ∧ e.evidence ≠ [] ∧
      (e.evidence.map ManifestEvidence.evidenceId).Pairwise (· ≤ ·) ∧
      (e.evidence.map ManifestEvidence.evidenceId).Nodup ∧ (∀ text ∈ e.consumerPc, isConsumerPc text) ∧
      ¬ (e.status = .active ∧ e.confidence = .rejected) ∧
      ¬ (e.status = .rejected ∧ e.confidence ≠ .rejected) := by
  simp only [postInit, validateIdentifier, bind_eq_ok, ensure_eq_ok, validateSha256_eq_ok, exists_const]

variable (ft) in
theorem directoryOf_postInit (h : Recordable sha contract d observationSha256 applicationSha256) (mode : ℕ) :
    (directoryOf sha ft contract d observationSha256 applicationSha256 mode).postInit = .ok () ↔
      Nameable d.resource := by
  obtain ⟨hid, -⟩ := isManifestIdentifier_of_isAttemptIdentifier h.attempt
  have hsorted := evidence_sorted contract d observationSha256 applicationSha256
  have hvalue : isManifestIdentifier (py "directory-" ++ octal04 mode ++ py "-" ++
      (sha.hexdigest (canonicalText ft (directoryPayload d mode))).take 12) := by
    rw [List.append_assoc, List.append_assoc]
    apply isManifestIdentifier_append (by decide)
    · intro c hc
      rcases List.mem_append.mp hc with hc | hc
      · have hdigit := octal04_digits mode c hc
        apply isManifestChar_of_isAlphanumeric
        simp only [isAlphanumeric, Bool.or_eq_true, Bool.and_eq_true, decide_eq_true_eq]
        omega
      rcases List.mem_append.mp hc with hc | hc
      · have hall : ∀ c ∈ py "-", isManifestChar c := by decide
        exact hall c hc
      · exact isManifestChar_of_hexdigest c hc
    · have h10 : (py "directory-").length = 10 := rfl
      have h4 : (octal04 mode).length = 4 := rfl
      have h1 : (py "-").length = 1 := rfl
      simp only [List.length_append, List.length_take]
      omega
  rw [ManifestEntry.postInit_iff]
  show isManifestIdentifier (py "fs:" ++ d.resource) ∧ _ ↔ _
  rw [isManifestIdentifier_resource]
  constructor
  · rintro ⟨hname, -⟩
    exact hname
  · intro hname
    have hprovider : isProvider (py "static_directory") := by decide
    refine ⟨hname, hid, hprovider, hvalue, sha.isSha256_hexdigest _, by simp [directoryOf, decisionEvidence],
      List.pairwise_pair.mpr hsorted.le, ?_, by simp [directoryOf], by simp [directoryOf], by simp [directoryOf]⟩
    exact List.pairwise_pair.mpr hsorted.ne

variable (ft) in
/-- **A directory that is there gets an entry exactly when its path makes a name.** -/
theorem directoryEntry_iff (h : Recordable sha contract d observationSha256 applicationSha256)
    (hdir : fs.IsDir (guestComponents d.resource)) :
    ∃ mode, ∀ entry,
      directoryEntry sha ft fs contract d observationSha256 applicationSha256 = .ok entry ↔
        Nameable d.resource ∧
          entry = directoryOf sha ft contract d observationSha256 applicationSha256 mode := by
  obtain ⟨mode, hmode⟩ := observedDirectoryMode_eq h.applicable hdir
  refine ⟨mode, fun entry => ?_⟩
  have hdigits : (octalDigits (py "0755")).isSome := by decide
  have hsha : canonicalSha256 sha ft (directoryPayload d mode) = .ok _ :=
    (canonicalSha256_directoryPayload h.encodable mode).mpr rfl
  obtain ⟨hobservation, happlication⟩ := h.evidence
  simp only [directoryPayload] at hsha
  simp only [directoryEntry, h.applicable.mode, h.applicable.parents, hdigits, isBool, bind_eq_ok,
    check_eq_ok, hmode, hsha, ofManifest_eq_ok, pure_eq_ok, Except.ok.injEq, exists_eq_left', beq_self_eq_true,
    and_self, true_and, exists_const]
  have hsort := sort_evidence contract d observationSha256 applicationSha256
  simp only [decisionEvidence, observationEvidence, applicationEvidence] at hobservation happlication hsort
  simp only [hobservation, happlication, hsort, exists_const, true_and]
  have hinit := directoryOf_postInit ft h mode
  simp only [directoryOf, directoryPayload, decisionEvidence, observationEvidence,
    applicationEvidence] at hinit ⊢
  rw [← hinit]
  constructor
  · rintro ⟨_, hok, rfl⟩
    exact ⟨hok, rfl⟩
  · rintro ⟨hok, rfl⟩
    exact ⟨(), hok, rfl⟩

variable (ft) in
theorem directoryOf_construct (h : Recordable sha contract d observationSha256 applicationSha256)
    (hname : Nameable d.resource) (mode : ℕ) :
    (directoryOf sha ft contract d observationSha256 applicationSha256 mode).construct = .ok () := by
  rw [ManifestEntry.construct_iff]
  obtain ⟨hobservation, happlication⟩ := h.evidence
  refine ⟨?_, (directoryOf_postInit ft h mode).mpr hname⟩
  simp [directoryOf, decisionEvidence, hobservation, happlication]

end Entry

/-! ### Merging -/

section Merge

variable {display : PyDisplay}

/-- Evidence with one identifier is the same evidence. -/
def Agree (a b : List ManifestEvidence) : Prop :=
  ∀ v ∈ a, ∀ w ∈ b, v.evidenceId = w.evidenceId → v = w

/-- A merge of evidence succeeds when the two lists agree, and the result has what is in either. -/
theorem mergeEvidence_ok {evidence items out : List ManifestEvidence}
    (hnodup : (evidence.map ManifestEvidence.evidenceId).Nodup)
    (h : mergeEvidence display evidence items = .ok out) :
    Agree evidence items ∧ (out.map ManifestEvidence.evidenceId).Nodup ∧
      ∀ v, v ∈ out ↔ v ∈ evidence ∨ v ∈ items := by
  induction items generalizing evidence with
  | nil =>
    cases h
    exact ⟨by simp [Agree], hnodup, by simp⟩
  | cons item rest ih =>
    unfold mergeEvidence at h
    cases hfind : evidence.find? fun previous => previous.evidenceId == item.evidenceId with
    | none =>
      rw [hfind] at h
      have hnew : ∀ v ∈ evidence, v.evidenceId ≠ item.evidenceId := by simpa using hfind
      have hnodup' : ((evidence ++ [item]).map ManifestEvidence.evidenceId).Nodup := by
        rw [List.map_append, List.nodup_append]
        refine ⟨hnodup, by simp, ?_⟩
        simpa using hnew
      obtain ⟨hagree, hout, hmem⟩ := ih hnodup' h
      refine ⟨?_, hout, fun v => ?_⟩
      · intro v hv w hw heq
        rcases List.mem_cons.mp hw with rfl | hw
        · exact absurd heq (hnew v hv)
        · exact hagree v (List.mem_append_left _ hv) w hw heq
      · rw [hmem, List.mem_append, List.mem_singleton, List.mem_cons, or_assoc]
    | some previous =>
      rw [hfind] at h
      dsimp only at h
      have hprevious := List.mem_of_find?_eq_some hfind
      split at h
      · rename_i hsame
        subst hsame
        obtain ⟨hagree, hout, hmem⟩ := ih hnodup h
        refine ⟨?_, hout, fun v => ?_⟩
        · intro v hv w hw heq
          rcases List.mem_cons.mp hw with rfl | hw
          · exact List.inj_on_of_nodup_map hnodup hv hprevious heq
          · exact hagree v hv w hw heq
        · rw [hmem, List.mem_cons]
          constructor
          · exact Or.imp_right Or.inr
          · rintro (hv | rfl | hv)
            · exact Or.inl hv
            · exact Or.inl hprevious
            · exact Or.inr hv
      · cases h

variable (display) in
theorem mergeEvidence_of_agree {evidence items : List ManifestEvidence}
    (hitems : (items.map ManifestEvidence.evidenceId).Nodup) (hagree : Agree evidence items) :
    ∃ out, mergeEvidence display evidence items = .ok out := by
  induction items generalizing evidence with
  | nil => exact ⟨evidence, rfl⟩
  | cons item rest ih =>
    rw [List.map_cons, List.nodup_cons] at hitems
    obtain ⟨hnew, hrest⟩ := hitems
    have hagree' : Agree evidence rest := fun v hv w hw => hagree v hv w (List.mem_cons_of_mem _ hw)
    unfold mergeEvidence
    cases hfind : evidence.find? fun previous => previous.evidenceId == item.evidenceId with
    | none =>
      apply ih hrest
      intro v hv w hw heq
      rcases List.mem_append.mp hv with hv | hv
      · exact hagree' v hv w hw heq
      · rw [List.mem_singleton.mp hv] at heq
        exact absurd (heq ▸ List.mem_map_of_mem hw) hnew
    | some previous =>
      have hid : previous.evidenceId = item.evidenceId := by simpa using List.find?_some hfind
      have hsame := hagree previous (List.mem_of_find?_eq_some hfind) item List.mem_cons_self hid
      dsimp only
      rw [if_pos hsame]
      exact ih hrest hagree'

theorem map_insertionSort_pairwise {α : Type} (key : α → PyStr) (l : List α) :
    ((l.insertionSort fun a b => key a ≤ key b).map key).Pairwise (· ≤ ·) := by
  rw [List.map_insertionSort (fun a b => key a ≤ key b) (· ≤ ·) key l fun _ _ _ _ => Iff.rfl]
  exact List.pairwise_insertionSort _ _

/-- **An entry that is there takes the evidence of its replacement when they agree.** -/
theorem mergeExisting_ok {existing replacement merged : ManifestEntry}
    (hexisting : existing.construct = .ok ()) (hreplacement : replacement.construct = .ok ())
    (h : mergeExisting display existing replacement = .ok merged) :
    Agree existing.evidence replacement.evidence ∧ merged.construct = .ok () ∧
      merged.resourceId = replacement.resourceId ∧ merged.kind = replacement.kind ∧
      ∀ v, v ∈ merged.evidence ↔ v ∈ existing.evidence ∨ v ∈ replacement.evidence := by
  simp only [mergeExisting, bind_eq_ok, ofManifest_eq_ok, pure_eq_ok] at h
  obtain ⟨evidence, hevidence, _, hinit, rfl⟩ := h
  obtain ⟨hvalid, hentry⟩ := ManifestEntry.construct_iff.mp hexisting
  obtain ⟨-, -, -, -, -, -, -, hnodup, -⟩ := ManifestEntry.postInit_iff.mp hentry
  obtain ⟨hagree, -, hmem⟩ := mergeEvidence_ok hnodup hevidence
  have hmem' : ∀ v, v ∈ evidence.insertionSort (fun a b => a.evidenceId ≤ b.evidenceId) ↔
      v ∈ existing.evidence ∨ v ∈ replacement.evidence := fun v => by
    rw [List.mem_insertionSort, hmem]
  refine ⟨hagree, ManifestEntry.construct_iff.mpr ⟨?_, hinit⟩, rfl, rfl, hmem'⟩
  intro v hv
  rcases (hmem' v).mp hv with hv | hv
  · exact hvalid v hv
  · exact (ManifestEntry.construct_iff.mp hreplacement).1 v hv

variable (display) in
theorem mergeExisting_of_agree {existing replacement : ManifestEntry}
    (hexisting : existing.construct = .ok ()) (hreplacement : replacement.construct = .ok ())
    (hagree : Agree existing.evidence replacement.evidence) :
    ∃ merged, mergeExisting display existing replacement = .ok merged := by
  obtain ⟨-, hentry⟩ := ManifestEntry.construct_iff.mp hexisting
  obtain ⟨-, hattempt, -, -, -, hne, -, hnodup, hpc, hactive, hrejected⟩ :=
    ManifestEntry.postInit_iff.mp hentry
  obtain ⟨-, hentry'⟩ := ManifestEntry.construct_iff.mp hreplacement
  obtain ⟨hname, -, hprovider, hvalue, hsha, -, -, hnodup', -, hactive', hrejected'⟩ :=
    ManifestEntry.postInit_iff.mp hentry'
  obtain ⟨evidence, hevidence⟩ := mergeEvidence_of_agree display hnodup' hagree
  obtain ⟨-, hout, hmem⟩ := mergeEvidence_ok hnodup hevidence
  simp only [mergeExisting, bind_eq_ok, ofManifest_eq_ok, pure_eq_ok]
  refine ⟨_, evidence, hevidence, (), ?_, rfl⟩
  apply ManifestEntry.postInit_iff.mpr
  refine ⟨hname, hattempt, hprovider, hvalue, hsha, ?_, map_insertionSort_pairwise _ evidence, ?_, hpc, ?_, ?_⟩
  · obtain ⟨v, hv⟩ := List.exists_mem_of_ne_nil _ hne
    apply List.ne_nil_of_mem
    exact (List.mem_insertionSort _).mpr ((hmem v).mpr (Or.inl hv))
  · exact (((List.perm_insertionSort _ evidence).map _).nodup_iff).mpr hout
  · dsimp only
    split
    · exact hactive
    · exact hactive'
  · dsimp only
    split
    · exact hrejected
    · exact hrejected'

/-- Some entry has this evidence of a resource. -/
def Evidenced (entries : List ManifestEntry) (resourceId : PyStr) (v : ManifestEvidence) : Prop :=
  ∃ e ∈ entries, e.resourceId = resourceId ∧ v ∈ e.evidence

/-- Some entry says that a resource is of a kind. -/
def HasKind (entries : List ManifestEntry) (resourceId : PyStr) (kind : ManifestResourceKind) : Prop :=
  ∃ e ∈ entries, e.resourceId = resourceId ∧ e.kind = kind

/-- The entries of a manifest: each is valid, and they are about different resources. -/
structure Entries (entries : List ManifestEntry) : Prop where
  construct : ∀ e ∈ entries, e.construct = .ok ()
  nodup : (entries.map ManifestEntry.resourceId).Nodup

/-- What a merge makes of some entries. -/
structure Merged (entries : List ManifestEntry) (r : ManifestEntry) (out : List ManifestEntry) :
    Prop where
  valid : Entries out
  evidenced : ∀ id v, Evidenced out id v ↔
    Evidenced entries id v ∨ id = r.resourceId ∧ v ∈ r.evidence
  kind : HasKind out r.resourceId r.kind
  others : ∀ id, id ≠ r.resourceId → ∀ kind, HasKind out id kind ↔ HasKind entries id kind

variable {entries out : List ManifestEntry} {r : ManifestEntry}

/-- The entries with another one in the place of the one about its resource. -/
def replaced (entries : List ManifestEntry) (r merged : ManifestEntry) : List ManifestEntry :=
  ((entries.filter fun entry => entry.resourceId ≠ r.resourceId) ++ [merged]).insertionSort
    fun a b => a.resourceId ≤ b.resourceId

theorem mem_replaced {e merged : ManifestEntry} : e ∈ replaced entries r merged ↔
    (e ∈ entries ∧ e.resourceId ≠ r.resourceId) ∨ e = merged := by
  rw [replaced, List.mem_insertionSort, List.mem_append, List.mem_filter, List.mem_singleton,
    decide_eq_true_eq]

theorem mergeEntry_none
    (h : (entries.find? fun entry => entry.resourceId == r.resourceId) = none) :
    mergeEntry display entries r = .ok (replaced entries r r) := by
  unfold mergeEntry
  rw [h]
  rfl

theorem mergeEntry_some {existing : ManifestEntry}
    (h : (entries.find? fun entry => entry.resourceId == r.resourceId) = some existing) :
    mergeEntry display entries r = .ok out ↔
      ∃ merged, mergeExisting display existing r = .ok merged ∧ replaced entries r merged = out := by
  unfold mergeEntry
  rw [h]
  dsimp only
  rw [bind_eq_ok]
  simp only [pure_eq_ok]
  rfl

theorem merged_of_replacement {merged : ManifestEntry} (hentries : Entries entries)
    (hmerged : merged.construct = .ok ()) (hid : merged.resourceId = r.resourceId)
    (hkind : merged.kind = r.kind)
    (hevidence : ∀ v, v ∈ merged.evidence ↔ Evidenced entries r.resourceId v ∨ v ∈ r.evidence) :
    Merged entries r (replaced entries r merged) := by
  have hmem : ∀ e, e ∈ replaced entries r merged ↔
      (e ∈ entries ∧ e.resourceId ≠ r.resourceId) ∨ e = merged := fun _ => mem_replaced
  refine ⟨⟨fun e he => ?_, ?_⟩, fun id v => ?_, ?_, fun id hne kind => ?_⟩
  · rcases (hmem e).mp he with ⟨he, -⟩ | rfl
    · exact hentries.construct e he
    · exact hmerged
  · rw [replaced, ((List.perm_insertionSort _ _).map ManifestEntry.resourceId).nodup_iff, List.map_append,
      List.nodup_append]
    refine ⟨hentries.nodup.sublist (List.filter_sublist.map _), by simp, ?_⟩
    intro a ha b hb
    obtain ⟨e, he, rfl⟩ := List.mem_map.mp ha
    rw [List.map_singleton, List.mem_singleton] at hb
    rw [hb, hid]
    exact of_decide_eq_true (List.mem_filter.mp he).2
  · constructor
    · rintro ⟨e, he, rfl, hv⟩
      rcases (hmem e).mp he with ⟨he, -⟩ | rfl
      · exact Or.inl ⟨e, he, rfl, hv⟩
      · rw [hid]
        exact ((hevidence v).mp hv).imp_right fun hv => ⟨rfl, hv⟩
    · intro h
      by_cases heq : id = r.resourceId
      · subst heq
        refine ⟨merged, (hmem merged).mpr (Or.inr rfl), hid, (hevidence v).mpr ?_⟩
        exact h.imp_right fun h => h.2
      · obtain ⟨e, he, rfl, hv⟩ := h.resolve_right fun h => heq h.1
        exact ⟨e, (hmem e).mpr (Or.inl ⟨he, heq⟩), rfl, hv⟩
  · exact ⟨merged, (hmem merged).mpr (Or.inr rfl), hid, hkind⟩
  · constructor
    · rintro ⟨e, he, rfl, hk⟩
      rcases (hmem e).mp he with ⟨he, -⟩ | rfl
      · exact ⟨e, he, rfl, hk⟩
      · exact absurd hid hne
    · rintro ⟨e, he, rfl, hk⟩
      exact ⟨e, (hmem e).mpr (Or.inl ⟨he, hne⟩), rfl, hk⟩

/-- The new evidence of a resource agrees with what is there. -/
def Fresh (entries : List ManifestEntry) (resourceId : PyStr) (evidence : List ManifestEvidence) : Prop :=
  ∀ v, Evidenced entries resourceId v → ∀ w ∈ evidence, v.evidenceId = w.evidenceId → v = w

variable (display) in
/-- **A merge succeeds exactly when the evidence agrees.** -/
theorem mergeEntry_iff (hentries : Entries entries) (hr : r.construct = .ok ()) :
    (∃ out, mergeEntry display entries r = .ok out) ↔ Fresh entries r.resourceId r.evidence := by
  cases hfind : entries.find? fun entry => entry.resourceId == r.resourceId with
  | none =>
    have hnone : ∀ e ∈ entries, e.resourceId ≠ r.resourceId := by simpa using hfind
    refine iff_of_true ⟨_, mergeEntry_none hfind⟩ ?_
    rintro v ⟨e, he, hid, -⟩
    exact absurd hid (hnone e he)
  | some existing =>
    have hid : existing.resourceId = r.resourceId := by simpa using List.find?_some hfind
    have hmem := List.mem_of_find?_eq_some hfind
    have hexisting := hentries.construct existing hmem
    simp only [mergeEntry_some hfind]
    constructor
    · rintro ⟨_, merged, hmerged, -⟩
      obtain ⟨hagree, -⟩ := mergeExisting_ok hexisting hr hmerged
      rintro v ⟨e, he, heid, hv⟩ w hw heq
      obtain rfl := List.inj_on_of_nodup_map hentries.nodup he hmem (heid.trans hid.symm)
      exact hagree v hv w hw heq
    · intro hfresh
      obtain ⟨merged, hmerged⟩ := mergeExisting_of_agree display hexisting hr
        fun v hv w hw heq => hfresh v ⟨existing, hmem, hid, hv⟩ w hw heq
      exact ⟨_, merged, hmerged, rfl⟩

/-- **What a merge makes.** -/
theorem mergeEntry_merged (hentries : Entries entries) (hr : r.construct = .ok ())
    (h : mergeEntry display entries r = .ok out) : Merged entries r out := by
  cases hfind : entries.find? fun entry => entry.resourceId == r.resourceId with
  | none =>
    have hnone : ∀ e ∈ entries, e.resourceId ≠ r.resourceId := by simpa using hfind
    rw [mergeEntry_none hfind] at h
    cases h
    apply merged_of_replacement hentries hr rfl rfl
    intro v
    refine ⟨Or.inr, fun h => h.resolve_left ?_⟩
    rintro ⟨e, he, hid, -⟩
    exact hnone e he hid
  | some existing =>
    have hid : existing.resourceId = r.resourceId := by simpa using List.find?_some hfind
    have hmem := List.mem_of_find?_eq_some hfind
    obtain ⟨merged, hmerged, rfl⟩ := (mergeEntry_some hfind).mp h
    obtain ⟨-, hconstruct, hid', hkind, hevidence⟩ :=
      mergeExisting_ok (hentries.construct existing hmem) hr hmerged
    apply merged_of_replacement hentries hconstruct hid' hkind
    intro v
    rw [hevidence]
    constructor
    · exact Or.imp_left fun hv => ⟨existing, hmem, hid, hv⟩
    · refine Or.imp_left ?_
      rintro ⟨e, he, heid, hv⟩
      obtain rfl := List.inj_on_of_nodup_map hentries.nodup he hmem (heid.trans hid.symm)
      exact hv

end Merge

end TaintForge
