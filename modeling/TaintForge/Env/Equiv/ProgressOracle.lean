import TaintForge.Env.Equiv.Documents
import TaintForge.Env.Equiv.EgressPolicy
import TaintForge.Env.ProgressOracle
import TaintForge.Lib.Except

/-!
# What a fingerprint of the state says

The digests are nested, and each layer can be read back: from the text to the document, from the document to what
was normalised, and from the sorted list to the set, since the identifiers are different.

* `SameState`: two iterations that differ in nothing that is kept.
* `ObservedIteration.fingerprint_eq_iff`: equal fingerprints.
* `ObservedIteration.fingerprint_of_agree`: what a fingerprint does not depend on.
* `load_save`: the observation that is read of a stored one.
* `stop_recurs`: why a session stops at a fixed point or at a cycle.
-/

namespace TaintForge

namespace ProgressOracle

/-! ### The normalised documents -/

/-- A value is known from its document, whatever the order of the keys, and only integers can keep the document from
being written. -/
structure Faithful {α : Type} (toDict : α → Json) : Prop where
  plain : ∀ x, Plain (toDict x)
  inj : ∀ x y, (toDict x).sortKeys = (toDict y).sortKeys → x = y

section Faithful

variable {α : Type} {toDict : α → Json}

theorem Faithful.of_sameKeys (hplain : ∀ x, Plain (toDict x)) (hsame : ∀ x y, SameKeys (toDict x) (toDict y))
    (hinj : Function.Injective toDict) : Faithful toDict :=
  ⟨hplain, fun x y h => hinj (hsame x y h)⟩

theorem Faithful.list (h : Faithful toDict) : Faithful fun xs : List α => Json.arr (xs.map toDict) := by
  constructor
  · intro xs
    apply plain_arr
    intro j hj
    obtain ⟨x, -, rfl⟩ := List.mem_map.mp hj
    exact h.plain x
  · intro xs ys hsort
    have hmap : xs.map (fun x => (toDict x).sortKeys) = ys.map fun x => (toDict x).sortKeys := by
      have hitems := Json.arr.inj hsort
      rwa [Json.sortKeysItems_eq_map, Json.sortKeysItems_eq_map, List.map_map, List.map_map] at hitems
    exact List.map_injective_iff.mpr (fun x y => h.inj x y) hmap

/-- **A value is known from the text of its document.** -/
theorem Faithful.text_inj {ft : FloatText} (h : Faithful toDict) {x y : α} (hx : Writable (toDict x))
    (hy : Writable (toDict y)) (htext : canonicalText ft (toDict x) = canonicalText ft (toDict y)) : x = y :=
  h.inj x y (Json.canonical_inj (l := .compact) (h.plain x hx.1) (h.plain y hy.1) htext)

/-- The digest of a document. -/
theorem Faithful.digest_eq_ok {sha : Sha256} {ft : FloatText} (h : Faithful toDict) {x : α} {digest : PyStr} :
    digestJson sha ft (toDict x) = .ok digest ↔
      Writable (toDict x) ∧ digest = sha.hexdigest (canonicalText ft (toDict x)) := by
  have herror : digestJson sha ft (toDict x) = .ok digest ↔ canonicalSha256 sha ft (toDict x) = .ok digest := by
    unfold digestJson
    cases canonicalSha256 sha ft (toDict x) with
    | error error => exact iff_of_false (by nofun) (by nofun)
    | ok text => exact ⟨fun h => by cases h; rfl, fun h => by cases h; rfl⟩
  rw [herror, canonicalSha256_eq_ok (h.plain x)]

end Faithful

section Documents

@[simp] theorem nullable_str_inj {s t : Option PyStr} :
    nullable Json.str s = nullable Json.str t ↔ s = t := by
  cases s <;> cases t <;> simp [nullable]

@[simp] theorem nullable_bool_inj {s t : Option Bool} :
    nullable Json.bool s = nullable Json.bool t ↔ s = t := by
  cases s <;> cases t <;> simp [nullable]

@[simp] theorem nullable_toJson_inj {n m : Option PyInt} :
    nullable PyInt.toJson n = nullable PyInt.toJson m ↔ n = m := by
  rcases n with _ | _ | _ <;> rcases m with _ | _ | _ <;> simp [nullable, PyInt.toJson]

@[simp] theorem plain_nullable_bool (b : Option Bool) : Plain (nullable .bool b) := by
  cases b with
  | none => exact plain_null
  | some b => exact plain_bool b

@[simp] theorem sameKeys_nullable_bool (a b : Option Bool) :
    SameKeys (nullable .bool a) (nullable .bool b) := by
  cases a <;> cases b <;> exact id

theorem requirement_faithful : Faithful NormalizedRequirement.toDict := by
  have hnodup : [py "requirement_id", py "kind", py "resource", py "operation", py "status", py "blocking",
      py "repairable", py "errno"].Nodup := by decide
  refine .of_sameKeys (fun r => plain_obj hnodup (by simp)) (fun r s => sameKeys_obj hnodup (by simp)) ?_
  intro r s h
  simp only [NormalizedRequirement.toDict, Json.obj.injEq, List.cons.injEq, Prod.mk.injEq, Json.str.injEq,
    Json.bool.injEq, nullable_str_inj, true_and, and_true] at h
  cases r
  cases s
  simp_all

theorem repair_faithful : Faithful NormalizedRepair.toDict := by
  have hnodup : [py "decision_id", py "requirement_id", py "resource", py "action", py "disposition",
      py "automatic_allowed"].Nodup := by decide
  refine .of_sameKeys (fun r => plain_obj hnodup (by simp)) (fun r s => sameKeys_obj hnodup (by simp)) ?_
  intro r s h
  simp only [NormalizedRepair.toDict, Json.obj.injEq, List.cons.injEq, Prod.mk.injEq, Json.str.injEq,
    Json.bool.injEq, true_and, and_true] at h
  cases r
  cases s
  simp_all

theorem networkEvent_faithful : Faithful fun e : NormalizedNetworkEvent => .obj e.toDict := by
  have hnodup : [py "event", py "listener_type", py "original_remote_ip", py "original_remote_port",
      py "udp_role", py "response_observed"].Nodup := by decide
  refine .of_sameKeys (fun e => plain_obj hnodup (by simp [NormalizedNetworkEvent.toDict]))
    (fun e f => sameKeys_obj hnodup (by simp [NormalizedNetworkEvent.toDict])) ?_
  intro e f h
  simp only [NormalizedNetworkEvent.toDict, Json.obj.injEq, List.cons.injEq, Prod.mk.injEq, Json.str.injEq,
    Json.bool.injEq, nullable_str_inj, nullable_toJson_inj, true_and, and_true] at h
  cases e
  cases f
  simp_all

theorem guestEvent_nodup (e : NormalizedGuestEvent) : (e.toDict.map Prod.fst).Nodup := by
  cases e with
  | syscall =>
    show [py "event", py "syscall", py "errno", py "success", py "path", py "remote_ip", py "remote_port"].Nodup
    decide
  | outcome =>
    show [py "event", py "result"].Nodup
    decide
  | other =>
    show [py "event"].Nodup
    decide

theorem guestEvent_plain (e : NormalizedGuestEvent) : Plain (.obj e.toDict) := by
  apply plain_obj (guestEvent_nodup e)
  cases e <;> simp [NormalizedGuestEvent.toDict]

theorem guestEvent_faithful : Faithful fun e : NormalizedGuestEvent => .obj e.toDict := by
  refine ⟨guestEvent_plain, fun e f h => ?_⟩
  have hlookup := Json.sortKeys_lookup (guestEvent_nodup e) (guestEvent_nodup f) h
  have hsame : List.Forall₂ (fun a b => a.1 = b.1 ∧ SameKeys a.2 b.2) e.toDict f.toDict → e.toDict = f.toDict :=
    fun hall => Json.obj.inj (sameKeys_obj (guestEvent_nodup e) hall h)
  cases e with
  | syscall name errno success path remoteIp remotePort =>
    cases f with
    | syscall =>
      have hfields := hsame (by simp [NormalizedGuestEvent.toDict])
      simpa [NormalizedGuestEvent.toDict] using hfields
    | outcome => exact absurd (hlookup (py "syscall")) (by nofun)
    | other => exact absurd (hlookup (py "syscall")) (by nofun)
  | outcome event result =>
    cases f with
    | syscall => exact absurd (hlookup (py "syscall")) (by nofun)
    | outcome =>
      have hfields := hsame (by simp [NormalizedGuestEvent.toDict])
      simpa [NormalizedGuestEvent.toDict] using hfields
    | other => exact absurd (hlookup (py "result")) (by nofun)
  | other event =>
    cases f with
    | syscall => exact absurd (hlookup (py "syscall")) (by nofun)
    | outcome => exact absurd (hlookup (py "result")) (by nofun)
    | other =>
      have hfields := hsame (by simp [NormalizedGuestEvent.toDict])
      simpa [NormalizedGuestEvent.toDict] using hfields

/-- The behaviour of a run. -/
theorem behavior_faithful : Faithful fun b : List NormalizedGuestEvent × List NormalizedNetworkEvent =>
    behaviorPayload b.1 b.2 := by
  have hnodup : [py "guest_events", py "network_events"].Nodup := by decide
  constructor
  · rintro ⟨guest, network⟩
    refine plain_obj (by exact hnodup) ?_
    simp [guestEvent_faithful.list.plain guest, networkEvent_faithful.list.plain network]
  · rintro ⟨guest, network⟩ ⟨guest', network'⟩ h
    have hlookup := Json.sortKeys_lookup (by exact hnodup) (by exact hnodup) h
    have hguest := guestEvent_faithful.list.inj guest guest' (Option.some.inj (hlookup (py "guest_events")))
    have hnetwork :=
      networkEvent_faithful.list.inj network network' (Option.some.inj (hlookup (py "network_events")))
    rw [hguest, hnetwork]

/-- The state: a snapshot and three digests. -/
theorem state_faithful : Faithful fun s : PyStr × PyStr × PyStr × PyStr =>
    statePayload s.1 s.2.1 s.2.2.1 s.2.2.2 := by
  have hnodup : [py "environment_snapshot_id", py "requirements_fingerprint", py "repair_fingerprint",
      py "behavior_fingerprint"].Nodup := by decide
  refine .of_sameKeys (fun s => plain_obj hnodup (by simp)) (fun s t => sameKeys_obj hnodup (by simp)) ?_
  rintro ⟨a, b, c, d⟩ ⟨a', b', c', d'⟩ h
  simpa [statePayload] using h

end Documents

/-! ### Equal fingerprints -/

/-- An iteration: its snapshot and what was normalised. -/
structure IterationState where
  snapshotId : PyStr
  read : NormalizedArtifacts

/-- **Two iterations that differ in nothing that is kept.** -/
structure SameState (a b : IterationState) : Prop where
  snapshot : a.snapshotId = b.snapshotId
  requirements : ∀ r, r ∈ a.read.requirements ↔ r ∈ b.read.requirements
  repairs : ∀ r, r ∈ a.read.repairs ↔ r ∈ b.read.repairs
  guestEvents : a.read.guestEvents = b.read.guestEvents
  networkEvents : a.read.networkEvents = b.read.networkEvents

namespace IterationState

/-- The identifiers of the requirements, and those of the decisions, are different. -/
structure UniqueIds (a : IterationState) : Prop where
  requirements : (a.read.requirements.map NormalizedRequirement.requirementId).Nodup
  repairs : (a.read.repairs.map NormalizedRepair.decisionId).Nodup

def requirementsJson (a : IterationState) : Json := .arr (a.read.requirements.map NormalizedRequirement.toDict)

def repairsJson (a : IterationState) : Json := .arr (a.read.repairs.map NormalizedRepair.toDict)

def behaviorJson (a : IterationState) : Json := behaviorPayload a.read.guestEvents a.read.networkEvents

variable (sha : Sha256) (ft : FloatText)

/-- The digest of a document that can be written. -/
def digest (j : Json) : PyStr := sha.hexdigest (canonicalText ft j)

def stateJson (a : IterationState) : Json :=
  statePayload a.snapshotId (digest sha ft a.requirementsJson) (digest sha ft a.repairsJson)
    (digest sha ft a.behaviorJson)

/-- SHA-256 tells apart what is digested for two iterations. -/
structure Separated (a b : IterationState) : Prop where
  requirements : sha.Separates (canonicalText ft a.requirementsJson) (canonicalText ft b.requirementsJson)
  repairs : sha.Separates (canonicalText ft a.repairsJson) (canonicalText ft b.repairsJson)
  behavior : sha.Separates (canonicalText ft a.behaviorJson) (canonicalText ft b.behaviorJson)
  state : sha.Separates (canonicalText ft (a.stateJson sha ft)) (canonicalText ft (b.stateJson sha ft))

/-- What is digested can be written. -/
structure AllWritable (a : IterationState) : Prop where
  requirements : Writable a.requirementsJson
  repairs : Writable a.repairsJson
  behavior : Writable a.behaviorJson
  state : Writable (a.stateJson sha ft)

end IterationState

/-- The lists are sorted by keys that tell their elements apart. -/
structure SortedRead (read : NormalizedArtifacts) : Prop where
  requirements : ∃ items, read.requirements = keySort NormalizedRequirement.sortKey items
  repairs : ∃ items, read.repairs = keySort NormalizedRepair.decisionId items

section Fingerprints

variable {sha : Sha256} {ft : FloatText} {builtins : PyBuiltins} {files : ArtifactFiles}
  {snapshotId : PyStr} {goalReached : Bool} {goalReason : Option PyStr} {now : PyStr}
  {observation : IterationObservation}

theorem readArtifacts_sorted {read : NormalizedArtifacts} (h : readArtifacts sha ft builtins files = .ok read) :
    SortedRead read := by
  unfold readArtifacts at h
  simp only [bind_eq_ok] at h
  obtain ⟨_, -, _, -, requirements, -, plan, -, h⟩ := h
  split at h
  · cases h
  · simp only [bind_eq_ok, pure_eq_ok] at h
    obtain ⟨_, hrequirements, _, hrepairs, _, -, _, -, rfl⟩ := h
    obtain ⟨items, -, hitems⟩ := bind_eq_ok.mp hrequirements
    obtain ⟨decisions, -, hdecisions⟩ := bind_eq_ok.mp hrepairs
    exact ⟨⟨items, (pure_eq_ok.mp hitems).symm⟩, ⟨decisions, (pure_eq_ok.mp hdecisions).symm⟩⟩

theorem readArtifacts_digests {read : NormalizedArtifacts} (h : readArtifacts sha ft builtins files = .ok read) :
    isSha256 read.requirementsSha256 ∧ isSha256 read.repairPlanSha256 := by
  unfold readArtifacts at h
  simp only [bind_eq_ok] at h
  obtain ⟨_, -, _, -, requirements, -, plan, -, h⟩ := h
  split at h
  · cases h
  · simp only [bind_eq_ok, pure_eq_ok] at h
    obtain ⟨_, -, _, -, _, -, _, -, rfl⟩ := h
    exact ⟨sha.isSha256_hexdigest _, sha.isSha256_hexdigest _⟩

/-- The observation of what was read. -/
def IterationState.observationOf (sha : Sha256) (ft : FloatText) (a : IterationState) (goalReached : Bool)
    (goalReason : Option PyStr) (now : PyStr) : IterationObservation where
  requirementsSha256 := a.read.requirementsSha256
  requirementsFingerprint := IterationState.digest sha ft a.requirementsJson
  repairPlanSha256 := a.read.repairPlanSha256
  repairFingerprint := IterationState.digest sha ft a.repairsJson
  behaviorFingerprint := IterationState.digest sha ft a.behaviorJson
  stateFingerprint := IterationState.digest sha ft (a.stateJson sha ft)
  metrics := buildMetrics ft a.read.requirements a.read.repairs a.read.guestEvents a.read.networkEvents
  normalizedGuestEvents := a.read.guestEvents.map NormalizedGuestEvent.toDict
  normalizedNetworkEvents := a.read.networkEvents.map NormalizedNetworkEvent.toDict
  goalReached := goalReached
  goalReason :=
    if goalReached ∧ (goalReason = none ∨ goalReason = some []) then some (py "explicit goal marker supplied")
    else goalReason
  generatedAtUtc := now

/-- **What an observation says.** -/
theorem observe_eq_ok :
    observe sha ft builtins files snapshotId goalReached goalReason now = .ok observation ↔
      ∃ read, readArtifacts sha ft builtins files = .ok read ∧
        IterationState.AllWritable sha ft ⟨snapshotId, read⟩ ∧
        observation = IterationState.observationOf sha ft ⟨snapshotId, read⟩ goalReached goalReason now := by
  have hbehavior_iff : ∀ {read : NormalizedArtifacts} {digest : PyStr},
      digestJson sha ft (behaviorPayload read.guestEvents read.networkEvents) = .ok digest ↔ _ :=
    fun {read} _ => behavior_faithful.digest_eq_ok (x := (read.guestEvents, read.networkEvents))
  have hstate_iff : ∀ {a b c d digest : PyStr}, digestJson sha ft (statePayload a b c d) = .ok digest ↔ _ :=
    fun {a b c d} _ => state_faithful.digest_eq_ok (x := (a, b, c, d))
  unfold observe
  simp only [bind_eq_ok, pure_eq_ok]
  constructor
  · rintro ⟨read, hread, requirements, hrequirements, repairs, hrepairs, behavior, hbehavior, state, hstate, rfl⟩
    obtain ⟨hw₁, rfl⟩ := requirement_faithful.list.digest_eq_ok.mp hrequirements
    obtain ⟨hw₂, rfl⟩ := repair_faithful.list.digest_eq_ok.mp hrepairs
    obtain ⟨hw₃, rfl⟩ := hbehavior_iff.mp hbehavior
    obtain ⟨hw₄, rfl⟩ := hstate_iff.mp hstate
    exact ⟨read, hread, ⟨hw₁, hw₂, hw₃, hw₄⟩, rfl⟩
  · rintro ⟨read, hread, hw, rfl⟩
    exact ⟨read, hread, _, requirement_faithful.list.digest_eq_ok.mpr ⟨hw.requirements, rfl⟩,
      _, repair_faithful.list.digest_eq_ok.mpr ⟨hw.repairs, rfl⟩, _, hbehavior_iff.mpr ⟨hw.behavior, rfl⟩,
      _, hstate_iff.mpr ⟨hw.state, rfl⟩, rfl⟩

/-- The key of a requirement ends with its identifier. -/
theorem sortKey_nodup {l : List NormalizedRequirement}
    (h : (l.map NormalizedRequirement.requirementId).Nodup) : (l.map NormalizedRequirement.sortKey).Nodup := by
  refine List.Nodup.map_on ?_ h.of_map
  intro r hr s hs hkey
  have hid : r.requirementId = s.requirementId := by
    simp only [NormalizedRequirement.sortKey, List.cons.injEq, and_true] at hkey
    exact hkey.2.2.2
  exact List.inj_on_of_nodup_map h hr hs hid

/-- **Sorted requirements and repairs are known as sets.** -/
theorem SameState.lists {a b : IterationState} (ha : SortedRead a.read) (hb : SortedRead b.read)
    (hida : a.UniqueIds) (hidb : b.UniqueIds) (h : SameState a b) :
    a.read.requirements = b.read.requirements ∧ a.read.repairs = b.read.repairs := by
  obtain ⟨items, hitems⟩ := ha.requirements
  obtain ⟨items', hitems'⟩ := hb.requirements
  obtain ⟨decisions, hdecisions⟩ := ha.repairs
  obtain ⟨decisions', hdecisions'⟩ := hb.repairs
  have hnodup : ∀ {l : List NormalizedRequirement},
      ((keySort NormalizedRequirement.sortKey l).map NormalizedRequirement.requirementId).Nodup →
      (l.map NormalizedRequirement.sortKey).Nodup := fun {l} h =>
    ((perm_keySort NormalizedRequirement.sortKey l).map _).nodup_iff.mp (sortKey_nodup h)
  have hnodup' : ∀ {l : List NormalizedRepair},
      ((keySort NormalizedRepair.decisionId l).map NormalizedRepair.decisionId).Nodup →
      (l.map NormalizedRepair.decisionId).Nodup := fun {l} h =>
    ((perm_keySort NormalizedRepair.decisionId l).map _).nodup_iff.mp h
  constructor
  · rw [hitems, hitems']
    refine (keySort_eq_iff (hnodup (hitems ▸ hida.requirements)) (hnodup (hitems' ▸ hidb.requirements))).mpr ?_
    intro r
    have hr := h.requirements r
    rwa [hitems, hitems', mem_keySort, mem_keySort] at hr
  · rw [hdecisions, hdecisions']
    refine (keySort_eq_iff (hnodup' (hdecisions ▸ hida.repairs)) (hnodup' (hdecisions' ▸ hidb.repairs))).mpr ?_
    intro r
    have hr := h.repairs r
    rwa [hdecisions, hdecisions', mem_keySort, mem_keySort] at hr

/-- Iterations with one state have one digest. -/
theorem stateJson_congr {a b : IterationState} (ha : SortedRead a.read) (hb : SortedRead b.read)
    (hida : a.UniqueIds) (hidb : b.UniqueIds) (h : SameState a b) :
    a.stateJson sha ft = b.stateJson sha ft := by
  obtain ⟨hrequirements, hrepairs⟩ := h.lists ha hb hida hidb
  unfold IterationState.stateJson IterationState.requirementsJson IterationState.repairsJson
    IterationState.behaviorJson
  rw [h.snapshot, hrequirements, hrepairs, h.guestEvents, h.networkEvents]

/-- **One digest, one state.** -/
theorem sameState_of_digest {a b : IterationState} (ha : a.AllWritable sha ft) (hb : b.AllWritable sha ft)
    (hsep : a.Separated sha ft b)
    (h : IterationState.digest sha ft (a.stateJson sha ft) = IterationState.digest sha ft (b.stateJson sha ft)) :
    SameState a b := by
  have hstate := state_faithful.text_inj (x := (a.snapshotId, _, _, _)) (y := (b.snapshotId, _, _, _))
    ha.state hb.state (hsep.state h)
  simp only [Prod.mk.injEq] at hstate
  obtain ⟨hsnapshot, hrequirements, hrepairs, hbehavior⟩ := hstate
  have hrequirements' := requirement_faithful.list.text_inj ha.requirements hb.requirements
    (hsep.requirements hrequirements)
  have hrepairs' := repair_faithful.list.text_inj ha.repairs hb.repairs (hsep.repairs hrepairs)
  have hbehavior' := behavior_faithful.text_inj (x := (a.read.guestEvents, a.read.networkEvents))
    (y := (b.read.guestEvents, b.read.networkEvents)) ha.behavior hb.behavior (hsep.behavior hbehavior)
  rw [Prod.mk.injEq] at hbehavior'
  exact ⟨hsnapshot, fun r => by rw [hrequirements'], fun r => by rw [hrepairs'], hbehavior'.1, hbehavior'.2⟩

end Fingerprints

/-! ### What a fingerprint does not depend on -/

/-- Two objects have the same values at some keys. -/
def AgreeOn (keys : List PyStr) (f g : List (PyStr × Json)) : Prop :=
  ∀ key ∈ keys, Json.lookup key f = Json.lookup key g

/-- The keys of a requirement that are read. -/
def requirementKeys : List PyStr :=
  [py "requirement_id", py "kind", py "resource", py "operation", py "status", py "blocking", py "repairable",
    py "errno"]

/-- The keys of a decision that are read. -/
def repairKeys : List PyStr :=
  [py "decision_id", py "requirement_id", py "resource", py "action", py "disposition", py "automatic_allowed"]

/-- The keys of a guest event that are read. -/
def guestEventKeys : List PyStr :=
  [py "execution_context", py "event", py "return_value", py "syscall", py "errno", py "path", py "remote_ip",
    py "remote_port", py "result"]

/-- The keys of a network event that are read. -/
def networkEventKeys : List PyStr :=
  [py "event", py "listener_type", py "original_remote_ip", py "original_remote_port", py "udp_role"]

/-- Two lists of objects are the same, up to their order and the keys that are not read. -/
def AgreeItems (keys : List PyStr) (xs ys : List Json) : Prop :=
  ∃ fs gs : List (List (PyStr × Json)), xs = fs.map .obj ∧ ys = gs.map .obj ∧
    ∃ hs, fs.Perm hs ∧ List.Forall₂ (AgreeOn keys) hs gs

/-- The documents of the artifacts. -/
structure RawArtifacts where
  requirements : List (PyStr × Json)
  repairPlan : List (PyStr × Json)
  syscallEvents : List (List (PyStr × Json))
  networkEvents : List (List (PyStr × Json))

/-- The documents of the artifacts, if they can be read. -/
def rawArtifacts (ft : FloatText) (files : ArtifactFiles) : Except ProgressOracleError RawArtifacts := do
  let requirementsFile ← locateFile files (py "runtime_requirements.json")
  let repairPlanFile ← locateFile files (py "repair_plan.json")
  let requirements ← loadJsonObject ft requirementsFile
  let repairPlan ← loadJsonObject ft repairPlanFile
  let syscallEvents ← readEvents ft files (py "syscall_events.jsonl")
  let networkEvents ← readEvents ft files (py "network_events.jsonl")
  return ⟨requirements, repairPlan, syscallEvents, networkEvents⟩

/-- **Artifacts that differ in what is dropped**: requirements and decisions may stand in another order, and keys
that are not read may have any values. -/
structure Agree (a b : RawArtifacts) : Prop where
  requirements : ∃ xs ys, field (py "requirements") a.requirements = .arr xs ∧
    field (py "requirements") b.requirements = .arr ys ∧ AgreeItems requirementKeys xs ys
  repairs : ∃ xs ys, field (py "decisions") a.repairPlan = .arr xs ∧
    field (py "decisions") b.repairPlan = .arr ys ∧ AgreeItems repairKeys xs ys
  syscallEvents : List.Forall₂ (AgreeOn guestEventKeys) a.syscallEvents b.syscallEvents
  networkEvents : List.Forall₂ (AgreeOn networkEventKeys) a.networkEvents b.networkEvents

section Agree

variable {sha : Sha256} {ft : FloatText} {builtins : PyBuiltins} {files : ArtifactFiles}

theorem AgreeOn.field {keys : List PyStr} {f g : List (PyStr × Json)} (h : AgreeOn keys f g) {key : PyStr}
    (hkey : key ∈ keys) : TaintForge.field key f = TaintForge.field key g := by
  unfold TaintForge.field
  rw [h key hkey]

theorem stringOf_eq_ok {item : List (PyStr × Json)} {name text : PyStr} {index : ℕ} :
    stringOf item name index = .ok text ↔ field name item = .str text ∧ text ≠ [] := by
  unfold stringOf
  split
  · rename_i s hs
    rw [hs, Json.str.injEq]
    split
    · rename_i hnil
      exact iff_of_false (by nofun) fun ⟨heq, hne⟩ => hne (heq ▸ hnil)
    · rename_i hne
      rw [Except.ok.injEq]
      exact ⟨fun heq => ⟨heq, heq ▸ hne⟩, fun h => h.1⟩
  · rename_i hnot
    exact iff_of_false (by nofun) fun h => hnot text h.1

/-- The requirement that is read does not depend on other keys, and not on its place. -/
theorem normalizeRequirement_agree {f g : List (PyStr × Json)} {i j : ℕ} {r s : NormalizedRequirement}
    (h : AgreeOn requirementKeys f g) (hr : normalizeRequirement (.obj f, i) = .ok r)
    (hs : normalizeRequirement (.obj g, j) = .ok s) : r = s := by
  simp only [normalizeRequirement, bind_eq_ok, pure_eq_ok, stringOf_eq_ok] at hr hs
  obtain ⟨a₁, ⟨h₁, -⟩, a₂, ⟨h₂, -⟩, a₃, ⟨h₃, -⟩, a₄, ⟨h₄, -⟩, a₅, ⟨h₅, -⟩, a₆, ⟨h₆, -⟩, rfl⟩ := hr
  obtain ⟨b₁, ⟨k₁, -⟩, b₂, ⟨k₂, -⟩, b₃, ⟨k₃, -⟩, b₄, ⟨k₄, -⟩, b₅, ⟨k₅, -⟩, b₆, ⟨k₆, -⟩, rfl⟩ := hs
  have hfield : ∀ key ∈ requirementKeys, field key f = field key g := fun key hkey => h.field hkey
  have hrepairable := h (py "repairable") (by decide)
  rw [hfield _ (by decide)] at h₁ h₂ h₃ h₄ h₅ h₆
  rw [h₁] at k₁
  rw [h₂] at k₂
  rw [h₃] at k₃
  rw [h₄] at k₄
  rw [h₅] at k₅
  rw [h₆] at k₆
  rw [Json.str.inj k₁, Json.str.inj k₂, Json.str.inj k₃, Json.str.inj k₄, Json.str.inj k₅, Json.str.inj k₆,
    hfield (py "errno") (by decide), fieldOr, fieldOr, hrepairable]

theorem normalizeRepair_agree {f g : List (PyStr × Json)} {i j : ℕ} {r s : NormalizedRepair}
    (h : AgreeOn repairKeys f g) (hr : normalizeRepair (.obj f, i) = .ok r)
    (hs : normalizeRepair (.obj g, j) = .ok s) : r = s := by
  simp only [normalizeRepair, bind_eq_ok, pure_eq_ok, stringOf_eq_ok] at hr hs
  obtain ⟨a₁, ⟨h₁, -⟩, a₂, ⟨h₂, -⟩, a₃, ⟨h₃, -⟩, a₄, ⟨h₄, -⟩, a₅, ⟨h₅, -⟩, rfl⟩ := hr
  obtain ⟨b₁, ⟨k₁, -⟩, b₂, ⟨k₂, -⟩, b₃, ⟨k₃, -⟩, b₄, ⟨k₄, -⟩, b₅, ⟨k₅, -⟩, rfl⟩ := hs
  have hfield : ∀ key ∈ repairKeys, field key f = field key g := fun key hkey => h.field hkey
  have hallowed := h (py "automatic_allowed") (by decide)
  rw [hfield _ (by decide)] at h₁ h₂ h₃ h₄ h₅
  rw [h₁] at k₁
  rw [h₂] at k₂
  rw [h₃] at k₃
  rw [h₄] at k₄
  rw [h₅] at k₅
  rw [Json.str.inj k₁, Json.str.inj k₂, Json.str.inj k₃, Json.str.inj k₄, Json.str.inj k₅, fieldOr, fieldOr,
    hallowed]

theorem normalizeGuestEvent_agree {f g : List (PyStr × Json)} (h : AgreeOn guestEventKeys f g) :
    normalizeGuestEvent builtins f = normalizeGuestEvent builtins g := by
  have hfield : ∀ key ∈ guestEventKeys, field key f = field key g := fun key hkey => h.field hkey
  unfold normalizeGuestEvent
  rw [hfield (py "execution_context") (by decide), hfield (py "event") (by decide),
    hfield (py "return_value") (by decide), hfield (py "syscall") (by decide), hfield (py "errno") (by decide),
    hfield (py "path") (by decide), hfield (py "remote_ip") (by decide), hfield (py "remote_port") (by decide),
    hfield (py "result") (by decide)]

theorem normalizeNetworkEvent_agree {f g : List (PyStr × Json)} (h : AgreeOn networkEventKeys f g) :
    normalizeNetworkEvent builtins f = normalizeNetworkEvent builtins g := by
  have hfield : ∀ key ∈ networkEventKeys, field key f = field key g := fun key hkey => h.field hkey
  unfold normalizeNetworkEvent
  rw [hfield (py "event") (by decide), hfield (py "listener_type") (by decide),
    hfield (py "original_remote_ip") (by decide), hfield (py "original_remote_port") (by decide),
    hfield (py "udp_role") (by decide)]

theorem normalizeGuestEvents_agree {events events' : List (List (PyStr × Json))}
    (h : List.Forall₂ (AgreeOn guestEventKeys) events events') :
    normalizeGuestEvents builtins events = normalizeGuestEvents builtins events' := by
  unfold normalizeGuestEvents
  induction h with
  | nil => rfl
  | cons hhead _ ih => rw [List.filterMap_cons, List.filterMap_cons, normalizeGuestEvent_agree hhead, ih]

theorem normalizeNetworkEvents_agree {events events' : List (List (PyStr × Json))}
    (h : List.Forall₂ (AgreeOn networkEventKeys) events events') :
    normalizeNetworkEvents builtins events = normalizeNetworkEvents builtins events' := by
  unfold normalizeNetworkEvents
  induction h with
  | nil => rfl
  | cons hhead _ ih => rw [List.map_cons, List.map_cons, normalizeNetworkEvent_agree hhead, ih]

/-- **Items that agree are normalised to the same values.** -/
theorem mem_of_agreeItems {α : Type} {keys : List PyStr} {normalize : Json × ℕ → Except ProgressOracleError α}
    (hagree : ∀ f g i j r s, AgreeOn keys f g → normalize (.obj f, i) = .ok r → normalize (.obj g, j) = .ok s →
      r = s)
    {xs ys : List Json} {rs ss : List α} (h : AgreeItems keys xs ys)
    (hrs : xs.zipIdx.mapM normalize = .ok rs) (hss : ys.zipIdx.mapM normalize = .ok ss) (r : α) :
    r ∈ rs ↔ r ∈ ss := by
  obtain ⟨fs, gs, rfl, rfl, hs, hperm, hall⟩ := h
  have hmem : ∀ {zs : List Json} {ts : List α}, zs.zipIdx.mapM normalize = .ok ts →
      ∀ t, t ∈ ts ↔ ∃ z ∈ zs.zipIdx, normalize z = .ok t := by
    intro zs ts hts t
    have hforall := mapM_eq_ok.mp hts
    constructor
    · intro ht
      obtain ⟨z, hz, hzt⟩ := forall₂_exists hforall.flip ht
      exact ⟨z, hz, hzt⟩
    · rintro ⟨z, hz, hzt⟩
      obtain ⟨t', ht', hzt'⟩ := forall₂_exists hforall hz
      rwa [Except.ok.inj (hzt.symm.trans hzt')]
  -- Every item that is read has a result, whatever its place.
  have hread : ∀ {zs : List Json} {ts : List α}, zs.zipIdx.mapM normalize = .ok ts → ∀ z ∈ zs,
      ∃ i t, (z, i) ∈ zs.zipIdx ∧ normalize (z, i) = .ok t := by
    intro zs ts hts z hz
    obtain ⟨i, hi, rfl⟩ := List.getElem_of_mem hz
    have hzip : (zs[i], i) ∈ zs.zipIdx := List.mem_zipIdx_iff_getElem?.mpr (List.getElem?_eq_getElem hi)
    obtain ⟨t, -, ht⟩ := forall₂_exists (mapM_eq_ok.mp hts) hzip
    exact ⟨i, t, hzip, ht⟩
  rw [hmem hrs, hmem hss]
  constructor
  · rintro ⟨⟨z, i⟩, hz, hr⟩
    have hzmem := (List.mem_zipIdx_iff_getElem?.mp hz)
    obtain ⟨f, hf, rfl⟩ := List.mem_map.mp (List.mem_of_getElem? hzmem)
    obtain ⟨g, hg, hfg⟩ := forall₂_exists hall (hperm.mem_iff.mp hf)
    obtain ⟨j, s, hj, hs⟩ := hread hss (.obj g) (List.mem_map_of_mem hg)
    exact ⟨_, hj, by rw [hs, hagree f g i j r s hfg hr hs]⟩
  · rintro ⟨⟨z, j⟩, hz, hr⟩
    have hzmem := (List.mem_zipIdx_iff_getElem?.mp hz)
    obtain ⟨g, hg, rfl⟩ := List.mem_map.mp (List.mem_of_getElem? hzmem)
    obtain ⟨f, hf, hfg⟩ := forall₂_exists hall.flip hg
    obtain ⟨i, s, hi, hs⟩ := hread hrs (.obj f) (List.mem_map_of_mem (hperm.mem_iff.mpr hf))
    exact ⟨_, hi, by rw [hs, hagree f g i j s r hfg hs hr]⟩

/-- What is read of the documents. -/
theorem readArtifacts_raw {read : NormalizedArtifacts} {raw : RawArtifacts}
    (h : readArtifacts sha ft builtins files = .ok read) (hraw : rawArtifacts ft files = .ok raw) :
    (∃ items, requirementItems raw.requirements = .ok items ∧ ∀ r, r ∈ read.requirements ↔ r ∈ items) ∧
      (∃ items, repairItems raw.repairPlan = .ok items ∧ ∀ r, r ∈ read.repairs ↔ r ∈ items) ∧
      read.guestEvents = normalizeGuestEvents builtins raw.syscallEvents ∧
      read.networkEvents = normalizeNetworkEvents builtins raw.networkEvents := by
  unfold rawArtifacts at hraw
  simp only [bind_eq_ok, pure_eq_ok] at hraw
  obtain ⟨rf, hrf, pf, hpf, requirements, hrequirements, plan, hplan, syscalls, hsyscalls, network, hnetwork, rfl⟩ :=
    hraw
  unfold readArtifacts at h
  simp only [hrf, hpf, hrequirements, hplan, bind_eq_ok, Except.ok.injEq, exists_eq_left'] at h
  split at h
  · cases h
  · simp only [bind_eq_ok, pure_eq_ok, hsyscalls, hnetwork, Except.ok.injEq, exists_eq_left'] at h
    obtain ⟨_, hsorted, _, hdecisions, rfl⟩ := h
    obtain ⟨items, hitems, hkey⟩ := bind_eq_ok.mp hsorted
    obtain ⟨decisions, hrepairs, hkey'⟩ := bind_eq_ok.mp hdecisions
    obtain rfl := pure_eq_ok.mp hkey
    obtain rfl := pure_eq_ok.mp hkey'
    exact ⟨⟨items, hitems, fun _ => mem_keySort⟩, ⟨decisions, hrepairs, fun _ => mem_keySort⟩, rfl, rfl⟩

/-- **Artifacts that agree have one state.** -/
theorem sameState_of_agree {files' : ArtifactFiles} {snapshotId : PyStr} {read read' : NormalizedArtifacts}
    {raw raw' : RawArtifacts} (h : readArtifacts sha ft builtins files = .ok read)
    (h' : readArtifacts sha ft builtins files' = .ok read') (hraw : rawArtifacts ft files = .ok raw)
    (hraw' : rawArtifacts ft files' = .ok raw') (hagree : Agree raw raw') :
    SameState ⟨snapshotId, read⟩ ⟨snapshotId, read'⟩ := by
  obtain ⟨⟨items, hitems, hmem⟩, ⟨decisions, hdecisions, hdmem⟩, hguest, hnetwork⟩ := readArtifacts_raw h hraw
  obtain ⟨⟨items', hitems', hmem'⟩, ⟨decisions', hdecisions', hdmem'⟩, hguest', hnetwork'⟩ :=
    readArtifacts_raw h' hraw'
  obtain ⟨⟨xs, ys, hxs, hys, hrequirements⟩, ⟨us, vs, hus, hvs, hrepairs⟩, hsyscalls, hevents⟩ := hagree
  rw [requirementItems, hxs] at hitems
  rw [requirementItems, hys] at hitems'
  rw [repairItems, hus] at hdecisions
  rw [repairItems, hvs] at hdecisions'
  refine ⟨rfl, fun r => ?_, fun r => ?_, ?_, ?_⟩
  · rw [hmem, hmem']
    exact mem_of_agreeItems (fun _ _ _ _ _ _ => normalizeRequirement_agree) hrequirements hitems hitems' r
  · rw [hdmem, hdmem']
    exact mem_of_agreeItems (fun _ _ _ _ _ _ => normalizeRepair_agree) hrepairs hdecisions hdecisions' r
  · show read.guestEvents = read'.guestEvents
    rw [hguest, hguest', normalizeGuestEvents_agree hsyscalls]
  · show read.networkEvents = read'.networkEvents
    rw [hnetwork, hnetwork', normalizeNetworkEvents_agree hevents]

end Agree

/-! ### Stored observations -/

section Stored

variable {ft : FloatText} {builtins : PyBuiltins} {o : IterationObservation}

/-- The digests of an observation are digests. -/
structure IterationObservation.Valid (o : IterationObservation) : Prop where
  requirementsSha256 : isSha256 o.requirementsSha256
  requirementsFingerprint : isSha256 o.requirementsFingerprint
  repairPlanSha256 : isSha256 o.repairPlanSha256
  repairFingerprint : isSha256 o.repairFingerprint
  behaviorFingerprint : isSha256 o.behaviorFingerprint
  stateFingerprint : isSha256 o.stateFingerprint

theorem ProgressMetrics.plain (m : ProgressMetrics) : Plain m.toDict := by
  have hnodup : [py "guest_events_total", py "unique_guest_events", py "network_events_total",
      py "unique_network_targets", py "requirements_total", py "unmet_total", py "likely_unmet_total",
      py "automatic_candidates", py "review_required", py "manual_analysis", py "fatal_signals"].Nodup := by decide
  refine plain_obj (by exact hnodup) ?_
  simp

theorem IterationObservation.plain (hguest : ∀ event ∈ o.normalizedGuestEvents, Plain (.obj event))
    (hnetwork : ∀ event ∈ o.normalizedNetworkEvents, Plain (.obj event)) : Plain o.toDict := by
  have hnodup : [py "schema_version", py "generated_at_utc", py "requirements_sha256",
      py "requirements_fingerprint", py "repair_plan_sha256", py "repair_fingerprint", py "behavior_fingerprint",
      py "state_fingerprint", py "goal_reached", py "goal_reason", py "metrics", py "normalized_guest_events",
      py "normalized_network_events"].Nodup := by decide
  have hevents : ∀ {events : List (List (PyStr × Json))}, (∀ event ∈ events, Plain (.obj event)) →
      Plain (.arr (events.map .obj)) := by
    intro events hall
    apply plain_arr
    intro j hj
    obtain ⟨event, hevent, rfl⟩ := List.mem_map.mp hj
    exact hall event hevent
  refine plain_obj (by exact hnodup) ?_
  simp [o.metrics.plain, hevents hguest, hevents hnetwork]

/-- The observation with a time that is not empty. -/
def IterationObservation.timed (o : IterationObservation) : IterationObservation :=
  { o with generatedAtUtc := if o.generatedAtUtc = [] then py "unknown" else o.generatedAtUtc }

theorem fingerprintOf_eq_ok {raw : List (PyStr × Json)} {name text : PyStr} (hfield : field name raw = .str text)
    (h : isSha256 text) : fingerprintOf raw name = .ok text := by
  unfold fingerprintOf
  rw [hfield]
  exact if_pos h

theorem nonnegativeInt_eq_ok {raw : List (PyStr × Json)} {name : PyStr} {n : ℕ}
    (hlookup : Json.lookup name raw = some (.int n)) : nonnegativeInt raw name = .ok n := by
  unfold nonnegativeInt
  rw [hlookup]
  dsimp only
  rw [if_neg (by omega), Int.toNat_natCast]

theorem objectsOf_map {message : PyStr} (items : List (List (PyStr × Json))) :
    objectsOf message (.arr (items.map .obj)) = .ok items := by
  show (items.map Json.obj).mapM (objectOf message) = .ok items
  rw [mapM_eq_ok, List.forall₂_map_left_iff]
  exact List.forall₂_same.mpr fun _ _ => rfl

theorem metrics_fromDict (m : ProgressMetrics) : ∃ fields, m.toDict = .obj fields ∧
    ProgressMetrics.fromDict fields = .ok m := by
  refine ⟨_, rfl, ?_⟩
  unfold ProgressMetrics.fromDict
  simp only [bind_eq_ok, pure_eq_ok]
  exact ⟨_, nonnegativeInt_eq_ok rfl, _, nonnegativeInt_eq_ok rfl, _, nonnegativeInt_eq_ok rfl, _,
    nonnegativeInt_eq_ok rfl, _, nonnegativeInt_eq_ok rfl, _, nonnegativeInt_eq_ok rfl, _,
    nonnegativeInt_eq_ok rfl, _, nonnegativeInt_eq_ok rfl, _, nonnegativeInt_eq_ok rfl, _,
    nonnegativeInt_eq_ok rfl, _, nonnegativeInt_eq_ok rfl, rfl⟩

/-- **The loader takes what the oracle writes.** -/
theorem fromDict_toDict (h : o.Valid) : IterationObservation.fromDict builtins o.toDict = .ok o.timed := by
  obtain ⟨metricsFields, hmetrics, hmetricsOk⟩ := metrics_fromDict o.metrics
  unfold IterationObservation.fromDict IterationObservation.toDict
  refine bind_eq_ok.mpr ⟨_, rfl, ?_⟩
  rw [if_neg (by exact not_not_intro rfl)]
  refine bind_eq_ok.mpr ⟨metricsFields, ?_, bind_eq_ok.mpr ⟨o.metrics, hmetricsOk, ?_⟩⟩
  · show objectOf _ o.metrics.toDict = .ok metricsFields
    rw [hmetrics]
    rfl
  refine bind_eq_ok.mpr ⟨o.normalizedGuestEvents, objectsOf_map _, ?_⟩
  refine bind_eq_ok.mpr ⟨o.normalizedNetworkEvents, objectsOf_map _, ?_⟩
  refine bind_eq_ok.mpr ⟨_, fingerprintOf_eq_ok rfl h.requirementsSha256, ?_⟩
  refine bind_eq_ok.mpr ⟨_, fingerprintOf_eq_ok rfl h.requirementsFingerprint, ?_⟩
  refine bind_eq_ok.mpr ⟨_, fingerprintOf_eq_ok rfl h.repairPlanSha256, ?_⟩
  refine bind_eq_ok.mpr ⟨_, fingerprintOf_eq_ok rfl h.repairFingerprint, ?_⟩
  refine bind_eq_ok.mpr ⟨_, fingerprintOf_eq_ok rfl h.behaviorFingerprint, ?_⟩
  refine bind_eq_ok.mpr ⟨_, fingerprintOf_eq_ok rfl h.stateFingerprint, ?_⟩
  have htime : textOrUnknown builtins (.str o.generatedAtUtc) =
      if o.generatedAtUtc = [] then py "unknown" else o.generatedAtUtc := by
    unfold textOrUnknown Json.truthy PyBuiltins.strOf
    by_cases hnil : o.generatedAtUtc = []
    · simp [hnil]
    · simp [hnil]
  unfold IterationObservation.timed
  rw [← htime]
  obtain ⟨_, _, _, _, _, _, _, _, _, _, goalReason, _⟩ := o
  cases goalReason with
  | none => rfl
  | some reason => rfl

end Stored

/-! ### Sessions -/

/-- An iteration that was observed. -/
structure ObservedIteration (sha : Sha256) (ft : FloatText) (builtins : PyBuiltins) where
  files : ArtifactFiles
  snapshotId : PyStr
  goalReached : Bool
  goalReason : Option PyStr
  now : PyStr
  read : NormalizedArtifacts
  observation : IterationObservation
  artifacts_read : readArtifacts sha ft builtins files = .ok read
  observed : observe sha ft builtins files snapshotId goalReached goalReason now = .ok observation

namespace ObservedIteration

variable {sha : Sha256} {ft : FloatText} {builtins : PyBuiltins}

def state (a : ObservedIteration sha ft builtins) : IterationState := ⟨a.snapshotId, a.read⟩

theorem observation_eq (a : ObservedIteration sha ft builtins) : a.state.AllWritable sha ft ∧
    a.observation = a.state.observationOf sha ft a.goalReached a.goalReason a.now := by
  obtain ⟨read, hread, hwritable, hobservation⟩ := observe_eq_ok.mp a.observed
  obtain rfl := Except.ok.inj (a.artifacts_read.symm.trans hread)
  exact ⟨hwritable, hobservation⟩

/-- What its fingerprint is. -/
theorem fingerprint_eq (a : ObservedIteration sha ft builtins) :
    a.observation.stateFingerprint = IterationState.digest sha ft (a.state.stateJson sha ft) := by
  rw [a.observation_eq.2]
  rfl

/-- **Equal fingerprints mean equal states.** -/
theorem fingerprint_eq_iff {a b : ObservedIteration sha ft builtins} (ha : a.state.UniqueIds)
    (hb : b.state.UniqueIds) (hsep : a.state.Separated sha ft b.state) :
    a.observation.stateFingerprint = b.observation.stateFingerprint ↔ SameState a.state b.state := by
  rw [a.fingerprint_eq, b.fingerprint_eq]
  constructor
  · exact sameState_of_digest a.observation_eq.1 b.observation_eq.1 hsep
  · intro h
    rw [stateJson_congr (readArtifacts_sorted a.artifacts_read) (readArtifacts_sorted b.artifacts_read) ha hb h]

/-- **A fingerprint does not depend on what is dropped.** -/
theorem fingerprint_of_agree {a b : ObservedIteration sha ft builtins} (ha : a.state.UniqueIds)
    (hb : b.state.UniqueIds) (hsnapshot : a.snapshotId = b.snapshotId) {raw raw' : RawArtifacts}
    (hraw : rawArtifacts ft a.files = .ok raw) (hraw' : rawArtifacts ft b.files = .ok raw')
    (hagree : Agree raw raw') : a.observation.stateFingerprint = b.observation.stateFingerprint := by
  have hsame : SameState a.state b.state := by
    have h : SameState ⟨a.snapshotId, a.read⟩ ⟨a.snapshotId, b.read⟩ :=
      sameState_of_agree a.artifacts_read b.artifacts_read hraw hraw' hagree
    unfold state
    rwa [← hsnapshot]
  rw [a.fingerprint_eq, b.fingerprint_eq,
    stateJson_congr (readArtifacts_sorted a.artifacts_read) (readArtifacts_sorted b.artifacts_read) ha hb hsame]

/-- What is stored has digests where digests are read, and values that can be read back. -/
theorem stored (a : ObservedIteration sha ft builtins) : a.observation.Valid ∧ Plain a.observation.toDict := by
  obtain ⟨hsource, hplan⟩ := readArtifacts_digests a.artifacts_read
  rw [a.observation_eq.2]
  constructor
  · exact ⟨hsource, sha.isSha256_hexdigest _, hplan, sha.isSha256_hexdigest _, sha.isSha256_hexdigest _,
      sha.isSha256_hexdigest _⟩
  · apply IterationObservation.plain
    · intro event hevent
      obtain ⟨e, -, rfl⟩ := List.mem_map.mp hevent
      exact guestEvent_plain e
    · intro event hevent
      obtain ⟨e, -, rfl⟩ := List.mem_map.mp hevent
      exact networkEvent_faithful.plain e

end ObservedIteration

/-- The files that `records` names hold the observations of `runs`. -/
def Recorded (ft : FloatText) {sha : Sha256} {builtins : PyBuiltins} (store : PyStr → Option PyStr)
    (records : List (Option PyStr)) (runs : ℕ → Option (ObservedIteration sha ft builtins)) : Prop :=
  ∀ i path, records[i]? = some (some path) →
    ∃ a text, runs i = some a ∧ a.observation.save ft = .ok text ∧ store path = some text

section Stop

variable {sha : Sha256} {ft : FloatText} {builtins : PyBuiltins} {store : PyStr → Option PyStr}
  {records : List (Option PyStr)} {runs : ℕ → Option (ObservedIteration sha ft builtins)}
  {maxIterations iterationIndex : ℕ}

theorem loadsArtifact_storedText {j : Json} (hplain : Plain j) (hwritable : Writable j) :
    loadsArtifact ft (storedText ft j) = .ok j := by
  have hloads := @loads_storedText ft j hplain hwritable
  unfold loads at hloads
  unfold loadsArtifact
  cases hvalue : Json.loads ft (storedText ft j) with
  | ok value =>
    rw [hvalue] at hloads
    exact congrArg Except.ok (Except.ok.inj hloads)
  | error error =>
    rw [hvalue] at hloads
    cases hloads

/-- **The observation that is read of a stored one.** -/
theorem load_save {o : IterationObservation} {text : PyStr} (hvalid : o.Valid) (hplain : Plain o.toDict)
    (hsave : o.save ft = .ok text) : IterationObservation.load ft builtins (some text) = .ok o.timed := by
  obtain ⟨hwritable, rfl⟩ := (serialise_eq_ok hplain).mp hsave
  exact bind_eq_ok.mpr ⟨_, loadsArtifact_storedText hplain hwritable, fromDict_toDict hvalid⟩

/-- The earlier observations are those of earlier iterations. -/
theorem mem_priorObservations (hrecorded : Recorded ft store records runs) {prior : List IterationObservation}
    (hprior : priorObservations ft builtins store (records.take iterationIndex) = .ok prior) :
    ∀ o ∈ prior, ∃ i < iterationIndex, ∃ a, runs i = some a ∧ o = a.observation.timed := by
  intro o ho
  obtain ⟨path, hpath, hload⟩ := forall₂_exists (mapM_eq_ok.mp hprior).flip ho
  obtain ⟨record, hrecord, hsome⟩ := List.mem_filterMap.mp hpath
  obtain rfl : record = some path := hsome
  obtain ⟨i, hi⟩ := List.mem_iff_getElem?.mp hrecord
  rw [List.getElem?_take] at hi
  obtain ⟨hlt, hget⟩ := Option.ite_none_right_eq_some.mp hi
  obtain ⟨a, text, hrun, hsave, hstore⟩ := hrecorded i path hget
  refine ⟨i, hlt, a, hrun, ?_⟩
  have hloaded : IterationObservation.load ft builtins (some text) = .ok a.observation.timed :=
    load_save a.stored.1 a.stored.2 hsave
  rw [← hstore] at hloaded
  exact Except.ok.inj (hload.symm.trans hloaded)

/-- **A session that stops at a fixed point or at a cycle has been in that state.** -/
theorem stop_recurs (hrecorded : Recorded ft store records runs) {b : ObservedIteration sha ft builtins}
    (hsep : ∀ i a, runs i = some a → a.state.Separated sha ft b.state) {reason : StopReason}
    (hreason : reason = .fixedPoint ∨ reason = .cycleDetected)
    (hstop : decideStopReason ft builtins store records maxIterations iterationIndex b.observation =
      .ok (some reason)) :
    ∃ i < iterationIndex, ∃ a, runs i = some a ∧ SameState a.state b.state := by
  unfold decideStopReason at hstop
  split at hstop
  · obtain rfl := Option.some.inj (Except.ok.inj hstop)
    rcases hreason with h | h <;> cases h
  · obtain ⟨prior, hprior, hdecide⟩ := bind_eq_ok.mp hstop
    have hmem : ∃ o ∈ prior, b.observation.stateFingerprint = o.stateFingerprint := by
      split at hdecide
      · rename_i hlast
        obtain ⟨o, ho, heq⟩ := Option.any_eq_true _ _ |>.mp hlast
        exact ⟨o, List.mem_of_getLast? ho, of_decide_eq_true heq⟩
      · split at hdecide
        · rename_i hany
          obtain ⟨o, ho, heq⟩ := List.any_eq_true.mp hany
          exact ⟨o, List.mem_of_mem_dropLast ho, of_decide_eq_true heq⟩
        · have hother : some reason = some .noAutomaticRepairs ∨ some reason = some .budgetExhausted ∨
              some reason = none := by
            split at hdecide
            · exact Or.inl (Except.ok.inj hdecide).symm
            · split at hdecide
              · exact Or.inr (Or.inl (Except.ok.inj hdecide).symm)
              · exact Or.inr (Or.inr (Except.ok.inj hdecide).symm)
          rcases hreason with rfl | rfl
          · rcases hother with h | h | h <;> cases h
          · rcases hother with h | h | h <;> cases h
    obtain ⟨o, ho, heq⟩ := hmem
    obtain ⟨i, hi, a, hrun, rfl⟩ := mem_priorObservations hrecorded hprior o ho
    refine ⟨i, hi, a, hrun, ?_⟩
    have hfingerprint : a.observation.stateFingerprint = b.observation.stateFingerprint := heq.symm
    rw [a.fingerprint_eq, b.fingerprint_eq] at hfingerprint
    exact sameState_of_digest a.observation_eq.1 b.observation_eq.1 (hsep i a hrun) hfingerprint

end Stop

/-! ### Fingerprints identify the state -/

/-- **Progress fingerprints identify the state**: they are equal when the states are, they do not depend on what is
dropped, and a session that stops at a fixed point or at a cycle has been in that state. -/
theorem fingerprints_identify_state (sha : Sha256) (ft : FloatText) (builtins : PyBuiltins) :
    (∀ a b : ObservedIteration sha ft builtins, a.state.UniqueIds → b.state.UniqueIds →
      a.state.Separated sha ft b.state →
      (a.observation.stateFingerprint = b.observation.stateFingerprint ↔ SameState a.state b.state)) ∧
      (∀ (a b : ObservedIteration sha ft builtins) (raw raw' : RawArtifacts), a.state.UniqueIds →
        b.state.UniqueIds → a.snapshotId = b.snapshotId → rawArtifacts ft a.files = .ok raw →
        rawArtifacts ft b.files = .ok raw' → Agree raw raw' →
        a.observation.stateFingerprint = b.observation.stateFingerprint) ∧
      ∀ (store : PyStr → Option PyStr) (records : List (Option PyStr))
        (runs : ℕ → Option (ObservedIteration sha ft builtins)) (maxIterations iterationIndex : ℕ)
        (b : ObservedIteration sha ft builtins) (reason : StopReason), Recorded ft store records runs →
        (∀ i a, runs i = some a → a.state.Separated sha ft b.state) →
        decideStopReason ft builtins store records maxIterations iterationIndex b.observation =
          .ok (some reason) →
        reason = .fixedPoint ∨ reason = .cycleDetected →
        ∃ i < iterationIndex, ∃ a, runs i = some a ∧ SameState a.state b.state :=
  ⟨fun _ _ ha hb hsep => ObservedIteration.fingerprint_eq_iff ha hb hsep,
    fun _ _ _ _ ha hb hsnapshot hraw hraw' hagree =>
      ObservedIteration.fingerprint_of_agree ha hb hsnapshot hraw hraw' hagree,
    fun _ _ _ _ _ _ _ hrecorded hsep hstop hreason => stop_recurs hrecorded hsep hreason hstop⟩

/-! ### The same requirements in another order -/

/-- Documents without floating-point numbers. -/
def noFloats : FloatText := ⟨fun _ => py "0.0", fun _ => .finite 0⟩

/-- A device that is missing. -/
def deviceRequirement (requirementId reason : PyStr) : List (PyStr × Json) :=
  [(py "requirement_id", .str requirementId), (py "kind", .str (py "device")),
    (py "resource", .str (py "/dev/mtd0")), (py "operation", .str (py "open")), (py "status", .str (py "unmet")),
    (py "blocking", .str (py "likely")), (py "reason", .str reason)]

def requirementsFields (time : PyStr) (items : List (List (PyStr × Json))) : List (PyStr × Json) :=
  [(py "generated_at_utc", .str time), (py "requirements", .arr (items.map .obj))]

/-- A plan for some requirements, which decides nothing. -/
def planFields (sourceSha256 : PyStr) : List (PyStr × Json) :=
  [(py "source_sha256", .str sourceSha256), (py "decisions", .arr [])]

/-- A directory with two documents. -/
def filesOf (requirements plan : List (PyStr × Json)) : ArtifactFiles := fun path =>
  if path = py "runtime_requirements.json" then some ⟨storedText noFloats (.obj requirements), true⟩
  else if path = py "repair_plan.json" then some ⟨storedText noFloats (.obj plan), true⟩
  else none

def firstRequirements : List (PyStr × Json) :=
  requirementsFields (py "2026-01-01")
    [deviceRequirement (py "r1") (py "first"), deviceRequirement (py "r2") (py "second")]

def laterRequirements : List (PyStr × Json) :=
  requirementsFields (py "2026-01-02")
    [deviceRequirement (py "r2") (py "later"), deviceRequirement (py "r1") (py "again")]

def firstDigest : PyStr := py "634de9ad74b55b6893196ad3e26f0df3a0ee951bfe9e3e7596d2801cc7b25909"

def laterDigest : PyStr := py "7ad2d8b47cd61a05f40da4e4faa3be2f7805a9bffac0a434e60ee5270898a2a2"

/-- The digests of the texts that are met here, which differ in their first characters. -/
def deviceDigests : List (PyStr × PyStr) :=
  [(0x7B :: 0x0A :: py "  \"generated_at_utc\": \"2026-01-01", firstDigest),
    (0x7B :: 0x0A :: py "  \"generated_at_utc\": \"2026-01-02", laterDigest),
    (0x7B :: 0x0A :: py "  \"source_sha256\": \"6",
      py "155e3e99ea6430cc77a7d58f390caf8ad1be4874f6442ea965b8400afb2cf319"),
    (0x7B :: 0x0A :: py "  \"source_sha256\": \"7",
      py "5c028b8251ccb0dc85354a7621f0b2e88f1f0b0ae9a791dbc3aa0d7e193135cb"),
    (0x5B :: 0x7B :: py "\"blocking", py "cd566b0aa0a6fcbbb3ad943ba5963de63a3e18e98373d3a5980fc636a35aa170"),
    (py "[]", py "4f53cda18c2baa0c0354bb5f9a3ecbe5ed12ab4d8e11ba873c2f11161202b945"),
    (0x7B :: py "\"guest", py "bfa82ce6d8a6f1cf047b429a4834e6aeac5f568cd7e8d7c84fd2ac08af2c456a"),
    (0x7B :: py "\"behavior", py "bcb1478845cd429f84312067e670254bab842bf2ec657849b9589f7c80932dfd")]

def deviceSha : Sha256 where
  hexdigest text :=
    match deviceDigests.find? fun digest => digest.1.isPrefixOf text with
    | some digest => digest.2
    | none => List.replicate 64 0x30
  isSha256_hexdigest text := by
    have hall : ∀ digest ∈ deviceDigests, isSha256 digest.2 := by decide
    split
    · rename_i digest hfind
      exact hall digest (List.mem_of_find?_eq_some hfind)
    · decide

theorem deviceSha_first : deviceSha.hexdigest (storedText noFloats (.obj firstRequirements)) = firstDigest := rfl

theorem deviceSha_later : deviceSha.hexdigest (storedText noFloats (.obj laterRequirements)) = laterDigest := rfl

def deviceRequirements : List NormalizedRequirement :=
  [⟨py "r1", py "device", py "/dev/mtd0", py "open", py "unmet", py "likely", false, none⟩,
    ⟨py "r2", py "device", py "/dev/mtd0", py "open", py "unmet", py "likely", false, none⟩]

/-- What is read of either directory. -/
def deviceRead (requirementsSha256 planSha256 : PyStr) : NormalizedArtifacts where
  requirementsSha256 := requirementsSha256
  repairPlanSha256 := planSha256
  requirements := deviceRequirements
  repairs := []
  guestEvents := []
  networkEvents := []

theorem loadJsonObject_stored {fields : List (PyStr × Json)} (hplain : Plain (.obj fields))
    (hwritable : Writable (.obj fields)) :
    loadJsonObject noFloats ⟨storedText noFloats (.obj fields), true⟩ = .ok fields := by
  unfold loadJsonObject
  rw [if_neg (by nofun)]
  exact bind_eq_ok.mpr ⟨_, loadsArtifact_storedText hplain hwritable, rfl⟩

theorem deviceRequirement_plain (requirementId reason : PyStr) :
    Plain (.obj (deviceRequirement requirementId reason)) := by
  have hnodup : [py "requirement_id", py "kind", py "resource", py "operation", py "status", py "blocking",
      py "reason"].Nodup := by decide
  exact plain_obj hnodup (by simp [deviceRequirement])

theorem requirementsFields_loads {time first second reason reason' : PyStr} (htime : time.encodable)
    (hfirst : first.encodable) (hsecond : second.encodable) (hreason : reason.encodable)
    (hreason' : reason'.encodable) :
    loadJsonObject noFloats ⟨storedText noFloats (.obj (requirementsFields time
      [deviceRequirement first reason, deviceRequirement second reason'])), true⟩ =
      .ok (requirementsFields time [deviceRequirement first reason, deviceRequirement second reason']) := by
  have hnodup : [py "generated_at_utc", py "requirements"].Nodup := by decide
  apply loadJsonObject_stored
  · refine plain_obj hnodup ?_
    simp [requirementsFields, plain_arr, deviceRequirement_plain]
  · simp [requirementsFields, deviceRequirement, htime, hfirst, hsecond, hreason, hreason', PyStr.encodable_py]

theorem planFields_loads {sourceSha256 : PyStr} (h : sourceSha256.encodable) :
    loadJsonObject noFloats ⟨storedText noFloats (.obj (planFields sourceSha256)), true⟩ =
      .ok (planFields sourceSha256) := by
  have hnodup : [py "source_sha256", py "decisions"].Nodup := by decide
  apply loadJsonObject_stored
  · refine plain_obj hnodup ?_
    simp [planFields, plain_arr]
  · simp [planFields, h, PyStr.encodable_py]

theorem firstRequirements_loads :
    loadJsonObject noFloats ⟨storedText noFloats (.obj firstRequirements), true⟩ = .ok firstRequirements :=
  requirementsFields_loads (PyStr.encodable_py _) (PyStr.encodable_py _) (PyStr.encodable_py _)
    (PyStr.encodable_py _) (PyStr.encodable_py _)

theorem laterRequirements_loads :
    loadJsonObject noFloats ⟨storedText noFloats (.obj laterRequirements), true⟩ = .ok laterRequirements :=
  requirementsFields_loads (PyStr.encodable_py _) (PyStr.encodable_py _) (PyStr.encodable_py _)
    (PyStr.encodable_py _) (PyStr.encodable_py _)

def firstRead : NormalizedArtifacts :=
  deviceRead firstDigest (py "155e3e99ea6430cc77a7d58f390caf8ad1be4874f6442ea965b8400afb2cf319")

def laterRead : NormalizedArtifacts :=
  deviceRead laterDigest (py "5c028b8251ccb0dc85354a7621f0b2e88f1f0b0ae9a791dbc3aa0d7e193135cb")

theorem readArtifacts_first : readArtifacts deviceSha noFloats asciiBuiltins
    (filesOf firstRequirements (planFields firstDigest)) = .ok firstRead := by
  unfold readArtifacts
  refine bind_eq_ok.mpr ⟨_, rfl, bind_eq_ok.mpr ⟨_, rfl, bind_eq_ok.mpr ⟨_, firstRequirements_loads,
    bind_eq_ok.mpr ⟨_, planFields_loads (PyStr.encodable_py _), ?_⟩⟩⟩⟩
  rfl

theorem readArtifacts_later : readArtifacts deviceSha noFloats asciiBuiltins
    (filesOf laterRequirements (planFields laterDigest)) = .ok laterRead := by
  unfold readArtifacts
  refine bind_eq_ok.mpr ⟨_, rfl, bind_eq_ok.mpr ⟨_, rfl, bind_eq_ok.mpr ⟨_, laterRequirements_loads,
    bind_eq_ok.mpr ⟨_, planFields_loads (PyStr.encodable_py _), ?_⟩⟩⟩⟩
  rfl

theorem deviceRead_writable (requirementsSha256 planSha256 : PyStr) :
    IterationState.AllWritable deviceSha noFloats ⟨py "snapshot-1", deviceRead requirementsSha256 planSha256⟩ := by
  have hdigest : ∀ j, PyStr.encodable (IterationState.digest deviceSha noFloats j) :=
    fun j => encodable_of_isSha256 (deviceSha.isSha256_hexdigest _)
  constructor
  · simp [IterationState.requirementsJson, deviceRead, deviceRequirements, NormalizedRequirement.toDict,
      PyStr.encodable_py]
  · simp [IterationState.repairsJson, deviceRead]
  · simp [IterationState.behaviorJson, behaviorPayload, deviceRead, PyStr.encodable_py]
  · simp [IterationState.stateJson, statePayload, hdigest, PyStr.encodable_py]

/-- An iteration, and a later one whose artifacts list the requirements in another order. -/
def firstIteration : ObservedIteration deviceSha noFloats asciiBuiltins where
  files := filesOf firstRequirements (planFields firstDigest)
  snapshotId := py "snapshot-1"
  goalReached := false
  goalReason := none
  now := py "2026-01-01T00:00:00+00:00"
  read := firstRead
  observation := IterationState.observationOf deviceSha noFloats ⟨py "snapshot-1", firstRead⟩ false none
    (py "2026-01-01T00:00:00+00:00")
  artifacts_read := readArtifacts_first
  observed := observe_eq_ok.mpr ⟨_, readArtifacts_first, deviceRead_writable _ _, rfl⟩

def laterIteration : ObservedIteration deviceSha noFloats asciiBuiltins where
  files := filesOf laterRequirements (planFields laterDigest)
  snapshotId := py "snapshot-1"
  goalReached := false
  goalReason := none
  now := py "2026-01-02T00:00:00+00:00"
  read := laterRead
  observation := IterationState.observationOf deviceSha noFloats ⟨py "snapshot-1", laterRead⟩ false none
    (py "2026-01-02T00:00:00+00:00")
  artifacts_read := readArtifacts_later
  observed := observe_eq_ok.mpr ⟨_, readArtifacts_later, deviceRead_writable _ _, rfl⟩

theorem device_uniqueIds (requirementsSha256 planSha256 : PyStr) :
    IterationState.UniqueIds ⟨py "snapshot-1", deviceRead requirementsSha256 planSha256⟩ :=
  ⟨by show List.Nodup [py "r1", py "r2"]; decide, List.nodup_nil⟩

theorem device_separated {sourceSha256 sourceSha256' planSha256 planSha256' : PyStr} :
    IterationState.Separated deviceSha noFloats ⟨py "snapshot-1", deviceRead sourceSha256 planSha256⟩
      ⟨py "snapshot-1", deviceRead sourceSha256' planSha256'⟩ :=
  ⟨fun _ => rfl, fun _ => rfl, fun _ => rfl, fun _ => rfl⟩

def firstRaw : RawArtifacts := ⟨firstRequirements, planFields firstDigest, [], []⟩

def laterRaw : RawArtifacts := ⟨laterRequirements, planFields laterDigest, [], []⟩

theorem rawArtifacts_first :
    rawArtifacts noFloats (filesOf firstRequirements (planFields firstDigest)) = .ok firstRaw := by
  unfold rawArtifacts
  refine bind_eq_ok.mpr ⟨_, rfl, bind_eq_ok.mpr ⟨_, rfl, bind_eq_ok.mpr ⟨_, firstRequirements_loads,
    bind_eq_ok.mpr ⟨_, planFields_loads (PyStr.encodable_py _), rfl⟩⟩⟩⟩

theorem rawArtifacts_later :
    rawArtifacts noFloats (filesOf laterRequirements (planFields laterDigest)) = .ok laterRaw := by
  unfold rawArtifacts
  refine bind_eq_ok.mpr ⟨_, rfl, bind_eq_ok.mpr ⟨_, rfl, bind_eq_ok.mpr ⟨_, laterRequirements_loads,
    bind_eq_ok.mpr ⟨_, planFields_loads (PyStr.encodable_py _), rfl⟩⟩⟩⟩

theorem agreeOn_reason (requirementId reason reason' : PyStr) :
    AgreeOn requirementKeys (deviceRequirement requirementId reason) (deviceRequirement requirementId reason') := by
  intro key hkey
  simp only [requirementKeys, List.mem_cons, List.not_mem_nil, or_false] at hkey
  rcases hkey with rfl | rfl | rfl | rfl | rfl | rfl | rfl | rfl <;> rfl

theorem agree_reordered : Agree firstRaw laterRaw where
  requirements :=
    ⟨_, _, rfl, rfl, _, _, rfl, rfl,
      [deviceRequirement (py "r2") (py "second"), deviceRequirement (py "r1") (py "first")], List.Perm.swap _ _ _,
      .cons (agreeOn_reason _ _ _) (.cons (agreeOn_reason _ _ _) .nil)⟩
  repairs := ⟨[], [], rfl, rfl, [], [], rfl, rfl, [], .nil, .nil⟩
  syscallEvents := .nil
  networkEvents := .nil

/-- The files of a session with one stored observation. -/
def oneObservation (path : PyStr) : Option PyStr :=
  if path = py "observation.json" then some (storedText noFloats firstIteration.observation.toDict) else none

def oneRun (i : ℕ) : Option (ObservedIteration deviceSha noFloats asciiBuiltins) :=
  if i = 0 then some firstIteration else none

theorem firstObservation_writable : Writable firstIteration.observation.toDict := by
  have hdigest : ∀ j, PyStr.encodable (IterationState.digest deviceSha noFloats j) :=
    fun j => encodable_of_isSha256 (deviceSha.isSha256_hexdigest _)
  have hmetrics : Writable firstIteration.observation.metrics.toDict := by
    show Writable (ProgressMetrics.toDict ⟨0, 0, 0, 0, 2, 2, 2, 0, 0, 0, 0⟩)
    simp [ProgressMetrics.toDict, PyStr.encodable_py]
    decide
  have hsource : PyStr.encodable firstRead.requirementsSha256 := PyStr.encodable_py _
  have hplan : PyStr.encodable firstRead.repairPlanSha256 := PyStr.encodable_py _
  have hguest : firstRead.guestEvents = [] := rfl
  have hnetwork : firstRead.networkEvents = [] := rfl
  unfold IterationObservation.toDict
  rw [writable_obj]
  simp only [firstIteration, IterationState.observationOf, List.forall_mem_cons, writable_str, writable_int,
    writable_bool, PyStr.encodable_py, hdigest, hsource, hplan, hguest, hnetwork, true_and, List.map_nil, writable_arr]
  rw [if_neg (by simp)]
  exact ⟨by decide, writable_null, hmetrics, by simp⟩

theorem recorded_first : Recorded noFloats oneObservation [some (py "observation.json")] oneRun := by
  intro i path hpath
  cases i with
  | zero =>
    obtain rfl : py "observation.json" = path := Option.some.inj (Option.some.inj hpath)
    exact ⟨firstIteration, _, rfl, (serialise_eq_ok firstIteration.stored.2).mpr ⟨firstObservation_writable, rfl⟩,
      if_pos rfl⟩
  | succ i => cases hpath

theorem stops_at_fixedPoint
    (h : firstIteration.observation.stateFingerprint = laterIteration.observation.stateFingerprint) :
    decideStopReason noFloats asciiBuiltins oneObservation [some (py "observation.json")] 3 1
      laterIteration.observation = .ok (some .fixedPoint) := by
  have hload : IterationObservation.load noFloats asciiBuiltins (oneObservation (py "observation.json")) =
      .ok firstIteration.observation.timed :=
    load_save firstIteration.stored.1 firstIteration.stored.2
      ((serialise_eq_ok firstIteration.stored.2).mpr ⟨firstObservation_writable, rfl⟩)
  have hprior : priorObservations noFloats asciiBuiltins oneObservation ([some (py "observation.json")].take 1) =
      .ok [firstIteration.observation.timed] := mapM_eq_ok.mpr (.cons hload .nil)
  unfold decideStopReason
  rw [if_neg (by nofun)]
  refine bind_eq_ok.mpr ⟨_, hprior, ?_⟩
  rw [if_pos]
  · rfl
  · exact decide_eq_true h.symm

/-- The same requirements in another order, with other reasons: the session stops at a fixed point. -/
theorem fingerprints_identify_state_reordered :
    SameState firstIteration.state laterIteration.state ∧
      ∃ i < 1, ∃ a, oneRun i = some a ∧ SameState a.state laterIteration.state := by
  obtain ⟨hiff, hagree, hstop⟩ := fingerprints_identify_state deviceSha noFloats asciiBuiltins
  have hequal : firstIteration.observation.stateFingerprint = laterIteration.observation.stateFingerprint :=
    hagree firstIteration laterIteration firstRaw laterRaw (device_uniqueIds _ _) (device_uniqueIds _ _) rfl
      rawArtifacts_first rawArtifacts_later agree_reordered
  constructor
  · exact (hiff firstIteration laterIteration (device_uniqueIds _ _) (device_uniqueIds _ _)
      device_separated).mp hequal
  · refine hstop oneObservation [some (py "observation.json")] oneRun 3 1 laterIteration .fixedPoint recorded_first
      ?_ (stops_at_fixedPoint hequal) (Or.inl rfl)
    intro i a hrun
    obtain ⟨-, hrun⟩ := Option.ite_none_right_eq_some.mp hrun
    obtain rfl := Option.some.inj hrun
    exact device_separated

end ProgressOracle

end TaintForge
