import TaintForge.Env.AttemptStore
import TaintForge.Env.Equiv.AttemptDocuments
import TaintForge.Lib.KeyedList

/-!
# The store of attempts keeps what came first

* `AttemptStore.Holds`: the directories are those of a list of attempts that can be read back.
* `AttemptStore.Holds.verifyAttempt`: what is read of an attempt.
* `AttemptStore.FirstWriteWins`: what a sequence of saves leaves behind.
-/

namespace TaintForge

variable {sha : Sha256} {ft : FloatText} {iso : IsoFormat}

theorem writeDocument_eq_ok {j value : Json} (hj : Plain j) :
    writeDocument ft j = .ok value ↔ Writable j ∧ value = j := by
  simp only [writeDocument, bind_eq_ok, serialise_eq_ok hj, pure_eq_ok]
  constructor
  · rintro ⟨text, ⟨hwritable, -⟩, rfl⟩
    exact ⟨hwritable, rfl⟩
  · rintro ⟨hwritable, rfl⟩
    exact ⟨_, ⟨hwritable, rfl⟩, rfl⟩

/-! ### The values in the files -/

section Values

variable {c : AttemptContract} {r : AttemptResult}

/-- The digest of a contract that can be stored. -/
def AttemptContract.digest (sha : Sha256) (ft : FloatText) (c : AttemptContract) : PyStr :=
  sha.hexdigest (canonicalText ft (.obj c.identityDict))

def AttemptContract.json (sha : Sha256) (ft : FloatText) (c : AttemptContract) : Json :=
  .obj (c.fields (c.digest sha ft))

/-- A contract that is read back. -/
structure AttemptContract.Kept (iso : IsoFormat) (c : AttemptContract) : Prop where
  init : c.postInit iso = .ok ()
  storable : c.Storable

theorem AttemptContract.Storable.isInt (h : c.Storable) : ∀ n ∈ c.integers, n.IsInt := fun n hn =>
  (PyInt.storable_iff.mp (h.1 n hn)).1

theorem AttemptContract.Storable.writable (h : c.Storable) : ∀ n ∈ c.integers, Writable n.toJson := fun n hn =>
  (PyInt.storable_iff.mp (h.1 n hn)).2

theorem AttemptContract.Storable.contractSha256 (h : c.Storable) :
    c.contractSha256 sha ft = .ok (c.digest sha ft) :=
  (canonicalSha256_eq_ok c.plain).mpr
    ⟨writable_iff.mpr ⟨h.writable, fun s hs => h.2 s (List.mem_of_mem_dropLast hs)⟩, rfl⟩

theorem AttemptContract.Kept.fromDict (h : c.Kept iso) :
    AttemptContract.fromDict sha ft iso (c.json sha ft) = .ok c :=
  fromDict_fields h.init h.storable.isInt h.storable.contractSha256

/-- **A contract is written when it is read back later.** -/
theorem AttemptContract.contractValue_iff (hints : ∀ n ∈ c.integers, n.IsInt) {value : Json} :
    AttemptStore.contractValue sha ft c = .ok value ↔ c.Storable ∧ value = c.json sha ft := by
  simp only [AttemptStore.contractValue, bind_eq_ok, toDict_iff]
  have hplain : ∀ digest, Plain (.obj (c.fields digest)) := fun digest =>
    plain_obj (c.fields_nodup digest) (by simp [fields, identityDict])
  constructor
  · rintro ⟨j, ⟨digest, hdigest, rfl⟩, hwrite⟩
    obtain ⟨hwritable, rfl⟩ := (writeDocument_eq_ok (hplain digest)).mp hwrite
    obtain ⟨hnumbers, htexts⟩ := (writable_fields (isSha256_of_canonicalSha256 hdigest)).mp hwritable
    have hstorable : c.Storable := ⟨fun n hn => PyInt.storable_iff.mpr ⟨hints n hn, hnumbers n hn⟩, htexts⟩
    obtain rfl : c.digest sha ft = digest := Except.ok.inj (hstorable.contractSha256.symm.trans hdigest)
    exact ⟨hstorable, rfl⟩
  · rintro ⟨hstorable, rfl⟩
    refine ⟨_, ⟨_, hstorable.contractSha256, rfl⟩, (writeDocument_eq_ok (hplain _)).mpr ⟨?_, rfl⟩⟩
    exact (writable_fields (sha.isSha256_hexdigest _)).mpr ⟨hstorable.writable, hstorable.2⟩

def AttemptResult.digest (sha : Sha256) (ft : FloatText) (r : AttemptResult) : PyStr :=
  sha.hexdigest (canonicalText ft (.obj r.identityDict))

def AttemptResult.json (sha : Sha256) (ft : FloatText) (r : AttemptResult) : Json :=
  .obj (r.fields (r.digest sha ft))

/-- A result that is read back. -/
structure AttemptResult.Kept (iso : IsoFormat) (r : AttemptResult) : Prop where
  construct : r.construct iso = .ok ()
  storable : r.Storable

theorem AttemptResult.Kept.resultSha256 (h : r.Kept iso) : r.resultSha256 sha ft = .ok (r.digest sha ft) :=
  (canonicalSha256_eq_ok r.plain).mpr ⟨((storable_iff h.construct).mp h.storable).2, rfl⟩

theorem AttemptResult.Kept.fromDict (h : r.Kept iso) :
    AttemptResult.fromDict sha ft iso (r.json sha ft) = .ok r :=
  fromDict_fields h.construct ((storable_iff h.construct).mp h.storable).1 h.resultSha256

theorem AttemptResult.resultValue_iff (hconstruct : r.construct iso = .ok ()) (hreadable : r.Readable)
    {value : Json} :
    AttemptStore.resultValue sha ft r = .ok value ↔ r.Kept iso ∧ value = r.json sha ft := by
  simp only [AttemptStore.resultValue, bind_eq_ok, toDict_iff]
  have hplain : ∀ digest, Plain (.obj (r.fields digest)) := by
    intro digest
    apply plain_obj (r.fields_nodup digest)
    rw [fields, List.forall_mem_append]
    exact ⟨r.plain_values, by simp⟩
  have hfields : ∀ {digest}, isSha256 digest →
      (Writable (.obj (r.fields digest)) ↔ Writable (.obj r.identityDict)) := by
    intro digest hdigest
    rw [fields, writable_append]
    simp [encodable_of_isSha256 hdigest]
  constructor
  · rintro ⟨j, ⟨digest, hdigest, rfl⟩, hwrite⟩
    obtain ⟨hwritable, rfl⟩ := (writeDocument_eq_ok (hplain digest)).mp hwrite
    have hidentity := (hfields (isSha256_of_canonicalSha256 hdigest)).mp hwritable
    have hkept : r.Kept iso := ⟨hconstruct, (storable_iff hconstruct).mpr ⟨hreadable, hidentity⟩⟩
    obtain rfl : r.digest sha ft = digest := Except.ok.inj (hkept.resultSha256.symm.trans hdigest)
    exact ⟨hkept, rfl⟩
  · rintro ⟨hkept, rfl⟩
    refine ⟨_, ⟨_, hkept.resultSha256, rfl⟩, (writeDocument_eq_ok (hplain _)).mpr ⟨?_, rfl⟩⟩
    exact (hfields (sha.isSha256_hexdigest _)).mpr ((storable_iff hconstruct).mp hkept.storable).2

end Values

/-! ### What the store holds -/

/-- An attempt, with what was accepted of it. -/
structure AttemptEntry where
  name : PyStr
  contract : Option AttemptContract
  result : Option AttemptResult

/-- The directory of an attempt. -/
def AttemptEntry.directory (sha : Sha256) (ft : FloatText) (e : AttemptEntry) : AttemptDirectory where
  name := e.name
  contract := e.contract.map (AttemptContract.json sha ft)
  result := e.result.map (AttemptResult.json sha ft)

def AttemptEntry.setContract (c : AttemptContract) (e : AttemptEntry) : AttemptEntry :=
  { e with contract := some c }

def AttemptEntry.setResult (r : AttemptResult) (e : AttemptEntry) : AttemptEntry := { e with result := some r }

@[simp] theorem AttemptEntry.setContract_name (c : AttemptContract) (e : AttemptEntry) :
    (e.setContract c).name = e.name := rfl

@[simp] theorem AttemptEntry.setResult_name (r : AttemptResult) (e : AttemptEntry) :
    (e.setResult r).name = e.name := rfl

@[simp] theorem AttemptEntry.setContract_contract (c : AttemptContract) (e : AttemptEntry) :
    (e.setContract c).contract = some c := rfl

@[simp] theorem AttemptEntry.setResult_contract (r : AttemptResult) (e : AttemptEntry) :
    (e.setResult r).contract = e.contract := rfl

@[simp] theorem AttemptEntry.setContract_result (c : AttemptContract) (e : AttemptEntry) :
    (e.setContract c).result = e.result := rfl

@[simp] theorem AttemptEntry.setResult_result (r : AttemptResult) (e : AttemptEntry) :
    (e.setResult r).result = some r := rfl

/-- What is there can be read back, and belongs together. -/
structure AttemptEntry.Kept (sha : Sha256) (ft : FloatText) (iso : IsoFormat) (e : AttemptEntry) : Prop where
  name : isAttemptId e.name
  contract : ∀ c ∈ e.contract, c.Kept iso ∧ c.attemptId = e.name
  result : ∀ r ∈ e.result, r.Kept iso ∧
    ∃ c ∈ e.contract, AttemptStore.validateResultLink sha ft c r = .ok ()

namespace AttemptStore

/-- **The directories are those of the attempts.** -/
structure Holds (sha : Sha256) (ft : FloatText) (iso : IsoFormat) (store : AttemptStore)
    (entries : List AttemptEntry) : Prop where
  directories : store.directories = entries.map (AttemptEntry.directory sha ft)
  nodup : (entries.map AttemptEntry.name).Nodup
  kept : ∀ e ∈ entries, e.Kept sha ft iso

theorem holds_nil : Holds sha ft iso ⟨[]⟩ [] where
  directories := rfl
  nodup := List.nodup_nil
  kept _ h := absurd h List.not_mem_nil

variable {store : AttemptStore} {entries : List AttemptEntry} {e : AttemptEntry} {id : PyStr}

/-- The attempt of a name. -/
def entry (entries : List AttemptEntry) (id : PyStr) : Option AttemptEntry := entryOf AttemptEntry.name id entries

theorem Holds.directory (h : Holds sha ft iso store entries) (id : PyStr) :
    store.directory id = (entry entries id).map (AttemptEntry.directory sha ft) := by
  show entryOf AttemptDirectory.name id store.directories = _
  rw [h.directories]
  exact entryOf_map fun _ => rfl

theorem Holds.of_entry (h : Holds sha ft iso store entries) (hentry : entry entries id = some e) :
    e.Kept sha ft iso ∧ e.name = id := by
  obtain ⟨hmem, hname⟩ := mem_of_entryOf hentry
  exact ⟨h.kept e hmem, hname⟩

/-- **The contract that is loaded is the one that is held.** -/
theorem Holds.loadContract (h : Holds sha ft iso store entries) {c : AttemptContract} :
    store.loadContract sha ft iso id = .ok c ↔ (entry entries id).bind AttemptEntry.contract = some c := by
  unfold AttemptStore.loadContract
  rw [h.directory]
  cases hentry : entry entries id with
  | none => simp [bind_eq_ok]
  | some e =>
    obtain ⟨hkept, rfl⟩ := h.of_entry hentry
    cases hcontract : e.contract with
    | none => simp [bind_eq_ok, AttemptEntry.directory, hcontract]
    | some existing =>
      have hfrom : AttemptContract.fromDict sha ft iso (existing.json sha ft) = .ok existing :=
        (hkept.contract existing hcontract).1.fromDict
      simp [bind_eq_ok, AttemptEntry.directory, hcontract, validateAttemptId, hkept.name, hfrom]

/-- **The result that is loaded is the one that is held.** -/
theorem Holds.loadResult (h : Holds sha ft iso store entries) {r : AttemptResult} :
    store.loadResult sha ft iso id = .ok r ↔ (entry entries id).bind AttemptEntry.result = some r := by
  unfold AttemptStore.loadResult
  rw [h.directory]
  cases hentry : entry entries id with
  | none => simp [bind_eq_ok]
  | some e =>
    obtain ⟨hkept, rfl⟩ := h.of_entry hentry
    cases hresult : e.result with
    | none => simp [bind_eq_ok, AttemptEntry.directory, hresult]
    | some existing =>
      obtain ⟨hread, c, hcontract, hlink⟩ := hkept.result existing hresult
      have hload : store.loadContract sha ft iso e.name = .ok c := by
        rw [h.loadContract, hentry]
        exact hcontract
      have hfrom : AttemptResult.fromDict sha ft iso (existing.json sha ft) = .ok existing := hread.fromDict
      simp [bind_eq_ok, AttemptEntry.directory, hresult, validateAttemptId, hkept.name, hfrom, hload, hlink]

/-- **What is read of an attempt.** -/
theorem Holds.verifyAttempt (h : Holds sha ft iso store entries) {c : AttemptContract}
    {result : Option AttemptResult} {required : Bool} :
    store.verifyAttempt sha ft iso id required = .ok (c, result) ↔
      (∃ e, entry entries id = some e ∧ e.contract = some c ∧ e.result = result) ∧
        (required = true → result.isSome) := by
  unfold AttemptStore.verifyAttempt
  rw [h.directory]
  cases hentry : entry entries id with
  | none =>
    have hload : ∀ c, store.loadContract sha ft iso id ≠ .ok c := by
      intro c hload
      rw [h.loadContract, hentry] at hload
      exact absurd hload (by simp)
    simp [bind_eq_ok, hload]
  | some e =>
    cases hresult : e.result with
    | none =>
      simp only [bind_eq_ok, h.loadContract, hentry, Option.bind_some, Option.map_some,
        AttemptEntry.directory, hresult, Option.map_none, Option.some.injEq, exists_eq_left']
      cases required with
      | true => cases result <;> simp
      | false => cases result <;> simp
    | some r =>
      have hload : store.loadResult sha ft iso id = .ok r := by
        rw [h.loadResult, hentry]
        exact hresult
      simp only [bind_eq_ok, h.loadContract, hentry, Option.bind_some, Option.map_some,
        AttemptEntry.directory, hresult, Option.some.injEq, exists_eq_left', hload, pure_eq_ok, Prod.mk.injEq]
      cases result with
      | none => simp
      | some r' =>
        simp only [Except.ok.injEq, Option.some.injEq, exists_eq_left', Option.isSome_some, implies_true, and_true]
        constructor
        · rintro ⟨a, ha, rfl, hr⟩
          exact ⟨ha, hr⟩
        · rintro ⟨hc, hr⟩
          exact ⟨c, hc, rfl, hr⟩

/-! ### What a save does -/

/-- The attempts after a directory was made. -/
def prepared (entries : List AttemptEntry) (id : PyStr) : List AttemptEntry :=
  if (entry entries id).isSome then entries else entries ++ [⟨id, none, none⟩]

/-- The attempts after a contract was written. -/
def withContract (entries : List AttemptEntry) (c : AttemptContract) : List AttemptEntry :=
  updateKey AttemptEntry.name c.attemptId (AttemptEntry.setContract c) entries

/-- The attempts after a result was written. -/
def withResult (entries : List AttemptEntry) (r : AttemptResult) : List AttemptEntry :=
  updateKey AttemptEntry.name r.attemptId (AttemptEntry.setResult r) entries

/-- The contract of an attempt. -/
def contractOf (entries : List AttemptEntry) (id : PyStr) : Option AttemptContract :=
  (entry entries id).bind AttemptEntry.contract

/-- The result of an attempt. -/
def resultOf (entries : List AttemptEntry) (id : PyStr) : Option AttemptResult :=
  (entry entries id).bind AttemptEntry.result

theorem entry_prepared (entries : List AttemptEntry) (id k : PyStr) :
    entry (prepared entries id) k = if k = id then some ((entry entries id).getD ⟨id, none, none⟩)
      else entry entries k := by
  unfold prepared
  cases hentry : entry entries id with
  | none =>
    rw [Option.isSome_none, if_neg (by simp), entry, entryOf_concat]
    by_cases hk : k = id
    · subst hk
      show (entry entries k).or _ = _
      simp [hentry]
    · have hne : id ≠ k := fun heq => hk heq.symm
      simp [hk, hne, entry]
  | some e =>
    rw [Option.isSome_some, if_pos rfl]
    by_cases hk : k = id
    · subst hk
      simp [hentry]
    · simp [hk]

@[simp] theorem contractOf_prepared (entries : List AttemptEntry) (id k : PyStr) :
    contractOf (prepared entries id) k = contractOf entries k := by
  unfold contractOf
  rw [entry_prepared]
  by_cases hk : k = id
  · subst hk
    cases entry entries k <;> simp
  · simp [hk]

@[simp] theorem resultOf_prepared (entries : List AttemptEntry) (id k : PyStr) :
    resultOf (prepared entries id) k = resultOf entries k := by
  unfold resultOf
  rw [entry_prepared]
  by_cases hk : k = id
  · subst hk
    cases entry entries k <;> simp
  · simp [hk]

theorem Holds.prepare (h : Holds sha ft iso store entries) (hid : isAttemptId id) :
    Holds sha ft iso (store.prepare id) (prepared entries id) := by
  unfold AttemptStore.prepare prepared
  rw [h.directory]
  cases hentry : entry entries id with
  | some e => simpa using h
  | none =>
    constructor
    · simp [h.directories, AttemptEntry.directory]
    · have hnew : id ∉ entries.map AttemptEntry.name := entryOf_eq_none_iff.mp hentry
      simpa [List.nodup_append, h.nodup] using fun e he heq => hnew (List.mem_map.mpr ⟨e, he, heq⟩)
    · show ∀ e ∈ entries ++ [⟨id, none, none⟩], _
      intro e he
      rcases List.mem_append.mp he with he | he
      · exact h.kept e he
      · obtain rfl := List.mem_singleton.mp he
        exact ⟨hid, by simp, by simp⟩

theorem directories_update {change : AttemptDirectory → AttemptDirectory} {change' : AttemptEntry → AttemptEntry}
    (hdirectories : store.directories = entries.map (AttemptEntry.directory sha ft))
    (hchange : ∀ e, change (e.directory sha ft) = (change' e).directory sha ft) (id : PyStr) :
    (store.update id change).directories =
      (updateKey AttemptEntry.name id change' entries).map (AttemptEntry.directory sha ft) := by
  show store.directories.map _ = _
  rw [hdirectories, updateKey, List.map_map, List.map_map]
  apply List.map_congr_left
  intro e _
  show (if e.name = id then change (e.directory sha ft) else e.directory sha ft) =
    (if e.name = id then change' e else e).directory sha ft
  split
  · exact hchange e
  · rfl

/-- A first contract is added to an attempt. -/
theorem Holds.withContract (h : Holds sha ft iso store entries) {c : AttemptContract} (hkept : c.Kept iso)
    (hnone : contractOf entries c.attemptId = none) :
    Holds sha ft iso (store.update c.attemptId fun d => { d with contract := some (c.json sha ft) })
      (withContract entries c) where
  directories := directories_update h.directories (fun _ => rfl) c.attemptId
  nodup := by
    rw [AttemptStore.withContract, map_key_updateKey (AttemptEntry.setContract_name c)]
    exact h.nodup
  kept e' he' := by
    obtain ⟨e, he, rfl⟩ := List.mem_map.mp he'
    split
    · rename_i hname
      refine ⟨(h.kept e he).name, ?_, ?_⟩
      · intro c' hc'
        obtain rfl : c = c' := Option.some.inj hc'
        exact ⟨hkept, hname.symm⟩
      · intro r hr
        -- Without a contract there was no result.
        obtain ⟨-, c', hc', -⟩ := (h.kept e he).result r hr
        have hentry : entry entries c.attemptId = some e := (entryOf_eq_some_iff h.nodup).mpr ⟨he, hname⟩
        rw [contractOf, hentry, Option.bind_some, hc'] at hnone
        exact absurd hnone (by simp)
    · exact h.kept e he

/-- A first result is added to an attempt. -/
theorem Holds.withResult (h : Holds sha ft iso store entries) {c : AttemptContract} {r : AttemptResult}
    (hkept : r.Kept iso) (hcontract : contractOf entries r.attemptId = some c)
    (hlink : validateResultLink sha ft c r = .ok ()) :
    Holds sha ft iso (store.update r.attemptId fun d => { d with result := some (r.json sha ft) })
      (withResult entries r) where
  directories := directories_update h.directories (fun _ => rfl) r.attemptId
  nodup := by
    rw [AttemptStore.withResult, map_key_updateKey (AttemptEntry.setResult_name r)]
    exact h.nodup
  kept e' he' := by
    obtain ⟨e, he, rfl⟩ := List.mem_map.mp he'
    split
    · rename_i hname
      refine ⟨(h.kept e he).name, (h.kept e he).contract, ?_⟩
      intro r' hr'
      obtain rfl : r = r' := Option.some.inj hr'
      have hentry : entry entries r.attemptId = some e := (entryOf_eq_some_iff h.nodup).mpr ⟨he, hname⟩
      rw [contractOf, hentry, Option.bind_some] at hcontract
      exact ⟨hkept, c, hcontract, hlink⟩
    · exact h.kept e he

theorem contractOf_withContract {c : AttemptContract} (hentry : (entry entries c.attemptId).isSome) (k : PyStr) :
    contractOf (AttemptStore.withContract entries c) k =
      if k = c.attemptId then some c else contractOf entries k := by
  unfold contractOf AttemptStore.withContract entry
  rw [entryOf_updateKey (AttemptEntry.setContract_name c)]
  by_cases hk : k = c.attemptId
  · obtain ⟨e, he⟩ := Option.isSome_iff_exists.mp hentry
    rw [entry] at he
    simp [hk, he]
  · simp [hk]

@[simp] theorem resultOf_withContract (c : AttemptContract) (k : PyStr) :
    resultOf (AttemptStore.withContract entries c) k = resultOf entries k := by
  unfold resultOf AttemptStore.withContract entry
  rw [entryOf_updateKey (AttemptEntry.setContract_name c)]
  by_cases hk : k = c.attemptId
  · subst hk
    cases entryOf AttemptEntry.name c.attemptId entries <;> simp
  · simp [hk]

theorem resultOf_withResult {r : AttemptResult} (hentry : (entry entries r.attemptId).isSome) (k : PyStr) :
    resultOf (AttemptStore.withResult entries r) k =
      if k = r.attemptId then some r else resultOf entries k := by
  unfold resultOf AttemptStore.withResult entry
  rw [entryOf_updateKey (AttemptEntry.setResult_name r)]
  by_cases hk : k = r.attemptId
  · obtain ⟨e, he⟩ := Option.isSome_iff_exists.mp hentry
    rw [entry] at he
    simp [hk, he]
  · simp [hk]

@[simp] theorem contractOf_withResult (r : AttemptResult) (k : PyStr) :
    contractOf (AttemptStore.withResult entries r) k = contractOf entries k := by
  unfold contractOf AttemptStore.withResult entry
  rw [entryOf_updateKey (AttemptEntry.setResult_name r)]
  by_cases hk : k = r.attemptId
  · subst hk
    cases entryOf AttemptEntry.name r.attemptId entries <;> simp
  · simp [hk]

theorem Holds.contractOf_eq (h : Holds sha ft iso store entries) (id : PyStr) :
    (store.directory id).bind AttemptDirectory.contract =
      (contractOf entries id).map (AttemptContract.json sha ft) := by
  rw [h.directory, contractOf]
  cases entry entries id <;> rfl

theorem Holds.resultOf_eq (h : Holds sha ft iso store entries) (id : PyStr) :
    (store.directory id).bind AttemptDirectory.result =
      (resultOf entries id).map (AttemptResult.json sha ft) := by
  rw [h.directory, resultOf]
  cases entry entries id <;> rfl

theorem Holds.of_contractOf (h : Holds sha ft iso store entries) {c : AttemptContract}
    (hc : contractOf entries id = some c) : c.Kept iso ∧ c.attemptId = id := by
  obtain ⟨e, hentry, hcontract⟩ := Option.bind_eq_some_iff.mp hc
  obtain ⟨hkept, hname⟩ := h.of_entry hentry
  rw [← hname]
  exact hkept.contract c hcontract

theorem Holds.of_resultOf (h : Holds sha ft iso store entries) {r : AttemptResult}
    (hr : resultOf entries id = some r) :
    r.Kept iso ∧ ∃ c, contractOf entries id = some c ∧ validateResultLink sha ft c r = .ok () := by
  obtain ⟨e, hentry, hr'⟩ := Option.bind_eq_some_iff.mp hr
  obtain ⟨hresult, c, hc, hlink⟩ := (h.of_entry hentry).1.result r hr'
  refine ⟨hresult, c, ?_, hlink⟩
  rw [contractOf, hentry]
  exact hc

/-- **What saving a contract does**: it is refused and what is held stays, it is there already under the same
digest, or it is the first contract of its attempt. -/
theorem Holds.saveContract (h : Holds sha ft iso store entries) {c : AttemptContract}
    (hinit : c.postInit iso = .ok ()) (hints : ∀ n ∈ c.integers, n.IsInt) :
    ((∃ error, (store.saveContract sha ft iso c).1 = .error error) ∧
      (Holds sha ft iso (store.saveContract sha ft iso c).2 entries ∨
        Holds sha ft iso (store.saveContract sha ft iso c).2 (prepared entries c.attemptId))) ∨
    (store.saveContract sha ft iso c = (.ok (), store) ∧ ∃ first, contractOf entries c.attemptId = some first ∧
      c.contractSha256 sha ft = .ok (first.digest sha ft)) ∨
    ((store.saveContract sha ft iso c).1 = .ok () ∧ contractOf entries c.attemptId = none ∧ c.Kept iso ∧
      Holds sha ft iso (store.saveContract sha ft iso c).2
        (AttemptStore.withContract (prepared entries c.attemptId) c)) := by
  unfold AttemptStore.saveContract
  cases hid : validateAttemptId c.attemptId with
  | error error => exact .inl ⟨⟨error, rfl⟩, .inl h⟩
  | ok =>
    have hprepared := h.prepare (ensure_eq_ok.mp hid)
    dsimp only
    rw [hprepared.contractOf_eq, contractOf_prepared]
    cases hfirst : contractOf entries c.attemptId with
    | some first =>
      have hkept := (h.of_contractOf hfirst).1
      have hstore : store.prepare c.attemptId = store := by
        have hdirectory : (store.directory c.attemptId).isSome := by
          obtain ⟨e, hentry, -⟩ := Option.bind_eq_some_iff.mp hfirst
          rw [h.directory, hentry]
          rfl
        rw [AttemptStore.prepare, if_pos hdirectory]
      rw [hstore]
      cases hcheck : checkContract sha ft iso c (first.json sha ft) with
      | error error => exact .inl ⟨⟨error, by simp [hcheck]⟩, .inl h⟩
      | ok =>
        refine .inr (.inl ⟨by simp [hcheck], first, rfl, ?_⟩)
        simp only [checkContract, hkept.fromDict, bind_eq_ok, ensure_eq_ok, Except.ok.injEq, exists_eq_left',
          hkept.storable.contractSha256] at hcheck
        obtain ⟨digest, hdigest, heq⟩ := hcheck
        rw [hdigest, ← heq]
    | none =>
      cases hvalue : contractValue sha ft c with
      | error error => exact .inl ⟨⟨error, rfl⟩, .inr hprepared⟩
      | ok value =>
        obtain ⟨hstorable, rfl⟩ := (AttemptContract.contractValue_iff hints).mp hvalue
        refine .inr (.inr ⟨by simp, rfl, ⟨hinit, hstorable⟩, ?_⟩)
        simpa using hprepared.withContract ⟨hinit, hstorable⟩ (by simpa using hfirst)

/-- **What saving a result does**. -/
theorem Holds.saveResult (h : Holds sha ft iso store entries) {r : AttemptResult}
    (hconstruct : r.construct iso = .ok ()) (hreadable : r.Readable) :
    ((∃ error, store.saveResult sha ft iso r = (.error error, store))) ∨
    (store.saveResult sha ft iso r = (.ok (), store) ∧ ∃ first, resultOf entries r.attemptId = some first ∧
      r.resultSha256 sha ft = .ok (first.digest sha ft)) ∨
    ((store.saveResult sha ft iso r).1 = .ok () ∧ resultOf entries r.attemptId = none ∧ r.Kept iso ∧
      (∃ c, contractOf entries r.attemptId = some c ∧ validateResultLink sha ft c r = .ok ()) ∧
      Holds sha ft iso (store.saveResult sha ft iso r).2 (AttemptStore.withResult entries r)) := by
  unfold AttemptStore.saveResult
  cases hload : store.loadContract sha ft iso r.attemptId with
  | error error => exact .inl ⟨error, rfl⟩
  | ok c =>
    have hcontract := h.loadContract.mp hload
    dsimp only
    cases hlink : validateResultLink sha ft c r with
    | error error => exact .inl ⟨error, rfl⟩
    | ok =>
      dsimp only
      rw [h.resultOf_eq]
      cases hfirst : resultOf entries r.attemptId with
      | some first =>
        obtain ⟨hkept, -⟩ := h.of_resultOf hfirst
        cases hcheck : checkResult sha ft iso r (first.json sha ft) with
        | error error => exact .inl ⟨error, by simp [hcheck]⟩
        | ok =>
          refine .inr (.inl ⟨by simp [hcheck], first, rfl, ?_⟩)
          simp only [checkResult, hkept.fromDict, bind_eq_ok, ensure_eq_ok, Except.ok.injEq, exists_eq_left',
            hkept.resultSha256] at hcheck
          obtain ⟨digest, hdigest, heq⟩ := hcheck
          rw [hdigest, ← heq]
      | none =>
        cases hvalue : resultValue sha ft r with
        | error error => exact .inl ⟨error, rfl⟩
        | ok value =>
          obtain ⟨hkept, rfl⟩ := (AttemptResult.resultValue_iff hconstruct hreadable).mp hvalue
          refine .inr (.inr ⟨by simp, rfl, hkept, ⟨c, hcontract, hlink⟩, ?_⟩)
          simpa using h.withResult hkept hcontract hlink

/-! ### Sequences of saves -/

section Run

variable (sha ft)

/-- A document that its constructor accepts, with the types that its fields are declared with and no empty reason. -/
inductive Save (iso : IsoFormat)
  | contract (c : AttemptContract) (init : c.postInit iso = .ok ()) (isInt : ∀ n ∈ c.integers, n.IsInt)
  | result (r : AttemptResult) (construct : r.construct iso = .ok ()) (readable : r.Readable)

/-- One save. -/
def save (store : AttemptStore) : Save iso → Except DocumentError Unit × AttemptStore
  | .contract c _ _ => store.saveContract sha ft iso c
  | .result r _ _ => store.saveResult sha ft iso r

/-- The store after a sequence of saves. -/
def runFrom (store : AttemptStore) (saves : List (Save iso)) : AttemptStore :=
  saves.foldl (fun store s => (store.save sha ft s).2) store

/-- The saves that succeeded, in their order. -/
def acceptedFrom (store : AttemptStore) : List (Save iso) → List (Save iso)
  | [] => []
  | s :: saves =>
    match store.save sha ft s with
    | (.ok _, store) => s :: acceptedFrom store saves
    | (.error _, store) => acceptedFrom store saves

/-- The contracts among some saves. -/
def contracts (saves : List (Save iso)) : List AttemptContract :=
  saves.filterMap fun
    | .contract c _ _ => some c
    | .result _ _ _ => none

/-- The results among some saves. -/
def results (saves : List (Save iso)) : List AttemptResult :=
  saves.filterMap fun
    | .contract _ _ _ => none
    | .result r _ _ => some r

variable {sha ft}

theorem runFrom_append (store : AttemptStore) (saves more : List (Save iso)) :
    runFrom sha ft store (saves ++ more) = runFrom sha ft (runFrom sha ft store saves) more :=
  List.foldl_append

theorem acceptedFrom_append (store : AttemptStore) (saves more : List (Save iso)) :
    acceptedFrom sha ft store (saves ++ more) =
      acceptedFrom sha ft store saves ++ acceptedFrom sha ft (runFrom sha ft store saves) more := by
  induction saves generalizing store with
  | nil => rfl
  | cons s saves ih =>
    rw [List.cons_append, acceptedFrom, acceptedFrom, runFrom, List.foldl_cons]
    cases hsave : store.save sha ft s with
    | mk outcome next =>
      cases outcome with
      | error error => exact ih next
      | ok =>
        show s :: acceptedFrom sha ft next (saves ++ more) = _
        rw [ih next]
        rfl

/-- The attempts that are held are the first of what was accepted. -/
structure Logged (sha : Sha256) (ft : FloatText) (entries : List AttemptEntry) (log : List (Save iso)) : Prop where
  contract : ∀ id, contractOf entries id = entryOf AttemptContract.attemptId id (contracts log)
  result : ∀ id, resultOf entries id = entryOf AttemptResult.attemptId id (results log)
  contractAgain : ∀ c ∈ contracts log, ∃ first, contractOf entries c.attemptId = some first ∧
    c.contractSha256 sha ft = .ok (first.digest sha ft)
  resultAgain : ∀ r ∈ results log, ∃ first, resultOf entries r.attemptId = some first ∧
    r.resultSha256 sha ft = .ok (first.digest sha ft)

theorem logged_nil : Logged sha ft [] ([] : List (Save iso)) where
  contract _ := rfl
  result _ := rfl
  contractAgain _ h := absurd h List.not_mem_nil
  resultAgain _ h := absurd h List.not_mem_nil

variable {log : List (Save iso)} {s : Save iso}

@[simp] theorem contracts_append (log more : List (Save iso)) :
    contracts (log ++ more) = contracts log ++ contracts more := List.filterMap_append

@[simp] theorem results_append (log more : List (Save iso)) :
    results (log ++ more) = results log ++ results more := List.filterMap_append

/-- The log does not depend on how the attempts are listed. -/
theorem Logged.congr {entries' : List AttemptEntry} (h : Logged sha ft entries log)
    (hcontract : ∀ id, contractOf entries' id = contractOf entries id)
    (hresult : ∀ id, resultOf entries' id = resultOf entries id) : Logged sha ft entries' log where
  contract id := by rw [hcontract, h.contract]
  result id := by rw [hresult, h.result]
  contractAgain c hc := by simpa only [hcontract] using h.contractAgain c hc
  resultAgain r hr := by simpa only [hresult] using h.resultAgain r hr

/-- A contract is accepted. -/
theorem Logged.contract_accepted (hlog : Logged sha ft entries log) {c : AttemptContract}
    (hinit : c.postInit iso = .ok ()) (hints : ∀ n ∈ c.integers, n.IsInt) {entries' : List AttemptEntry}
    (hresult : ∀ id, resultOf entries' id = resultOf entries id)
    (hcontract : ∀ id, contractOf entries' id = (contractOf entries id).or (if c.attemptId = id then some c else none))
    (hdigest : ∃ first, contractOf entries' c.attemptId = some first ∧
      c.contractSha256 sha ft = .ok (first.digest sha ft)) :
    Logged sha ft entries' (log ++ [.contract c hinit hints]) where
  contract id := by
    rw [hcontract, hlog.contract, contracts_append]
    exact entryOf_concat.symm
  result id := by
    rw [hresult, hlog.result, results_append]
    exact congrArg _ (List.append_nil _).symm
  contractAgain c' hc' := by
    rw [contracts_append] at hc'
    rcases List.mem_append.mp hc' with hc' | hc'
    · obtain ⟨first, hfirst, hdigest⟩ := hlog.contractAgain c' hc'
      refine ⟨first, ?_, hdigest⟩
      rw [hcontract, hfirst, Option.some_or]
    · obtain rfl := List.mem_singleton.mp hc'
      exact hdigest
  resultAgain r hr := by
    rw [results_append] at hr
    simpa only [hresult] using hlog.resultAgain r (by simpa [results] using hr)

/-- A result is accepted. -/
theorem Logged.result_accepted (hlog : Logged sha ft entries log) {r : AttemptResult}
    (hconstruct : r.construct iso = .ok ()) (hreadable : r.Readable) {entries' : List AttemptEntry}
    (hcontract : ∀ id, contractOf entries' id = contractOf entries id)
    (hresult : ∀ id, resultOf entries' id = (resultOf entries id).or (if r.attemptId = id then some r else none))
    (hdigest : ∃ first, resultOf entries' r.attemptId = some first ∧
      r.resultSha256 sha ft = .ok (first.digest sha ft)) :
    Logged sha ft entries' (log ++ [.result r hconstruct hreadable]) where
  contract id := by
    rw [hcontract, hlog.contract, contracts_append]
    exact congrArg _ (List.append_nil _).symm
  result id := by
    rw [hresult, hlog.result, results_append]
    exact entryOf_concat.symm
  contractAgain c hc := by
    rw [contracts_append] at hc
    simpa only [hcontract] using hlog.contractAgain c (by simpa [contracts] using hc)
  resultAgain r' hr' := by
    rw [results_append] at hr'
    rcases List.mem_append.mp hr' with hr' | hr'
    · obtain ⟨first, hfirst, hdigest⟩ := hlog.resultAgain r' hr'
      refine ⟨first, ?_, hdigest⟩
      rw [hresult, hfirst, Option.some_or]
    · obtain rfl := List.mem_singleton.mp hr'
      exact hdigest

/-- An entry that is there stays the first. -/
theorem or_eq_of_some {α κ : Type*} [DecidableEq κ] {f : κ → Option α} {k : κ} {first a : α}
    (h : f k = some first) (id : κ) : f id = (f id).or (if k = id then some a else none) := by
  by_cases hk : k = id
  · subst hk
    rw [h, Option.some_or]
  · rw [if_neg hk, Option.or_none]

theorem acceptedFrom_refused {error : DocumentError} (h : (store.save sha ft s).1 = .error error) :
    acceptedFrom sha ft store [s] = [] := by
  cases hsave : store.save sha ft s with
  | mk outcome next =>
    rw [hsave] at h
    subst h
    simp [acceptedFrom, hsave]

theorem acceptedFrom_accepted (h : (store.save sha ft s).1 = .ok ()) : acceptedFrom sha ft store [s] = [s] := by
  cases hsave : store.save sha ft s with
  | mk outcome next =>
    rw [hsave] at h
    subst h
    simp [acceptedFrom, hsave]

theorem save_contract (store : AttemptStore) {c : AttemptContract} (hinit : c.postInit iso = .ok ())
    (hints : ∀ n ∈ c.integers, n.IsInt) :
    store.save sha ft (.contract c hinit hints) = store.saveContract sha ft iso c := rfl

theorem save_result (store : AttemptStore) {r : AttemptResult} (hconstruct : r.construct iso = .ok ())
    (hreadable : r.Readable) :
    store.save sha ft (.result r hconstruct hreadable) = store.saveResult sha ft iso r := rfl

/-- **One save**: what is held is what was accepted first. -/
theorem Holds.step (h : Holds sha ft iso store entries) (hlog : Logged sha ft entries log) (s : Save iso) :
    ∃ entries', Holds sha ft iso (store.save sha ft s).2 entries' ∧
      Logged sha ft entries' (log ++ acceptedFrom sha ft store [s]) := by
  cases s with
  | contract c hinit hints =>
    have hspec := h.saveContract hinit hints
    rw [← save_contract store hinit hints] at hspec
    rcases hspec with ⟨⟨error, herror⟩, hheld⟩ | ⟨hsave, first, hfirst, hdigest⟩ |
      ⟨hsave, hnone, hkept, hheld⟩
    · rw [acceptedFrom_refused herror, List.append_nil]
      rcases hheld with hheld | hheld
      · exact ⟨entries, hheld, hlog⟩
      · exact ⟨_, hheld, hlog.congr (contractOf_prepared _ _) (resultOf_prepared _ _)⟩
    · rw [acceptedFrom_accepted (congrArg Prod.fst hsave)]
      refine ⟨entries, ?_, hlog.contract_accepted hinit hints (fun _ => rfl) (or_eq_of_some hfirst)
        ⟨first, hfirst, hdigest⟩⟩
      rw [hsave]
      exact h
    · rw [acceptedFrom_accepted hsave]
      have hthere : (entry (prepared entries c.attemptId) c.attemptId).isSome := by
        rw [entry_prepared, if_pos rfl]
        rfl
      refine ⟨_, hheld, hlog.contract_accepted hinit hints (by simp) ?_ ?_⟩
      · intro id
        rw [contractOf_withContract hthere, contractOf_prepared]
        by_cases hid : id = c.attemptId
        · simp [hid, hnone]
        · have hne : c.attemptId ≠ id := fun heq => hid heq.symm
          simp [hid, hne]
      · refine ⟨c, ?_, hkept.storable.contractSha256⟩
        rw [contractOf_withContract hthere, if_pos rfl]
  | result r hconstruct hreadable =>
    have hspec := h.saveResult hconstruct hreadable
    rw [← save_result store hconstruct hreadable] at hspec
    rcases hspec with ⟨error, hsave⟩ | ⟨hsave, first, hfirst, hdigest⟩ |
      ⟨hsave, hnone, hkept, ⟨c, hcontract, -⟩, hheld⟩
    · rw [acceptedFrom_refused (congrArg Prod.fst hsave), List.append_nil]
      refine ⟨entries, ?_, hlog⟩
      rw [hsave]
      exact h
    · rw [acceptedFrom_accepted (congrArg Prod.fst hsave)]
      refine ⟨entries, ?_, hlog.result_accepted hconstruct hreadable (fun _ => rfl) (or_eq_of_some hfirst)
        ⟨first, hfirst, hdigest⟩⟩
      rw [hsave]
      exact h
    · rw [acceptedFrom_accepted hsave]
      have hthere : (entry entries r.attemptId).isSome := by
        obtain ⟨e, hentry, -⟩ := Option.bind_eq_some_iff.mp hcontract
        rw [hentry]
        rfl
      refine ⟨_, hheld, hlog.result_accepted hconstruct hreadable (by simp) ?_ ?_⟩
      · intro id
        rw [resultOf_withResult hthere]
        by_cases hid : id = r.attemptId
        · simp [hid, hnone]
        · have hne : r.attemptId ≠ id := fun heq => hid heq.symm
          simp [hid, hne]
      · refine ⟨r, ?_, hkept.resultSha256⟩
        rw [resultOf_withResult hthere, if_pos rfl]

/-- **A run of saves**, from what is held. -/
theorem Holds.run (h : Holds sha ft iso store entries) (hlog : Logged sha ft entries log) (saves : List (Save iso)) :
    ∃ entries', Holds sha ft iso (runFrom sha ft store saves) entries' ∧
      Logged sha ft entries' (log ++ acceptedFrom sha ft store saves) := by
  induction saves generalizing store entries log with
  | nil => exact ⟨entries, h, by simpa [acceptedFrom] using hlog⟩
  | cons s saves ih =>
    obtain ⟨next, hnext, hlogged⟩ := h.step hlog s
    obtain ⟨entries', hheld, hlogged'⟩ := ih hnext hlogged
    refine ⟨entries', hheld, ?_⟩
    rw [← List.singleton_append, acceptedFrom_append, ← List.append_assoc]
    exact hlogged'

end Run

end AttemptStore

end TaintForge
