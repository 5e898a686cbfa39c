import TaintForge.Env.Equiv.ManifestDocuments
import TaintForge.Env.ManifestStore

/-!
# The chain of manifests is append-only

* `Holds`: the files of the store are the chain of the manifests that were saved.
* `save_holds`: what one save does to the chain.
* `AppendOnly`: what holds after a sequence of saves.
* `manifest_store_append_only`: it holds while the versions have four digits.
-/

namespace TaintForge

/-! ### Version numbers -/

/-- A number with at least four digits. -/
def padded (n : ℕ) : PyStr := List.replicate (4 - (decimal n).length) 0x30 ++ decimal n

theorem padded_isDigit (n : ℕ) : ∀ c ∈ padded n, Json.isDigit c := by
  intro c hc
  rcases List.mem_append.mp hc with hc | hc
  · rw [List.eq_of_mem_replicate hc]
    rfl
  · exact decimal_isDigit n c hc

/-- The value of digits after others. -/
theorem digitsValue_append (s t : PyStr) :
    Json.digitsValue (s ++ t) = Json.digitsValue s * 10 ^ t.length + Json.digitsValue t := by
  induction t using List.reverseRecOn with
  | nil => simp [Json.digitsValue]
  | append_singleton t c ih =>
    have hlast : ∀ u : PyStr, Json.digitsValue (u ++ [c]) = Json.digitsValue u * 10 + (c - 0x30) := by
      intro u
      simp [Json.digitsValue]
    rw [← List.append_assoc, hlast, hlast, ih, List.length_append, List.length_singleton, pow_succ]
    ring

theorem digitsValue_lt {s : PyStr} (h : ∀ c ∈ s, Json.isDigit c) :
    Json.digitsValue s < 10 ^ s.length := by
  induction s with
  | nil => decide
  | cons c s ih =>
    have hc := h c List.mem_cons_self
    have htail := ih fun d hd => h d (List.mem_cons_of_mem c hd)
    have hvalue := digitsValue_append [c] s
    have hsingle : Json.digitsValue [c] = c - 0x30 := by simp [Json.digitsValue]
    simp only [Json.isDigit, Bool.and_eq_true, decide_eq_true_eq] at hc
    have hle : (c - 0x30) * 10 ^ s.length ≤ 9 * 10 ^ s.length := Nat.mul_le_mul_right _ (by omega)
    rw [List.singleton_append, hsingle] at hvalue
    rw [hvalue, List.length_cons, pow_succ]
    omega

@[simp] theorem digitsValue_padded (n : ℕ) : Json.digitsValue (padded n) = n := by
  have hzero : ∀ k, Json.digitsValue (List.replicate k 0x30) = 0 := by
    intro k
    induction k with
    | zero => rfl
    | succ k ih =>
      rw [List.replicate_succ', digitsValue_append, ih]
      rfl
  rw [padded, digitsValue_append, hzero, digitsValue_decimal]
  omega

theorem padded_injective : Function.Injective padded := by
  intro m n h
  rw [← digitsValue_padded m, h, digitsValue_padded]

/-- **Four digits are enough for the versions below 10000**, and for no others. -/
theorem length_padded (n : ℕ) : (padded n).length = 4 ↔ n < 10000 := by
  have hlength : (decimal n).length ≤ 4 ↔ n < 10000 := by
    unfold decimal
    split_ifs with hn
    · subst hn
      simp
    · rw [List.length_map, List.length_reverse, Nat.digits_length_le_iff (by norm_num)]
      norm_num
  rw [← hlength, padded, List.length_append, List.length_replicate]
  omega

/-- Digits are in the order of their values. -/
theorem lt_of_digitsValue_lt {s t : PyStr} (hs : ∀ c ∈ s, Json.isDigit c) (ht : ∀ c ∈ t, Json.isDigit c)
    (hlength : s.length = t.length) (h : Json.digitsValue s < Json.digitsValue t) (rest : PyStr) :
    s ++ rest < t ++ rest := by
  induction s generalizing t with
  | nil =>
    rw [List.length_eq_zero_iff.mp hlength.symm] at h
    exact absurd h (lt_irrefl _)
  | cons c s ih =>
    cases t with
    | nil => exact absurd hlength (by simp)
    | cons d t =>
      have hlen : s.length = t.length := Nat.succ.inj hlength
      have hc := hs c List.mem_cons_self
      have hd := ht d List.mem_cons_self
      have hs' := fun e he => hs e (List.mem_cons_of_mem c he)
      have ht' := fun e he => ht e (List.mem_cons_of_mem d he)
      have hsingle : ∀ e : ℕ, Json.digitsValue [e] = e - 0x30 := by simp [Json.digitsValue]
      have hsvalue := digitsValue_append [c] s
      have htvalue := digitsValue_append [d] t
      rw [List.singleton_append, hsingle] at hsvalue htvalue
      rw [hsvalue, htvalue, hlen] at h
      simp only [Json.isDigit, Bool.and_eq_true, decide_eq_true_eq] at hc hd
      rcases lt_trichotomy c d with hcd | rfl | hcd
      · exact List.cons_lt_cons_iff.mpr (.inl hcd)
      · exact List.cons_lt_cons_iff.mpr (.inr ⟨rfl, ih hs' ht' hlen (by omega)⟩)
      · have hbound := digitsValue_lt ht'
        have hmul : (d - 0x30 + 1) * 10 ^ t.length ≤ (c - 0x30) * 10 ^ t.length :=
          Nat.mul_le_mul_right _ (by omega)
        rw [add_mul, one_mul] at hmul
        omega

/-! ### File names -/

/-- The name of the file of a version. -/
def nameOf (n : ℕ) : PyStr := py "environment_manifest_v" ++ padded n ++ py ".json"

theorem pathForVersion_iff {version : PyInt} {n : ℕ} (hn : version.value = n) {path : PyStr} :
    pathForVersion version = .ok path ↔ convertible n ∧ path = nameOf n := by
  simp only [pathForVersion, bind_eq_ok, ensure_eq_ok, pure_eq_ok, format04, hn, Int.natAbs_natCast]
  by_cases hconvertible : convertible n
  · simp only [if_pos hconvertible, Except.ok.injEq]
    constructor
    · rintro ⟨_, -, _, rfl, rfl⟩
      exact ⟨hconvertible, rfl⟩
    · rintro ⟨-, rfl⟩
      exact ⟨(), by omega, _, rfl, rfl⟩
  · simp only [if_neg hconvertible]
    constructor
    · rintro ⟨_, -, _, h, -⟩
      exact absurd h (by nofun)
    · rintro ⟨h, -⟩
      exact absurd h hconvertible

theorem nameOf_injective : Function.Injective nameOf := by
  intro m n h
  exact padded_injective (List.append_cancel_left (List.append_cancel_right h))

theorem manifestDigits_nameOf {n : ℕ} (hn : n < 10000) : manifestDigits (nameOf n) = padded n := by
  have hlength := (length_padded n).mpr hn
  have hdrop : (nameOf n).drop 22 = padded n ++ py ".json" := by
    rw [nameOf, List.append_assoc]
    exact List.drop_left' rfl
  rw [manifestDigits, hdrop, List.take_left' hlength]

theorem isManifestName_nameOf (n : ℕ) : isManifestName (nameOf n) = decide (n < 10000) := by
  rw [Bool.eq_iff_iff, decide_eq_true_eq]
  have htake : (nameOf n).take 22 = py "environment_manifest_v" := by
    rw [nameOf, List.append_assoc]
    exact List.take_left' rfl
  constructor
  · intro h
    simp only [isManifestName, Bool.and_eq_true, beq_iff_eq] at h
    have hlength := congrArg List.length h.1.1.2
    rw [← length_padded]
    simp only [nameOf, List.length_drop, List.length_append] at hlength
    have h22 : (py "environment_manifest_v").length = 22 := rfl
    have h5 : (py ".json").length = 5 := rfl
    omega
  · intro hn
    have hlength := (length_padded n).mpr hn
    have hdrop : (nameOf n).drop 26 = py ".json" := by
      rw [nameOf]
      refine List.drop_left' ?_
      rw [List.length_append, hlength]
      rfl
    simp only [isManifestName, htake, hdrop, manifestDigits_nameOf hn, hlength, Bool.and_eq_true,
      beq_self_eq_true, List.all_eq_true, true_and]
    exact padded_isDigit n

theorem temporaryName_ne (path random : PyStr) (n : ℕ) : temporaryName path random ≠ nameOf n := by
  intro h
  have hhead := congrArg List.head? h
  exact absurd hhead (by simp [temporaryName, nameOf, py])

theorem not_isManifestName_temporaryName (path random : PyStr) :
    isManifestName (temporaryName path random) = false := by
  have htake : (temporaryName path random).take 22 ≠ py "environment_manifest_v" := by
    intro h
    have hhead := congrArg List.head? h
    exact absurd hhead (by simp [temporaryName, py])
  simp [isManifestName, htake]

/-! ### The files of a chain -/

section Store

variable {sha : Sha256} {ft : FloatText} {iso : IsoFormat} {m child parent : EnvironmentManifest}

/-- A manifest that is read back, and its version. -/
structure EnvironmentManifest.Kept (iso : IsoFormat) (n : ℕ) (m : EnvironmentManifest) : Prop where
  construct : m.construct iso = .ok ()
  storable : m.Storable
  version : m.manifestVersion.value = n

/-- The text of the file of a manifest. -/
def EnvironmentManifest.text (sha : Sha256) (ft : FloatText) (m : EnvironmentManifest) : PyStr :=
  storedText ft (.obj (m.fields sha ft))

theorem EnvironmentManifest.Storable.convertible (h : m.Storable) :
    convertible m.manifestVersion.value := by
  obtain ⟨k, hk, hconvertible⟩ := h.1 m.manifestVersion (by simp [integers])
  rw [hk]
  exact hconvertible

theorem EnvironmentManifest.Storable.writable (h : m.Storable) (hconstruct : m.construct iso = .ok ()) :
    Writable (.obj (m.fields sha ft)) ∧ Writable (.obj (m.identityFields sha ft)) := by
  have hwrite : ∀ n ∈ m.integers, Writable n.toJson := fun n hn => (PyInt.storable_iff.mp (h.1 n hn)).2
  exact ⟨(fields_writable hconstruct).mpr ⟨hwrite, h.2⟩,
    (writable_iff hconstruct).mpr ⟨hwrite, h.2.1 _ (by simp [texts])⟩⟩

variable {n : ℕ}

theorem EnvironmentManifest.Kept.manifestId (h : m.Kept iso n) :
    m.manifestId sha ft = .ok (m.name sha ft) :=
  (manifestId_iff (construct_iff.mp h.construct).1).mpr
    ⟨h.storable.convertible, (h.storable.writable h.construct).2, rfl⟩

/-- **A manifest that was kept is loaded from its text.** -/
theorem EnvironmentManifest.Kept.loadText (h : m.Kept iso n) :
    EnvironmentManifestStore.loadText sha ft iso (m.text sha ft) = .ok m := by
  have hreload : (manifestDocument sha ft iso).reload ft m = .ok m :=
    (reload_iff h.construct).mpr h.storable
  obtain ⟨hwritable, hidentity⟩ : Writable (.obj (m.fields sha ft)) ∧ _ :=
    h.storable.writable h.construct
  have hdict : (manifestDocument sha ft iso).toDict m = .ok (.obj (m.fields sha ft)) :=
    (toDict_iff (construct_iff.mp h.construct).1).mpr ⟨h.storable.convertible, hidentity, rfl⟩
  rw [Document.reload_eq_ok hdict fields_plain] at hreload
  exact bind_eq_ok.mpr ⟨_, loads_storedText fields_plain hwritable, hreload.2⟩

namespace EnvironmentManifestStore

/-- A manifest may follow another one. -/
def Follows (sha : Sha256) (ft : FloatText) (parent child : EnvironmentManifest) : Prop :=
  validateParent sha ft child parent = .ok ()

/-- **The files of the store are those of the chain**, one for each of its manifests, and others have names
that do not matter. -/
structure Holds (sha : Sha256) (ft : FloatText) (iso : IsoFormat) (store : EnvironmentManifestStore)
    (chain : List EnvironmentManifest) : Prop where
  read : ∀ n, store.read (nameOf n) = chain[n]?.map (EnvironmentManifest.text sha ft)
  names : (store.files.map Prod.fst).filter isManifestName =
    (List.range (min chain.length 10000)).map nameOf
  kept : ∀ n (m : EnvironmentManifest), chain[n]? = some m → m.Kept iso n
  linked : chain.IsChain (Follows sha ft)

variable {store : EnvironmentManifestStore} {chain : List EnvironmentManifest}

theorem holds_nil : Holds sha ft iso ⟨[]⟩ [] where
  read _ := rfl
  names := rfl
  kept _ _ h := absurd h (by simp)
  linked := .nil

theorem read_append (store : EnvironmentManifestStore) (path text name : PyStr) :
    EnvironmentManifestStore.read ⟨store.files ++ [(path, text)]⟩ name =
      (store.read name).or (if path = name then some text else none) := by
  simp only [read, List.find?_append]
  cases store.files.find? fun file => file.1 == name with
  | none =>
    by_cases h : path = name
    · simp [h]
    · simp [h]
  | some file => simp

/-- A temporary file is not seen. -/
theorem Holds.temporary (h : Holds sha ft iso store chain) (path random : PyStr) :
    Holds sha ft iso ⟨store.files ++ [(temporaryName path random, [])]⟩ chain where
  read n := by
    rw [read_append, if_neg (temporaryName_ne path random n), h.read, Option.or_none]
  names := by
    rw [List.map_append, List.filter_append, h.names]
    simp [not_isManifestName_temporaryName]
  kept := h.kept
  linked := h.linked

/-- A new version is added to the end of the chain. -/
theorem Holds.append (h : Holds sha ft iso store chain) (hkept : m.Kept iso chain.length)
    (hlinked : ∀ parent ∈ chain.getLast?, Follows sha ft parent m) :
    Holds sha ft iso ⟨store.files ++ [(nameOf chain.length, m.text sha ft)]⟩ (chain ++ [m]) where
  read n := by
    rw [read_append, h.read]
    rcases lt_trichotomy n chain.length with hlt | rfl | hgt
    · rw [List.getElem?_append_left hlt, List.getElem?_eq_getElem hlt]
      rfl
    · simp
    · have hne : nameOf chain.length ≠ nameOf n := fun heq => absurd (nameOf_injective heq) (by omega)
      rw [if_neg hne, Option.or_none, List.getElem?_eq_none (by omega),
        List.getElem?_eq_none (by simp; omega)]
  names := by
    rw [List.map_append, List.filter_append, h.names, List.length_append, List.length_singleton]
    by_cases hlength : chain.length < 10000
    · rw [show min (chain.length + 1) 10000 = chain.length + 1 by omega, Nat.min_eq_left hlength.le,
        List.range_succ, List.map_append]
      simp [isManifestName_nameOf, hlength]
    · rw [show min (chain.length + 1) 10000 = min chain.length 10000 by omega]
      simp [isManifestName_nameOf, hlength]
  kept n m' hm' := by
    rcases lt_trichotomy n chain.length with hlt | rfl | hgt
    · rw [List.getElem?_append_left hlt] at hm'
      exact h.kept n m' hm'
    · rw [List.getElem?_concat_length] at hm'
      cases hm'
      exact hkept
    · rw [List.getElem?_eq_none (by simp; omega)] at hm'
      exact absurd hm' (by nofun)
  linked := by
    rw [List.isChain_append]
    refine ⟨h.linked, List.isChain_singleton m, ?_⟩
    intro parent hparent child hchild
    cases hchild
    exact hlinked parent hparent

/-! ### One save -/

theorem Holds.load (h : Holds sha ft iso store chain) {version : PyInt} {n : ℕ}
    (hversion : version.value = n) (hconvertible : convertible n) :
    (∀ m, chain[n]? = some m → store.load sha ft iso version = .ok m) ∧
      (chain[n]? = none → ∀ m, store.load sha ft iso version ≠ .ok m) := by
  have hpath := (pathForVersion_iff hversion).mpr ⟨hconvertible, rfl⟩
  constructor
  · intro m hm
    refine bind_eq_ok.mpr ⟨nameOf n, hpath, ?_⟩
    rw [h.read, hm]
    exact (h.kept n m hm).loadText
  · intro hnone m hload
    obtain ⟨path, hpath', hload⟩ := bind_eq_ok.mp hload
    obtain rfl : nameOf n = path := Except.ok.inj (hpath.symm.trans hpath')
    rw [h.read, hnone] at hload
    exact absurd hload (by nofun)

/-- A version that is there is only accepted under the same identifier. -/
theorem Holds.check_old (h : Holds sha ft iso store chain) {n : ℕ} {existing : EnvironmentManifest}
    (hexisting : chain[n]? = some existing) {b : Bool}
    (hcheck : store.check sha ft iso m (nameOf n) = .ok b) :
    b = true ∧ m.manifestId sha ft = .ok (existing.name sha ft) := by
  have hkept := h.kept n existing hexisting
  unfold check at hcheck
  rw [h.read, hexisting] at hcheck
  simp only [Option.map_some, bind_eq_ok, ensure_eq_ok, pure_eq_ok] at hcheck
  obtain ⟨loaded, hload, existingId, hexistingId, manifestId, hmanifestId, -, heq, rfl⟩ := hcheck
  obtain rfl : existing = loaded := Except.ok.inj (hkept.loadText.symm.trans hload)
  obtain rfl : existing.name sha ft = existingId := Except.ok.inj (hkept.manifestId.symm.trans hexistingId)
  rw [heq]
  exact ⟨rfl, hmanifestId⟩

/-- A version that is not there has to be the next one, and to follow the last. -/
theorem Holds.check_new (h : Holds sha ft iso store chain) {n : ℕ} (hn : chain[n]? = none)
    (hversion : m.manifestVersion.value = n) (hconvertible : convertible n) {b : Bool}
    (hcheck : store.check sha ft iso m (nameOf n) = .ok b) :
    b = false ∧ n = chain.length ∧ ∀ parent ∈ chain.getLast?, Follows sha ft parent m := by
  have hle : chain.length ≤ n := List.getElem?_eq_none_iff.mp hn
  unfold check at hcheck
  rw [h.read, hn, hversion] at hcheck
  simp only [Option.map_none] at hcheck
  by_cases hpos : 0 < (n : ℤ)
  · rw [if_pos hpos] at hcheck
    simp only [bind_eq_ok, pure_eq_ok] at hcheck
    obtain ⟨parent, hload, _, hfollows, rfl⟩ := hcheck
    have hprev : (PyInt.int ((n : ℤ) - 1)).value = ((n - 1 : ℕ) : ℤ) := by
      show (n : ℤ) - 1 = _
      omega
    have hload' := h.load hprev (convertible_of_le (Nat.sub_le n 1) hconvertible)
    cases hget : chain[n - 1]? with
    | none => exact absurd hload (hload'.2 hget parent)
    | some parent' =>
      obtain rfl : parent' = parent := Except.ok.inj ((hload'.1 parent' hget).symm.trans hload)
      have hlt : n - 1 < chain.length := (List.getElem?_eq_some_iff.mp hget).1
      have hlength : n = chain.length := by omega
      refine ⟨rfl, hlength, ?_⟩
      intro last hlast
      rw [List.getLast?_eq_getElem?, ← hlength, hget] at hlast
      cases hlast
      exact hfollows
  · rw [if_neg hpos] at hcheck
    have hzero : n = 0 := by omega
    obtain rfl : chain = [] := List.length_eq_zero_iff.mp (by omega)
    exact ⟨(Except.ok.inj hcheck).symm, hzero, by simp⟩

/-- **What a save does**: it fails and the chain stays, it finds its manifest in the store and changes
nothing, or it adds the next version. -/
theorem Holds.save (h : Holds sha ft iso store chain) (s : Save iso) :
    (∃ error, (store.save sha ft iso s.manifest s.random).1 = .error error ∧
      Holds sha ft iso (store.save sha ft iso s.manifest s.random).2 chain) ∨
    (∃ path n existing, store.save sha ft iso s.manifest s.random = (.ok path, store) ∧
      s.manifest.manifestVersion.value = (n : ℕ) ∧ chain[n]? = some existing ∧
      s.manifest.manifestId sha ft = .ok (existing.name sha ft)) ∨
    (∃ path, (store.save sha ft iso s.manifest s.random).1 = .ok path ∧
      ((∀ n ∈ s.manifest.integers, n.IsInt) → s.manifest.Kept iso chain.length ∧
        Holds sha ft iso (store.save sha ft iso s.manifest s.random).2 (chain ++ [s.manifest]))) := by
  obtain ⟨m, hconstruct, random⟩ := s
  dsimp only
  obtain ⟨hentries, hinit⟩ := EnvironmentManifest.construct_iff.mp hconstruct
  obtain ⟨n, hn⟩ := Int.eq_ofNat_of_zero_le (EnvironmentManifest.postInit_iff.mp hinit).version
  unfold EnvironmentManifestStore.save
  cases hpath : pathForVersion m.manifestVersion with
  | error error => exact .inl ⟨error, rfl, h⟩
  | ok path =>
    obtain ⟨hconvertible, rfl⟩ := (pathForVersion_iff hn).mp hpath
    dsimp only
    cases hcheck : store.check sha ft iso m (nameOf n) with
    | error error => exact .inl ⟨error, rfl, h⟩
    | ok b =>
      cases hget : chain[n]? with
      | some existing =>
        obtain ⟨rfl, hid⟩ := h.check_old hget hcheck
        exact .inr (.inl ⟨_, n, existing, rfl, hn, hget, hid⟩)
      | none =>
        obtain ⟨rfl, rfl, hfollows⟩ := h.check_new hget hn hconvertible hcheck
        dsimp only
        cases hdict : m.toDict sha ft with
        | error error => exact .inl ⟨error, rfl, h⟩
        | ok payload =>
          obtain ⟨-, -, rfl⟩ := (EnvironmentManifest.toDict_iff hentries).mp hdict
          have hfree : (store.read (nameOf chain.length)).isSome = false := by
            rw [h.read, hget]
            rfl
          dsimp only
          unfold atomicWriteJson
          rw [hfree]
          cases hdumps : dumps ft .indented (.obj (m.fields sha ft)) with
          | error error => exact .inl ⟨error, rfl, h⟩
          | ok body =>
            cases hencode : encode (body ++ [0x0A]) with
            | error error =>
              simp only [hencode]
              exact .inl ⟨error, rfl, h.temporary _ _⟩
            | ok bytes =>
              simp only [hencode]
              have hserialise : serialise ft (.obj (m.fields sha ft)) = .ok bytes :=
                bind_eq_ok.mpr ⟨body, hdumps, hencode⟩
              obtain ⟨hwritable, rfl⟩ := (serialise_eq_ok EnvironmentManifest.fields_plain).mp hserialise
              obtain ⟨hwrite, htexts, hlength⟩ :=
                (EnvironmentManifest.fields_writable hconstruct).mp hwritable
              refine .inr (.inr ⟨_, rfl, ?_⟩)
              intro hints
              have hstorable : m.Storable :=
                ⟨fun k hk => PyInt.storable_iff.mpr ⟨hints k hk, hwrite k hk⟩, htexts, hlength⟩
              have hkept : m.Kept iso chain.length := ⟨hconstruct, hstorable, hn⟩
              exact ⟨hkept, h.append hkept hfollows⟩

/-! ### The chain that is verified -/

theorem validateParents_of_isChain {manifests : List EnvironmentManifest}
    (h : manifests.IsChain (Follows sha ft)) : validateParents sha ft manifests = .ok () := by
  induction h with
  | nil => rfl
  | singleton m => rfl
  | cons_cons hfollows _ ih => exact bind_eq_ok.mpr ⟨(), hfollows, ih⟩

theorem nameOf_lt {i j : ℕ} (hij : i < j) (hj : j < 10000) : nameOf i < nameOf j := by
  have hlength : (padded i).length = (padded j).length := by
    rw [(length_padded i).mpr (by omega), (length_padded j).mpr hj]
  have hdigits : padded i ++ py ".json" < padded j ++ py ".json" := by
    apply lt_of_digitsValue_lt (padded_isDigit i) (padded_isDigit j) hlength
    rwa [digitsValue_padded, digitsValue_padded]
  rw [nameOf, nameOf, List.append_assoc, List.append_assoc]
  exact List.append_left_lt hdigits

/-- The names are in the order of the versions already. -/
theorem Holds.paths (h : Holds sha ft iso store chain) :
    ((store.files.map Prod.fst).filter isManifestName).insertionSort (· ≤ ·) =
      (List.range (min chain.length 10000)).map nameOf := by
  rw [h.names]
  apply List.Pairwise.insertionSort_eq
  rw [List.pairwise_map]
  apply List.pairwise_lt_range.imp_of_mem
  intro i j _ hj hij
  have hlt : j < min chain.length 10000 := List.mem_range.mp hj
  exact le_of_lt (nameOf_lt hij (by omega))

/-- The manifest of each version with four digits is loaded from its file. -/
theorem Holds.loads (h : Holds sha ft iso store chain) :
    mapOk (store.loadFound sha ft iso) ((List.range (min chain.length 10000)).map nameOf) =
      .ok (chain.take 10000) := by
  rw [mapOk_ok, List.forall₂_map_left_iff, List.forall₂_iff_get]
  refine ⟨by rw [List.length_range, List.length_take, Nat.min_comm], ?_⟩
  intro n hn hn'
  have hlt : n < chain.length := by
    rw [List.length_range] at hn
    omega
  have hchain : chain[n]? = some chain[n] := List.getElem?_eq_getElem hlt
  simp only [List.get_eq_getElem, List.getElem_range, List.getElem_take, loadFound, h.read, hchain,
    Option.map_some]
  exact (h.kept n _ hchain).loadText

/-- **The chain is verified up to the last version with four digits.** -/
theorem Holds.verifyChain (h : Holds sha ft iso store chain) (hne : chain ≠ []) :
    store.verifyChain sha ft iso none = .ok (chain.take 10000) := by
  have hpos : 0 < chain.length := List.length_pos_iff.mpr hne
  have hfilter : ∀ paths : List PyStr, (paths.filter fun path =>
      ∀ through ∈ (none : Option ℤ), versionFromPath path ≤ through) = paths := by
    intro paths
    apply List.filter_eq_self.mpr
    simp
  simp only [EnvironmentManifestStore.verifyChain, h.paths, hfilter, bind_eq_ok, pure_eq_ok, ensure_eq_ok]
  refine ⟨(), ?_, chain.take 10000, h.loads, (), ?_, (), validateParents_of_isChain (h.linked.take 10000),
    rfl⟩
  · simp only [ne_eq, List.map_eq_nil_iff, List.range_eq_nil]
    omega
  · apply List.ext_getElem
    · simp
    · intro n hn _
      have hlt : n < chain.length := by
        rw [List.length_map, List.length_take] at hn
        omega
      simp only [List.getElem_map, List.getElem_take, List.getElem_range]
      exact (h.kept n _ (List.getElem?_eq_getElem hlt)).version

/-- Stores with the same chain are read and verified alike. -/
theorem Holds.congr {store' : EnvironmentManifestStore} (h : Holds sha ft iso store chain)
    (h' : Holds sha ft iso store' chain) :
    (∀ version, store'.load sha ft iso version = store.load sha ft iso version) ∧
      ∀ through, store'.verifyChain sha ft iso through = store.verifyChain sha ft iso through := by
  have hread : ∀ n, store'.read (nameOf n) = store.read (nameOf n) := fun n => by rw [h.read, h'.read]
  constructor
  · intro version
    unfold EnvironmentManifestStore.load
    cases hpath : pathForVersion version with
    | error error => rfl
    | ok path =>
      obtain ⟨_, hnonneg, -⟩ := bind_eq_ok.mp hpath
      rw [ensure_eq_ok] at hnonneg
      obtain ⟨n, hn⟩ := Int.eq_ofNat_of_zero_le hnonneg
      obtain ⟨-, rfl⟩ := (pathForVersion_iff hn).mp hpath
      simp only [bind, Except.bind, hread]
  · intro through
    unfold EnvironmentManifestStore.verifyChain
    rw [h.paths, h'.paths]
    generalize hpaths : (List.filter _ (List.map nameOf _)) = paths
    have hload : mapOk (store'.loadFound sha ft iso) paths = mapOk (store.loadFound sha ft iso) paths := by
      apply mapOk_congr
      intro path hpath
      rw [← hpaths] at hpath
      obtain ⟨n, -, rfl⟩ := List.mem_map.mp (List.mem_of_mem_filter hpath)
      rw [loadFound, loadFound, hread]
    dsimp only
    rw [hpaths, hload]

/-! ### A sequence of saves -/

/-- The manifests with different identifiers, each as it came first. -/
def distinct (sha : Sha256) (ft : FloatText) (log : List EnvironmentManifest) :
    List EnvironmentManifest :=
  log.foldl (fun firsts m =>
    if ∃ first ∈ firsts, first.manifestId sha ft = m.manifestId sha ft then firsts else firsts ++ [m]) []

theorem distinct_append (log : List EnvironmentManifest) (m : EnvironmentManifest) :
    distinct sha ft (log ++ [m]) =
      if ∃ first ∈ distinct sha ft log, first.manifestId sha ft = m.manifestId sha ft then
        distinct sha ft log
      else distinct sha ft log ++ [m] := by
  rw [distinct, List.foldl_append]
  rfl

/-- The manifests of the saves that succeeded, and the chain they made. -/
structure Logged (sha : Sha256) (ft : FloatText) (iso : IsoFormat) (chain log : List EnvironmentManifest) :
    Prop where
  firsts : distinct sha ft log = chain
  first : ∀ n : ℕ, (log.find? fun m => m.manifestVersion.value == (n : ℤ)) = chain[n]?
  same : ∀ m ∈ log, ∃ (n : ℕ) (existing : EnvironmentManifest), m.manifestVersion.value = n ∧ chain[n]? = some existing ∧
    m.construct iso = .ok () ∧ m.manifestId sha ft = .ok (existing.name sha ft)

/-- A manifest that was there is logged once more. -/
theorem Logged.again {log : List EnvironmentManifest} (h : Logged sha ft iso chain log)
    (hholds : Holds sha ft iso store chain) (hconstruct : m.construct iso = .ok ())
    {n : ℕ} {existing : EnvironmentManifest} (hn : m.manifestVersion.value = n)
    (hexisting : chain[n]? = some existing) (hid : m.manifestId sha ft = .ok (existing.name sha ft)) :
    Logged sha ft iso chain (log ++ [m]) where
  firsts := by
    rw [distinct_append, h.firsts, if_pos]
    refine ⟨existing, List.mem_of_getElem? hexisting, ?_⟩
    rw [hid, (hholds.kept n existing hexisting).manifestId]
  first k := by
    rw [List.find?_append, h.first]
    cases hk : chain[k]? with
    | some first => rfl
    | none =>
      have hne : n ≠ k := by
        rintro rfl
        rw [hexisting] at hk
        exact absurd hk (by nofun)
      rw [List.find?_cons_of_neg (by simp [hn, hne])]
      rfl
  same := by
    intro m' hm'
    rcases List.mem_append.mp hm' with hm' | hm'
    · exact h.same m' hm'
    · rw [List.mem_singleton] at hm'
      subst hm'
      exact ⟨n, existing, hn, hexisting, hconstruct, hid⟩

theorem name_eq {n : ℕ} (hm : m.manifestVersion.value = n) : m.name sha ft =
    py "manifest-v" ++ (padded n ++ 0x2D :: (m.digest sha ft).take 16) := by
  rw [EnvironmentManifest.name, hm, Int.natAbs_natCast, List.append_assoc, List.append_assoc]
  rfl

/-- Identifiers of different versions are different. -/
theorem name_inj {k n : ℕ} (hm : m.manifestVersion.value = k) (hchild : child.manifestVersion.value = n)
    (h : m.name sha ft = child.name sha ft) : k = n ∧
      (m.digest sha ft).take 16 = (child.digest sha ft).take 16 := by
  have hdash : ∀ i : ℕ, 0x2D ∉ padded i := by
    intro i hi
    exact absurd (padded_isDigit i _ hi) (by decide)
  rw [name_eq hm, name_eq hchild] at h
  obtain ⟨hversion, hdigest⟩ := PyStr.append_sep_inj (hdash k) (hdash n) (List.append_cancel_left h)
  exact ⟨padded_injective hversion, hdigest⟩

/-- A new version is logged. -/
theorem Logged.append {log : List EnvironmentManifest} (h : Logged sha ft iso chain log)
    (hholds : Holds sha ft iso store chain) (hkept : m.Kept iso chain.length) :
    Logged sha ft iso (chain ++ [m]) (log ++ [m]) where
  firsts := by
    rw [distinct_append, h.firsts, if_neg]
    rintro ⟨first, hfirst, hid⟩
    obtain ⟨n, hn⟩ := List.getElem?_of_mem hfirst
    have hfirst' := hholds.kept n first hn
    rw [hfirst'.manifestId, hkept.manifestId, Except.ok.injEq] at hid
    have hlt : n < chain.length := (List.getElem?_eq_some_iff.mp hn).1
    have heq := (name_inj hfirst'.version hkept.version hid).1
    omega
  first k := by
    rw [List.find?_append, h.first]
    rcases lt_trichotomy k chain.length with hlt | rfl | hgt
    · rw [List.getElem?_append_left hlt, List.getElem?_eq_getElem hlt]
      rfl
    · rw [List.getElem?_eq_none le_rfl, List.find?_cons_of_pos (by simp [hkept.version])]
      simp
    · have hne : chain.length ≠ k := by omega
      rw [List.getElem?_eq_none hgt.le, List.find?_cons_of_neg (by simp [hkept.version, hne]),
        List.getElem?_eq_none (by simp; omega)]
      rfl
  same := by
    intro m' hm'
    rcases List.mem_append.mp hm' with hm' | hm'
    · obtain ⟨n, existing, hn, hexisting, hrest⟩ := h.same m' hm'
      have hlt : n < chain.length := (List.getElem?_eq_some_iff.mp hexisting).1
      exact ⟨n, existing, hn, by rw [List.getElem?_append_left hlt, hexisting], hrest⟩
    · rw [List.mem_singleton] at hm'
      subst hm'
      exact ⟨chain.length, m', hkept.version, by simp, hkept.construct, hkept.manifestId⟩

theorem logged_nil : Logged sha ft iso [] [] where
  firsts := rfl
  first _ := rfl
  same _ h := absurd h List.not_mem_nil

/-- **A sequence of saves makes a chain**, whatever the versions. -/
theorem exists_chain (sha : Sha256) (ft : FloatText) (saves : List (Save iso))
    (hints : ∀ s ∈ saves, ∀ n ∈ s.manifest.integers, n.IsInt) :
    ∃ chain, Holds sha ft iso (run sha ft saves) chain ∧
      Logged sha ft iso chain (successful sha ft saves) := by
  have hfrom : ∀ (saves : List (Save iso)) (store : EnvironmentManifestStore)
      (chain log : List EnvironmentManifest), (∀ s ∈ saves, ∀ n ∈ s.manifest.integers, n.IsInt) →
      Holds sha ft iso store chain → Logged sha ft iso chain log →
      ∃ chain', Holds sha ft iso
          (saves.foldl (fun store s => (store.save sha ft iso s.manifest s.random).2) store) chain' ∧
        Logged sha ft iso chain' (log ++ successfulFrom sha ft store saves) := by
    intro saves
    induction saves with
    | nil =>
      intro store chain log _ hholds hlogged
      exact ⟨chain, hholds, by rwa [successfulFrom, List.append_nil]⟩
    | cons s saves ih =>
      intro store chain log hints hholds hlogged
      have htail := fun s' hs' => hints s' (List.mem_cons_of_mem s hs')
      rw [List.foldl_cons, successfulFrom]
      rcases hholds.save s with ⟨error, herror, hholds'⟩ |
        ⟨path, n, existing, hsave, hn, hexisting, hid⟩ | ⟨path, hok, hnew⟩
      · generalize store.save sha ft iso s.manifest s.random = out at herror hholds' ⊢
        obtain ⟨result, store'⟩ := out
        subst herror
        exact ih store' chain log htail hholds' hlogged
      · rw [hsave]
        have hlogged' := hlogged.again hholds s.construct hn hexisting hid
        have hnext := ih store chain _ htail hholds hlogged'
        rwa [List.append_assoc] at hnext
      · obtain ⟨hkept, hholds'⟩ := hnew (hints s List.mem_cons_self)
        generalize store.save sha ft iso s.manifest s.random = out at hok hholds' ⊢
        obtain ⟨result, store'⟩ := out
        subst hok
        have hnext := ih store' _ _ htail hholds' (hlogged.append hholds hkept)
        rwa [List.append_assoc] at hnext
  exact hfrom saves ⟨[]⟩ [] [] hints holds_nil logged_nil

theorem Holds.save_again (h : Holds sha ft iso store chain) (hconstruct : m.construct iso = .ok ())
    {n : ℕ} {existing : EnvironmentManifest} (hn : m.manifestVersion.value = n)
    (hexisting : chain[n]? = some existing) (hid : m.manifestId sha ft = .ok (existing.name sha ft))
    (random : PyStr) : store.save sha ft iso m random = (.ok (nameOf n), store) := by
  have hkept := h.kept n existing hexisting
  obtain ⟨hconvertible, -, -⟩ :=
    (EnvironmentManifest.manifestId_iff (EnvironmentManifest.construct_iff.mp hconstruct).1).mp hid
  rw [hn] at hconvertible
  have hcheck : store.check sha ft iso m (nameOf n) = .ok true := by
    unfold check
    rw [h.read, hexisting]
    simp only [Option.map_some, bind_eq_ok, ensure_eq_ok, pure_eq_ok]
    exact ⟨_, hkept.loadText, _, hkept.manifestId, _, hid, (), rfl, trivial⟩
  unfold EnvironmentManifestStore.save
  rw [(pathForVersion_iff hn).mpr ⟨hconvertible, rfl⟩]
  dsimp only
  rw [hcheck]

theorem mem_successfulFrom {saves : List (Save iso)} {store : EnvironmentManifestStore}
    (hm : m ∈ successfulFrom sha ft store saves) : ∃ s ∈ saves, s.manifest = m := by
  induction saves generalizing store with
  | nil => exact absurd hm List.not_mem_nil
  | cons s saves ih =>
    rw [successfulFrom] at hm
    generalize store.save sha ft iso s.manifest s.random = out at hm
    obtain ⟨_ | path, store'⟩ := out
    · obtain ⟨s', hs', heq⟩ := ih hm
      exact ⟨s', List.mem_cons_of_mem s hs', heq⟩
    · rcases List.mem_cons.mp hm with rfl | hm
      · exact ⟨s, List.mem_cons_self, rfl⟩
      · obtain ⟨s', hs', heq⟩ := ih hm
        exact ⟨s', List.mem_cons_of_mem s hs', heq⟩

/-- **What holds of the store after a sequence of saves.** -/
structure AppendOnly (sha : Sha256) (ft : FloatText) (saves : List (Save iso)) : Prop where
  /-- The chain that is verified has the different manifests that were saved, each as it came first. -/
  verified : successful sha ft saves ≠ [] →
    (run sha ft saves).verifyChain sha ft iso none = .ok (distinct sha ft (successful sha ft saves))
  /-- Manifests are different when their identity fields are, unless their digests collide. -/
  identified : ∀ m ∈ successful sha ft saves, ∀ m' ∈ successful sha ft saves,
    m.manifestId sha ft = m'.manifestId sha ft → ∀ f f', m.identityDict sha ft = .ok f →
    m'.identityDict sha ft = .ok f' →
    ((sha.hexdigest (canonicalText ft (.obj f))).take 16 =
        (sha.hexdigest (canonicalText ft (.obj f'))).take 16 →
      canonicalText ft (.obj f) = canonicalText ft (.obj f')) → f = f'
  contiguous : (distinct sha ft (successful sha ft saves)).map (fun m => m.manifestVersion.value) =
    (List.range (distinct sha ft (successful sha ft saves)).length).map Int.ofNat
  linked : (distinct sha ft (successful sha ft saves)).IsChain fun parent child =>
    ∃ id, parent.manifestId sha ft = .ok id ∧ child.parentManifestId = some id
  /-- A version is loaded as it was first saved. -/
  loaded : ∀ (version : PyInt) first,
    ((successful sha ft saves).find? fun m => m.manifestVersion.value == version.value) = some first →
    (run sha ft saves).load sha ft iso version = .ok first
  again : ∀ s : Save iso, s.manifest ∈ successful sha ft saves →
    ∃ path, (run sha ft saves).save sha ft iso s.manifest s.random = (.ok path, run sha ft saves)
  /-- A save that fails is not seen. -/
  failing : ∀ (s : Save iso) error,
    ((run sha ft saves).save sha ft iso s.manifest s.random).1 = .error error →
    (∀ version, ((run sha ft saves).save sha ft iso s.manifest s.random).2.load sha ft iso version =
      (run sha ft saves).load sha ft iso version) ∧
    ∀ through, ((run sha ft saves).save sha ft iso s.manifest s.random).2.verifyChain sha ft iso through =
      (run sha ft saves).verifyChain sha ft iso through

/-- Manifests with the same identifier have the same identity fields. -/
theorem identity_eq_of_manifestId {m' : EnvironmentManifest} (hm : m.construct iso = .ok ())
    (hm' : m'.construct iso = .ok ()) {id : PyStr} (hid : m.manifestId sha ft = .ok id)
    (hid' : m'.manifestId sha ft = .ok id) {f f' : List (PyStr × Json)}
    (hf : m.identityDict sha ft = .ok f) (hf' : m'.identityDict sha ft = .ok f')
    (hcollide : (sha.hexdigest (canonicalText ft (.obj f))).take 16 =
        (sha.hexdigest (canonicalText ft (.obj f'))).take 16 →
      canonicalText ft (.obj f) = canonicalText ft (.obj f')) : f = f' := by
  obtain ⟨hentries, hinit⟩ := EnvironmentManifest.construct_iff.mp hm
  obtain ⟨hentries', hinit'⟩ := EnvironmentManifest.construct_iff.mp hm'
  obtain ⟨k, hk⟩ := Int.eq_ofNat_of_zero_le (EnvironmentManifest.postInit_iff.mp hinit).version
  obtain ⟨n, hn⟩ := Int.eq_ofNat_of_zero_le (EnvironmentManifest.postInit_iff.mp hinit').version
  obtain ⟨-, hwritable, rfl⟩ := (EnvironmentManifest.manifestId_iff hentries).mp hid
  obtain ⟨-, hwritable', hname⟩ := (EnvironmentManifest.manifestId_iff hentries').mp hid'
  rw [EnvironmentManifest.identityDict_eq hentries, Except.ok.injEq] at hf
  rw [EnvironmentManifest.identityDict_eq hentries', Except.ok.injEq] at hf'
  subst hf hf'
  have htext := hcollide (name_inj hk hn hname).2
  have hplain : Plain (.obj (m.identityFields sha ft)) := EnvironmentManifest.plain
  have hplain' : Plain (.obj (m'.identityFields sha ft)) := EnvironmentManifest.plain
  have hsort := Json.canonical_inj (l := .compact) (hplain hwritable.1) (hplain' hwritable'.1) htext
  exact Json.obj.inj (EnvironmentManifest.sameKeys hsort)

/-! ### Five digits -/

/-- The next version is saved when it follows the last one. -/
theorem Holds.save_new (h : Holds sha ft iso store chain) (hkept : m.Kept iso chain.length)
    (hfollows : ∀ parent ∈ chain.getLast?, Follows sha ft parent m) (random : PyStr) :
    store.save sha ft iso m random = (.ok (nameOf chain.length),
      ⟨store.files ++ [(nameOf chain.length, m.text sha ft)]⟩) := by
  have hget : chain[chain.length]? = none := List.getElem?_eq_none le_rfl
  have hconvertible : convertible chain.length := by
    have hc := hkept.storable.convertible
    rwa [hkept.version] at hc
  obtain ⟨hwritable, hidentity⟩ : Writable (.obj (m.fields sha ft)) ∧ _ :=
    hkept.storable.writable hkept.construct
  have hdict : m.toDict sha ft = .ok (.obj (m.fields sha ft)) :=
    (EnvironmentManifest.toDict_iff (EnvironmentManifest.construct_iff.mp hkept.construct).1).mpr
      ⟨hkept.storable.convertible, hidentity, rfl⟩
  have hcheck : store.check sha ft iso m (nameOf chain.length) = .ok false := by
    unfold check
    rw [h.read, hget, hkept.version]
    simp only [Option.map_none]
    by_cases hpos : 0 < (chain.length : ℤ)
    · rw [if_pos hpos]
      have hlt : chain.length - 1 < chain.length := by omega
      have hlast : chain[chain.length - 1]? = some chain[chain.length - 1] :=
        List.getElem?_eq_getElem hlt
      have hprev : (PyInt.int ((chain.length : ℤ) - 1)).value = ((chain.length - 1 : ℕ) : ℤ) := by
        show (chain.length : ℤ) - 1 = _
        omega
      have hload := (h.load hprev (convertible_of_le (Nat.sub_le _ 1) hconvertible)).1 _ hlast
      have hparent := hfollows _ (by rw [List.getLast?_eq_getElem?]; exact hlast)
      simp only [bind_eq_ok, pure_eq_ok]
      exact ⟨_, hload, (), hparent, trivial⟩
    · rw [if_neg hpos]
      rfl
  have hwrite : store.atomicWriteJson ft (nameOf chain.length) random (.obj (m.fields sha ft)) =
      (.ok (), ⟨store.files ++ [(nameOf chain.length, m.text sha ft)]⟩) := by
    obtain ⟨body, hdumps, hencode⟩ := bind_eq_ok.mp
      ((serialise_eq_ok EnvironmentManifest.fields_plain).mpr ⟨hwritable, rfl⟩)
    unfold atomicWriteJson
    rw [h.read, hget, hdumps]
    simp only [hencode]
    rfl
  unfold EnvironmentManifestStore.save
  rw [(pathForVersion_iff hkept.version).mpr ⟨hconvertible, rfl⟩]
  simp only [hcheck, hdict, hwrite]

end EnvironmentManifestStore

/-- Which identifiers of manifests are identifiers. -/
theorem isManifestIdentifier_name {n : ℕ} (hn : m.manifestVersion.value = n) :
    isManifestIdentifier (m.name sha ft) ↔ (padded n).length ≤ 229 := by
  have hsha : isSha256 (m.digest sha ft) := sha.isSha256_hexdigest _
  simp only [isSha256, Bool.and_eq_true, beq_iff_eq, List.all_eq_true] at hsha
  obtain ⟨hlength, hhex⟩ := hsha
  have hrest : py "anifest-v" ++ (padded n ++ 0x2D :: (m.digest sha ft).take 16) =
      (m.name sha ft).tail := by
    rw [EnvironmentManifestStore.name_eq hn]
    rfl
  have hchars : ∀ c ∈ py "anifest-v" ++ (padded n ++ 0x2D :: (m.digest sha ft).take 16),
      (isAlphanumeric c || c == 0x5F || c == 0x2E || c == 0x3A || c == 0x2F || c == 0x2D) := by
    intro c hc
    rcases List.mem_append.mp hc with hc | hc
    · have hall : ∀ c ∈ py "anifest-v",
          (isAlphanumeric c || c == 0x5F || c == 0x2E || c == 0x3A || c == 0x2F || c == 0x2D) := by
        decide
      exact hall c hc
    rcases List.mem_append.mp hc with hc | hc
    · have hdigit := padded_isDigit n c hc
      simp only [Json.isDigit, Bool.and_eq_true, decide_eq_true_eq] at hdigit
      simp only [isAlphanumeric, Bool.or_eq_true, Bool.and_eq_true, decide_eq_true_eq, beq_iff_eq]
      omega
    rcases List.mem_cons.mp hc with rfl | hc
    · rfl
    · have hdigit := hhex c (List.mem_of_mem_take hc)
      simp only [Bool.or_eq_true, Bool.and_eq_true, decide_eq_true_eq] at hdigit
      simp only [isAlphanumeric, Bool.or_eq_true, Bool.and_eq_true, decide_eq_true_eq, beq_iff_eq]
      omega
  have hcons : m.name sha ft = 0x6D :: (m.name sha ft).tail := by
    rw [EnvironmentManifestStore.name_eq hn]
    rfl
  have htail : (m.name sha ft).tail.length = 26 + (padded n).length := by
    rw [← hrest]
    simp only [List.length_append, List.length_cons, List.length_take, hlength]
    have h9 : (py "anifest-v").length = 9 := rfl
    omega
  rw [hrest] at hchars
  rw [hcons, isManifestIdentifier, matchesName, Bool.and_eq_true, Bool.and_eq_true, decide_eq_true_eq, htail]
  constructor
  · rintro ⟨-, hle⟩
    omega
  · intro hle
    exact ⟨⟨rfl, List.all_eq_true.mpr hchars⟩, by omega⟩

/-- A manifest without entries, for each version. -/
def plainManifest (sha : Sha256) (ft : FloatText) : ℕ → EnvironmentManifest
  | 0 =>
    { sampleSha256 := List.replicate 64 0x30, manifestVersion := .int 0, rootfsSnapshotId := py "rootfs",
      entries := [], createdByAttemptId := py "preflight", changeReason := py "seed",
      parentVersion := none, parentManifestId := none, schemaVersion := .int 2, modelVersion := .int 1,
      generatedAtUtc := py "2026-01-01T00:00:00+00:00" }
  | n + 1 =>
    { plainManifest sha ft n with
      manifestVersion := .int (n + 1), parentVersion := some (.int n),
      parentManifestId := some ((plainManifest sha ft n).name sha ft) }

variable (sha ft) in
theorem plainManifest_fields (n : ℕ) :
    (plainManifest sha ft n).sampleSha256 = List.replicate 64 0x30 ∧
    (plainManifest sha ft n).manifestVersion = .int n ∧
    (plainManifest sha ft n).rootfsSnapshotId = py "rootfs" ∧ (plainManifest sha ft n).entries = [] ∧
    (plainManifest sha ft n).createdByAttemptId = py "preflight" ∧
    (plainManifest sha ft n).changeReason = py "seed" ∧ (plainManifest sha ft n).schemaVersion = .int 2 ∧
    (plainManifest sha ft n).modelVersion = .int 1 ∧
    (plainManifest sha ft n).generatedAtUtc = py "2026-01-01T00:00:00+00:00" := by
  induction n with
  | zero => exact ⟨rfl, rfl, rfl, rfl, rfl, rfl, rfl, rfl, rfl⟩
  | succ n ih =>
    obtain ⟨h1, -, h3, h4, h5, h6, h7, h8, h9⟩ := ih
    exact ⟨h1, rfl, h3, h4, h5, h6, h7, h8, h9⟩

theorem plainManifest_kept {n : ℕ} (hn : n ≤ 10000) : (plainManifest sha ft n).Kept isoOne n := by
  obtain ⟨h1, h2, h3, h4, h5, h6, h7, h8, h9⟩ := plainManifest_fields sha ft n
  have hdigits : ∀ k ≤ n, (decimal k).length ≤ 5 := by
    intro k hk
    unfold decimal
    split_ifs with hzero
    · simp
    · rw [List.length_map, List.length_reverse, Nat.digits_length_le_iff (by norm_num)]
      omega
  have hconvertible : ∀ k ≤ n, convertible k := by
    intro k hk
    rw [convertible, Int.natAbs_natCast]
    exact decide_eq_true ((hdigits k hk).trans (by decide))
  have hvalid : (plainManifest sha ft n).Valid isoOne :=
    { schema := by rw [h7]; rfl
      model := by rw [h8]; rfl
      sample := by rw [h1]; decide
      version := by rw [h2]; exact Int.natCast_nonneg n
      rootfs := by rw [h3]; decide
      attempt := by rw [h5]; decide
      reason := by rw [h6]; decide
      time := by rw [h9]; exact ⟨⟨0, true⟩, rfl⟩
      seed := by
        intro hzero
        rw [h2] at hzero
        obtain rfl : n = 0 := Int.natCast_eq_zero.mp hzero
        exact ⟨rfl, rfl⟩
      child := by
        intro hne
        rw [h2] at hne
        cases n with
        | zero => exact absurd rfl hne
        | succ k =>
          refine ⟨?_, _, rfl, ?_⟩
          · show some (k : ℤ) = some ((k + 1 : ℤ) - 1)
            rw [add_sub_cancel_right]
          · apply (isManifestIdentifier_name (n := k) _).mpr
            · have hlength := hdigits k (Nat.le_succ k)
              simp only [padded, List.length_append, List.length_replicate]
              omega
            · rw [(plainManifest_fields sha ft k).2.1]
              rfl
      sorted := by rw [h4]; exact .nil
      nodup := by rw [h4]; exact .nil }
  refine ⟨?_, ⟨?_, ?_, ?_⟩, by rw [h2]; rfl⟩
  · exact EnvironmentManifest.construct_iff.mpr
      ⟨by simp [h4], EnvironmentManifest.postInit_iff.mpr hvalid⟩
  · have hn' := hconvertible n le_rfl
    simp only [EnvironmentManifest.integers, h2, h7, h8, List.forall_mem_append, List.forall_mem_cons,
      List.not_mem_nil, IsEmpty.forall_iff, implies_true, and_true, Option.mem_toList]
    refine ⟨⟨⟨_, rfl, by decide⟩, ⟨_, rfl, by decide⟩, _, rfl, hn'⟩, ?_⟩
    cases n with
    | zero =>
      intro _ h
      cases h
    | succ k =>
      intro parentVersion hparent
      obtain rfl : PyInt.int k = parentVersion := Option.some.inj hparent
      exact ⟨_, rfl, hconvertible k (Nat.le_succ k)⟩
  · intro s hs
    simp only [EnvironmentManifest.texts, h6, h9, List.mem_cons, List.not_mem_nil, or_false] at hs
    rcases hs with rfl | rfl
    · exact PyStr.encodable_py _
    · exact PyStr.encodable_py _
  · rw [h4]
    decide

open EnvironmentManifestStore in
/-- **The chain of manifests is append-only** while the versions have four digits and the integers are not
booleans. -/
theorem manifest_store_append_only (sha : Sha256) (ft : FloatText) {iso : IsoFormat}
    (saves : List (Save iso)) (h : ∀ s ∈ saves, (∀ n ∈ s.manifest.integers, n.IsInt) ∧
      s.manifest.manifestVersion.value < 10000) : AppendOnly sha ft saves := by
  obtain ⟨chain, hholds, hlogged⟩ := exists_chain sha ft saves fun s hs => (h s hs).1
  have hlength : chain.length ≤ 10000 := by
    by_contra hlarge
    have hget : chain[10000]? = some chain[10000] := List.getElem?_eq_getElem (by omega)
    have hfind := hlogged.first 10000
    rw [hget] at hfind
    obtain ⟨s, hs, heq⟩ := mem_successfulFrom (List.mem_of_find?_eq_some hfind)
    have hlt := (h s hs).2
    have hversion := (hholds.kept 10000 _ hget).version
    rw [heq, hversion] at hlt
    exact absurd hlt (by decide)
  have hversions : chain.map (fun m => m.manifestVersion.value) =
      (List.range chain.length).map Int.ofNat := by
    apply List.ext_getElem
    · simp
    · intro n hn _
      rw [List.length_map] at hn
      simp only [List.getElem_map, List.getElem_range]
      exact (hholds.kept n _ (List.getElem?_eq_getElem hn)).version
  constructor
  · intro hne
    rw [hlogged.firsts, hholds.verifyChain, List.take_of_length_le hlength]
    rintro rfl
    obtain ⟨m, hm⟩ := List.exists_mem_of_ne_nil _ hne
    obtain ⟨n, existing, -, hexisting, -⟩ := hlogged.same m hm
    exact absurd hexisting (by simp)
  · intro m hm m' hm' hid f f' hf hf' hcollide
    obtain ⟨n, existing, -, -, hconstruct, hname⟩ := hlogged.same m hm
    obtain ⟨n', existing', -, -, hconstruct', -⟩ := hlogged.same m' hm'
    exact identity_eq_of_manifestId hconstruct hconstruct' hname (hid ▸ hname) hf hf' hcollide
  · rw [hlogged.firsts]
    exact hversions
  · rw [hlogged.firsts]
    apply hholds.linked.imp
    intro parent child hfollows
    simp only [Follows, validateParent, bind_eq_ok, ensure_eq_ok] at hfollows
    obtain ⟨-, -, -, -, id, hid, hparent⟩ := hfollows
    exact ⟨id, hid, hparent⟩
  · intro version first hfind
    have hfound := List.find?_some hfind
    rw [beq_iff_eq] at hfound
    obtain ⟨n, -, hn, -⟩ := hlogged.same first (List.mem_of_find?_eq_some hfind)
    rw [hn] at hfound
    have hget := hlogged.first n
    rw [hfound, hfind] at hget
    have hconvertible := (hholds.kept n first hget.symm).storable.convertible
    rw [hn] at hconvertible
    exact (hholds.load hfound.symm hconvertible).1 first hget.symm
  · intro s hs
    obtain ⟨n, existing, hn, hexisting, hconstruct, hid⟩ := hlogged.same s.manifest hs
    exact ⟨nameOf n, hholds.save_again hconstruct hn hexisting hid s.random⟩
  · intro s error herror
    rcases hholds.save s with ⟨-, -, hholds'⟩ | ⟨path, -, -, hsave, -⟩ | ⟨path, hok, -⟩
    · exact hholds.congr hholds'
    · rw [hsave] at herror
      exact absurd herror (by nofun)
    · exact absurd (hok.symm.trans herror) (by nofun)

/-- The digest of the seed. -/
def seedSha : Sha256 where
  hexdigest _ := py "213b709790fa7ad776ccd7d8b089654a3920d8d9a76613ba5c9f10fc49862354"
  isSha256_hexdigest _ := by decide

def seedFloat : FloatText where
  repr _ := py "0.0"
  parse _ := .finite 0

open EnvironmentManifestStore in
/-- The seed is saved twice, under two temporary names. -/
def seedSaves : List (Save isoOne) :=
  [py "a", py "b"].map fun random =>
    ⟨plainManifest seedSha seedFloat 0, (plainManifest_kept (Nat.zero_le 10000)).construct, random⟩

open EnvironmentManifestStore in
/-- Saving the seed twice is a case of it. -/
theorem seed_append_only : AppendOnly seedSha seedFloat seedSaves := by
  apply manifest_store_append_only
  intro s hs
  obtain ⟨random, -, rfl⟩ := List.mem_map.mp hs
  have hkept : (plainManifest seedSha seedFloat 0).Kept isoOne 0 := plainManifest_kept (Nat.zero_le 10000)
  exact ⟨fun n hn => (PyInt.storable_iff.mp (hkept.storable.1 n hn)).1, by rw [hkept.version]; decide⟩

open EnvironmentManifestStore in
/-- The versions below a bound are saved one after another. -/
theorem exists_plainManifests (sha : Sha256) (ft : FloatText) {k : ℕ} (hk : k ≤ 10001) :
    ∃ saves : List (Save isoOne), (∀ s ∈ saves, ∀ n ∈ s.manifest.integers, n.IsInt) ∧
      Holds sha ft isoOne (run sha ft saves) ((List.range k).map (plainManifest sha ft)) := by
  induction k with
  | zero => exact ⟨[], by simp, holds_nil⟩
  | succ k ih =>
    obtain ⟨saves, hints, hholds⟩ := ih (by omega)
    have hlength : ((List.range k).map (plainManifest sha ft)).length = k := by simp
    have hkept : (plainManifest sha ft k).Kept isoOne ((List.range k).map (plainManifest sha ft)).length := by
      rw [hlength]
      exact plainManifest_kept (by omega)
    have hfollows : ∀ parent ∈ ((List.range k).map (plainManifest sha ft)).getLast?,
        Follows sha ft parent (plainManifest sha ft k) := by
      intro parent hparent
      cases k with
      | zero => exact absurd hparent (by simp)
      | succ j =>
        rw [List.range_succ, List.map_append, List.map_singleton, List.getLast?_concat] at hparent
        cases hparent
        have hj : (plainManifest sha ft j).Kept isoOne j := plainManifest_kept (by omega)
        simp only [Follows, validateParent, bind_eq_ok, ensure_eq_ok]
        exact ⟨(), rfl, (), by rw [hj.version]; rfl, _, hj.manifestId, rfl⟩
    have hsave := hholds.save_new hkept hfollows []
    refine ⟨saves ++ [⟨plainManifest sha ft k, hkept.construct, []⟩], ?_, ?_⟩
    · intro s hs
      rcases List.mem_append.mp hs with hs | hs
      · exact hints s hs
      · rw [List.mem_singleton] at hs
        subst hs
        exact fun n hn => (PyInt.storable_iff.mp (hkept.storable.1 n hn)).1
    · rw [run, List.foldl_append, ← run, List.range_succ, List.map_append]
      show Holds sha ft isoOne (EnvironmentManifestStore.save sha ft isoOne (run sha ft saves)
        (plainManifest sha ft k) []).2 _
      rw [hsave]
      exact hholds.append hkept hfollows

open EnvironmentManifestStore in
/-- **The manifest of version 10000 is saved and not verified**: whatever the digest, saving the versions
from 0 to 10000 one after another does not make an append-only chain. -/
theorem fifth_digit_not_verified : ¬ ∃ (sha : Sha256) (ft : FloatText), ∀ saves : List (Save isoOne),
    (∀ s ∈ saves, ∀ n ∈ s.manifest.integers, n.IsInt) → AppendOnly sha ft saves := by
  rintro ⟨sha, ft, happend⟩
  obtain ⟨saves, hints, hholds⟩ := exists_plainManifests sha ft (k := 10001) le_rfl
  obtain ⟨chain, hholds', hlogged⟩ := exists_chain sha ft saves hints
  have hlength : 10000 < chain.length := by
    have hread := (hholds'.read 10000).symm.trans (hholds.read 10000)
    by_contra hle
    rw [List.getElem?_eq_none (by omega), List.getElem?_map, List.getElem?_range (by decide)] at hread
    exact absurd hread (by nofun)
  have hne : successful sha ft saves ≠ [] := by
    intro hnil
    have hfirsts := hlogged.firsts
    rw [hnil] at hfirsts
    rw [← hfirsts] at hlength
    exact absurd hlength (Nat.not_lt_zero 10000)
  have hverified := (happend saves hints).verified hne
  have hchain : chain ≠ [] := by
    rintro rfl
    exact absurd hlength (by decide)
  rw [hlogged.firsts, hholds'.verifyChain hchain, Except.ok.injEq] at hverified
  have heq := congrArg List.length hverified
  rw [List.length_take] at heq
  omega

end Store

end TaintForge
