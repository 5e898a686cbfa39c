import TaintForge.Env.Attempt
import TaintForge.Lib.JsonCanonical

/-!
# Persisted documents

A document that passed the checks of its constructor is written, and the text is read by the checks of the
loader.  Here is what all kinds of documents have in common.

* `Document.reload_eq_ok`: the text in between drops out.
* `projectObject`: the identity fields of a document, which its digest is made from.
* `Document.tamperEvident`: what the stored digest says about them.
-/

namespace TaintForge

open Json (Portable PortableItems PortableFields)

/-! ### Reading fields -/

section Fields

variable {label message : PyStr} {j : Json}

/-- An integer that is not a boolean. -/
def PyInt.IsInt (n : PyInt) : Prop := ∃ k, n = .int k

/-- A field that was read is the field that was there. -/
theorem requireInt_iff {n : PyInt} : requireInt label j = .ok n ↔ j = n.toJson ∧ n.IsInt := by
  constructor
  · intro h
    cases j <;> simp [requireInt] at h
    subst h
    exact ⟨rfl, _, rfl⟩
  · rintro ⟨rfl, k, rfl⟩
    rfl

theorem requireString_iff {s : PyStr} : requireString label j = .ok s ↔ j = .str s ∧ s ≠ [] := by
  constructor
  · intro h
    cases j <;> simp only [requireString, reduceCtorEq] at h
    split at h
    · exact absurd h (by nofun)
    · rename_i hne
      cases h
      exact ⟨rfl, hne⟩
  · rintro ⟨rfl, hne⟩
    exact if_neg hne

theorem requireList_iff {items : List Json} : requireList message j = .ok items ↔ j = .arr items := by
  cases j <;> simp [requireList]

theorem requireDict_iff {fields : List (PyStr × Json)} :
    requireDict label j = .ok fields ↔ j = .obj fields := by
  cases j <;> simp [requireDict]

theorem requireBool_iff {b : Bool} : requireBool message j = .ok b ↔ j = .bool b := by
  cases j <;> simp [requireBool]

theorem requireOptional_int_iff {n : Option PyInt} :
    requireOptional (requireInt label) j = .ok n ↔
      j = nullable PyInt.toJson n ∧ ∀ m ∈ n, m.IsInt := by
  constructor
  · intro h
    cases j with
    | null =>
      cases h
      exact ⟨rfl, by simp⟩
    | int k =>
      cases h
      exact ⟨rfl, by simp [PyInt.IsInt]⟩
    | bool _ | float _ | str _ | arr _ | obj _ => exact absurd h (by nofun)
  · rintro ⟨rfl, hint⟩
    cases n with
    | none => rfl
    | some m =>
      obtain ⟨k, rfl⟩ := hint m rfl
      rfl

theorem requireOptional_string_iff {s : Option PyStr} :
    requireOptional (requireString label) j = .ok s ↔ j = nullable .str s ∧ s ≠ some [] := by
  constructor
  · intro h
    cases j with
    | null =>
      cases h
      exact ⟨rfl, by nofun⟩
    | str t =>
      obtain ⟨u, hu, hs⟩ : ∃ u, requireString label (.str t) = .ok u ∧ some u = s := by
        revert h
        show (requireString label (.str t)).map some = .ok s → _
        generalize requireString label (.str t) = out
        intro h
        cases out with
        | error error => exact absurd h (by nofun)
        | ok u => exact ⟨u, rfl, Except.ok.inj h⟩
      obtain ⟨heq, hne⟩ := requireString_iff.mp hu
      subst hs
      exact ⟨heq, fun hnil => hne (Option.some.inj hnil)⟩
    | bool _ | int _ | float _ | arr _ | obj _ => exact absurd h (by nofun)
  · rintro ⟨rfl, hne⟩
    cases s with
    | none => rfl
    | some t =>
      have hread : requireString label (.str t) = .ok t :=
        requireString_iff.mpr ⟨rfl, fun hnil => hne (congrArg some hnil)⟩
      show (requireString label (.str t)).map some = _
      rw [hread]
      rfl

/-- Every value of an enumeration leads back to its member. -/
def Enumerates {α : Type} (members : List α) (value : α → PyStr) : Prop :=
  ∀ a, (members.find? fun b => value b == value a) = some a

theorem enumOf_iff {α : Type} {members : List α} {value : α → PyStr} (hall : Enumerates members value)
    {a : α} : enumOf members value message j = .ok a ↔ j = .str (value a) := by
  constructor
  · intro h
    cases j <;> simp only [enumOf, reduceCtorEq] at h
    split at h
    · rename_i b hb
      cases h
      have hvalue := List.find?_some hb
      rw [beq_iff_eq] at hvalue
      rw [hvalue]
    · exact absurd h (by nofun)
  · rintro rfl
    rw [enumOf, hall a]

theorem mapOk_ok {α β : Type} {f : α → Except DocumentError β} {xs : List α} {ys : List β} :
    mapOk f xs = .ok ys ↔ List.Forall₂ (fun x y => f x = .ok y) xs ys := by
  induction xs generalizing ys with
  | nil =>
    constructor
    · intro h
      cases h
      exact .nil
    · intro h
      cases h
      rfl
  | cons x xs ih =>
    rw [mapOk, bind_eq_ok, List.forall₂_cons_left_iff]
    constructor
    · rintro ⟨y, hy, h⟩
      rw [bind_eq_ok] at h
      obtain ⟨zs, hzs, h⟩ := h
      cases h
      exact ⟨y, zs, hy, ih.mp hzs, rfl⟩
    · rintro ⟨y, zs, hy, hzs, rfl⟩
      refine ⟨y, hy, ?_⟩
      rw [bind_eq_ok]
      exact ⟨zs, ih.mpr hzs, rfl⟩

theorem mapOk_congr {α β : Type} {f g : α → Except DocumentError β} {xs : List α}
    (h : ∀ x ∈ xs, f x = g x) : mapOk f xs = mapOk g xs := by
  induction xs with
  | nil => rfl
  | cons x xs ih =>
    rw [mapOk, mapOk, h x List.mem_cons_self, ih fun y hy => h y (List.mem_cons_of_mem x hy)]

/-- Elements that are each read from their own document. -/
theorem mapOk_iff {α : Type} {f : Json → Except DocumentError α} {project : Json → Json} {g : α → Json}
    {p : α → Prop} (h : ∀ j a, f j = .ok a ↔ project j = g a ∧ p a) {items : List Json} {xs : List α} :
    mapOk f items = .ok xs ↔ items.map project = xs.map g ∧ ∀ x ∈ xs, p x := by
  rw [mapOk_ok]
  induction items generalizing xs with
  | nil => cases xs <;> simp
  | cons j items ih =>
    cases xs with
    | nil => simp
    | cons x xs =>
      rw [List.forall₂_cons, ih, h, List.map_cons, List.map_cons, List.cons.injEq, List.forall_mem_cons]
      tauto

end Fields

/-! ### The text in between -/

section Text

variable {ft : FloatText} {sha : Sha256}

/-- A document that only its integers can keep from being written. -/
def Plain (j : Json) : Prop := (∀ n ∈ j.ints, convertible n) → Portable false j

theorem dumps_eq_ok {l : Json.Layout} {j : Json} {text : PyStr} :
    dumps ft l j = .ok text ↔ (∀ n ∈ j.ints, convertible n) ∧ text = Json.write ft l 0 j := by
  unfold dumps Json.dumps
  by_cases h : j.printable
  · rw [if_pos h]
    have hall : ∀ n ∈ j.ints, convertible n := List.all_eq_true.mp h
    constructor
    · intro heq
      cases heq
      exact ⟨hall, rfl⟩
    · rintro ⟨-, rfl⟩
      rfl
  · rw [if_neg h]
    constructor
    · intro heq
      exact absurd heq (by nofun)
    · rintro ⟨hall, -⟩
      exact absurd (List.all_eq_true.mpr hall) h

theorem encode_eq_ok {text bytes : PyStr} : encode text = .ok bytes ↔ text.encodable ∧ bytes = text := by
  unfold encode
  by_cases h : text.encodable
  · rw [if_pos h]
    constructor
    · intro heq
      cases heq
      exact ⟨h, rfl⟩
    · rintro ⟨-, rfl⟩
      rfl
  · rw [if_neg h]
    constructor
    · intro heq
      exact absurd heq (by nofun)
    · rintro ⟨hall, -⟩
      exact absurd hall h

/-- A document that has a text in some layout. -/
def Writable (j : Json) : Prop :=
  (∀ n ∈ j.ints, convertible n) ∧ ∀ s ∈ j.strings, PyStr.encodable s

/-- The text of which a digest is made. -/
def canonicalText (ft : FloatText) (j : Json) : PyStr := Json.write ft .compact 0 j.sortKeys

/-- **A digest is made when the document can be written.** -/
theorem canonicalSha256_eq_ok {j : Json} (hj : Plain j) {digest : PyStr} :
    canonicalSha256 sha ft j = .ok digest ↔
      Writable j ∧ digest = sha.hexdigest (canonicalText ft j) := by
  have hints : (∀ n ∈ j.sortKeys.ints, convertible n) ↔ ∀ n ∈ j.ints, convertible n := by
    simp only [(Json.ints_sortKeys j).mem_iff]
  have hstrings : (∀ s ∈ j.sortKeys.strings, PyStr.encodable s) ↔
      ∀ s ∈ j.strings, PyStr.encodable s := by
    simp only [(Json.strings_sortKeys j).mem_iff]
  have htext : (∀ n ∈ j.ints, convertible n) →
      ((canonicalText ft j).encodable ↔ ∀ s ∈ j.strings, PyStr.encodable s) := by
    intro h
    rw [canonicalText, Json.encodable_write ft .compact rfl 0 _ (Json.portable_sortKeys j (hj h)),
      List.all_eq_true, hstrings]
  unfold canonicalSha256
  simp only [bind_eq_ok, dumps_eq_ok, encode_eq_ok, pure_eq_ok]
  constructor
  · rintro ⟨text, ⟨hall, rfl⟩, bytes, ⟨henc, rfl⟩, rfl⟩
    rw [hints] at hall
    exact ⟨⟨hall, (htext hall).mp henc⟩, rfl⟩
  · rintro ⟨⟨hall, henc⟩, rfl⟩
    exact ⟨_, ⟨hints.mpr hall, rfl⟩, _, ⟨(htext hall).mpr henc, rfl⟩, rfl⟩

/-- The text that is written for a document. -/
def storedText (ft : FloatText) (j : Json) : PyStr := Json.write ft .indented 0 j ++ [0x0A]

theorem serialise_eq_ok {j : Json} (hj : Plain j) {text : PyStr} :
    serialise ft j = .ok text ↔ Writable j ∧ text = storedText ft j := by
  have htext : (∀ n ∈ j.ints, convertible n) →
      (PyStr.encodable (storedText ft j) ↔ ∀ s ∈ j.strings, PyStr.encodable s) := by
    intro h
    rw [storedText, PyStr.encodable_append, Json.encodable_write ft .indented rfl 0 _ (hj h),
      Bool.and_eq_true, List.all_eq_true]
    exact and_iff_left rfl
  unfold serialise
  simp only [bind_eq_ok, dumps_eq_ok, encode_eq_ok]
  constructor
  · rintro ⟨body, ⟨hall, rfl⟩, henc, rfl⟩
    exact ⟨⟨hall, (htext hall).mp henc⟩, rfl⟩
  · rintro ⟨⟨hall, henc⟩, rfl⟩
    exact ⟨_, ⟨hall, rfl⟩, (htext hall).mpr henc, rfl⟩

theorem loads_storedText {j : Json} (hj : Plain j) (hwritable : Writable j) :
    loads ft (storedText ft j) = .ok j := by
  have hblank : ∀ c ∈ ([0x0A] : PyStr), Json.isWhitespace c := by simp [Json.isWhitespace]
  rw [loads, storedText, Json.loads_write ft .indented (hj hwritable.1) hblank]

/-- **Writing a document and reading its text gives the document to the loader.** -/
theorem Document.reload_eq_ok {α : Type} {document : Document α} {x y : α} {j : Json}
    (hdict : document.toDict x = .ok j) (hj : Plain j) :
    document.reload ft x = .ok y ↔ Writable j ∧ document.fromDict j = .ok y := by
  unfold Document.reload
  rw [hdict]
  simp only [bind_eq_ok, Except.ok.injEq, exists_eq_left', serialise_eq_ok hj]
  constructor
  · rintro ⟨text, ⟨hwritable, rfl⟩, value, hvalue, hfrom⟩
    rw [loads_storedText hj hwritable] at hvalue
    cases hvalue
    exact ⟨hwritable, hfrom⟩
  · rintro ⟨hwritable, hfrom⟩
    exact ⟨_, ⟨hwritable, rfl⟩, j, loads_storedText hj hwritable, hfrom⟩

/-- A document is read back when `P` holds of it, if `P` is what writing and reading need. -/
theorem Document.reload_iff {α : Type} {document : Document α} {x : α} {P : Prop}
    (hof : ∀ j, document.toDict x = .ok j → Plain j ∧ (Writable j → document.fromDict j = .ok x → P))
    (hto : P → ∃ j, document.toDict x = .ok j ∧ Writable j ∧ document.fromDict j = .ok x) :
    document.reload ft x = .ok x ↔ P := by
  constructor
  · intro hreload
    obtain ⟨j, hdict, -⟩ := bind_eq_ok.mp hreload
    obtain ⟨hplain, hp⟩ := hof j hdict
    obtain ⟨hwritable, hfrom⟩ := (Document.reload_eq_ok hdict hplain).mp hreload
    exact hp hwritable hfrom
  · intro hp
    obtain ⟨j, hdict, hback⟩ := hto hp
    exact (Document.reload_eq_ok hdict (hof j hdict).1).mpr hback

end Text

/-! ### Plain documents -/

theorem mem_intsItems {items : List Json} {x : Json} (hx : x ∈ items) {n : ℤ} (hn : n ∈ x.ints) :
    n ∈ Json.intsItems items := by
  induction items with
  | nil => exact absurd hx List.not_mem_nil
  | cons y rest ih =>
    rcases List.mem_cons.mp hx with rfl | hx
    · exact List.mem_append_left _ hn
    · exact List.mem_append_right _ (ih hx)

theorem mem_intsFields {fields : List (PyStr × Json)} {f : PyStr × Json} (hf : f ∈ fields) {n : ℤ}
    (hn : n ∈ f.2.ints) : n ∈ Json.intsFields fields := by
  rw [Json.intsFields_eq]
  exact List.mem_flatMap.mpr ⟨f, hf, hn⟩

theorem portableItems_iff {ensureAscii : Bool} (items : List Json) :
    PortableItems ensureAscii items ↔ ∀ x ∈ items, Portable ensureAscii x := by
  induction items with
  | nil => simp [PortableItems]
  | cons x xs ih => rw [PortableItems, ih, List.forall_mem_cons]

@[simp] theorem plain_null : Plain .null := fun _ => trivial

@[simp] theorem plain_bool (b : Bool) : Plain (.bool b) := fun _ => trivial

@[simp] theorem plain_int (n : ℤ) : Plain (.int n) := fun h => h n (List.mem_singleton_self n)

@[simp] theorem plain_str (s : PyStr) : Plain (.str s) := fun _ h => absurd h (by nofun)

theorem plain_arr {items : List Json} (h : ∀ x ∈ items, Plain x) : Plain (.arr items) := by
  intro hints
  show PortableItems false items
  rw [portableItems_iff]
  exact fun x hx => h x hx fun n hn => hints n (mem_intsItems hx hn)

theorem plain_obj {fields : List (PyStr × Json)} (hkeys : (fields.map Prod.fst).Nodup)
    (h : ∀ f ∈ fields, Plain f.2) : Plain (.obj fields) := by
  intro hints
  refine ⟨hkeys, ?_⟩
  rw [Json.portableFields_iff]
  exact fun f hf => ⟨by nofun, h f hf fun n hn => hints n (mem_intsFields hf hn)⟩

@[simp] theorem plain_toJson (n : PyInt) : Plain n.toJson := by
  cases n with
  | int k => exact plain_int k
  | bool b => exact plain_bool b

@[simp] theorem plain_nullable_toJson (n : Option PyInt) : Plain (nullable PyInt.toJson n) := by
  cases n with
  | none => exact plain_null
  | some k => exact plain_toJson k

@[simp] theorem plain_nullable_str (s : Option PyStr) : Plain (nullable .str s) := by
  cases s with
  | none => exact plain_null
  | some t => exact plain_str t

/-! ### Writable documents -/

@[simp] theorem writable_null : Writable .null := by simp [Writable, Json.ints, Json.strings]

@[simp] theorem writable_bool (b : Bool) : Writable (.bool b) := by
  simp [Writable, Json.ints, Json.strings]

@[simp] theorem writable_int (n : ℤ) : Writable (.int n) ↔ convertible n := by
  simp [Writable, Json.ints, Json.strings]

@[simp] theorem writable_str (s : PyStr) : Writable (.str s) ↔ s.encodable := by
  simp [Writable, Json.ints, Json.strings]

@[simp] theorem writable_arr (items : List Json) : Writable (.arr items) ↔ ∀ x ∈ items, Writable x := by
  show (∀ n ∈ Json.intsItems items, convertible n) ∧
    (∀ s ∈ Json.stringsItems items, PyStr.encodable s) ↔ _
  induction items with
  | nil => simp [Json.intsItems, Json.stringsItems]
  | cons x xs ih =>
    rw [List.forall_mem_cons, ← ih]
    simp only [Json.intsItems, Json.stringsItems, List.forall_mem_append, Writable]
    tauto

@[simp] theorem writable_obj (fields : List (PyStr × Json)) :
    Writable (.obj fields) ↔ ∀ f ∈ fields, f.1.encodable ∧ Writable f.2 := by
  show (∀ n ∈ Json.intsFields fields, convertible n) ∧
    (∀ s ∈ Json.stringsFields fields, PyStr.encodable s) ↔ _
  induction fields with
  | nil => simp [Json.intsFields, Json.stringsFields]
  | cons f rest ih =>
    obtain ⟨k, x⟩ := f
    rw [List.forall_mem_cons, ← ih]
    simp only [Json.intsFields, Json.stringsFields, List.forall_mem_append, List.forall_mem_cons,
      Writable]
    tauto

theorem writable_append (f g : List (PyStr × Json)) :
    Writable (.obj (f ++ g)) ↔ Writable (.obj f) ∧ Writable (.obj g) := by
  rw [writable_obj, writable_obj, writable_obj, List.forall_mem_append]

/-- An integer that is stored as one. -/
def PyInt.Storable (n : PyInt) : Prop := ∃ k, n = .int k ∧ convertible k

theorem PyInt.storable_iff {n : PyInt} : n.Storable ↔ (∃ k, n = .int k) ∧ Writable n.toJson := by
  constructor
  · rintro ⟨k, rfl, hk⟩
    exact ⟨⟨k, rfl⟩, (writable_int k).mpr hk⟩
  · rintro ⟨⟨k, rfl⟩, hk⟩
    exact ⟨k, rfl, (writable_int k).mp hk⟩

@[simp] theorem writable_nullable_str (s : Option PyStr) :
    Writable (nullable .str s) ↔ ∀ t ∈ s, PyStr.encodable t := by
  cases s with
  | none => simp [nullable]
  | some t => simp [nullable]

@[simp] theorem writable_nullable_toJson (n : Option PyInt) :
    Writable (nullable PyInt.toJson n) ↔ ∀ m ∈ n, Writable m.toJson := by
  cases n with
  | none => simp [nullable]
  | some m => simp [nullable]

/-! ### Names are not empty -/

theorem ne_nil_of_matchesName {first rest : ℕ → Bool} {limit : ℕ} {s : PyStr}
    (h : matchesName first rest limit s) : s ≠ [] := by
  rintro rfl
  exact absurd h (by nofun)

theorem ne_nil_of_isSha256 {s : PyStr} (h : isSha256 s) : s ≠ [] := by
  rintro rfl
  exact absurd h (by nofun)

theorem ne_nil_of_strip {s : PyStr} (h : PyStr.strip s ≠ []) : s ≠ [] := by
  rintro rfl
  exact h rfl

theorem ne_nil_of_parseTimestamp {iso : IsoFormat} {label text : PyStr} {t : DateTime}
    (h : parseTimestamp iso label text = .ok t) : text ≠ [] := by
  rintro rfl
  rw [parseTimestamp, iso.parse_nil] at h
  exact absurd h (by nofun)

@[simp] theorem validateSha256_eq_ok {label text : PyStr} {u : Unit} :
    validateSha256 label text = .ok u ↔ isSha256 text := ensure_eq_ok

/-! ### Identity fields -/

/-- The named fields of an object, in the order of their names there. -/
def projectObject (schema : List (PyStr × (Json → Json))) : Json → Json
  | .obj value => .obj (schema.map fun entry => (entry.1, entry.2 (field entry.1 value)))
  | j => j

def projectArray (project : Json → Json) : Json → Json
  | .arr items => .arr (items.map project)
  | j => j

theorem projectArray_eq_arr {project : Json → Json} {j : Json} {items : List Json} :
    projectArray project j = .arr items ↔ ∃ raw, j = .arr raw ∧ raw.map project = items := by
  cases j <;> simp [projectArray]

theorem projectObject_eq_obj {schema : List (PyStr × (Json → Json))} {j : Json}
    {fields : List (PyStr × Json)} : projectObject schema j = .obj fields ↔
      ∃ value, j = .obj value ∧ projectObject schema (.obj value) = .obj fields := by
  cases j <;> simp [projectObject]

theorem field_of_mem {fields : List (PyStr × Json)} (hkeys : (fields.map Prod.fst).Nodup) {key : PyStr}
    {x : Json} (hmem : (key, x) ∈ fields) : field key fields = x := by
  rw [field, Json.lookup_eq_some_of_mem hkeys hmem]
  rfl

/-- **A written document has its own identity fields.** -/
theorem projectObject_append {schema : List (PyStr × (Json → Json))} {fields extra : List (PyStr × Json)}
    (hkeys : ((fields ++ extra).map Prod.fst).Nodup)
    (h : List.Forall₂ (fun entry f => entry.1 = f.1 ∧ entry.2 f.2 = f.2) schema fields) :
    projectObject schema (.obj (fields ++ extra)) = .obj fields := by
  have hfield : ∀ f ∈ fields, field f.1 (fields ++ extra) = f.2 := fun f hf =>
    field_of_mem hkeys (List.mem_append_left extra hf)
  show Json.obj (schema.map fun entry => (entry.1, entry.2 (field entry.1 (fields ++ extra)))) = _
  congr 1
  generalize fields ++ extra = value at hfield
  clear hkeys
  induction h with
  | nil => rfl
  | cons hentry _ ih =>
    obtain ⟨hkey, hvalue⟩ := hentry
    rw [List.map_cons, ih fun f hf => hfield f (List.mem_cons_of_mem _ hf), hkey,
      hfield _ List.mem_cons_self, hvalue]

theorem isSha256_of_canonicalSha256 {sha : Sha256} {ft : FloatText} {j : Json} {digest : PyStr}
    (h : canonicalSha256 sha ft j = .ok digest) : isSha256 digest := by
  simp only [canonicalSha256, bind_eq_ok, pure_eq_ok] at h
  obtain ⟨_, -, text, -, rfl⟩ := h
  exact sha.isSha256_hexdigest text

theorem encodable_of_isSha256 {s : PyStr} (h : isSha256 s) : s.encodable := by
  apply Json.encodable_of_ascii
  intro c hc
  have hdigit := List.all_eq_true.mp ((Bool.and_eq_true _ _).mp h).2 c hc
  simp only [Bool.or_eq_true, Bool.and_eq_true, decide_eq_true_eq] at hdigit
  omega

/-! ### Stored digests -/

/-- The digest of one of the two texts is not that of the other, unless they are equal. -/
def Sha256.Separates (sha : Sha256) (s t : PyStr) : Prop := sha.hexdigest s = sha.hexdigest t → s = t

/-- The digest that a stored document carries. -/
def storedDigest (key : PyStr) : Json → Json
  | .obj value => field key value
  | _ => .null

/-- Of every document that is accepted, the digest it carries is made from its identity fields.  So a
document in which one of them was changed is not accepted with the digest it had. -/
def Document.TamperEvident {α : Type} (sha : Sha256) (ft : FloatText) (document : Document α)
    (key : PyStr) (identity : Json → Json) : Prop :=
  (∀ raw v, document.fromDict raw = .ok v → ∃ digest, storedDigest key raw = .str digest ∧
    canonicalSha256 sha ft (identity raw) = .ok digest) ∧
  ∀ raw raw' v v', document.fromDict raw = .ok v → document.fromDict raw' = .ok v' →
    storedDigest key raw = storedDigest key raw' →
    sha.Separates (canonicalText ft (identity raw)) (canonicalText ft (identity raw')) →
    identity raw = identity raw'

/-- Values that are told apart whatever the order of their keys. -/
def SameKeys (j k : Json) : Prop := j.sortKeys = k.sortKeys → j = k

@[simp] theorem sameKeys_refl (j : Json) : SameKeys j j := fun _ => rfl

@[simp] theorem sameKeys_str (s t : PyStr) : SameKeys (.str s) (.str t) := id

@[simp] theorem sameKeys_bool (a b : Bool) : SameKeys (.bool a) (.bool b) := id

@[simp] theorem sameKeys_toJson (n m : PyInt) : SameKeys n.toJson m.toJson := by
  cases n <;> cases m <;> exact id

@[simp] theorem sameKeys_nullable_str (s t : Option PyStr) :
    SameKeys (nullable .str s) (nullable .str t) := by
  cases s <;> cases t <;> exact id

@[simp] theorem sameKeys_nullable_toJson (n m : Option PyInt) :
    SameKeys (nullable PyInt.toJson n) (nullable PyInt.toJson m) := by
  rcases n with _ | _ | _ <;> rcases m with _ | _ | _ <;> exact id

theorem sameKeys_arr {xs ys : List Json} (h : ∀ x ∈ xs, ∀ y ∈ ys, SameKeys x y) :
    SameKeys (.arr xs) (.arr ys) := by
  intro hsort
  have hmap : xs.map Json.sortKeys = ys.map Json.sortKeys := by
    rw [← Json.sortKeysItems_eq_map, ← Json.sortKeysItems_eq_map]
    exact Json.arr.inj hsort
  congr 1
  clear hsort
  induction xs generalizing ys with
  | nil => exact (List.map_eq_nil_iff.mp hmap.symm).symm
  | cons x xs ih =>
    cases ys with
    | nil => exact absurd hmap (by simp)
    | cons y ys =>
      obtain ⟨hhead, htail⟩ := List.cons.inj hmap
      rw [h x List.mem_cons_self y List.mem_cons_self hhead, ih (fun x' hx' y' hy' =>
        h x' (List.mem_cons_of_mem x hx') y' (List.mem_cons_of_mem y hy')) htail]

theorem sameKeys_obj {f g : List (PyStr × Json)} (hnodup : (f.map Prod.fst).Nodup)
    (h : List.Forall₂ (fun a b => a.1 = b.1 ∧ SameKeys a.2 b.2) f g) : SameKeys (.obj f) (.obj g) := by
  intro hsort
  have hkeys : f.map Prod.fst = g.map Prod.fst := by
    clear hsort hnodup
    induction h with
    | nil => rfl
    | cons hab _ ih => rw [List.map_cons, List.map_cons, hab.1, ih]
  have hlookup := Json.sortKeys_lookup hnodup (hkeys ▸ hnodup) hsort
  have hvalue : ∀ a ∈ f, ∀ b ∈ g, a.1 = b.1 → a.2.sortKeys = b.2.sortKeys := by
    intro a ha b hb hab
    have heq := hlookup a.1
    rw [Json.lookup_eq_some_of_mem hnodup ha, hab, Json.lookup_eq_some_of_mem (hkeys ▸ hnodup) hb] at heq
    exact Option.some.inj heq
  congr 1
  clear hsort hlookup hkeys hnodup
  induction h with
  | nil => rfl
  | @cons a b f g hab _ ih =>
    have hhead : a = b := Prod.ext hab.1
      (hab.2 (hvalue a List.mem_cons_self b List.mem_cons_self hab.1))
    rw [hhead, ih fun a' ha' b' hb' =>
      hvalue a' (List.mem_cons_of_mem a ha') b' (List.mem_cons_of_mem b hb')]

/-- **Documents that carry the digest of their identity fields are tamper evident.** -/
theorem Document.tamperEvident {α : Type} {sha : Sha256} {ft : FloatText} {document : Document α}
    {key : PyStr} {identity : Json → Json} (fields : α → Json → Prop)
    (hfields : ∀ raw v, document.fromDict raw = .ok v → fields v (identity raw))
    (hplain : ∀ v j, fields v j → Plain j)
    (hsame : ∀ v v' j k, fields v j → fields v' k → SameKeys j k)
    (hdigest : ∀ raw v, document.fromDict raw = .ok v → ∃ digest, storedDigest key raw = .str digest ∧
      canonicalSha256 sha ft (identity raw) = .ok digest) :
    document.TamperEvident sha ft key identity := by
  refine ⟨hdigest, ?_⟩
  intro raw raw' v v' hv hv' hstored hseparates
  obtain ⟨digest, hraw, hsha⟩ := hdigest raw v hv
  obtain ⟨digest', hraw', hsha'⟩ := hdigest raw' v' hv'
  have hplain₁ := hplain v _ (hfields raw v hv)
  have hplain₂ := hplain v' _ (hfields raw' v' hv')
  obtain ⟨hwrite, rfl⟩ := (canonicalSha256_eq_ok hplain₁).mp hsha
  obtain ⟨hwrite', rfl⟩ := (canonicalSha256_eq_ok hplain₂).mp hsha'
  rw [hraw, hraw'] at hstored
  have htext := hseparates (Json.str.inj hstored)
  apply hsame v v' _ _ (hfields raw v hv) (hfields raw' v' hv')
  exact Json.canonical_inj (l := .compact) (hplain₁ hwrite.1) (hplain₂ hwrite'.1) htext

end TaintForge
