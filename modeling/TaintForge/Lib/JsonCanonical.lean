import TaintForge.Lib.JsonRoundTrip

/-!
# Documents with sorted keys

The canonical text of a document has its keys in order and no blanks, and a digest is made from it.

* `sortKeys_lookup`: sorting the keys keeps what is looked up.
* `encodable_write`: the text of a document can be encoded when its strings can.
* `canonical_inj`: documents with the same canonical text differ at most in the order of their keys.
-/

namespace TaintForge.Json

/-! ### Looking up after sorting -/

theorem lookup_eq_some_of_mem {fields : List (PyStr × Json)} (h : (fields.map Prod.fst).Nodup)
    {key : PyStr} {x : Json} (hmem : (key, x) ∈ fields) : lookup key fields = some x := by
  induction fields with
  | nil => exact absurd hmem List.not_mem_nil
  | cons field rest ih =>
    obtain ⟨k, y⟩ := field
    rw [List.map_cons, List.nodup_cons] at h
    rw [lookup_cons]
    rcases List.mem_cons.mp hmem with heq | hmem
    · cases heq
      exact if_pos rfl
    · have hne : k ≠ key := by
        rintro rfl
        exact h.1 (List.mem_map.mpr ⟨_, hmem, rfl⟩)
      rw [if_neg hne]
      exact ih h.2 hmem

theorem mem_of_lookup {fields : List (PyStr × Json)} {key : PyStr} {x : Json}
    (h : lookup key fields = some x) : (key, x) ∈ fields := by
  induction fields with
  | nil => exact absurd h (by simp)
  | cons field rest ih =>
    obtain ⟨k, y⟩ := field
    rw [lookup_cons] at h
    split at h
    · rename_i hk
      cases h
      rw [hk]
      exact List.mem_cons_self
    · exact List.mem_cons_of_mem _ (ih h)

/-- The order of different keys does not matter. -/
theorem lookup_perm {f g : List (PyStr × Json)} (h : f.Perm g) (hf : (f.map Prod.fst).Nodup)
    (key : PyStr) : lookup key f = lookup key g := by
  have hg : (g.map Prod.fst).Nodup := (h.map Prod.fst).nodup_iff.mp hf
  apply Option.ext
  intro x
  constructor
  · intro hx
    exact lookup_eq_some_of_mem hg (h.mem_iff.mp (mem_of_lookup hx))
  · intro hx
    exact lookup_eq_some_of_mem hf (h.mem_iff.mpr (mem_of_lookup hx))

theorem lookup_sortKeysFields (key : PyStr) (fields : List (PyStr × Json)) :
    lookup key (sortKeysFields fields) = (lookup key fields).map sortKeys := by
  induction fields with
  | nil => rfl
  | cons field rest ih =>
    obtain ⟨k, x⟩ := field
    rw [sortKeysFields, lookup_cons, lookup_cons]
    split
    · rfl
    · exact ih

theorem map_fst_sortKeysFields (fields : List (PyStr × Json)) :
    (sortKeysFields fields).map Prod.fst = fields.map Prod.fst := by
  induction fields with
  | nil => rfl
  | cons field rest ih =>
    obtain ⟨k, x⟩ := field
    rw [sortKeysFields, List.map_cons, List.map_cons, ih]

/-- **Sorting the keys of objects keeps what is looked up in them.** -/
theorem sortKeys_lookup {f g : List (PyStr × Json)} (hf : (f.map Prod.fst).Nodup)
    (hg : (g.map Prod.fst).Nodup) (h : sortKeys (.obj f) = sortKeys (.obj g)) (key : PyStr) :
    (lookup key f).map sortKeys = (lookup key g).map sortKeys := by
  have hsorted : ∀ e : List (PyStr × Json), (e.map Prod.fst).Nodup →
      lookup key ((sortKeysFields e).insertionSort fun a b => a.1 ≤ b.1) =
        (lookup key e).map sortKeys := by
    intro e he
    rw [← lookup_sortKeysFields]
    symm
    apply lookup_perm (List.perm_insertionSort _ _).symm
    rw [map_fst_sortKeysFields]
    exact he
  rw [← hsorted f hf, ← hsorted g hg]
  exact congrArg (lookup key) (Json.obj.inj h)

theorem sortKeysItems_eq_map (items : List Json) : sortKeysItems items = items.map sortKeys := by
  induction items with
  | nil => rfl
  | cons x xs ih => rw [sortKeysItems, List.map_cons, ih]

/-! ### What sorting keeps -/

theorem intsFields_eq (fields : List (PyStr × Json)) :
    intsFields fields = fields.flatMap fun field => ints field.2 := by
  induction fields with
  | nil => rfl
  | cons field rest ih => rw [List.flatMap_cons, ← ih]; rfl

theorem stringsFields_eq (fields : List (PyStr × Json)) :
    stringsFields fields = fields.flatMap fun field => field.1 :: strings field.2 := by
  induction fields with
  | nil => rfl
  | cons field rest ih => rw [List.flatMap_cons, ← ih]; rfl

mutual

theorem ints_sortKeys : ∀ j, (sortKeys j).ints.Perm j.ints
  | .null => .refl _
  | .bool _ => .refl _
  | .int _ => .refl _
  | .float _ => .refl _
  | .str _ => .refl _
  | .arr items => intsItems_sortKeys items
  | .obj fields => by
    show (intsFields ((sortKeysFields fields).insertionSort _)).Perm (intsFields fields)
    apply List.Perm.trans _ (intsFields_sortKeys fields)
    rw [intsFields_eq, intsFields_eq]
    exact (List.perm_insertionSort _ _).flatMap_right _

theorem intsItems_sortKeys : ∀ items, (intsItems (sortKeysItems items)).Perm (intsItems items)
  | [] => .refl _
  | x :: xs => (ints_sortKeys x).append (intsItems_sortKeys xs)

theorem intsFields_sortKeys : ∀ fields, (intsFields (sortKeysFields fields)).Perm (intsFields fields)
  | [] => .refl _
  | (_, x) :: rest => (ints_sortKeys x).append (intsFields_sortKeys rest)

end

mutual

theorem strings_sortKeys : ∀ j, (sortKeys j).strings.Perm j.strings
  | .null => .refl _
  | .bool _ => .refl _
  | .int _ => .refl _
  | .float _ => .refl _
  | .str _ => .refl _
  | .arr items => stringsItems_sortKeys items
  | .obj fields => by
    show (stringsFields ((sortKeysFields fields).insertionSort _)).Perm (stringsFields fields)
    apply List.Perm.trans _ (stringsFields_sortKeys fields)
    rw [stringsFields_eq, stringsFields_eq]
    exact (List.perm_insertionSort _ _).flatMap_right _

theorem stringsItems_sortKeys :
    ∀ items, (stringsItems (sortKeysItems items)).Perm (stringsItems items)
  | [] => .refl _
  | x :: xs => (strings_sortKeys x).append (stringsItems_sortKeys xs)

theorem stringsFields_sortKeys :
    ∀ fields, (stringsFields (sortKeysFields fields)).Perm (stringsFields fields)
  | [] => .refl _
  | (k, x) :: rest => .cons k ((strings_sortKeys x).append (stringsFields_sortKeys rest))

end

theorem printable_sortKeys (j : Json) : (sortKeys j).printable = j.printable := by
  rw [Bool.eq_iff_iff, printable, printable, List.all_eq_true, List.all_eq_true]
  simp only [(ints_sortKeys j).mem_iff]

theorem portableFields_iff {ensureAscii : Bool} (fields : List (PyStr × Json)) :
    PortableFields ensureAscii fields ↔
      ∀ field ∈ fields, (ensureAscii → field.1.encodable) ∧ Portable ensureAscii field.2 := by
  induction fields with
  | nil => simp [PortableFields]
  | cons field rest ih =>
    obtain ⟨k, x⟩ := field
    rw [PortableFields, ih, List.forall_mem_cons, and_assoc]

mutual

/-- A sorted document is as portable as it was. -/
theorem portable_sortKeys {ensureAscii : Bool} :
    ∀ j, Portable ensureAscii j → Portable ensureAscii (sortKeys j)
  | .null, h => h
  | .bool _, h => h
  | .int _, h => h
  | .float _, h => h
  | .str _, h => h
  | .arr items, h => portableItems_sortKeys items h
  | .obj fields, h => by
    obtain ⟨hnodup, hfields⟩ := h
    have hperm := List.perm_insertionSort (fun a b : PyStr × Json => a.1 ≤ b.1) (sortKeysFields fields)
    constructor
    · rw [(hperm.map Prod.fst).nodup_iff, map_fst_sortKeysFields]
      exact hnodup
    · rw [portableFields_iff]
      intro field hfield
      exact (portableFields_iff _).mp (portableFields_sortKeys fields hfields) field
        (hperm.mem_iff.mp hfield)

theorem portableItems_sortKeys {ensureAscii : Bool} :
    ∀ items, PortableItems ensureAscii items → PortableItems ensureAscii (sortKeysItems items)
  | [], h => h
  | x :: xs, h => ⟨portable_sortKeys x h.1, portableItems_sortKeys xs h.2⟩

theorem portableFields_sortKeys {ensureAscii : Bool} :
    ∀ fields, PortableFields ensureAscii fields → PortableFields ensureAscii (sortKeysFields fields)
  | [], h => h
  | (_, x) :: rest, h => ⟨h.1, portable_sortKeys x h.2.1, portableFields_sortKeys rest h.2.2⟩

end

/-- **Documents with the same canonical text are the same up to the order of their keys.** -/
theorem canonical_inj {ft : FloatText} {l : Layout} {j k : Json} (hj : Portable l.ensureAscii j)
    (hk : Portable l.ensureAscii k) (h : write ft l 0 (sortKeys j) = write ft l 0 (sortKeys k)) :
    sortKeys j = sortKeys k :=
  write_inj (portable_sortKeys j hj) (portable_sortKeys k hk) h

/-! ### The characters of the text

A text has the characters of the strings in it, as they are, and printable ASCII characters besides.  Only
control characters do not stand in it for themselves. -/

/-- A printable ASCII character. -/
def Printable (c : ℕ) : Prop := 0x20 ≤ c ∧ c < 0x80

theorem printable_of_mem_decimal {n c : ℕ} (hc : c ∈ decimal n) : Printable c := by
  have h := decimal_isDigit n c hc
  simp only [isDigit, Bool.and_eq_true, decide_eq_true_eq] at h
  unfold Printable
  omega

theorem printable_of_mem_decimalInt {n : ℤ} {c : ℕ} (hc : c ∈ decimalInt n) : Printable c := by
  unfold decimalInt at hc
  split at hc
  · rcases List.mem_cons.mp hc with rfl | hc
    · show 0x20 ≤ 0x2D ∧ 0x2D < 0x80
      decide
    · exact printable_of_mem_decimal hc
  · exact printable_of_mem_decimal hc

theorem printable_of_mem_pad {n c : ℕ} (hc : c ∈ List.replicate n 0x20) : Printable c := by
  rw [List.eq_of_mem_replicate hc]
  show 0x20 ≤ 0x20 ∧ 0x20 < 0x80
  decide

theorem printable_of_mem_unicodeEscape {c d : ℕ} (hd : d ∈ unicodeEscape c) : Printable d := by
  have hhex : ∀ d < 0x10, 0x20 ≤ hexDigit d ∧ hexDigit d < 0x80 := by decide
  simp only [unicodeEscape, List.mem_cons, List.not_mem_nil, or_false] at hd
  rcases hd with rfl | rfl | rfl | rfl | rfl | rfl
  · show 0x20 ≤ 0x5C ∧ 0x5C < 0x80
    decide
  · show 0x20 ≤ 0x75 ∧ 0x75 < 0x80
    decide
  · exact hhex _ (Nat.mod_lt _ (by decide))
  · exact hhex _ (Nat.mod_lt _ (by decide))
  · exact hhex _ (Nat.mod_lt _ (by decide))
  · exact hhex _ (Nat.mod_lt _ (by decide))

/-- A short escape has a printable letter and is one of a control character or of a printable one. -/
theorem shortEscape_printable {c letter : ℕ} (h : shortEscape c = some letter) :
    Printable letter ∧ (c < 0x20 ∨ Printable c) := by
  unfold shortEscape at h
  unfold Printable
  constructor
  · split_ifs at h <;> cases h <;> decide
  · by_contra hc
    simp (disch := omega) only [if_neg] at h
    exact absurd h (by nofun)

section Text

variable (ft : FloatText) (l : Layout) {p : ℕ → Bool} (hp : ∀ c, Printable c → p c)

include hp

theorem all_of_printable {s : PyStr} (h : ∀ c ∈ s, Printable c) : s.all p = true := by
  apply List.all_eq_true.mpr
  intro c hc
  exact hp c (h c hc)

theorem all_escapeChar (c : ℕ) : (escapeChar false c).all p = (decide (c < 0x20) || p c) := by
  unfold escapeChar
  split
  · rename_i letter hletter
    obtain ⟨hprintable, hc⟩ := shortEscape_printable hletter
    have hslash : p 0x5C = true := hp 0x5C ⟨by decide, by decide⟩
    have hright : (decide (c < 0x20) || p c) = true := by
      rcases hc with hc | hc
      · rw [decide_eq_true hc, Bool.true_or]
      · rw [hp c hc, Bool.or_true]
    simp [hright, hslash, hp letter hprintable]
  · split
    · rename_i hcontrol
      rw [decide_eq_true hcontrol, Bool.true_or]
      apply all_of_printable hp
      intro d hd
      exact printable_of_mem_unicodeEscape hd
    · rename_i hcontrol
      simp [hcontrol]

theorem all_quoted (s : PyStr) :
    (quoted false s).all p = s.all fun c => decide (c < 0x20) || p c := by
  have hbody : (s.flatMap (escapeChar false)).all p = s.all fun c => decide (c < 0x20) || p c := by
    induction s with
    | nil => rfl
    | cons c s ih => rw [List.flatMap_cons, List.all_append, ih, all_escapeChar hp, List.all_cons]
  have hquote : p 0x22 = true := hp 0x22 ⟨by decide, by decide⟩
  rw [quoted, List.all_cons, List.all_append, hbody, List.all_cons, List.all_nil, hquote]
  simp only [Bool.true_and, Bool.and_true]

variable (hbreak : ∀ depth, (l.newline depth).all p)

include hbreak

mutual

/-- **What all characters of a text satisfy is what those of its strings do**, control characters apart.
-/
theorem all_write (hl : l.ensureAscii = false) (depth : ℕ) : ∀ j, Portable false j →
    (write ft l depth j).all p = j.strings.all fun s => s.all fun c => decide (c < 0x20) || p c
  | .null, _ => all_of_printable hp (show ∀ c ∈ py "null", 0x20 ≤ c ∧ c < 0x80 by decide)
  | .bool true, _ => all_of_printable hp (show ∀ c ∈ py "true", 0x20 ≤ c ∧ c < 0x80 by decide)
  | .bool false, _ => all_of_printable hp (show ∀ c ∈ py "false", 0x20 ≤ c ∧ c < 0x80 by decide)
  | .int _, _ => all_of_printable hp fun _ hc => printable_of_mem_decimalInt hc
  | .float _, hj => absurd hj (by simp [Portable])
  | .str s, _ => by
    rw [write, hl, all_quoted hp]
    simp [strings]
  | .arr [], _ => all_of_printable hp (show ∀ c ∈ py "[]", 0x20 ≤ c ∧ c < 0x80 by decide)
  | .arr (x :: xs), hj => by
    have hopen : p 0x5B = true := hp 0x5B ⟨by decide, by decide⟩
    have hclose : p 0x5D = true := hp 0x5D ⟨by decide, by decide⟩
    simp only [write, List.all_cons, List.all_nil, List.all_append, hopen, hclose, hbreak,
      all_write hl (depth + 1) x hj.1, all_writeItems hl (depth + 1) xs hj.2, strings, stringsItems,
      Bool.true_and, Bool.and_true]
  | .obj [], _ =>
    all_of_printable hp (show ∀ c ∈ ([0x7B, 0x7D] : PyStr), 0x20 ≤ c ∧ c < 0x80 by decide)
  | .obj ((k, x) :: rest), hj => by
    have hopen : p 0x7B = true := hp 0x7B ⟨by decide, by decide⟩
    have hcolon : p 0x3A = true := hp 0x3A ⟨by decide, by decide⟩
    have hclose : p 0x7D = true := hp 0x7D ⟨by decide, by decide⟩
    have hpad : (List.replicate l.keyPad 0x20).all p = true :=
      all_of_printable hp fun _ => printable_of_mem_pad
    simp only [write, Layout.colon, List.all_cons, List.all_nil, List.all_append, hopen, hclose, hcolon,
      hbreak, hpad, hl, all_quoted hp, all_write hl (depth + 1) x hj.2.2.1,
      all_writeFields hl (depth + 1) rest hj.2.2.2, strings, stringsFields, Bool.true_and, Bool.and_true,
      Bool.and_assoc]

theorem all_writeItems (hl : l.ensureAscii = false) (depth : ℕ) : ∀ xs, PortableItems false xs →
    (writeItems ft l depth xs).all p =
      (stringsItems xs).all fun s => s.all fun c => decide (c < 0x20) || p c
  | [], _ => rfl
  | x :: xs, h => by
    have hcomma : p 0x2C = true := hp 0x2C ⟨by decide, by decide⟩
    have hpad : (List.replicate l.itemPad 0x20).all p = true :=
      all_of_printable hp fun _ => printable_of_mem_pad
    simp only [writeItems, Layout.comma, List.all_cons, List.all_append, hcomma, hbreak, hpad,
      all_write hl depth x h.1, all_writeItems hl depth xs h.2, stringsItems, Bool.true_and]

theorem all_writeFields (hl : l.ensureAscii = false) (depth : ℕ) : ∀ fields,
    PortableFields false fields →
    (writeFields ft l depth fields).all p =
      (stringsFields fields).all fun s => s.all fun c => decide (c < 0x20) || p c
  | [], _ => rfl
  | (k, x) :: rest, h => by
    have hcomma : p 0x2C = true := hp 0x2C ⟨by decide, by decide⟩
    have hcolon : p 0x3A = true := hp 0x3A ⟨by decide, by decide⟩
    have hpad : ∀ n, (List.replicate n 0x20).all p = true := fun _ =>
      all_of_printable hp fun _ => printable_of_mem_pad
    simp only [writeFields, Layout.comma, Layout.colon, List.all_cons, List.all_append, hcomma, hcolon,
      hbreak, hpad, hl, all_quoted hp, all_write hl depth x h.2.1, all_writeFields hl depth rest h.2.2,
      stringsFields, Bool.true_and, Bool.and_assoc]

end

omit hp hbreak

theorem isScalar_of_lt {c : ℕ} (hc : c < 0x80) : PyStr.isScalar c := by
  simp only [PyStr.isScalar, Bool.and_eq_true, Bool.not_eq_true', Bool.and_eq_false_iff,
    decide_eq_true_eq, decide_eq_false_iff_not]
  omega

theorem encodable_of_ascii {s : PyStr} (h : ∀ c ∈ s, c < 0x80) : s.encodable := by
  apply List.all_eq_true.mpr
  intro c hc
  exact isScalar_of_lt (h c hc)

theorem encodable_blank {s : PyStr} (h : ∀ c ∈ s, isWhitespace c) : s.encodable := by
  apply encodable_of_ascii
  intro c hc
  have hspace := h c hc
  simp only [isWhitespace, Bool.or_eq_true, beq_iff_eq] at hspace
  omega

/-- **The text can be encoded when the strings in it can.** -/
theorem encodable_write (hl : l.ensureAscii = false) (depth : ℕ) (j : Json) (hj : Portable false j) :
    (write ft l depth j).encodable = j.strings.all PyStr.encodable := by
  have hwrite := all_write ft l (fun c hc => isScalar_of_lt hc.2)
    (fun depth => encodable_blank (isWhitespace_newline l depth)) hl depth j hj
  have hscalar : (fun c => decide (c < 0x20) || PyStr.isScalar c) = PyStr.isScalar := by
    funext c
    by_cases hc : c < 0x20
    · rw [isScalar_of_lt (by omega), Bool.or_true]
    · rw [decide_eq_false hc, Bool.false_or]
  rw [hscalar] at hwrite
  exact hwrite

/-- A text without breaks between its elements has no control characters. -/
theorem le_of_mem_write (hl : l.ensureAscii = false) (hindent : l.indent = none) (depth : ℕ) {j : Json}
    (hj : Portable false j) : ∀ c ∈ write ft l depth j, 0x20 ≤ c := by
  have hbreak : ∀ depth, l.newline depth = [] := by
    intro depth
    rw [Layout.newline, hindent]
  have hwrite := all_write ft l (p := fun c => decide (0x20 ≤ c)) (fun c hc => decide_eq_true hc.1)
    (fun depth => by rw [hbreak]; rfl) hl depth j hj
  have hall : (j.strings.all fun s => s.all fun c => decide (c < 0x20) || decide (0x20 ≤ c)) = true := by
    simp only [List.all_eq_true, Bool.or_eq_true, decide_eq_true_eq]
    omega
  rw [hall, List.all_eq_true] at hwrite
  intro c hc
  exact of_decide_eq_true (hwrite c hc)

end Text

end TaintForge.Json
