import TaintForge.Env.ElfTarget
import TaintForge.Lib.Except

/-!
# What is said about an accepted file

* `decodeUtf8_inj`: a text is decoded from one sequence of bytes.
* `guestPathExists_total`, `resolveGuestPath_raises`: what raises when a path of the guest is looked up.
* `ElfSafe`: reads inside the file, and raises only its own exception.
* `ElfHeader.OfBytes`, `interpreterSegments`: the header and the segments with a path to the
  interpreter, as they stand in the file.
* `inspect_elf_target_faithful_iff`: the path of an accepted file is the one in its segment where the
  segment has no other zero byte than its last.
-/

namespace TaintForge

open StructPack (ByteOrder)

/-! ### Text -/

theorem decodeUtf8_eq_some {data : List UInt8} {s : PyStr} (h : decodeUtf8 data = some s) :
    ∃ chars : List Char, chars.utf8Encode = ⟨data.toArray⟩ ∧ s = chars.map Char.toNat := by
  obtain ⟨chars, hchars, rfl⟩ := Option.map_eq_some_iff.mp h
  refine ⟨chars.toList, ?_, rfl⟩
  have hsome : (ByteArray.mk data.toArray).utf8Decode?.isSome = true := by rw [hchars]; rfl
  have hencode := ByteArray.utf8Encode_get_utf8Decode? (b := ⟨data.toArray⟩) (h := hsome)
  rwa [Option.get_of_eq_some hsome hchars] at hencode

/-- A text is decoded from one sequence of bytes. -/
theorem decodeUtf8_inj {data data' : List UInt8} {s : PyStr} (h : decodeUtf8 data = some s)
    (h' : decodeUtf8 data' = some s) : data = data' := by
  obtain ⟨chars, hchars, rfl⟩ := decodeUtf8_eq_some h
  obtain ⟨chars', hchars', heq⟩ := decodeUtf8_eq_some h'
  have hinj : Function.Injective Char.toNat := fun c c' hc => Char.toNat_inj.mp hc
  obtain rfl := List.map_injective_iff.mpr hinj heq
  rw [hchars] at hchars'
  have harray := congrArg ByteArray.data hchars'
  exact congrArg Array.toList harray

/-- A text with the zero character has a zero byte. -/
theorem zero_mem_of_decodeUtf8 {data : List UInt8} {s : PyStr} (h : decodeUtf8 data = some s)
    (hzero : 0 ∈ s) : 0 ∈ data := by
  obtain ⟨chars, hchars, rfl⟩ := decodeUtf8_eq_some h
  obtain ⟨c, hc, hvalue⟩ := List.mem_map.mp hzero
  obtain ⟨before, behind, rfl⟩ := List.append_of_mem hc
  have hbytes : data = (before ++ c :: behind).flatMap String.utf8EncodeChar := by
    have hdata := congrArg (fun b => b.data.toList) hchars
    simpa [List.utf8Encode] using hdata.symm
  have hchar : c = Char.ofNat 0 := by
    rw [← hvalue, Char.ofNat_toNat]
  rw [hbytes, hchar]
  simp only [List.flatMap_append, List.flatMap_cons, List.mem_append]
  exact Or.inr (Or.inl (by decide))

/-- The characters of a decoded text stand in paths, but for the zero character. -/
theorem isPathChar_of_decodeUtf8 {data : List UInt8} {s : PyStr} (h : decodeUtf8 data = some s)
    (hzero : 0 ∉ s) {c : ℕ} (hc : c ∈ s) : IsPathChar c := by
  refine ⟨fun h0 => hzero (h0 ▸ hc), Or.inl ?_⟩
  obtain ⟨chars, -, rfl⟩ := decodeUtf8_eq_some h
  obtain ⟨char, -, rfl⟩ := List.mem_map.mp hc
  have hvalid : char.toNat < 0xD800 ∨ 0xDFFF < char.toNat ∧ char.toNat < 0x110000 := char.valid
  simp only [PyStr.isScalar, Bool.and_eq_true, Bool.not_eq_true', Bool.and_eq_false_iff,
    decide_eq_true_eq, decide_eq_false_iff_not]
  omega

/-! ### Paths -/

theorem mem_of_mem_splitOn {c x : ℕ} {s part : PyStr} (h : part ∈ s.splitOn c) (hx : x ∈ part) :
    x ∈ s := by
  induction s generalizing part with
  | nil =>
    rw [List.splitOn_nil, List.mem_singleton] at h
    rwa [h] at hx
  | cons first s ih =>
    rw [List.splitOn_cons_eq_if_modifyHead] at h
    split at h
    · rcases List.mem_cons.mp h with rfl | h
      · exact absurd hx List.not_mem_nil
      · exact List.mem_cons_of_mem first (ih h hx)
    · -- the first part grows by the character
      cases hsplit : s.splitOn c with
      | nil => exact absurd hsplit (List.splitOn_ne_nil c s)
      | cons head rest =>
        rw [hsplit, List.modifyHead_cons] at h
        rw [hsplit] at ih
        rcases List.mem_cons.mp h with rfl | h
        · rcases List.mem_cons.mp hx with rfl | hx
          · exact List.mem_cons_self
          · exact List.mem_cons_of_mem first (ih List.mem_cons_self hx)
        · exact List.mem_cons_of_mem first (ih (List.mem_cons_of_mem head h) hx)

/-- The characters of a component are those of the path. -/
theorem mem_of_mem_tail {path part : PyStr} {c : ℕ} (h : part ∈ (purePosixPath path).tail)
    (hc : c ∈ part) : c ∈ path := by
  have hmem := mem_of_mem_splitOn (List.mem_filter.mp h).1 hc
  unfold splitroot at hmem
  split at hmem
  · exact List.mem_cons_of_mem _ hmem
  · exact List.mem_cons_of_mem _ (List.mem_cons_of_mem _ hmem)
  · exact List.mem_cons_of_mem _ hmem
  · exact hmem

/-- The parts of a path behind the root. -/
theorem tail_parts_of_root {path : PurePosixPath} (h : path.root ≠ []) : path.parts.tail = path.tail := by
  rw [PurePosixPath.parts, if_neg h]
  rfl

/-- The parts of the target of a link are written with its characters. -/
theorem isPathChar_linkParts {target part : PyStr} (htarget : ∀ c ∈ target, IsPathChar c)
    (hpart : part ∈ linkParts target) : ∀ c ∈ part, IsPathChar c := by
  have hparts : part ∈ (purePosixPath target).parts := by
    unfold linkParts at hpart
    dsimp only at hpart
    split at hpart
    · exact List.mem_of_mem_tail hpart
    · exact hpart
  intro c hc
  have hslash : ∀ x ∈ (purePosixPath target).root, IsPathChar x := by
    intro x hx
    rcases root_cases target with hroot | hroot | hroot
    · rw [hroot] at hx
      exact absurd hx List.not_mem_nil
    · rw [hroot, List.mem_singleton] at hx
      rw [hx]
      decide
    · rw [hroot] at hx
      simp only [List.mem_cons, List.not_mem_nil, or_false, or_self] at hx
      rw [hx]
      decide
  unfold PurePosixPath.parts at hparts
  split at hparts
  · exact htarget c (mem_of_mem_tail hparts hc)
  · rcases List.mem_cons.mp hparts with rfl | hparts
    · exact hslash c hc
    · exact htarget c (mem_of_mem_tail hparts hc)

/-- What `_validate_guest_path` accepts: a path with a root and without `..`, written as it is
parsed. -/
structure IsGuestPath (value : PyStr) : Prop where
  absolute : [slash] <+: value
  noParent : py ".." ∉ (purePosixPath value).parts
  normalized : (purePosixPath value).asPosix = value

theorem validateElfGuestPath_eq_ok {value : PyStr} {path : PurePosixPath} :
    validateElfGuestPath value = .ok path ↔ IsGuestPath value ∧ path = purePosixPath value := by
  constructor
  · intro h
    unfold validateElfGuestPath at h
    dsimp only at h
    split at h
    · cases h
    rename_i hstarts
    split at h
    · cases h
    rename_i hparent
    split at h
    · cases h
    rename_i hnormalized
    refine ⟨⟨?_, hparent, not_not.mp hnormalized⟩, (Except.ok.inj h).symm⟩
    exact List.isPrefixOf_iff_prefix.mp (Bool.of_not_eq_false hstarts)
  · rintro ⟨⟨habsolute, hparent, hnormalized⟩, rfl⟩
    have hstarts : [slash].isPrefixOf value = true := List.isPrefixOf_iff_prefix.mpr habsolute
    unfold validateElfGuestPath
    dsimp only
    rw [if_neg (by simp [hstarts]), if_neg hparent, if_neg (not_not.mpr hnormalized)]

/-- What `_validate_interpreter` accepts is returned as it is, and it is a path of the guest. -/
theorem validateInterpreter_eq_ok {value path : PyStr} (h : validateInterpreter value = .ok path) :
    IsGuestPath value ∧ path = value := by
  obtain ⟨parsed, hparsed, h⟩ := bind_eq_ok.mp h
  obtain ⟨hguest, rfl⟩ := validateElfGuestPath_eq_ok.mp hparsed
  split at h
  · cases h
  · exact ⟨hguest, by rw [← Except.ok.inj h, hguest.normalized]⟩

/-- Components that were found one below the other, none of them a link. -/
structure IsResolved (tree : GuestTree) (resolved : List PyStr) : Prop where
  chars : ∀ part ∈ resolved, ∀ c ∈ part, IsPathChar c
  found : ∀ n, tree.lstat (resolved.take n) = .entry

theorem IsResolved.dropLast {tree : GuestTree} {resolved : List PyStr} (h : IsResolved tree resolved) :
    IsResolved tree resolved.dropLast := by
  refine ⟨fun part hpart => h.chars part (List.mem_of_mem_dropLast hpart), fun n => ?_⟩
  rw [List.dropLast_eq_take, List.take_take]
  exact h.found _

theorem IsResolved.append {tree : GuestTree} {resolved : List PyStr} {part : PyStr}
    (h : IsResolved tree resolved) (hpart : ∀ c ∈ part, IsPathChar c)
    (hfound : tree.lstat (resolved ++ [part]) = .entry) : IsResolved tree (resolved ++ [part]) := by
  refine ⟨?_, fun n => ?_⟩
  · intro part' hpart'
    rcases List.mem_append.mp hpart' with hpart' | hpart'
    · exact h.chars part' hpart'
    · rw [List.mem_singleton.mp hpart']
      exact hpart
  · rcases Nat.lt_or_ge resolved.length n with hn | hn
    · rw [List.take_of_length_le (by simp; omega), hfound]
    · rw [List.take_append_of_le_length hn]
      exact h.found n

theorem callLstat_of_chars {tree : GuestTree} {path : List PyStr}
    (h : ∀ part ∈ path, ∀ c ∈ part, IsPathChar c) : tree.callLstat path = .ok (tree.lstat path) :=
  if_pos h

/-- The loop raises nothing where all characters that are left stand in paths. -/
theorem resolveGuestPath_total {tree : GuestTree} (hroot : tree.rootIsDir = true) (symlinkBudget : ℕ)
    (pending resolved : List PyStr) (hpending : ∀ part ∈ pending, ∀ c ∈ part, IsPathChar c)
    (hresolved : IsResolved tree resolved) :
    ∃ found, resolveGuestPath tree symlinkBudget pending resolved = .ok found := by
  fun_induction resolveGuestPath tree symlinkBudget pending resolved with
  | case1 => exact ⟨false, rfl⟩
  | case2 budget resolved hrelative =>
    have hentry : tree.lstat resolved = .entry := by
      have hfound := hresolved.found resolved.length
      rwa [List.take_length] at hfound
    rw [GuestTree.finalExists, callLstat_of_chars hresolved.chars, hentry]
    exact ⟨true, rfl⟩
  | case3 _ part pending resolved hskip ih =>
    exact ih (fun p hp => hpending p (List.mem_cons_of_mem _ hp)) hresolved
  | case4 => exact ⟨false, rfl⟩
  | case5 _ pending resolved hnonempty _ ih =>
    exact ih (fun p hp => hpending p (List.mem_cons_of_mem _ hp)) hresolved.dropLast
  | case6 _ part pending resolved hskip hparent error hlstat =>
    have hchars : ∀ p ∈ resolved ++ [part], ∀ c ∈ p, IsPathChar c := by
      intro p hp
      rcases List.mem_append.mp hp with hp | hp
      · exact hresolved.chars p hp
      · exact hpending p (by rw [List.mem_singleton.mp hp]; exact List.mem_cons_self)
    rw [callLstat_of_chars hchars] at hlstat
    cases hlstat
  | case7 => exact ⟨false, rfl⟩
  | case8 => exact ⟨false, rfl⟩
  | case9 _ part pending resolved hskip hparent hlstat ih =>
    have hpart := hpending part List.mem_cons_self
    refine ih (fun p hp => hpending p (List.mem_cons_of_mem _ hp)) (hresolved.append hpart ?_)
    unfold GuestTree.callLstat at hlstat
    split at hlstat
    · exact Except.ok.inj hlstat
    · cases hlstat
  | case10 => exact ⟨false, rfl⟩
  | case11 => exact ⟨false, rfl⟩
  | case12 part pending resolved hskip hparent budget target resolved' hlstat ih =>
    have hlink : tree.lstat (resolved ++ [part]) = .link (some target) := by
      unfold GuestTree.callLstat at hlstat
      split at hlstat
      · exact Except.ok.inj hlstat
      · cases hlstat
    refine ih ?_ ?_
    · intro p hp
      rcases List.mem_append.mp hp with hp | hp
      · exact isPathChar_linkParts (tree.link_chars _ _ hlink) hp
      · exact hpending p (List.mem_cons_of_mem _ hp)
    · simp only [resolved']
      split
      · exact hresolved
      · exact ⟨by simp, fun n => by rw [List.take_nil]; exact tree.lstat_root hroot⟩

/-- **Looking a path up raises nothing when its characters stand in paths.** -/
theorem guestPathExists_total {path : PyStr} (h : ∀ c ∈ path, IsPathChar c) (tree : GuestTree) :
    ∃ found, guestPathExists tree path = .ok found := by
  unfold guestPathExists
  split
  · exact ⟨false, rfl⟩
  rename_i hroot
  split
  · exact ⟨false, rfl⟩
  rename_i parsed hparsed
  obtain ⟨hguest, rfl⟩ := validateElfGuestPath_eq_ok.mp hparsed
  have hdir : tree.rootIsDir = true := Bool.of_not_eq_false hroot
  refine resolveGuestPath_total hdir 40 _ [] ?_ ⟨by simp, fun n => ?_⟩
  · intro part hpart c hc
    rw [tail_parts_of_root (root_ne_nil_of_slash hguest.absolute)] at hpart
    exact h c (mem_of_mem_tail hpart hc)
  · rw [List.take_nil]
    exact tree.lstat_root hdir

/-- A root directory below which there is everything. -/
def fullTree : GuestTree where
  rootIsDir := true
  lstat := fun _ => .entry
  isRelative := fun _ => true
  lstat_root := fun _ => rfl
  link_chars := by nofun

/-- The loop raises at a component with a character that stands in no path, when it comes so far. -/
theorem resolveGuestPath_raises (symlinkBudget : ℕ) {pending resolved : List PyStr}
    (hpending : ∀ part ∈ pending, IsComponent part ∧ part ≠ py "..")
    (h : ∃ part ∈ pending, ∃ c ∈ part, ¬IsPathChar c) :
    resolveGuestPath fullTree symlinkBudget pending resolved = .error .value := by
  induction pending generalizing resolved with
  | nil =>
    obtain ⟨part, hpart, -⟩ := h
    exact absurd hpart List.not_mem_nil
  | cons part pending ih =>
    obtain ⟨hcomponent, hparent⟩ := hpending part List.mem_cons_self
    have hskip : ¬(part = [] ∨ part = py ".") := by
      rintro (hnil | hdot)
      · exact hcomponent.ne_nil hnil
      · exact hcomponent.ne_dot hdot
    rw [resolveGuestPath, if_neg hskip, if_neg hparent]
    by_cases hchars : ∀ p ∈ resolved ++ [part], ∀ c ∈ p, IsPathChar c
    · -- this component is found, and the character is in a later one
      rw [callLstat_of_chars hchars]
      obtain ⟨bad, hbad, c, hc, hnot⟩ := h
      rcases List.mem_cons.mp hbad with rfl | hbad
      · exact absurd (hchars bad (by simp) c hc) hnot
      · exact ih (fun p hp => hpending p (List.mem_cons_of_mem part hp)) ⟨bad, hbad, c, hc, hnot⟩
    · rw [GuestTree.callLstat, if_neg hchars]

theorem mem_intercalate_slash {c : ℕ} {parts : List PyStr} (h : c ∈ [slash].intercalate parts) :
    c = slash ∨ ∃ part ∈ parts, c ∈ part := by
  induction parts with
  | nil => exact absurd h List.not_mem_nil
  | cons part parts ih =>
    by_cases hparts : parts = []
    · subst hparts
      rw [List.intercalate_singleton] at h
      exact Or.inr ⟨part, List.mem_cons_self, h⟩
    · rw [intercalate_slash_cons part hparts] at h
      rcases List.mem_append.mp h with h | h
      · exact Or.inr ⟨part, List.mem_cons_self, h⟩
      · rcases List.mem_cons.mp h with h | h
        · exact Or.inl h
        · rcases ih h with h | ⟨other, hother, h⟩
          · exact Or.inl h
          · exact Or.inr ⟨other, List.mem_cons_of_mem part hother, h⟩

/-- **Looking a guest path up raises nothing, below whatever root, exactly when its characters stand in
paths.** -/
theorem guestPathExists_total_iff {path : PyStr} (h : IsGuestPath path) :
    (∀ tree, ∃ found, guestPathExists tree path = .ok found) ↔ ∀ c ∈ path, IsPathChar c := by
  constructor
  · intro htotal
    by_contra hbad
    simp only [not_forall] at hbad
    obtain ⟨c, hc, hnot⟩ := hbad
    have hroot := root_ne_nil_of_slash h.absolute
    have htail := tail_parts_of_root hroot
    have hslash : c ≠ slash := fun heq => hnot (by rw [heq]; decide)
    -- the character is in a component
    have hcomponent : ∃ part ∈ (purePosixPath path).tail, ∃ c ∈ part, ¬IsPathChar c := by
      rw [← h.normalized, asPosix_of_root hroot] at hc
      rcases List.mem_append.mp hc with hc | hc
      · rcases root_cases path with hcase | hcase | hcase <;> rw [hcase] at hc <;> simp at hc <;>
          exact absurd hc hslash
      · rcases mem_intercalate_slash hc with hc | ⟨part, hpart, hc⟩
        · exact absurd hc hslash
        · exact ⟨part, hpart, c, hc, hnot⟩
    obtain ⟨found, hfound⟩ := htotal fullTree
    have hvalid := validateElfGuestPath_eq_ok.mpr ⟨h, rfl⟩
    have hraises : guestPathExists fullTree path = .error .value := by
      unfold guestPathExists
      rw [if_neg (by decide), hvalid]
      dsimp only
      rw [htail]
      refine resolveGuestPath_raises 40 ?_ hcomponent
      intro part hpart
      refine ⟨isComponent_of_mem hpart, ?_⟩
      rintro rfl
      refine h.noParent ?_
      rw [PurePosixPath.parts, if_neg hroot]
      exact List.mem_cons_of_mem _ hpart
    rw [hraises] at hfound
    cases hfound
  · intro hchars tree
    exact guestPathExists_total hchars tree

/-! ### The file -/

/-- A computation that raises only an `ElfTargetError`, and reads inside the file if it raises
nothing. -/
structure ElfSafe {α : Type} (contents : List UInt8) (x : Scan ElfError α) : Prop where
  raises : ∀ error, x.outcome = .error error → ∃ text, error = .target text
  inside : ∀ a, x.outcome = .ok a → x.Inside contents

section Safe

variable {α β : Type} {contents : List UInt8}

theorem ElfSafe.pure (a : α) : ElfSafe contents (Pure.pure a : Scan ElfError α) :=
  ⟨by nofun, fun _ _ => Scan.Inside.of_reads_nil rfl⟩

theorem ElfSafe.require {condition : Prop} [Decidable condition] {text : PyStr} :
    ElfSafe contents (Scan.require condition (.target text)) := by
  refine ⟨fun error h => ?_, fun _ _ => Scan.Inside.of_reads_nil rfl⟩
  exact ⟨text, (Scan.require_outcome_eq_error.mp h).2.symm⟩

theorem ElfSafe.ofOption {x : Option α} {text : PyStr} :
    ElfSafe contents (Scan.ofOption x (.target text)) := by
  refine ⟨fun error h => ?_, fun _ _ => Scan.Inside.of_reads_nil rfl⟩
  exact ⟨text, (Scan.ofOption_outcome_eq_error.mp h).2.symm⟩

theorem ElfSafe.ofOption_some {x : Option α} {a : α} {error : ElfError} (h : x = some a) :
    ElfSafe contents (Scan.ofOption x error) := by
  refine ⟨fun error h' => ?_, fun _ _ => Scan.Inside.of_reads_nil rfl⟩
  rw [h] at h'
  cases h'

theorem ElfSafe.bind {x : Scan ElfError α} {f : α → Scan ElfError β} (hx : ElfSafe contents x)
    (hf : ∀ a, x.outcome = .ok a → ElfSafe contents (f a)) : ElfSafe contents (x >>= f) := by
  refine ⟨fun error h => ?_, fun b h => ?_⟩
  · rcases Scan.bind_outcome_eq_error.mp h with h | ⟨a, ha, h⟩
    · exact hx.raises error h
    · exact (hf a ha).raises error h
  · obtain ⟨a, ha, hb⟩ := Scan.bind_outcome_eq_ok.mp h
    refine Scan.Inside.bind (hx.inside a ha) fun a' ha' => ?_
    rw [ha] at ha'
    obtain rfl := Except.ok.inj ha'
    exact (hf a ha).inside b hb

/-- A part of the file that all what follows rests on being there. -/
theorem ElfSafe.slice_bind {start stop : ℕ} {f : List UInt8 → Scan ElfError β} (hle : start ≤ stop)
    (hinside : ∀ b, (f (byteSlice contents start stop)).outcome = .ok b → stop ≤ contents.length)
    (hf : ElfSafe contents (f (byteSlice contents start stop))) :
    ElfSafe contents (Scan.slice contents start stop >>= f) := by
  refine ⟨fun error h => ?_, fun b h => ?_⟩
  · rcases Scan.bind_outcome_eq_error.mp h with h | ⟨a, ha, h⟩
    · cases h
    · obtain rfl := Except.ok.inj ha
      exact hf.raises error h
  · obtain ⟨a, ha, hb⟩ := Scan.bind_outcome_eq_ok.mp h
    obtain rfl := Except.ok.inj ha
    refine Scan.Inside.bind (Scan.Inside.slice hle (hinside b hb)) fun a' ha' => ?_
    obtain rfl := Except.ok.inj ha'
    exact hf.inside b hb

end Safe

/-- A number that stands in the file. -/
def numberAt (order : ByteOrder) (contents : List UInt8) (place : ℕ × ℕ) : ℕ :=
  order.value (byteSlice contents place.1 (place.1 + place.2))

namespace ElfClass

/-- Where the fields of the header stand that the two classes have at different places, and their
widths. -/
def entryPlace : ElfClass → ℕ × ℕ
  | elf32 => (24, 4)
  | elf64 => (24, 8)

def phoffPlace : ElfClass → ℕ × ℕ
  | elf32 => (28, 4)
  | elf64 => (32, 8)

def phentsizePlace : ElfClass → ℕ × ℕ
  | elf32 => (42, 2)
  | elf64 => (54, 2)

def phnumPlace : ElfClass → ℕ × ℕ
  | elf32 => (44, 2)
  | elf64 => (56, 2)

/-- Where the offset and the size of a segment stand in its program header. -/
def offsetPlace : ElfClass → ℕ × ℕ
  | elf32 => (4, 4)
  | elf64 => (8, 8)

def fileszPlace : ElfClass → ℕ × ℕ
  | elf32 => (16, 4)
  | elf64 => (32, 8)

end ElfClass

/-- The header as it stands in a file. -/
structure ElfHeader.OfBytes (contents : List UInt8) (header : ElfHeader) : Prop where
  length : header.elfClass.headerSize ≤ contents.length
  magic : byteSlice contents 0 4 = [0x7F, 0x45, 0x4C, 0x46]
  elfClass : ElfClass.ofByte (contents.getD 4 0) = some header.elfClass
  order : byteOrderOf (contents.getD 5 0) = some header.order
  eType : header.eType = numberAt header.order contents (16, 2)
  eMachine : header.eMachine = numberAt header.order contents (18, 2)
  eEntry : header.eEntry = numberAt header.order contents header.elfClass.entryPlace
  ePhoff : header.ePhoff = numberAt header.order contents header.elfClass.phoffPlace
  ePhentsize : header.ePhentsize = numberAt header.order contents header.elfClass.phentsizePlace
  ePhnum : header.ePhnum = numberAt header.order contents header.elfClass.phnumPlace

/-- A field of a record that was read from a part of the file. -/
theorem numberAt_of_unpack {order : ByteOrder} {contents : List UInt8} {widths values : List ℕ}
    {start stop : ℕ} (h : order.unpack widths (byteSlice contents start stop) = some values) {i width : ℕ}
    (hi : widths[i]? = some width) (hstop : start + (widths.take i).sum + width ≤ stop) :
    values[i]? = some (numberAt order contents (start + (widths.take i).sum, width)) := by
  rw [ByteOrder.getElem?_of_unpack h hi, take_drop_byteSlice hstop]
  rfl

namespace TargetFile

variable (target : TargetFile)

theorem readIdent_safe (h : 52 ≤ target.contents.length) :
    ElfSafe target.contents target.readIdent := by
  refine ElfSafe.slice_bind (Nat.zero_le 16) (fun _ _ => by omega) ?_
  refine ElfSafe.require.bind fun _ _ => ?_
  refine ElfSafe.ofOption.bind fun _ _ => ?_
  exact ElfSafe.ofOption.bind fun _ _ => ElfSafe.pure _

theorem readIdent_eq_ok {elfClass : ElfClass} {order : ByteOrder}
    (h : target.readIdent.outcome = .ok (elfClass, order)) :
    byteSlice target.contents 0 4 = [0x7F, 0x45, 0x4C, 0x46] ∧
      ElfClass.ofByte (target.contents.getD 4 0) = some elfClass ∧
      byteOrderOf (target.contents.getD 5 0) = some order := by
  simp only [readIdent, Scan.bind_outcome_eq_ok, Scan.require_outcome_eq_ok,
    Scan.ofOption_outcome_eq_ok, Scan.pure_outcome, Except.ok.injEq, Prod.mk.injEq] at h
  obtain ⟨ident, hident, -, ⟨hlength, hmagic⟩, elfClass', hclass, order', horder, rfl, rfl⟩ := h
  obtain rfl := Except.ok.inj hident
  have hbyte : ∀ i < 16, (byteSlice target.contents 0 16).getD i 0 = target.contents.getD i 0 := by
    intro i hi
    rw [byteSlice, List.drop_zero, List.getD_eq_getElem?_getD, List.getD_eq_getElem?_getD,
      List.getElem?_take_of_lt hi]
  rw [hbyte 4 (by decide)] at hclass
  rw [hbyte 5 (by decide)] at horder
  refine ⟨?_, hclass, horder⟩
  rw [byteSlice, List.drop_zero, List.take_take] at hmagic
  rw [byteSlice, List.drop_zero]
  exact hmagic

theorem exists_eight {values : List ℕ} (h : values.length = 8) :
    ∃ a b c d e f g i, values = [a, b, c, d, e, f, g, i] :=
  match values, h with
  | [a, b, c, d, e, f, g, i], _ => ⟨a, b, c, d, e, f, g, i, rfl⟩

theorem exists_fourteen {values : List ℕ} (h : values.length = 14) :
    ∃ a b c d e f g i j k l m n o, values = [a, b, c, d, e, f, g, i, j, k, l, m, n, o] :=
  match values, h with
  | [a, b, c, d, e, f, g, i, j, k, l, m, n, o], _ => ⟨a, b, c, d, e, f, g, i, j, k, l, m, n, o, rfl⟩

/-- The header is read when it is there, and the fields are those of the file. -/
theorem readHeader_of_length (elfClass : ElfClass) (order : ByteOrder)
    (h : elfClass.headerSize ≤ target.contents.length) :
    (target.readHeader elfClass order).outcome = .ok
      { elfClass := elfClass
        order := order
        eType := numberAt order target.contents (16, 2)
        eMachine := numberAt order target.contents (18, 2)
        eEntry := numberAt order target.contents elfClass.entryPlace
        ePhoff := numberAt order target.contents elfClass.phoffPlace
        ePhentsize := numberAt order target.contents elfClass.phentsizePlace
        ePhnum := numberAt order target.contents elfClass.phnumPlace } := by
  have hlength : (byteSlice target.contents 0 elfClass.headerSize).length = elfClass.headerSize :=
    length_byteSlice h
  have hsum : elfClass.headerSize = elfClass.headerWidths.sum := by cases elfClass <;> rfl
  obtain ⟨values, hvalues⟩ := order.unpack_isSome (hlength.trans hsum)
  have hcount : values.length = 14 := by
    rw [(ByteOrder.length_of_unpack hvalues).2]
    cases elfClass <;> rfl
  simp only [readHeader, Scan.bind_outcome_eq_ok, Scan.require_outcome_eq_ok,
    Scan.ofOption_outcome_eq_ok]
  refine ⟨_, rfl, (), hlength, values, hvalues, ?_⟩
  have hfield : ∀ i width, elfClass.headerWidths[i]? = some width →
      (elfClass.headerWidths.take i).sum + width ≤ elfClass.headerSize →
      values[i]? = some (numberAt order target.contents ((elfClass.headerWidths.take i).sum, width)) := by
    intro i width hi hstop
    have hnumber := numberAt_of_unpack hvalues hi (by omega)
    rwa [Nat.zero_add] at hnumber
  obtain ⟨ident, eType, eMachine, version, eEntry, ePhoff, shoff, flags, ehsize, ePhentsize, ePhnum, shentsize,
    shnum, shstrndx, rfl⟩ := exists_fourteen hcount
  cases elfClass with
  | elf32 =>
    have htype := Option.some.inj (hfield 1 2 rfl (by decide))
    have hmachine := Option.some.inj (hfield 2 2 rfl (by decide))
    have hentry := Option.some.inj (hfield 4 4 rfl (by decide))
    have hphoff := Option.some.inj (hfield 5 4 rfl (by decide))
    have hphentsize := Option.some.inj (hfield 9 2 rfl (by decide))
    have hphnum := Option.some.inj (hfield 10 2 rfl (by decide))
    rw [htype, hmachine, hentry, hphoff, hphentsize, hphnum]
    rfl
  | elf64 =>
    have htype := Option.some.inj (hfield 1 2 rfl (by decide))
    have hmachine := Option.some.inj (hfield 2 2 rfl (by decide))
    have hentry := Option.some.inj (hfield 4 8 rfl (by decide))
    have hphoff := Option.some.inj (hfield 5 8 rfl (by decide))
    have hphentsize := Option.some.inj (hfield 9 2 rfl (by decide))
    have hphnum := Option.some.inj (hfield 10 2 rfl (by decide))
    rw [htype, hmachine, hentry, hphoff, hphentsize, hphnum]
    rfl

/-- A header is read only when it is there. -/
theorem length_of_readHeader {elfClass : ElfClass} {order : ByteOrder} {header : ElfHeader}
    (h : (target.readHeader elfClass order).outcome = .ok header) :
    elfClass.headerSize ≤ target.contents.length := by
  simp only [readHeader, Scan.bind_outcome_eq_ok, Scan.require_outcome_eq_ok] at h
  obtain ⟨data, hdata, -, hlength, -⟩ := h
  obtain rfl := Except.ok.inj hdata
  rw [byteSlice, List.drop_zero, List.length_take] at hlength
  omega

theorem readHeader_safe (elfClass : ElfClass) (order : ByteOrder) :
    ElfSafe target.contents (target.readHeader elfClass order) := by
  rcases Nat.lt_or_ge target.contents.length elfClass.headerSize with hshort | hlength
  · have hslice : (byteSlice target.contents 0 elfClass.headerSize).length ≠ elfClass.headerSize := by
      rw [byteSlice, List.drop_zero, List.length_take]
      omega
    refine ElfSafe.slice_bind (Nat.zero_le _) ?_ ?_
    · intro header hheader
      obtain ⟨_, hrequire, -⟩ := Scan.bind_outcome_eq_ok.mp hheader
      exact absurd (Scan.require_outcome_eq_ok.mp hrequire) hslice
    · refine ElfSafe.require.bind fun _ hrequire => ?_
      exact absurd (Scan.require_outcome_eq_ok.mp hrequire) hslice
  · have hok := target.readHeader_of_length elfClass order hlength
    refine ⟨fun error herror => ?_, fun _ _ => ?_⟩
    · rw [hok] at herror
      cases herror
    · -- the one part that is read is the header
      refine Scan.Inside.bind (Scan.Inside.slice (Nat.zero_le _) hlength) fun data _ => ?_
      refine Scan.Inside.bind (Scan.Inside.of_reads_nil rfl) fun _ _ => ?_
      refine Scan.Inside.bind (Scan.Inside.of_reads_nil rfl) fun values _ => ?_
      split <;> exact Scan.Inside.of_reads_nil rfl

theorem checkTable_safe (header : ElfHeader) : ElfSafe target.contents (target.checkTable header) :=
  ElfSafe.require.bind fun _ _ => ElfSafe.require.bind fun _ _ => ElfSafe.require

/-- The program headers stand in the file. -/
structure TableInside (header : ElfHeader) : Prop where
  size : header.ePhnum ≠ 0 → header.elfClass.expectedPhentsize ≤ header.ePhentsize
  stop : header.ePhnum ≠ 0 →
    header.ePhoff + header.ePhentsize * header.ePhnum ≤ target.contents.length

theorem checkTable_eq_ok {header : ElfHeader} {u : Unit}
    (h : (target.checkTable header).outcome = .ok u) : target.TableInside header := by
  simp only [checkTable, Scan.bind_outcome_eq_ok, Scan.require_outcome_eq_ok] at h
  obtain ⟨-, -, -, hsize, htable⟩ := h
  exact ⟨hsize, fun hne => (htable hne).2⟩

end TargetFile

/-! ### The path to the interpreter -/

namespace ElfHeader

variable (header : ElfHeader) (contents : List UInt8)

/-- Where a program header starts. -/
def phdrStart (index : ℕ) : ℕ := header.ePhoff + index * header.ePhentsize

/-- A field of a program header. -/
def phdrField (index : ℕ) (place : ℕ × ℕ) : ℕ :=
  numberAt header.order contents (header.phdrStart index + place.1, place.2)

/-- The bytes of a segment. -/
def segment (index : ℕ) : List UInt8 :=
  byteSlice contents (header.phdrField contents index header.elfClass.offsetPlace)
    (header.phdrField contents index header.elfClass.offsetPlace +
      header.phdrField contents index header.elfClass.fileszPlace)

/-- The segments of the type `PT_INTERP` among some. -/
def interpreterSegmentsOf (indices : List ℕ) : List (List UInt8) :=
  (indices.filter fun index => header.phdrField contents index (0, 4) == 3).map
    (header.segment contents)

/-- The segments of the type `PT_INTERP`. -/
def interpreterSegments : List (List UInt8) :=
  header.interpreterSegmentsOf contents (List.range header.ePhnum)

end ElfHeader

/-- A segment with a path of the guest and a zero byte at its end. -/
structure HoldsPath (segment : List UInt8) (path : PyStr) : Prop where
  terminated : segment.getLast? = some 0
  decoded : decodeUtf8 segment.dropLast = some path
  guest : IsGuestPath path

namespace TargetFile

variable (target : TargetFile) (header : ElfHeader)

/-- A program header is read when it is there, and the fields are those of the file. -/
theorem readProgramHeader_of_inside (h : target.TableInside header) {index : ℕ}
    (hindex : index < header.ePhnum) :
    (target.readProgramHeader header index).outcome = .ok
        (header.phdrField target.contents index (0, 4),
          header.phdrField target.contents index header.elfClass.offsetPlace,
          header.phdrField target.contents index header.elfClass.fileszPlace) ∧
      ElfSafe target.contents (target.readProgramHeader header index) := by
  have hne : header.ePhnum ≠ 0 := Nat.ne_zero_of_lt hindex
  have hsize := h.size hne
  have hend : header.phdrStart index + header.ePhentsize ≤ target.contents.length := by
    have hrow : (index + 1) * header.ePhentsize ≤ header.ePhnum * header.ePhentsize :=
      Nat.mul_le_mul_right _ hindex
    have hstop := h.stop hne
    rw [Nat.mul_comm header.ePhentsize] at hstop
    rw [Nat.succ_mul] at hrow
    unfold ElfHeader.phdrStart
    omega
  have hlength : (byteSlice target.contents (header.phdrStart index)
      (header.phdrStart index + header.ePhentsize)).length = header.ePhentsize := by
    rw [length_byteSlice hend, Nat.add_sub_cancel_left]
  -- the part of the entry that is unpacked
  have htake : (byteSlice target.contents (header.phdrStart index)
      (header.phdrStart index + header.ePhentsize)).take header.elfClass.expectedPhentsize =
      byteSlice target.contents (header.phdrStart index)
        (header.phdrStart index + header.elfClass.expectedPhentsize) := by
    rw [byteSlice_eq_take_drop, byteSlice_eq_take_drop, List.take_take, Nat.min_eq_left hsize]
  have hslice : (byteSlice target.contents (header.phdrStart index)
      (header.phdrStart index + header.elfClass.expectedPhentsize)).length =
      header.elfClass.phdrWidths.sum := by
    rw [length_byteSlice (by omega), Nat.add_sub_cancel_left]
    cases header.elfClass <;> rfl
  obtain ⟨fields, hfields⟩ := header.order.unpack_isSome hslice
  have hcount : fields.length = 8 := by
    rw [(ByteOrder.length_of_unpack hfields).2]
    cases header.elfClass <;> rfl
  have hfield : ∀ i width, header.elfClass.phdrWidths[i]? = some width →
      (header.elfClass.phdrWidths.take i).sum + width ≤ header.elfClass.expectedPhentsize →
      fields[i]? = some (header.phdrField target.contents index
        ((header.elfClass.phdrWidths.take i).sum, width)) := by
    intro i width hi hstop
    exact numberAt_of_unpack hfields hi (by omega)
  have hread : (target.readProgramHeader header index).outcome = .ok
        (header.phdrField target.contents index (0, 4),
          header.phdrField target.contents index header.elfClass.offsetPlace,
          header.phdrField target.contents index header.elfClass.fileszPlace) := by
    simp only [readProgramHeader, Scan.bind_outcome_eq_ok, Scan.require_outcome_eq_ok,
      Scan.ofOption_outcome_eq_ok]
    refine ⟨_, rfl, (), hlength, fields, ?_, ?_⟩
    · rw [← hfields, ← htake]
      rfl
    obtain ⟨f0, f1, f2, f3, f4, f5, f6, f7, rfl⟩ := exists_eight hcount
    cases hclass : header.elfClass with
    | elf32 =>
      rw [hclass] at hfield
      have htype := Option.some.inj (hfield 0 4 rfl (by decide))
      have hoffset := Option.some.inj (hfield 1 4 rfl (by decide))
      have hfilesz := Option.some.inj (hfield 4 4 rfl (by decide))
      rw [htype, hoffset, hfilesz]
      rfl
    | elf64 =>
      rw [hclass] at hfield
      have htype := Option.some.inj (hfield 0 4 rfl (by decide))
      have hoffset := Option.some.inj (hfield 2 8 rfl (by decide))
      have hfilesz := Option.some.inj (hfield 5 8 rfl (by decide))
      rw [htype, hoffset, hfilesz]
      rfl
  refine ⟨hread, fun error herror => ?_, fun _ _ => ?_⟩
  · rw [hread] at herror
    cases herror
  · refine Scan.Inside.bind (Scan.Inside.slice (Nat.le_add_right _ _) hend) fun data _ => ?_
    refine Scan.Inside.bind (Scan.Inside.of_reads_nil rfl) fun _ _ => ?_
    refine Scan.Inside.bind (Scan.Inside.of_reads_nil rfl) fun fields _ => ?_
    split <;> exact Scan.Inside.of_reads_nil rfl

theorem validateInterpreter_raises {value : PyStr} {error : ElfError}
    (h : validateInterpreter value = .error error) : ∃ text, error = .target text := by
  unfold validateInterpreter validateElfGuestPath at h
  dsimp only at h
  split at h
  · exact ⟨_, (Except.error.inj h).symm⟩
  split at h
  · exact ⟨_, (Except.error.inj h).symm⟩
  split at h
  · exact ⟨_, (Except.error.inj h).symm⟩
  change (if _ then _ else _) = _ at h
  split at h
  · exact ⟨_, (Except.error.inj h).symm⟩
  · cases h

theorem readInterpreter_safe (pOffset pFilesz : ℕ) :
    ElfSafe target.contents (target.readInterpreter pOffset pFilesz) := by
  refine ElfSafe.require.bind fun _ _ => ?_
  refine ElfSafe.require.bind fun _ hrequire => ?_
  refine ElfSafe.slice_bind (Nat.le_add_right _ _)
    (fun _ _ => Scan.require_outcome_eq_ok.mp hrequire) ?_
  refine ElfSafe.require.bind fun _ _ => ElfSafe.require.bind fun _ _ => ?_
  refine ElfSafe.ofOption.bind fun decoded _ => ?_
  exact ⟨fun error herror => validateInterpreter_raises herror,
    fun _ _ => Scan.Inside.of_reads_nil rfl⟩

theorem readInterpreter_eq_ok {pOffset pFilesz : ℕ} {path : PyStr}
    (h : (target.readInterpreter pOffset pFilesz).outcome = .ok path) :
    HoldsPath (byteSlice target.contents pOffset (pOffset + pFilesz)) path := by
  simp only [readInterpreter, Scan.bind_outcome_eq_ok, Scan.require_outcome_eq_ok,
    Scan.ofOption_outcome_eq_ok] at h
  obtain ⟨-, -, -, -, raw, hraw, -, -, -, hlast, decoded, hdecoded, hvalid⟩ := h
  obtain rfl := Except.ok.inj hraw
  obtain ⟨hguest, rfl⟩ := validateInterpreter_eq_ok hvalid
  exact ⟨hlast, hdecoded, hguest⟩

theorem readSegments_safe (h : target.TableInside header) {indices : List ℕ}
    (hindices : ∀ index ∈ indices, index < header.ePhnum) (interpreter : Option PyStr) :
    ElfSafe target.contents (target.readSegments header indices interpreter) := by
  induction indices generalizing interpreter with
  | nil => exact ElfSafe.pure interpreter
  | cons index indices ih =>
    rw [List.forall_mem_cons] at hindices
    refine (target.readProgramHeader_of_inside header h hindices.1).2.bind fun fields _ => ?_
    dsimp only
    split
    · exact ih hindices.2 interpreter
    · refine ElfSafe.require.bind fun _ _ => ?_
      exact (target.readInterpreter_safe _ _).bind fun found _ => ih hindices.2 (some found)

/-- **The loop finds the one segment with a path, if there is one.** -/
theorem readSegments_eq_ok (h : target.TableInside header) {indices : List ℕ}
    (hindices : ∀ index ∈ indices, index < header.ePhnum) {interpreter result : Option PyStr}
    (hread : (target.readSegments header indices interpreter).outcome = .ok result) :
    header.interpreterSegmentsOf target.contents indices = [] ∧ result = interpreter ∨
      interpreter = none ∧ ∃ segment path,
        header.interpreterSegmentsOf target.contents indices = [segment] ∧ result = some path ∧
        HoldsPath segment path := by
  induction indices generalizing interpreter with
  | nil => exact Or.inl ⟨rfl, (Except.ok.inj hread).symm⟩
  | cons index indices ih =>
    rw [List.forall_mem_cons] at hindices
    obtain ⟨fields, hfields, hrest⟩ := Scan.bind_outcome_eq_ok.mp hread
    rw [(target.readProgramHeader_of_inside header h hindices.1).1] at hfields
    obtain rfl := Except.ok.inj hfields
    dsimp only at hrest
    by_cases htype : header.phdrField target.contents index (0, 4) = 3
    · rw [if_neg (not_not.mpr htype)] at hrest
      simp only [Scan.bind_outcome_eq_ok, Scan.require_outcome_eq_ok] at hrest
      obtain ⟨-, hnone, found, hfound, hrest⟩ := hrest
      have hholds := target.readInterpreter_eq_ok hfound
      have hsegments : header.interpreterSegmentsOf target.contents (index :: indices) =
          header.segment target.contents index ::
            header.interpreterSegmentsOf target.contents indices := by
        simp [ElfHeader.interpreterSegmentsOf, htype]
      rcases ih hindices.2 hrest with ⟨hempty, hresult⟩ | ⟨habsurd, -⟩
      · refine Or.inr ⟨hnone, _, found, ?_, hresult, hholds⟩
        rw [hsegments, hempty]
        rfl
      · cases habsurd
    · rw [if_pos htype] at hrest
      have hsegments : header.interpreterSegmentsOf target.contents (index :: indices) =
          header.interpreterSegmentsOf target.contents indices := by
        simp [ElfHeader.interpreterSegmentsOf, htype]
      rw [hsegments]
      exact ih hindices.2 hrest

end TargetFile

/-! ### The descriptor -/

/-- A descriptor that says what stands in a file with this header. -/
structure ElfFaithful (contents : List UInt8) (header : ElfHeader) (d : ElfTargetDescriptor) :
    Prop where
  elfClass : d.elfClass = header.elfClass.bits
  endianness : d.endianness = endianness header.order
  machineId : d.machineId = header.eMachine
  fileTypeId : d.fileTypeId = header.eType
  entryPoint : d.entryPoint = header.eEntry
  single : (header.interpreterSegments contents).length ≤ 1
  none_iff : d.interpreter = none ↔ header.interpreterSegments contents = []
  /-- The path is that of the bytes before the first zero byte of the segment, and it can be looked up. -/
  path : ∀ segment ∈ header.interpreterSegments contents, ∃ path, d.interpreter = some path ∧
    decodeUtf8 (segment.takeWhile (· ≠ 0)) = some path ∧ IsGuestPath path ∧
    ∀ tree, ∃ found, guestPathExists tree path = .ok found

/-- The bytes before the first zero byte are those before the last byte, where only that is zero. -/
theorem takeWhile_of_terminated {segment : List UInt8} (h : segment.getLast? = some 0)
    (hzero : 0 ∉ segment.dropLast) : segment.takeWhile (· ≠ 0) = segment.dropLast := by
  have hsplit : segment = segment.dropLast ++ [0] :=
    (List.dropLast_append_getLast? 0 h).symm
  have hall : ∀ byte ∈ segment.dropLast, decide (byte ≠ 0) = true := by
    intro byte hbyte
    apply decide_eq_true
    rintro rfl
    exact hzero hbyte
  conv_lhs => rw [hsplit]
  rw [List.takeWhile_append_of_pos hall]
  simp

/-- The bytes before the first zero byte give the path only where the last byte is the first. -/
theorem HoldsPath.decoded_iff {segment : List UInt8} {path : PyStr} (h : HoldsPath segment path) :
    decodeUtf8 (segment.takeWhile (· ≠ 0)) = some path ↔ 0 ∉ segment.dropLast := by
  constructor
  · intro hdecoded hzero
    rw [← decodeUtf8_inj hdecoded h.decoded] at hzero
    simpa using List.mem_takeWhile_imp hzero
  · intro hzero
    rw [takeWhile_of_terminated h.terminated hzero]
    exact h.decoded

/-- What the steps of `inspect_elf_target` have done when it returns. -/
theorem inspectElfTarget_eq_ok {sha256 : List UInt8 → PyStr} {target : TargetFile}
    {d : ElfTargetDescriptor} (h : (inspectElfTarget sha256 target).outcome = .ok d) :
    ∃ header interpreter, header.OfBytes target.contents ∧ target.TableInside header ∧
      (target.readSegments header (List.range header.ePhnum) none).outcome = .ok interpreter ∧
      d = target.descriptor sha256 header interpreter := by
  simp only [inspectElfTarget, Scan.bind_outcome_eq_ok, Scan.require_outcome_eq_ok] at h
  obtain ⟨-, -, -, -, -, -, ⟨elfClass, order⟩, hident, header, hheader, _, htable, interpreter,
    hsegments, hdescriptor⟩ := h
  have hlength := target.length_of_readHeader hheader
  rw [target.readHeader_of_length elfClass order hlength] at hheader
  obtain rfl := Except.ok.inj hheader
  obtain ⟨hmagic, hclass, horder⟩ := target.readIdent_eq_ok hident
  exact ⟨_, interpreter, ⟨hlength, hmagic, hclass, horder, rfl, rfl, rfl, rfl, rfl, rfl⟩,
    target.checkTable_eq_ok htable, hsegments, (Except.ok.inj hdescriptor).symm⟩

theorem inspectElfTarget_safe (sha256 : List UInt8 → PyStr) (target : TargetFile) :
    ElfSafe target.contents (inspectElfTarget sha256 target) := by
  refine ElfSafe.require.bind fun _ _ => ElfSafe.require.bind fun _ _ => ?_
  refine ElfSafe.require.bind fun _ hsmall => ?_
  refine (target.readIdent_safe (Scan.require_outcome_eq_ok.mp hsmall)).bind fun ident _ => ?_
  dsimp only
  refine (target.readHeader_safe ident.1 ident.2).bind fun header _ => ?_
  refine (target.checkTable_safe header).bind fun _ hcheck => ?_
  have htable := target.checkTable_eq_ok hcheck
  refine (target.readSegments_safe header htable ?_ none).bind fun _ _ => ElfSafe.pure _
  intro index hindex
  exact List.mem_range.mp hindex

/-- **What is said about a file.**  A file is refused with an `ElfTargetError`, or it is accepted and
what was read lies inside it; then what is said about it is what stands in it, exactly when the segment
with the path to the interpreter, if there is one, has no other zero byte than its last. -/
theorem inspect_elf_target_faithful_iff (sha256 : List UInt8 → PyStr) (target : TargetFile) :
    (∀ error, (inspectElfTarget sha256 target).outcome = .error error →
      ∃ text, error = .target text) ∧
    ∀ d, (inspectElfTarget sha256 target).outcome = .ok d →
      (inspectElfTarget sha256 target).Inside target.contents ∧
      ∃ header : ElfHeader, header.OfBytes target.contents ∧
        (ElfFaithful target.contents header d ↔
          ∀ segment ∈ header.interpreterSegments target.contents, 0 ∉ segment.dropLast) := by
  have hsafe := inspectElfTarget_safe sha256 target
  refine ⟨hsafe.raises, fun d hd => ⟨hsafe.inside d hd, ?_⟩⟩
  obtain ⟨header, interpreter, hbytes, htable, hsegments, rfl⟩ := inspectElfTarget_eq_ok hd
  refine ⟨header, hbytes, ?_⟩
  have hfound := target.readSegments_eq_ok header htable (fun _ h => List.mem_range.mp h) hsegments
  constructor
  · intro hfaithful segment hsegment
    obtain ⟨path, hpath, hdecoded, -⟩ := hfaithful.path segment hsegment
    rcases hfound with ⟨hempty, -⟩ | ⟨-, segment', path', hsingle, rfl, hholds⟩
    · rw [ElfHeader.interpreterSegments, hempty] at hsegment
      exact absurd hsegment List.not_mem_nil
    · rw [ElfHeader.interpreterSegments, hsingle, List.mem_singleton] at hsegment
      subst hsegment
      obtain rfl := Option.some.inj hpath
      exact hholds.decoded_iff.mp hdecoded
  · intro hzero
    rcases hfound with ⟨hempty, rfl⟩ | ⟨-, segment, path, hsingle, rfl, hholds⟩
    · refine ⟨rfl, rfl, rfl, rfl, rfl, ?_, iff_of_true rfl hempty, ?_⟩
      · rw [ElfHeader.interpreterSegments, hempty]
        exact Nat.zero_le 1
      · intro segment hsegment
        rw [ElfHeader.interpreterSegments, hempty] at hsegment
        exact absurd hsegment List.not_mem_nil
    · have hsegment : segment ∈ header.interpreterSegments target.contents := by
        rw [ElfHeader.interpreterSegments, hsingle]
        exact List.mem_singleton_self segment
      have hclean := hzero segment hsegment
      refine ⟨rfl, rfl, rfl, rfl, rfl, ?_, iff_of_false nofun ?_, ?_⟩
      · rw [ElfHeader.interpreterSegments, hsingle]
        exact Nat.le_refl 1
      · rw [ElfHeader.interpreterSegments, hsingle]
        exact List.cons_ne_nil segment []
      · intro segment' hsegment'
        rw [ElfHeader.interpreterSegments, hsingle, List.mem_singleton] at hsegment'
        subst hsegment'
        refine ⟨path, rfl, hholds.decoded_iff.mpr hclean, hholds.guest, ?_⟩
        -- without a zero byte there is no zero character
        have hpath : 0 ∉ path := fun hmem => hclean (zero_mem_of_decodeUtf8 hholds.decoded hmem)
        exact (guestPathExists_total_iff hholds.guest).mpr fun c hc =>
          isPathChar_of_decodeUtf8 hholds.decoded hpath hc

/-- A file for `i386` with one segment, of the type `PT_INTERP` and with these bytes. -/
def interpreterFile (data : List UInt8) : TargetFile where
  path := py "/a"
  isSymlink := false
  isFile := true
  contents :=
    [0x7F, 0x45, 0x4C, 0x46, 1, 1, 1, 0, 0, 0, 0, 0, 0, 0, 0, 0, 2, 0, 3, 0, 1, 0, 0, 0, 0, 0, 0, 0,
      52, 0, 0, 0, 0, 0, 0, 0, 0, 0, 0, 0, 52, 0, 32, 0, 1, 0, 0, 0, 0, 0, 0, 0] ++
    [3, 0, 0, 0, 84, 0, 0, 0, 0, 0, 0, 0, 0, 0, 0, 0, UInt8.ofNat data.length, 0, 0, 0, 0, 0, 0, 0,
      4, 0, 0, 0, 1, 0, 0, 0] ++ data

/-- What is said about such a file with a path. -/
def interpreterDescriptor (path : PyStr) : ElfTargetDescriptor where
  path := py "/a"
  sha256 := []
  elfClass := 32
  endianness := py "little"
  machineId := 3
  machine := py "i386"
  arch := py "i386"
  fileTypeId := 2
  fileType := py "executable"
  interpreter := some path
  static := false
  pie := false
  entryPoint := 0

/-- The path `/a` in a file. -/
theorem inspect_elf_target_faithful_iff_path :
    (inspectElfTarget (fun _ => []) (interpreterFile [47, 97, 0])).outcome =
        .ok (interpreterDescriptor (py "/a")) ∧
      ∃ header : ElfHeader, header.OfBytes (interpreterFile [47, 97, 0]).contents ∧
        (ElfFaithful (interpreterFile [47, 97, 0]).contents header (interpreterDescriptor (py "/a")) ↔
          ∀ segment ∈ header.interpreterSegments (interpreterFile [47, 97, 0]).contents,
            0 ∉ segment.dropLast) := by
  have haccepted : (inspectElfTarget (fun _ => []) (interpreterFile [47, 97, 0])).outcome =
      .ok (interpreterDescriptor (py "/a")) := by decide
  exact ⟨haccepted, ((inspect_elf_target_faithful_iff (fun _ => []) (interpreterFile [47, 97, 0])).2 _
    haccepted).2⟩

/-- A path with a zero byte inside is accepted, and looking it up raises `ValueError`. -/
theorem interpreter_with_zero_raises :
    (inspectElfTarget (fun _ => []) (interpreterFile [47, 97, 0, 98, 0])).outcome =
        .ok (interpreterDescriptor [47, 97, 0, 98]) ∧
      guestPathExists fullTree [47, 97, 0, 98] = .error .value ∧
      ∀ header, ¬ElfFaithful (interpreterFile [47, 97, 0, 98, 0]).contents header
        (interpreterDescriptor [47, 97, 0, 98]) := by
  have hvalid : validateElfGuestPath [47, 97, 0, 98] = .ok ⟨[47], [[97, 0, 98]]⟩ := by decide
  have hraises : guestPathExists fullTree [47, 97, 0, 98] = .error .value := by
    unfold guestPathExists
    rw [if_neg (by decide), hvalid]
    apply resolveGuestPath_raises
    · intro part hpart
      obtain rfl := List.mem_singleton.mp hpart
      exact ⟨⟨by decide, by decide, by decide⟩, by decide⟩
    · exact ⟨[97, 0, 98], List.mem_singleton_self _, 0, by decide, by decide⟩
  refine ⟨by decide, hraises, ?_⟩
  intro header hfaithful
  have hsome : header.interpreterSegments (interpreterFile [47, 97, 0, 98, 0]).contents ≠ [] := by
    intro hempty
    have hnone := hfaithful.none_iff.mpr hempty
    cases hnone
  obtain ⟨segment, rest, hsegments⟩ := List.exists_cons_of_ne_nil hsome
  obtain ⟨path, hpath, -, -, htotal⟩ :=
    hfaithful.path segment (by rw [hsegments]; exact List.mem_cons_self)
  obtain rfl := Option.some.inj hpath
  obtain ⟨found, hfound⟩ := htotal fullTree
  rw [hraises] at hfound
  cases hfound

end TaintForge
