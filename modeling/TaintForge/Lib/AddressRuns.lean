import Mathlib.Data.List.Basic
import Mathlib.Data.List.Flatten

/-!
# Runs of memory

Pieces of memory, each with an address, its contents and a tag.  Pieces that follow each other without a gap and
have the same tag are merged into one; what is at an address, and with which tag, stays the same.  The contents
of some of the pieces are then placed in a file, one after another.

* `runs`: the merging, from left to right.
* `runs_cell`, `runs_flatMap`: it keeps what is at an address, and the contents in their order.
* `runsFrom_of_isChain`: pieces without gaps between them are a single run.
* `place`, `place_slice`: the offsets in the file, where each piece is found again.
-/

namespace TaintForge.Runs

/-- A piece of memory. -/
structure Piece (κ α : Type*) where
  addr : ℕ
  data : List α
  tag : κ

variable {κ α : Type*}

namespace Piece

/-- The address behind the piece. -/
def stop (p : Piece κ α) : ℕ := p.addr + p.data.length

/-- What the piece has at an address. -/
def cell (p : Piece κ α) (a : ℕ) : Option α := if p.addr ≤ a then p.data[a - p.addr]? else none

theorem cell_eq_some {p : Piece κ α} {a : ℕ} {x : α} :
    p.cell a = some x ↔ p.addr ≤ a ∧ p.data[a - p.addr]? = some x := by
  unfold cell
  split
  · rename_i h
    rw [and_iff_right h]
  · rename_i h
    exact iff_of_false nofun fun hboth => h hboth.1

theorem cell_isSome {p : Piece κ α} {a : ℕ} : (p.cell a).isSome = true ↔ p.addr ≤ a ∧ a < p.stop := by
  unfold cell stop
  split
  · rename_i h
    rw [Option.isSome_iff_ne_none, Ne, List.getElem?_eq_none_iff]
    omega
  · rename_i h
    exact iff_of_false Bool.false_ne_true fun hboth => h hboth.1

/-- The piece with another one behind it. -/
def append (p q : Piece κ α) : Piece κ α := { p with data := p.data ++ q.data }

/-- Where nothing is between two pieces, an address of both is one of either. -/
theorem append_cell {p q : Piece κ α} (h : q.addr = p.stop) (a : ℕ) (x : α) :
    (p.append q).cell a = some x ↔ p.cell a = some x ∨ q.cell a = some x := by
  rw [cell_eq_some, cell_eq_some, cell_eq_some, h]
  unfold append stop
  dsimp only
  rw [List.getElem?_append]
  split
  · rename_i hlt
    constructor
    · exact Or.inl
    · rintro (hp | ⟨hle, -⟩)
      · exact hp
      · omega
  · rename_i hge
    have hindex : a - p.addr - p.data.length = a - (p.addr + p.data.length) := by omega
    rw [hindex]
    constructor
    · rintro ⟨hle, hx⟩
      exact Or.inr ⟨by omega, hx⟩
    · rintro (⟨-, hx⟩ | ⟨hle, hx⟩)
      · rw [List.getElem?_eq_none (by omega)] at hx
        cases hx
      · exact ⟨by omega, hx⟩

end Piece

/-- The first piece ends before the second begins. -/
def Before (p q : Piece κ α) : Prop := p.stop ≤ q.addr

variable [DecidableEq κ]

/-- The runs of a piece and the ones after it. -/
def runsFrom (current : Piece κ α) : List (Piece κ α) → List (Piece κ α)
  | [] => [current]
  | p :: pieces =>
    if p.addr = current.stop ∧ p.tag = current.tag then runsFrom (current.append p) pieces
    else current :: runsFrom p pieces

/-- The runs of a list of pieces. -/
def runs : List (Piece κ α) → List (Piece κ α)
  | [] => []
  | p :: pieces => runsFrom p pieces

theorem runsFrom_cell (current : Piece κ α) (pieces : List (Piece κ α)) (tag : κ) (a : ℕ) (x : α) :
    (∃ r ∈ runsFrom current pieces, r.tag = tag ∧ r.cell a = some x) ↔
      ∃ p ∈ current :: pieces, p.tag = tag ∧ p.cell a = some x := by
  induction pieces generalizing current with
  | nil => rfl
  | cons p pieces ih =>
    unfold runsFrom
    split
    · rename_i h
      rw [ih]
      simp only [List.exists_mem_cons_iff, Piece.append_cell h.1, h.2]
      show (current.tag = tag ∧ _) ∨ _ ↔ _
      tauto
    · rw [List.exists_mem_cons_iff, ih, List.exists_mem_cons_iff, List.exists_mem_cons_iff,
        List.exists_mem_cons_iff]

/-- **What is at an address does not change**, nor does its tag. -/
theorem runs_cell (pieces : List (Piece κ α)) (tag : κ) (a : ℕ) (x : α) :
    (∃ r ∈ runs pieces, r.tag = tag ∧ r.cell a = some x) ↔
      ∃ p ∈ pieces, p.tag = tag ∧ p.cell a = some x := by
  cases pieces with
  | nil => rfl
  | cons p pieces => exact runsFrom_cell p pieces tag a x

/-- What the runs with some of the tags have at an address is what the pieces with these tags have there. -/
theorem exists_mem_runs_cell (P : κ → Prop) (pieces : List (Piece κ α)) (a : ℕ) (x : α) :
    (∃ r ∈ runs pieces, P r.tag ∧ r.cell a = some x) ↔ ∃ p ∈ pieces, P p.tag ∧ p.cell a = some x := by
  constructor
  · rintro ⟨r, hr, hP, hx⟩
    obtain ⟨p, hp, htag, hx⟩ := (runs_cell pieces r.tag a x).mp ⟨r, hr, rfl, hx⟩
    exact ⟨p, hp, htag ▸ hP, hx⟩
  · rintro ⟨p, hp, hP, hx⟩
    obtain ⟨r, hr, htag, hx⟩ := (runs_cell pieces p.tag a x).mpr ⟨p, hp, rfl, hx⟩
    exact ⟨r, hr, htag ▸ hP, hx⟩

/-- The addresses of the runs are those of the pieces. -/
theorem exists_mem_runs (P : κ → Prop) (pieces : List (Piece κ α)) (a : ℕ) :
    (∃ r ∈ runs pieces, P r.tag ∧ (r.cell a).isSome = true) ↔
      ∃ p ∈ pieces, P p.tag ∧ (p.cell a).isSome = true := by
  simp only [Option.isSome_iff_exists]
  constructor
  · rintro ⟨r, hr, hP, x, hx⟩
    obtain ⟨p, hp, hP, hx⟩ := (exists_mem_runs_cell P pieces a x).mp ⟨r, hr, hP, hx⟩
    exact ⟨p, hp, hP, x, hx⟩
  · rintro ⟨p, hp, hP, x, hx⟩
    obtain ⟨r, hr, hP, hx⟩ := (exists_mem_runs_cell P pieces a x).mpr ⟨p, hp, hP, hx⟩
    exact ⟨r, hr, hP, x, hx⟩

theorem runsFrom_flatMap (keep : κ → Bool) (current : Piece κ α) (pieces : List (Piece κ α)) :
    ((runsFrom current pieces).filter fun r => keep r.tag).flatMap Piece.data =
      ((current :: pieces).filter fun p => keep p.tag).flatMap Piece.data := by
  induction pieces generalizing current with
  | nil => rfl
  | cons p pieces ih =>
    unfold runsFrom
    split
    · rename_i h
      rw [ih, List.filter_cons, List.filter_cons, List.filter_cons, h.2]
      show List.flatMap _ (if keep current.tag = true then _ else _) = _
      split
      · simp only [List.flatMap_cons, Piece.append, List.append_assoc]
      · rfl
    · rw [List.filter_cons, List.filter_cons]
      split
      · rw [List.flatMap_cons, List.flatMap_cons, ih]
      · exact ih p

/-- The contents of the pieces with some of the tags stay the same, in their order. -/
theorem runs_flatMap (keep : κ → Bool) (pieces : List (Piece κ α)) :
    ((runs pieces).filter fun r => keep r.tag).flatMap Piece.data =
      (pieces.filter fun p => keep p.tag).flatMap Piece.data := by
  cases pieces with
  | nil => rfl
  | cons p pieces => exact runsFrom_flatMap keep p pieces

/-- A property of the addresses and tags of the pieces holds of the runs. -/
theorem forall_mem_runsFrom {P : ℕ → κ → Prop} {current : Piece κ α} {pieces : List (Piece κ α)}
    (h : ∀ p ∈ current :: pieces, P p.addr p.tag) : ∀ r ∈ runsFrom current pieces, P r.addr r.tag := by
  induction pieces generalizing current with
  | nil => exact h
  | cons p pieces ih =>
    obtain ⟨hcurrent, hpieces⟩ := List.forall_mem_cons.mp h
    unfold runsFrom
    split
    · exact ih (List.forall_mem_cons.mpr ⟨hcurrent, (List.forall_mem_cons.mp hpieces).2⟩)
    · exact List.forall_mem_cons.mpr ⟨hcurrent, ih hpieces⟩

/-- Pieces one after another give runs one after another. -/
theorem runsFrom_pairwise {current : Piece κ α} {pieces : List (Piece κ α)}
    (h : (current :: pieces).Pairwise Before) : (runsFrom current pieces).Pairwise Before := by
  induction pieces generalizing current with
  | nil => exact h
  | cons p pieces ih =>
    obtain ⟨hcurrent, hpieces⟩ := List.pairwise_cons.mp h
    unfold runsFrom
    split
    · rename_i hnext
      apply ih
      refine List.pairwise_cons.mpr ⟨fun q hq => ?_, (List.pairwise_cons.mp hpieces).2⟩
      have hbefore : p.stop ≤ q.addr := (List.pairwise_cons.mp hpieces).1 q hq
      have hstop : (current.append p).stop = p.stop := by
        unfold Piece.stop Piece.append at *
        rw [List.length_append, hnext.1, Nat.add_assoc]
      show (current.append p).stop ≤ q.addr
      rw [hstop]
      exact hbefore
    · refine List.pairwise_cons.mpr ⟨fun r hr => ?_, ih hpieces⟩
      exact forall_mem_runsFrom (P := fun addr _ => current.stop ≤ addr) hcurrent r hr

theorem runs_pairwise {pieces : List (Piece κ α)} (h : pieces.Pairwise Before) :
    (runs pieces).Pairwise Before := by
  cases pieces with
  | nil => exact h
  | cons p pieces => exact runsFrom_pairwise h

/-- A run has the address and the tag of a piece. -/
theorem forall_mem_runs {P : ℕ → κ → Prop} {pieces : List (Piece κ α)} (h : ∀ p ∈ pieces, P p.addr p.tag) :
    ∀ r ∈ runs pieces, P r.addr r.tag := by
  cases pieces with
  | nil => exact fun r hr => absurd hr List.not_mem_nil
  | cons p pieces => exact forall_mem_runsFrom h

/-- The lengths of the runs are multiples where those of the pieces are. -/
theorem dvd_of_mem_runsFrom {n : ℕ} {current : Piece κ α} {pieces : List (Piece κ α)}
    (h : ∀ p ∈ current :: pieces, n ∣ p.data.length) : ∀ r ∈ runsFrom current pieces, n ∣ r.data.length := by
  induction pieces generalizing current with
  | nil => exact h
  | cons p pieces ih =>
    obtain ⟨hcurrent, hpieces⟩ := List.forall_mem_cons.mp h
    unfold runsFrom
    split
    · refine ih (List.forall_mem_cons.mpr ⟨?_, (List.forall_mem_cons.mp hpieces).2⟩)
      show n ∣ (current.data ++ p.data).length
      rw [List.length_append]
      exact Nat.dvd_add hcurrent (hpieces p List.mem_cons_self)
    · exact List.forall_mem_cons.mpr ⟨hcurrent, ih hpieces⟩

theorem dvd_of_mem_runs {n : ℕ} {pieces : List (Piece κ α)} (h : ∀ p ∈ pieces, n ∣ p.data.length) :
    ∀ r ∈ runs pieces, n ∣ r.data.length := by
  cases pieces with
  | nil => exact fun r hr => absurd hr List.not_mem_nil
  | cons p pieces => exact dvd_of_mem_runsFrom h

/-- Pieces that follow each other without a gap, with one tag, are a single run. -/
theorem runsFrom_of_isChain {current : Piece κ α} {pieces : List (Piece κ α)}
    (h : (current :: pieces).IsChain fun p q => q.addr = p.stop ∧ q.tag = p.tag) :
    runsFrom current pieces = [⟨current.addr, (current :: pieces).flatMap Piece.data, current.tag⟩] := by
  induction pieces generalizing current with
  | nil =>
    rw [runsFrom, List.flatMap_cons, List.flatMap_nil, List.append_nil]
  | cons p pieces ih =>
    obtain ⟨hnext, hpieces⟩ := List.isChain_cons_cons.mp h
    have hstop : (current.append p).stop = p.stop := by
      show current.addr + (current.data ++ p.data).length = p.addr + p.data.length
      rw [List.length_append, hnext.1, Piece.stop, Nat.add_assoc]
    have hchain : (current.append p :: pieces).IsChain fun p q => q.addr = p.stop ∧ q.tag = p.tag := by
      cases pieces with
      | nil => exact .singleton _
      | cons q pieces =>
        obtain ⟨⟨haddr, htag⟩, hrest⟩ := List.isChain_cons_cons.mp hpieces
        exact List.isChain_cons_cons.mpr ⟨⟨haddr.trans hstop.symm, htag.trans hnext.2⟩, hrest⟩
    rw [runsFrom, if_pos hnext, ih hchain]
    show [Piece.mk current.addr ((current.data ++ p.data) ++ pieces.flatMap Piece.data) current.tag] = _
    rw [List.append_assoc]
    rfl

/-! ### Offsets in a file -/

omit [DecidableEq κ]

/-- The pieces with their offsets, where the file holds the contents of some of them. -/
def place (keep : κ → Bool) : ℕ → List (Piece κ α) → List (ℕ × Piece κ α)
  | _, [] => []
  | offset, p :: pieces =>
    (offset, p) :: place keep (if keep p.tag = true then offset + p.data.length else offset) pieces

variable {keep : κ → Bool}

theorem place_map_snd (keep : κ → Bool) (offset : ℕ) (pieces : List (Piece κ α)) :
    (place keep offset pieces).map Prod.snd = pieces := by
  induction pieces generalizing offset with
  | nil => rfl
  | cons p pieces ih => exact congrArg (p :: ·) (ih _)

theorem exists_mem_place (keep : κ → Bool) (P : Piece κ α → Prop) (offset : ℕ) (pieces : List (Piece κ α)) :
    (∃ placed ∈ place keep offset pieces, P placed.2) ↔ ∃ p ∈ pieces, P p := by
  conv_rhs => rw [← place_map_snd keep offset pieces]
  simp only [List.mem_map, exists_exists_and_eq_and]

theorem le_of_mem_place {offset : ℕ} {pieces : List (Piece κ α)} :
    ∀ placed ∈ place keep offset pieces, offset ≤ placed.1 := by
  induction pieces generalizing offset with
  | nil => exact fun placed h => absurd h List.not_mem_nil
  | cons p pieces ih =>
    refine List.forall_mem_cons.mpr ⟨Nat.le_refl _, fun placed h => ?_⟩
    have hle := ih placed h
    split at hle <;> omega

/-- A piece that the file holds ends before the contents do. -/
theorem stop_le_of_mem_place {offset : ℕ} {pieces : List (Piece κ α)} :
    ∀ placed ∈ place keep offset pieces, keep placed.2.tag = true →
      placed.1 + placed.2.data.length ≤
        offset + ((pieces.filter fun p => keep p.tag).flatMap Piece.data).length := by
  induction pieces generalizing offset with
  | nil => exact fun placed h => absurd h List.not_mem_nil
  | cons p pieces ih =>
    rw [List.filter_cons]
    refine List.forall_mem_cons.mpr ⟨fun hkeep => ?_, fun placed h hkeep => ?_⟩
    · rw [if_pos hkeep, List.flatMap_cons, List.length_append]
      dsimp only
      omega
    · have hle := ih placed h hkeep
      split at hle
      · rename_i hp
        rw [if_pos hp, List.flatMap_cons, List.length_append]
        omega
      · rename_i hp
        rw [if_neg hp]
        exact hle

/-- In the file the pieces are in their order. -/
theorem place_pairwise (offset : ℕ) (pieces : List (Piece κ α)) :
    (place keep offset pieces).Pairwise fun p q => keep p.2.tag = true → p.1 + p.2.data.length ≤ q.1 := by
  induction pieces generalizing offset with
  | nil => exact .nil
  | cons p pieces ih =>
    refine List.pairwise_cons.mpr ⟨fun q hq hkeep => ?_, ih _⟩
    have hle := le_of_mem_place q hq
    rw [if_pos hkeep] at hle
    exact hle

/-- The offsets are multiples where the first one and the lengths are. -/
theorem dvd_of_mem_place {n offset : ℕ} (hoffset : n ∣ offset) {pieces : List (Piece κ α)}
    (h : ∀ p ∈ pieces, n ∣ p.data.length) : ∀ placed ∈ place keep offset pieces, n ∣ placed.1 := by
  induction pieces generalizing offset with
  | nil => exact fun placed hplaced => absurd hplaced List.not_mem_nil
  | cons p pieces ih =>
    obtain ⟨hp, hpieces⟩ := List.forall_mem_cons.mp h
    refine List.forall_mem_cons.mpr ⟨hoffset, ih ?_ hpieces⟩
    split
    · exact Nat.dvd_add hoffset hp
    · exact hoffset

/-- **Each piece that the file holds is found at its offset.** -/
theorem place_slice (front back : List α) (pieces : List (Piece κ α)) :
    ∀ placed ∈ place keep front.length pieces, keep placed.2.tag = true →
      ((front ++ ((pieces.filter fun p => keep p.tag).flatMap Piece.data) ++ back).drop placed.1).take
        placed.2.data.length = placed.2.data := by
  induction pieces generalizing front with
  | nil => exact fun placed h => absurd h List.not_mem_nil
  | cons p pieces ih =>
    rw [List.filter_cons]
    refine List.forall_mem_cons.mpr ⟨fun hkeep => ?_, fun placed h hkeep => ?_⟩
    · rw [if_pos hkeep, List.append_assoc, List.drop_left, List.flatMap_cons, List.append_assoc,
        List.take_left]
    · replace h : placed ∈ place keep (if keep p.tag = true then front.length + p.data.length
        else front.length) pieces := h
      split
      · rename_i hp
        rw [if_pos hp, ← List.length_append] at h
        have hslice := ih (front ++ p.data) placed h hkeep
        rw [List.flatMap_cons, ← List.append_assoc]
        exact hslice
      · rename_i hp
        rw [if_neg hp] at h
        exact ih front placed h hkeep

end TaintForge.Runs
