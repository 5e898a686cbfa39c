import TaintForge.Lib.OpenAddr
import Mathlib.Data.List.Basic

/-!
# Interning tables

A growing list of records with an open-addressing index: a bucket holds `0` or the position of a
record plus one.  Records are never removed, so the index has no tombstones.

* `lookup`: the position of the record with a given key.
* `place`, `rehash`, `insert`: adding one entry to the index, rebuilding it, adding a record.
* `WF`: the index lists every record once, where the probe finds it, and has a slot to spare.
  `WF.rehash` and `WF.insert` keep it, and `WF.lookup_eq_some_iff` is what it buys.
-/

namespace OpenAddr

/-- A list of records and the buckets that index it. -/
structure InternTable (ρ : Type*) where
  records : List ρ
  buckets : List ℕ
  deriving DecidableEq, Repr

namespace InternTable

variable {ρ κ : Type*} (key : ρ → κ) (hash : κ → ℕ)

/-- What a probe sees: the key of the record a bucket points to. -/
def view (records : List ρ) (buckets : List ℕ) (i : ℕ) : Cell κ :=
  match buckets.getD i 0 with
  | 0 => .empty
  | id + 1 => ((records[id]?).map fun r => Cell.occupied (key r)).getD .empty

/-- The position of the record with key `k`. -/
def lookup [DecidableEq κ] (t : InternTable ρ) (k : κ) : Option ℕ :=
  match find (view key t.records t.buckets) t.buckets.length (hash k) k with
  | .hit slot => some (t.buckets.getD slot 0 - 1)
  | _ => none

/-- Put `id` into the first empty bucket from the slot `h` selects. -/
def place (buckets : List ℕ) (h id : ℕ) : List ℕ :=
  match firstEmpty (fun slot => buckets.getD slot 0 == 0) (buckets.length - 1) buckets.length
      (h &&& (buckets.length - 1)) with
  | some slot => buckets.set slot id
  | none => buckets

/-- Index the records from position `n` on. -/
def placeAll : List ρ → ℕ → List ℕ → List ℕ
  | [], _, buckets => buckets
  | r :: rest, n, buckets => placeAll rest (n + 1) (place buckets (hash (key r)) (n + 1))

/-- A fresh index of `capacity` buckets over all records. -/
def rehash (t : InternTable ρ) (capacity : ℕ) : InternTable ρ :=
  { t with buckets := placeAll key hash t.records 0 (List.replicate capacity 0) }

/-- Append a record and index it. -/
def insert (t : InternTable ρ) (r : ρ) : InternTable ρ where
  records := t.records ++ [r]
  buckets := place t.buckets (hash (key r)) (t.records.length + 1)

@[simp] theorem length_place (buckets : List ℕ) (h id : ℕ) :
    (place buckets h id).length = buckets.length := by
  unfold place
  split
  · exact List.length_set
  · rfl

@[simp] theorem length_placeAll : ∀ (rest : List ρ) (n : ℕ) (buckets : List ℕ),
    (placeAll key hash rest n buckets).length = buckets.length
  | [], _, _ => rfl
  | r :: rest, n, buckets => by rw [placeAll, length_placeAll rest, length_place]

@[simp] theorem length_rehash (t : InternTable ρ) (capacity : ℕ) :
    (t.rehash key hash capacity).buckets.length = capacity := by
  rw [rehash, length_placeAll, List.length_replicate]

/-! ### The index of the first `n` records -/

/-- The buckets index exactly the first `n` records. -/
structure Indexed (records : List ρ) (buckets : List ℕ) (k n : ℕ) : Prop where
  size : buckets.length = 2 ^ k
  valid : Valid (view key records buckets) (2 ^ k) hash
  id_le : ∀ i < 2 ^ k, buckets.getD i 0 ≤ n
  listed : ∀ j < n, ∃ i < 2 ^ k, buckets.getD i 0 = j + 1
  count_eq : count Cell.isOccupied (view key records buckets) (2 ^ k) = n
  le_length : n ≤ records.length

variable {key hash} {records : List ρ} {buckets : List ℕ} {k n : ℕ}

theorem view_eq_occupied_iff {i : ℕ} {x : κ} : view key records buckets i = .occupied x ↔
    ∃ j r, buckets.getD i 0 = j + 1 ∧ records[j]? = some r ∧ key r = x := by
  unfold view
  cases h : buckets.getD i 0 with
  | zero => simp
  | succ j => cases hr : records[j]? <;> simp [hr]

namespace Indexed

theorem view_eq_empty_iff (h : Indexed key hash records buckets k n) {i : ℕ} (hi : i < 2 ^ k) :
    view key records buckets i = .empty ↔ buckets.getD i 0 = 0 := by
  unfold view
  cases hb : buckets.getD i 0 with
  | zero => simp
  | succ j =>
    have hj := h.id_le i hi
    have hlen := h.le_length
    have hrec : records[j]? = some records[j] := List.getElem?_eq_getElem (by omega)
    simp [hrec]

theorem replicate (key : ρ → κ) (hash : κ → ℕ) (records : List ρ) (k : ℕ) :
    Indexed key hash records (List.replicate (2 ^ k) 0) k 0 := by
  have hzero : ∀ i, (List.replicate (2 ^ k) 0).getD i 0 = 0 := by
    intro i
    rw [List.getD_eq_getElem?_getD, List.getElem?_replicate]
    split_ifs <;> rfl
  have hempty : ∀ i < 2 ^ k, view key records (List.replicate (2 ^ k) 0) i = .empty := by
    intro i _
    rw [view, hzero]
  exact ⟨List.length_replicate, valid_of_forall_empty hempty, fun i _ => (hzero i).le,
    fun j hj => absurd hj (Nat.not_lt_zero j), count_eq_zero_of_forall_empty rfl hempty,
    Nat.zero_le _⟩

/-- A record beyond the indexed ones does not disturb the index. -/
theorem append (h : Indexed key hash records buckets k n) (more : List ρ) :
    Indexed key hash (records ++ more) buckets k n := by
  have hlen := h.le_length
  have hview : ∀ i < 2 ^ k, view key (records ++ more) buckets i = view key records buckets i := by
    intro i hi
    have hid := h.id_le i hi
    unfold view
    cases hb : buckets.getD i 0 with
    | zero => rfl
    | succ j =>
      change Option.getD (Option.map _ (records ++ more)[j]?) _ = _
      rw [List.getElem?_append_left (by omega)]
  have hcap : 0 < 2 ^ k := Nat.two_pow_pos k
  refine ⟨h.size, ⟨fun i j x hi hj => ?_, fun x i hi hocc j hj => ?_⟩, h.id_le, h.listed, ?_, ?_⟩
  · rw [hview i hi, hview j hj]
    exact h.valid.unique i j x hi hj
  · rw [hview _ (pos_lt hcap _ _)] at hocc ⊢
    exact h.valid.reach x i hi hocc j hj
  · rw [← h.count_eq, count, count]
    congr 1
    exact Finset.filter_congr fun i hi => by rw [hview i (Finset.mem_range.mp hi)]
  · rw [List.length_append]; omega

/-- Indexing one more record: the walk finds an empty bucket, and the index stays valid. -/
theorem place (h : Indexed key hash records buckets k n) (hnodup : (records.map key).Nodup)
    {r : ρ} (hr : records[n]? = some r) (hroom : n < 2 ^ k) :
    Indexed key hash records (InternTable.place buckets (hash (key r)) (n + 1)) k (n + 1) := by
  have hnlt : n < records.length := (List.getElem?_eq_some_iff.mp hr).1
  -- some bucket is empty, because only `n` are taken
  obtain ⟨s, hs, hsempty⟩ : ∃ s < 2 ^ k, view key records buckets s = .empty := by
    by_contra hnone
    push Not at hnone
    refine hroom.ne ?_
    rw [← h.count_eq, count, Finset.filter_true_of_mem, Finset.card_range]
    intro i hi
    have hi := Finset.mem_range.mp hi
    have hne : buckets.getD i 0 ≠ 0 := fun h0 => hnone i hi ((h.view_eq_empty_iff hi).mpr h0)
    obtain ⟨j, hj⟩ := Nat.exists_eq_succ_of_ne_zero hne
    have hjlt : j < records.length := by have := h.id_le i hi; omega
    exact Cell.isOccupied_iff.mpr ⟨_, view_eq_occupied_iff.mpr
      ⟨j, records[j], hj, List.getElem?_eq_getElem hjlt, rfl⟩⟩
  obtain ⟨d, hd, hfirst, hdempty, hpath⟩ :=
    exists_firstEmpty (fun slot => buckets.getD slot 0 == 0) (hash (key r)) hs
      (by simpa using (h.view_eq_empty_iff hs).mp hsempty)
  have hplace : InternTable.place buckets (hash (key r)) (n + 1) =
      buckets.set (pos (2 ^ k) (hash (key r)) d) (n + 1) := by
    rw [InternTable.place, h.size, hfirst]
  generalize hpos : pos (2 ^ k) (hash (key r)) d = s' at hplace hdempty
  have hs' : s' < 2 ^ k := hpos ▸ pos_lt (Nat.two_pow_pos k) _ _
  have hget : ∀ i, (buckets.set s' (n + 1)).getD i 0 =
      if i = s' then n + 1 else buckets.getD i 0 := by
    intro i
    rw [List.getD_eq_getElem?_getD, List.getElem?_set, List.getD_eq_getElem?_getD]
    by_cases hi : i = s'
    · subst hi; simp [h.size, hs']
    · rw [if_neg (Ne.symm hi), if_neg hi]
  have hview : view key records (buckets.set s' (n + 1)) =
      Function.update (view key records buckets) s' (.occupied (key r)) := by
    funext i
    by_cases hi : i = s'
    · subst hi
      rw [Function.update_self]
      exact view_eq_occupied_iff.mpr ⟨n, r, by rw [hget, if_pos rfl], hr, rfl⟩
    · rw [Function.update_of_ne hi, view, view, hget, if_neg hi]
  have habsent : ¬ Stored (view key records buckets) (2 ^ k) (key r) := by
    rintro ⟨i, hi, hocc⟩
    obtain ⟨j, r', hj, hr', hkey⟩ := view_eq_occupied_iff.mp hocc
    have hjn : j < n := by have := h.id_le i hi; omega
    refine hjn.ne ((List.getElem?_inj (by simp; omega) hnodup).mp ?_)
    rw [List.getElem?_map, List.getElem?_map, hr, hr', Option.map_some, Option.map_some, hkey]
  rw [hplace]
  refine ⟨by rw [List.length_set, h.size], ?_, fun i hi => ?_, fun j hj => ?_, ?_, hnlt⟩
  · rw [hview, ← hpos]
    refine h.valid.storeAt hd habsent fun l hl hempty => ?_
    have hl0 := (h.view_eq_empty_iff (pos_lt (Nat.two_pow_pos k) _ _)).mp hempty
    have hpl := hpath l hl
    simp only [hl0] at hpl
    cases hpl
  · rw [hget]
    have := h.id_le i hi
    split_ifs <;> omega
  · rcases Nat.eq_or_lt_of_le (Nat.le_of_lt_succ hj) with rfl | hlt
    · exact ⟨s', hs', by rw [hget, if_pos rfl]⟩
    · obtain ⟨i, hi, hij⟩ := h.listed j hlt
      refine ⟨i, hi, ?_⟩
      rw [hget, if_neg, hij]
      rintro rfl
      simp only [hij] at hdempty
      cases hdempty
  · have hempty' : view key records buckets s' = .empty :=
      (h.view_eq_empty_iff hs').mpr (by simpa using hdempty)
    have hcount := count_update Cell.isOccupied (view key records buckets) hs'
      (.occupied (key r))
    rw [hempty', h.count_eq] at hcount
    rw [hview]
    simpa using hcount

theorem placeAll (hnodup : (records.map key).Nodup) (hroom : records.length ≤ 2 ^ k) :
    ∀ (rest : List ρ) (n : ℕ) (buckets : List ℕ), records.drop n = rest →
      Indexed key hash records buckets k n →
        Indexed key hash records (InternTable.placeAll key hash rest n buckets) k
          records.length := by
  intro rest
  induction rest with
  | nil =>
    intro n buckets hdrop h
    have hn : n = records.length :=
      le_antisymm h.le_length (List.drop_eq_nil_iff.mp hdrop)
    rw [InternTable.placeAll, ← hn]
    exact h
  | cons r rest ih =>
    intro n buckets hdrop h
    have hr : records[n]? = some r := by
      rw [← List.head?_drop, hdrop, List.head?_cons]
    have hnlt : n < records.length := (List.getElem?_eq_some_iff.mp hr).1
    rw [InternTable.placeAll]
    refine ih (n + 1) _ ?_ (h.place hnodup hr (by omega))
    rw [← List.tail_drop, hdrop, List.tail_cons]

end Indexed

/-! ### Well-formed tables -/

/-- The index lists every record, no two records share a key, and a bucket is free. -/
structure WF (key : ρ → κ) (hash : κ → ℕ) (t : InternTable ρ) : Prop where
  indexed : ∃ k, Indexed key hash t.records t.buckets k t.records.length
  nodup : (t.records.map key).Nodup
  room : t.records.length < t.buckets.length

namespace WF

variable {t : InternTable ρ}

theorem lookup_eq_some_iff [DecidableEq κ] (h : WF key hash t) {x : κ} {j : ℕ} :
    lookup key hash t x = some j ↔ ∃ r, t.records[j]? = some r ∧ key r = x := by
  obtain ⟨k, hk⟩ := h.indexed
  have hhit := find_eq_hit_iff hk.valid x
  unfold lookup
  rw [hk.size]
  constructor
  · intro hl
    cases hfind : find (view key t.records t.buckets) (2 ^ k) (hash x) x with
    | hit s =>
      rw [hfind] at hl
      obtain ⟨j', r, hj', hr, hkey⟩ := view_eq_occupied_iff.mp ((hhit s).mp hfind).2
      obtain rfl : t.buckets.getD s 0 - 1 = j := by simpa using hl
      exact ⟨r, by rw [hj', Nat.add_sub_cancel, hr], hkey⟩
    | free s => rw [hfind] at hl; simp at hl
    | full => rw [hfind] at hl; simp at hl
  · rintro ⟨r, hr, hkey⟩
    have hjlt : j < t.records.length := (List.getElem?_eq_some_iff.mp hr).1
    obtain ⟨i, hi, hij⟩ := hk.listed j hjlt
    have hocc := view_eq_occupied_iff.mpr ⟨j, r, hij, hr, hkey⟩
    rw [(hhit i).mpr ⟨hi, hocc⟩]
    simp only [hij, Nat.add_sub_cancel]

theorem lookup_eq_none_iff [DecidableEq κ] (h : WF key hash t) {x : κ} :
    lookup key hash t x = none ↔ ∀ r ∈ t.records, key r ≠ x := by
  rw [Option.eq_none_iff_forall_not_mem]
  constructor
  · intro hnone r hr hkey
    obtain ⟨j, hj⟩ := List.mem_iff_getElem?.mp hr
    exact hnone j (h.lookup_eq_some_iff.mpr ⟨r, hj, hkey⟩)
  · intro hall j hj
    obtain ⟨r, hr, hkey⟩ := h.lookup_eq_some_iff.mp hj
    exact hall r (List.mem_of_getElem? hr) hkey

/-- Rebuilding the index with a larger power of two. -/
theorem rehash (h : WF key hash t) {k : ℕ} (hroom : t.records.length < 2 ^ k) :
    WF key hash (t.rehash key hash (2 ^ k)) := by
  have hidx := Indexed.placeAll h.nodup hroom.le t.records 0 _ rfl
    (Indexed.replicate key hash t.records k)
  refine ⟨⟨k, hidx⟩, h.nodup, ?_⟩
  exact hroom.trans_eq hidx.size.symm

/-- Adding a record with a new key, when two buckets are free. -/
theorem insert (h : WF key hash t) {r : ρ} (hfresh : ∀ r' ∈ t.records, key r' ≠ key r)
    (hroom : t.records.length + 1 < t.buckets.length) :
    WF key hash (t.insert key hash r) := by
  obtain ⟨k, hk⟩ := h.indexed
  have hnodup : ((t.records ++ [r]).map key).Nodup := by
    rw [List.map_append, List.map_singleton, List.nodup_append]
    refine ⟨h.nodup, List.nodup_singleton _, ?_⟩
    intro x hx y hy
    obtain ⟨r', hr', rfl⟩ := List.mem_map.mp hx
    rw [List.mem_singleton.mp hy]
    exact hfresh r' hr'
  have hnew : (t.records ++ [r])[t.records.length]? = some r := by simp
  have hidx := (hk.append [r]).place hnodup hnew (by rw [hk.size] at hroom; omega)
  have hlen : (t.insert key hash r).records.length = t.records.length + 1 :=
    List.length_append
  refine ⟨⟨k, by rw [hlen]; exact hidx⟩, hnodup, ?_⟩
  change List.length (t.records ++ [r]) < List.length (InternTable.place _ _ _)
  rw [hidx.size, ← hk.size, List.length_append]
  exact hroom

/-- Changing records without changing their keys. -/
theorem congr_keys (h : WF key hash t) {records : List ρ}
    (hkeys : records.map key = t.records.map key) : WF key hash ⟨records, t.buckets⟩ := by
  have hlen : records.length = t.records.length := by
    simpa using congrArg List.length hkeys
  have hview : view key records t.buckets = view key t.records t.buckets := by
    funext i
    unfold view
    cases t.buckets.getD i 0 with
    | zero => rfl
    | succ id =>
      have hget := congrArg (fun l : List κ => (l[id]?).map Cell.occupied) hkeys
      simp only [List.getElem?_map, Option.map_map] at hget
      exact congrArg (fun c => Option.getD c Cell.empty) hget
  obtain ⟨k, hk⟩ := h.indexed
  refine ⟨⟨k, hk.size, ?_, ?_, ?_, ?_, le_rfl⟩, ?_, ?_⟩
  · rw [hview]; exact hk.valid
  · rw [hlen]; exact hk.id_le
  · rw [hlen]; exact hk.listed
  · rw [hview, hlen]; exact hk.count_eq
  · rw [hkeys]; exact h.nodup
  · exact hlen ▸ h.room

end WF

theorem wf_empty (key : ρ → κ) (hash : κ → ℕ) (k : ℕ) :
    WF key hash ⟨[], List.replicate (2 ^ k) 0⟩ :=
  ⟨⟨k, Indexed.replicate key hash [] k⟩, List.nodup_nil, by simp⟩

end InternTable

end OpenAddr
