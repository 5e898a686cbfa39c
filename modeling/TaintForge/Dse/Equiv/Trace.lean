import TaintForge.Dse.Trace
import Mathlib.Data.List.Pairwise
import Mathlib.Data.Nat.Bitwise

/-!
# The ids of a trace decrease backwards

`TraceReachable` are the traces that can come about: created, appended to, annotated and reset in
any order.  In each of them an entry further back has a smaller sequence id
(`TraceReachable.seqId_lt`), so an id is found at one place only.
-/

namespace TaintForge

/-- The traces that appending, annotating and resetting lead to. -/
inductive TraceReachable : TraceBuffer → Prop
  | create {capacity : ℕ} {tb : TraceBuffer} (hsmall : capacity < 2 ^ 32)
      (hcreate : traceBufferCreate capacity = some tb) : TraceReachable tb
  | append {tb : TraceBuffer} (h : TraceReachable tb) (entry : TraceEntry) :
      TraceReachable (traceAppend tb entry)
  | control {tb : TraceBuffer} (h : TraceReachable tb) (seqId edgeId targetLabel : ℕ) :
      TraceReachable (traceRecordControlTransfer tb seqId edgeId targetLabel)
  | reset {tb : TraceBuffer} (h : TraceReachable tb) : TraceReachable (traceReset tb)

/-- The ids read back from the trace. -/
def seqIdBack (tb : TraceBuffer) (i : ℕ) : Option ℕ := (traceGetLast tb i).map TraceEntry.seqId

/-- The ring is in order, the ids decrease backwards and are below the next one, if there is a
next one. -/
structure TraceBuffer.WF (tb : TraceBuffer) (k : ℕ) : Prop where
  ring : tb.entries.WF k
  next_lt : tb.nextSeqId < 2 ^ 64
  decreasing : ∀ i j a b, i < j → seqIdBack tb i = some a → seqIdBack tb j = some b → b < a
  fresh : ∀ i a, seqIdBack tb i = some a → 0 < a ∧ (tb.nextSeqId ≠ 0 → a < tb.nextSeqId)

theorem seqIdBack_eq_some {tb : TraceBuffer} {i a : ℕ} :
    seqIdBack tb i = some a ↔ ∃ entry, traceGetLast tb i = some entry ∧ entry.seqId = a :=
  Option.map_eq_some_iff

theorem seqIdBack_lt_count {tb : TraceBuffer} {i a : ℕ} (h : seqIdBack tb i = some a) :
    i < tb.entries.count := by
  by_contra hge
  rw [seqIdBack, traceGetLast, RingBuffer.getLast_eq_none (Nat.not_lt.mp hge)] at h
  cases h

theorem TraceBuffer.WF.create {capacity : ℕ} {tb : TraceBuffer} (hsmall : capacity < 2 ^ 32)
    (hcreate : traceBufferCreate capacity = some tb) : ∃ k, tb.WF k := by
  unfold traceBufferCreate at hcreate
  split_ifs at hcreate with hpower
  obtain rfl := Option.some.inj hcreate
  obtain ⟨k, rfl⟩ := Nat.ne_zero_and_sub_one_eq_zero_iff_isPowerOfTwo.mp
    ⟨Nat.ne_of_gt hpower.1, hpower.2⟩
  have hnone : ∀ i, seqIdBack ⟨RingBuffer.create (2 ^ k), 1⟩ i = none := fun i => by
    rw [seqIdBack, traceGetLast, RingBuffer.getLast_eq_none (Nat.zero_le i)]
    rfl
  refine ⟨k, ⟨RingBuffer.WF.create ?_, Nat.one_lt_two_pow (by decide), ?_, ?_⟩⟩
  · exact ((Nat.pow_lt_pow_iff_right (by decide)).mp hsmall).le
  · intro i j a b _ ha _
    rw [hnone] at ha
    cases ha
  · intro i a ha
    rw [hnone] at ha
    cases ha

/-- An appended entry is the newest, the others move back. -/
theorem seqIdBack_push {tb : TraceBuffer} {k : ℕ} (h : tb.entries.WF k) (entry : TraceEntry)
    (next i a : ℕ) (ha : seqIdBack ⟨tb.entries.push entry, next⟩ i = some a) :
    (i = 0 ∧ a = entry.seqId) ∨ ∃ j, i = j + 1 ∧ seqIdBack tb j = some a := by
  cases i with
  | zero =>
    left
    rw [seqIdBack, traceGetLast, h.getLast_push_zero] at ha
    exact ⟨rfl, (Option.some.inj ha).symm⟩
  | succ j =>
    right
    refine ⟨j, rfl, ?_⟩
    have hlt : j + 1 < 2 ^ k := (seqIdBack_lt_count ha).trans_le (h.push entry).count_le
    rw [seqIdBack, traceGetLast, h.getLast_push_succ _ hlt] at ha
    exact ha

theorem TraceBuffer.WF.append {tb : TraceBuffer} {k : ℕ} (h : tb.WF k) (entry : TraceEntry) :
    (traceAppend tb entry).WF k := by
  unfold traceAppend
  split_ifs with hnext
  · exact h
  have hback := seqIdBack_push h.ring { entry with seqId := tb.nextSeqId }
    ((tb.nextSeqId + 1) % 2 ^ 64)
  refine ⟨h.ring.push _, Nat.mod_lt _ (Nat.two_pow_pos 64), ?_, ?_⟩
  · intro i j a b hij ha hb
    obtain ⟨rfl, rfl⟩ | ⟨i', rfl, ha'⟩ := hback i a ha
    · -- the new id is above all others
      obtain ⟨rfl, -⟩ | ⟨j', rfl, hb'⟩ := hback j b hb
      · omega
      · exact (h.fresh j' b hb').2 hnext
    · obtain ⟨rfl, -⟩ | ⟨j', rfl, hb'⟩ := hback j b hb
      · omega
      · exact h.decreasing i' j' a b (by omega) ha' hb'
  · intro i a ha
    have hlt : a < tb.nextSeqId + 1 ∧ 0 < a := by
      obtain ⟨-, rfl⟩ | ⟨i', -, ha'⟩ := hback i a ha
      · exact ⟨Nat.lt_succ_self _, Nat.pos_of_ne_zero hnext⟩
      · obtain ⟨hpos, hfresh⟩ := h.fresh i' a ha'
        exact ⟨(hfresh hnext).trans (Nat.lt_succ_self _), hpos⟩
    refine ⟨hlt.2, fun hne => ?_⟩
    show a < (tb.nextSeqId + 1) % 2 ^ 64
    have hnext_lt := h.next_lt
    rcases Nat.lt_or_ge (tb.nextSeqId + 1) (2 ^ 64) with hfits | hwraps
    · rw [Nat.mod_eq_of_lt hfits]
      exact hlt.1
    · -- the ids have just run out
      exfalso
      apply hne
      show (tb.nextSeqId + 1) % 2 ^ 64 = 0
      rw [show tb.nextSeqId + 1 = 2 ^ 64 by omega, Nat.mod_self]

theorem TraceBuffer.WF.control {tb : TraceBuffer} {k : ℕ} (h : tb.WF k)
    (seqId edgeId targetLabel : ℕ) :
    (traceRecordControlTransfer tb seqId edgeId targetLabel).WF k := by
  unfold traceRecordControlTransfer
  split_ifs with hinvalid
  · exact h
  split
  · exact h
  · rename_i i _
    have hsame : ∀ j, seqIdBack { tb with entries := tb.entries.modifyLast i fun entry =>
        { entry with controlTransferValid := true, dcfgEdgeId := edgeId,
                     targetLabel := targetLabel } } j = seqIdBack tb j := fun j =>
      RingBuffer.map_getLast_modifyLast tb.entries i j fun _ => rfl
    refine ⟨h.ring.modifyLast _ _, h.next_lt, ?_, ?_⟩
    · intro i j a b hij ha hb
      rw [hsame] at ha hb
      exact h.decreasing i j a b hij ha hb
    · intro i a ha
      rw [hsame] at ha
      exact h.fresh i a ha

theorem TraceBuffer.WF.reset {tb : TraceBuffer} {k : ℕ} (h : tb.WF k) : (traceReset tb).WF k := by
  have hnone : ∀ i, seqIdBack (traceReset tb) i = none := fun i => by
    rw [seqIdBack, traceGetLast, RingBuffer.getLast_eq_none (Nat.zero_le i)]
    rfl
  refine ⟨h.ring.reset, h.next_lt, ?_, ?_⟩
  · intro i j a b _ ha _
    rw [hnone] at ha
    cases ha
  · intro i a ha
    rw [hnone] at ha
    cases ha

theorem TraceReachable.wf {tb : TraceBuffer} (h : TraceReachable tb) : ∃ k, tb.WF k := by
  induction h with
  | create hsmall hcreate => exact TraceBuffer.WF.create hsmall hcreate
  | append _ entry ih => exact ih.imp fun _ hwf => hwf.append entry
  | control _ seqId edgeId targetLabel ih =>
    exact ih.imp fun _ hwf => hwf.control seqId edgeId targetLabel
  | reset _ ih => exact ih.imp fun _ hwf => hwf.reset

/-- **Further back the ids are smaller.** -/
theorem TraceReachable.seqId_lt {tb : TraceBuffer} (h : TraceReachable tb) {i j : ℕ}
    {newer older : TraceEntry} (hij : i < j) (hnewer : traceGetLast tb i = some newer)
    (holder : traceGetLast tb j = some older) : older.seqId < newer.seqId := by
  obtain ⟨k, hwf⟩ := h.wf
  exact hwf.decreasing i j newer.seqId older.seqId hij
    (seqIdBack_eq_some.mpr ⟨newer, hnewer, rfl⟩) (seqIdBack_eq_some.mpr ⟨older, holder, rfl⟩)

theorem traceFindSeq_some {tb : TraceBuffer} {seqId i : ℕ} {entry : TraceEntry}
    (h : traceFindSeq tb seqId = some (i, entry)) :
    traceGetLast tb i = some entry ∧ entry.seqId = seqId := by
  unfold traceFindSeq at h
  split_ifs at h with hzero
  split at h
  · cases h
  · rename_i j hfind
    obtain ⟨entry', hentry, hpair⟩ := Option.map_eq_some_iff.mp h
    obtain ⟨rfl, rfl⟩ := Prod.mk.inj hpair
    refine ⟨hentry, ?_⟩
    have hid := List.find?_some hfind
    rw [hasSeqId, hentry] at hid
    exact eq_of_beq hid

end TaintForge
