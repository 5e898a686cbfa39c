import TaintForge.Dse.AuxTrace
import TaintForge.Dse.Equiv.Trace

/-!
# The two rings never mix generations

The trace and the records of the executions are rings whose slots are never cleared: a reset only
forgets how many entries there are, and a record stays in its slot until the next one comes.  A
history beside the rings tells what should be read back.

* `RingHistory`: the rings with the entries since the last reset and the record of every sequence id.
* `TraceOk`, `AuxOk`: the invariants, one for each ring.
* `rings_never_mix`: reading back gives the recent entries in order, and the record found for an entry
  is the one that was written for its sequence id.
-/

namespace TaintForge

/-! ### Rings with a history -/

/-- The rings; the entries since the last reset, newest first; the record written for each id. -/
structure RingHistory where
  tb : TraceBuffer
  ring : DseAuxRing
  recent : List TraceEntry
  written : ℕ → Option InsnAux

/-- The calls that change the rings.  A record goes through a pointer to a slot of the trace, and
`update` is what the callbacks do to a record afterwards. -/
inductive RingCall where
  | append (entry : TraceEntry)
  | control (seqId edgeId targetLabel : ℕ)
  | reset
  | record (slot : ℕ) (aux : InsnAux)
  | update (slot : ℕ) (f : InsnAux → InsnAux)

/-- A branch with its edge and the label of its target. -/
def TraceEntry.resolve (entry : TraceEntry) (edgeId targetLabel : ℕ) : TraceEntry :=
  { entry with controlTransferValid := true, dcfgEdgeId := edgeId, targetLabel := targetLabel }

/-- A record changes, but stays the record of its instruction. -/
def InsnAux.updateWith (aux : InsnAux) (f : InsnAux → InsnAux) : InsnAux :=
  { f aux with valid := aux.valid, seqId := aux.seqId, metaId := aux.metaId, pc := aux.pc }

/-- The record of an entry as it is stored. -/
def InsnAux.storedFor (aux : InsnAux) (entry : TraceEntry) : InsnAux :=
  { aux with valid := true, seqId := entry.seqId, metaId := entry.metaId, pc := entry.pc }

/-- The entry a pointer to a slot leads to; a slot that was never used is all zero. -/
def traceSlot (tb : TraceBuffer) (slot : ℕ) : Option TraceRef :=
  (tb.entries.slots.getD slot none).map fun entry => ⟨slot, entry⟩

/-- A call on the rings, with what it adds to the history. -/
def RingHistory.call (s : RingHistory) : RingCall → RingHistory
  | .append entry =>
    { s with
      tb := traceAppend s.tb entry
      recent :=
        if s.tb.nextSeqId = 0 then s.recent
        else { entry with seqId := s.tb.nextSeqId } :: s.recent }
  | .control seqId edgeId targetLabel =>
    { s with
      tb := traceRecordControlTransfer s.tb seqId edgeId targetLabel
      recent :=
        if seqId = 0 ∨ targetLabel = 2 ^ 32 - 1 then s.recent
        else s.recent.map fun entry =>
          if entry.seqId = seqId then entry.resolve edgeId targetLabel else entry }
  | .reset => { s with tb := traceReset s.tb, recent := [] }
  | .record slot aux =>
    match traceSlot s.tb slot with
    | none => s
    | some ref =>
      let (ring, stored) := dseAuxRecord s.ring ref aux
      { s with
        ring := ring
        written :=
          if stored = none then s.written
          else Function.update s.written ref.entry.seqId (some (aux.storedFor ref.entry)) }
  | .update slot f =>
    match s.ring.entries[slot]? with
    | none => s
    | some aux =>
      { s with
        ring := { s.ring with entries := s.ring.entries.set slot (aux.updateWith f) }
        written :=
          if aux.valid = false then s.written
          else Function.update s.written aux.seqId (some (aux.updateWith f)) }

/-- The rings after a sequence of calls. -/
def RingHistory.calls (s : RingHistory) (calls : List RingCall) : RingHistory :=
  calls.foldl RingHistory.call s

/-! ### The trace -/

/-- The trace holds the newest of the recent entries, and no id is in two of its slots. -/
structure TraceOk (s : RingHistory) (k : ℕ) : Prop where
  wf : s.tb.WF k
  recent : s.tb.entries.toList = s.recent.take (2 ^ k)
  distinct : ∀ (i j : ℕ) (a b : TraceEntry), s.tb.entries.slots[i]? = some (some a) →
    s.tb.entries.slots[j]? = some (some b) → a.seqId = b.seqId → i = j
  fresh : ∀ (i : ℕ) (a : TraceEntry), s.tb.entries.slots[i]? = some (some a) →
    0 < a.seqId ∧ (s.tb.nextSeqId ≠ 0 → a.seqId < s.tb.nextSeqId)

/-- The slots after a push. -/
theorem getElem?_slots_push {r : RingBuffer TraceEntry} {entry a : TraceEntry} {i : ℕ}
    (h : (r.push entry).slots[i]? = some (some a)) :
    a = entry ∨ (i ≠ r.head &&& (r.slots.length - 1)) ∧ r.slots[i]? = some (some a) := by
  have hset : (r.push entry).slots = r.slots.set (r.head &&& (r.slots.length - 1)) (some entry) := by
    rw [RingBuffer.push]
  rw [hset, List.getElem?_set] at h
  split_ifs at h with hij hlt
  · exact Or.inl (Option.some.inj (Option.some.inj h)).symm
  · exact Or.inr ⟨fun heq => hij heq.symm, h⟩

/-- An entry that was just appended is in one slot, the others were there before. -/
theorem TraceOk.append {s : RingHistory} {k : ℕ} (h : TraceOk s k) (entry : TraceEntry) :
    TraceOk (s.call (.append entry)) k := by
  have hwf := h.wf.append entry
  by_cases hnext : s.tb.nextSeqId = 0
  · have hsame : s.call (.append entry) = s := by
      rw [RingHistory.call, traceAppend, if_pos hnext, if_pos hnext]
    rw [hsame]
    exact h
  generalize hnew : ({ entry with seqId := s.tb.nextSeqId } : TraceEntry) = new
  have hid : new.seqId = s.tb.nextSeqId := by rw [← hnew]
  have happend : traceAppend s.tb entry =
      ⟨s.tb.entries.push new, (s.tb.nextSeqId + 1) % 2 ^ 64⟩ := by
    rw [traceAppend, if_neg hnext, hnew]
  have hcall : s.call (.append entry) =
      { s with
        tb := ⟨s.tb.entries.push new, (s.tb.nextSeqId + 1) % 2 ^ 64⟩, recent := new :: s.recent } := by
    rw [RingHistory.call, happend, if_neg hnext, hnew]
  rw [happend] at hwf
  rw [hcall]
  refine ⟨hwf, ?_, ?_, ?_⟩
  · show (s.tb.entries.push new).toList = (new :: s.recent).take (2 ^ k)
    have hpos : 0 < 2 ^ k := Nat.two_pow_pos k
    obtain ⟨m, hm⟩ : ∃ m, 2 ^ k = m + 1 := ⟨2 ^ k - 1, by omega⟩
    rw [h.wf.ring.toList_push, h.recent, hm, List.take_succ_cons, List.take_succ_cons,
      List.take_take, Nat.min_eq_left (Nat.le_succ m)]
  · intro i j a b ha hb hsame
    -- the slot that was written is the only one with the new id
    have hwritten : ∀ {i a}, (s.tb.entries.push new).slots[i]? = some (some a) → a = new →
        i = s.tb.entries.head &&& (s.tb.entries.slots.length - 1) := by
      intro i a ha haeq
      by_contra hne
      rcases getElem?_slots_push ha with heq | ⟨-, hold⟩
      · have hset : (s.tb.entries.push new).slots =
            s.tb.entries.slots.set (s.tb.entries.head &&& (s.tb.entries.slots.length - 1))
              (some new) := by
          rw [RingBuffer.push]
        rw [hset, List.getElem?_set_ne (fun heq => hne heq.symm), haeq] at ha
        have hlt := (h.fresh i new ha).2 hnext
        omega
      · have hlt := (h.fresh i a hold).2 hnext
        rw [haeq] at hlt
        omega
    rcases getElem?_slots_push ha with haeq | ⟨-, haold⟩
    · rcases getElem?_slots_push hb with hbeq | ⟨-, hbold⟩
      · rw [hwritten ha haeq, hwritten hb hbeq]
      · have hlt := (h.fresh j b hbold).2 hnext
        rw [← hsame, haeq] at hlt
        omega
    · rcases getElem?_slots_push hb with hbeq | ⟨-, hbold⟩
      · have hlt := (h.fresh i a haold).2 hnext
        rw [hsame, hbeq] at hlt
        omega
      · exact h.distinct i j a b haold hbold hsame
  · intro i a ha
    have hlt : 0 < a.seqId ∧ a.seqId < s.tb.nextSeqId + 1 := by
      rcases getElem?_slots_push ha with rfl | ⟨-, hold⟩
      · omega
      · obtain ⟨hpos, hlt⟩ := h.fresh i a hold
        have := hlt hnext
        omega
    refine ⟨hlt.1, fun hne => ?_⟩
    show a.seqId < (s.tb.nextSeqId + 1) % 2 ^ 64
    have hsmall := h.wf.next_lt
    rcases Nat.lt_or_ge (s.tb.nextSeqId + 1) (2 ^ 64) with hfits | hwraps
    · rw [Nat.mod_eq_of_lt hfits]
      exact hlt.2
    · -- the ids have just run out
      have hlast : s.tb.nextSeqId + 1 = 2 ^ 64 := by omega
      exact absurd (show (s.tb.nextSeqId + 1) % 2 ^ 64 = 0 by rw [hlast, Nat.mod_self]) hne

/-- Resolving a branch changes the one entry with its id. -/
theorem map_resolve_eq_modify {l : List TraceEntry} {i seqId edgeId targetLabel : ℕ}
    {entry : TraceEntry} (hget : l[i]? = some entry) (hid : entry.seqId = seqId)
    (hother : ∀ j e, l[j]? = some e → e.seqId = seqId → j = i) :
    l.map (fun e => if e.seqId = seqId then e.resolve edgeId targetLabel else e) =
      l.modify i fun e => e.resolve edgeId targetLabel := by
  refine List.ext_getElem? fun j => ?_
  rw [List.getElem?_map, List.getElem?_modify]
  cases hj : l[j]? with
  | none => split_ifs <;> rfl
  | some e =>
    by_cases hij : i = j
    · subst hij
      obtain rfl := Option.some.inj (hget.symm.trans hj)
      show some (if entry.seqId = seqId then _ else _) = some (if i = i then _ else _)
      rw [if_pos hid, if_pos rfl]
    · have hne : e.seqId ≠ seqId := fun heq => hij (hother j e hj heq).symm
      show some (if e.seqId = seqId then _ else _) = some (if i = j then _ else _)
      rw [if_neg hne, if_neg hij]

/-- The ids in the slots after a branch was resolved. -/
theorem seqId_slots_control (tb : TraceBuffer) (seqId edgeId targetLabel : ℕ) {j : ℕ}
    {a : TraceEntry}
    (ha : (traceRecordControlTransfer tb seqId edgeId targetLabel).entries.slots[j]? =
      some (some a)) :
    ∃ b : TraceEntry, tb.entries.slots[j]? = some (some b) ∧ b.seqId = a.seqId := by
  unfold traceRecordControlTransfer at ha
  split_ifs at ha
  · exact ⟨a, ha, rfl⟩
  split at ha
  · exact ⟨a, ha, rfl⟩
  · dsimp only at ha
    rw [RingBuffer.modifyLast_slots, List.getElem?_modify] at ha
    cases hj : tb.entries.slots[j]? with
    | none =>
      rw [hj] at ha
      split_ifs at ha <;> cases ha
    | some o =>
      rw [hj] at ha
      cases o with
      | none => split_ifs at ha <;> cases ha
      | some b =>
        refine ⟨b, rfl, ?_⟩
        split_ifs at ha <;> rw [← Option.some.inj (Option.some.inj ha)]

theorem nextSeqId_control (tb : TraceBuffer) (seqId edgeId targetLabel : ℕ) :
    (traceRecordControlTransfer tb seqId edgeId targetLabel).nextSeqId = tb.nextSeqId := by
  unfold traceRecordControlTransfer
  split_ifs
  · rfl
  · split <;> rfl

/-- What a call that appends nothing has to keep. -/
theorem TraceOk.keep {s s' : RingHistory} {k : ℕ} (h : TraceOk s k) (hwf : s'.tb.WF k)
    (hrecent : s'.tb.entries.toList = s'.recent.take (2 ^ k))
    (hslots : ∀ (j : ℕ) (a : TraceEntry), s'.tb.entries.slots[j]? = some (some a) →
      ∃ b : TraceEntry, s.tb.entries.slots[j]? = some (some b) ∧ b.seqId = a.seqId)
    (hnext : s'.tb.nextSeqId = s.tb.nextSeqId) : TraceOk s' k where
  wf := hwf
  recent := hrecent
  distinct i j a b ha hb hsame := by
    obtain ⟨a', ha', haeq⟩ := hslots i a ha
    obtain ⟨b', hb', hbeq⟩ := hslots j b hb
    exact h.distinct i j a' b' ha' hb' (by rw [haeq, hbeq, hsame])
  fresh i a ha := by
    obtain ⟨a', ha', haeq⟩ := hslots i a ha
    rw [hnext, ← haeq]
    exact h.fresh i a' ha'

theorem TraceOk.control {s : RingHistory} {k : ℕ} (h : TraceOk s k)
    (seqId edgeId targetLabel : ℕ) : TraceOk (s.call (.control seqId edgeId targetLabel)) k := by
  have hwf := h.wf.control seqId edgeId targetLabel
  by_cases hargs : seqId = 0 ∨ targetLabel = 2 ^ 32 - 1
  · have hsame : s.call (.control seqId edgeId targetLabel) = s := by
      rw [RingHistory.call, traceRecordControlTransfer, if_pos hargs, if_pos hargs]
    rw [hsame]
    exact h
  have hcall : s.call (.control seqId edgeId targetLabel) =
      { s with
        tb := traceRecordControlTransfer s.tb seqId edgeId targetLabel
        recent := s.recent.map fun entry =>
          if entry.seqId = seqId then entry.resolve edgeId targetLabel else entry } := by
    rw [RingHistory.call, if_neg hargs]
  rw [hcall]
  refine h.keep hwf ?_ (fun j a ha => seqId_slots_control s.tb seqId edgeId targetLabel ha)
    (nextSeqId_control s.tb seqId edgeId targetLabel)
  show (traceRecordControlTransfer s.tb seqId edgeId targetLabel).entries.toList =
    (s.recent.map _).take (2 ^ k)
  -- reading the list is reading back
  have hback : ∀ j e, s.tb.entries.toList[j]? = some e → seqIdBack s.tb j = some e.seqId := by
    intro j e hj
    rw [h.wf.ring.getElem?_toList] at hj
    exact seqIdBack_eq_some.mpr ⟨e, hj, rfl⟩
  cases hfind : traceFindIndex s.tb seqId with
  | none =>
    have htb : traceRecordControlTransfer s.tb seqId edgeId targetLabel = s.tb := by
      rw [traceRecordControlTransfer, if_neg hargs, hfind]
    rw [htb, ← List.map_take, ← h.recent]
    refine (List.map_id _).symm.trans (List.map_congr_left fun e hmem => ?_)
    obtain ⟨j, hj⟩ := List.mem_iff_getElem?.mp hmem
    have hlt : j < s.tb.entries.count := seqIdBack_lt_count (hback j e hj)
    have hno := List.find?_eq_none.mp hfind j (List.mem_range.mpr hlt)
    rw [h.wf.ring.getElem?_toList] at hj
    have hne : e.seqId ≠ seqId := by
      intro heq
      apply hno
      rw [hasSeqId, traceGetLast, hj]
      exact beq_iff_eq.mpr heq
    rw [if_neg hne]
    rfl
  | some i =>
    have htb : traceRecordControlTransfer s.tb seqId edgeId targetLabel =
        { s.tb with entries := s.tb.entries.modifyLast i fun e => e.resolve edgeId targetLabel } := by
      rw [traceRecordControlTransfer, if_neg hargs, hfind]
      rfl
    rw [htb]
    have hi : i < s.tb.entries.count := List.mem_range.mp (List.mem_of_find?_eq_some hfind)
    obtain ⟨entry, hentry⟩ := Option.isSome_iff_exists.mp (h.wf.ring.stored i hi)
    have hid : entry.seqId = seqId := by
      have := List.find?_some hfind
      rw [hasSeqId, traceGetLast, hentry] at this
      exact eq_of_beq this
    -- the ids decrease backwards, so no other entry has the id
    have hother : ∀ j e, s.tb.entries.toList[j]? = some e → e.seqId = seqId → j = i := by
      intro j e hj heq
      have ha := hback j e hj
      have hb : seqIdBack s.tb i = some entry.seqId := seqIdBack_eq_some.mpr ⟨entry, hentry, rfl⟩
      rcases Nat.lt_trichotomy i j with hij | hij | hij
      · have := h.wf.decreasing i j _ _ hij hb ha
        omega
      · exact hij.symm
      · have := h.wf.decreasing j i _ _ hij ha hb
        omega
    show (s.tb.entries.modifyLast i _).toList = (s.recent.map _).take (2 ^ k)
    rw [h.wf.ring.toList_modifyLast hi, ← List.map_take, ← h.recent]
    exact (map_resolve_eq_modify ((h.wf.ring.getElem?_toList i).trans hentry) hid hother).symm

theorem TraceOk.reset {s : RingHistory} {k : ℕ} (h : TraceOk s k) : TraceOk (s.call .reset) k :=
  ⟨h.wf.reset, (List.take_nil).symm, h.distinct, h.fresh⟩

/-! ### The records -/

/-- A record is the one written for its id, the id is at home in the slot of the record, and no two
records have one id. -/
structure AuxOk (s : RingHistory) : Prop where
  written : ∀ (i : ℕ) (aux : InsnAux), s.ring.entries[i]? = some aux → aux.valid = true →
    s.written aux.seqId = some aux
  home : ∀ (i j : ℕ) (aux : InsnAux) (a : TraceEntry), s.ring.entries[i]? = some aux →
    aux.valid = true → s.tb.entries.slots[j]? = some (some a) → a.seqId = aux.seqId → j = i
  older : ∀ (i : ℕ) (aux : InsnAux), s.ring.entries[i]? = some aux → aux.valid = true →
    s.tb.nextSeqId ≠ 0 → aux.seqId < s.tb.nextSeqId
  distinct : ∀ (i j : ℕ) (a b : InsnAux), s.ring.entries[i]? = some a → a.valid = true →
    s.ring.entries[j]? = some b → b.valid = true → a.seqId = b.seqId → i = j

/-- What a call that leaves the records alone has to keep: no id comes back to the slots. -/
theorem AuxOk.keep {s s' : RingHistory} (h : AuxOk s) (hring : s'.ring = s.ring)
    (hwritten : s'.written = s.written)
    (hslots : ∀ (j : ℕ) (a : TraceEntry), s'.tb.entries.slots[j]? = some (some a) →
      (∃ b : TraceEntry, s.tb.entries.slots[j]? = some (some b) ∧ b.seqId = a.seqId) ∨
        (s.tb.nextSeqId ≠ 0 ∧ a.seqId = s.tb.nextSeqId))
    (hnext : s'.tb.nextSeqId ≠ 0 → s.tb.nextSeqId ≠ 0 ∧ s.tb.nextSeqId ≤ s'.tb.nextSeqId) :
    AuxOk s' where
  written i aux hget hvalid := by
    rw [hring] at hget
    rw [hwritten]
    exact h.written i aux hget hvalid
  home i j aux a hget hvalid ha hsame := by
    rw [hring] at hget
    obtain ⟨b, hb, hid⟩ | ⟨hne, hid⟩ := hslots j a ha
    · exact h.home i j aux b hget hvalid hb (hid.trans hsame)
    · have := h.older i aux hget hvalid hne
      omega
  older i aux hget hvalid hne := by
    rw [hring] at hget
    obtain ⟨hne', hle⟩ := hnext hne
    exact (h.older i aux hget hvalid hne').trans_le hle
  distinct i j a b ha hva hb hvb hsame := by
    rw [hring] at ha hb
    exact h.distinct i j a b ha hva hb hvb hsame

theorem AuxOk.append {s : RingHistory} {k : ℕ} (h : AuxOk s) (htrace : TraceOk s k)
    (entry : TraceEntry) : AuxOk (s.call (.append entry)) := by
  by_cases hnext : s.tb.nextSeqId = 0
  · have hsame : s.call (.append entry) = s := by
      rw [RingHistory.call, traceAppend, if_pos hnext, if_pos hnext]
    rw [hsame]
    exact h
  have htb : (s.call (.append entry)).tb =
      ⟨s.tb.entries.push { entry with seqId := s.tb.nextSeqId },
        (s.tb.nextSeqId + 1) % 2 ^ 64⟩ := by
    rw [RingHistory.call, traceAppend, if_neg hnext]
  refine h.keep rfl rfl ?_ ?_
  · intro j a ha
    rw [htb] at ha
    rcases getElem?_slots_push ha with rfl | ⟨-, hold⟩
    · exact Or.inr ⟨hnext, rfl⟩
    · exact Or.inl ⟨a, hold, rfl⟩
  · intro hne
    rw [htb] at hne ⊢
    refine ⟨hnext, ?_⟩
    show s.tb.nextSeqId ≤ (s.tb.nextSeqId + 1) % 2 ^ 64
    have hsmall := htrace.wf.next_lt
    rcases Nat.lt_or_ge (s.tb.nextSeqId + 1) (2 ^ 64) with hfits | hwraps
    · rw [Nat.mod_eq_of_lt hfits]
      exact Nat.le_succ _
    · have hlast : s.tb.nextSeqId + 1 = 2 ^ 64 := by omega
      exact absurd (show (s.tb.nextSeqId + 1) % 2 ^ 64 = 0 by rw [hlast, Nat.mod_self]) hne

theorem AuxOk.control {s : RingHistory} (h : AuxOk s) (seqId edgeId targetLabel : ℕ) :
    AuxOk (s.call (.control seqId edgeId targetLabel)) := by
  refine h.keep rfl rfl (fun j a ha => ?_) fun hne => ?_
  · exact Or.inl (seqId_slots_control s.tb seqId edgeId targetLabel ha)
  · have hnext : (s.call (.control seqId edgeId targetLabel)).tb.nextSeqId = s.tb.nextSeqId :=
      nextSeqId_control s.tb seqId edgeId targetLabel
    rw [hnext] at hne ⊢
    exact ⟨hne, le_rfl⟩

theorem AuxOk.reset {s : RingHistory} (h : AuxOk s) : AuxOk (s.call .reset) :=
  h.keep rfl rfl (fun _ a ha => Or.inl ⟨a, ha, rfl⟩) fun hne => ⟨hne, le_rfl⟩

/-- What the slot of a pointer holds. -/
theorem traceSlot_eq_some {tb : TraceBuffer} {slot : ℕ} {ref : TraceRef}
    (h : traceSlot tb slot = some ref) :
    ref.slot = slot ∧ tb.entries.slots[slot]? = some (some ref.entry) := by
  obtain ⟨entry, hentry, rfl⟩ := Option.map_eq_some_iff.mp h
  refine ⟨rfl, ?_⟩
  rw [List.getD_eq_getElem?_getD] at hentry
  cases hget : tb.entries.slots[slot]? with
  | none =>
    rw [hget] at hentry
    cases hentry
  | some o =>
    rw [hget, Option.getD_some] at hentry
    rw [hentry]

/-- Storing a record in a slot that no other record's id is at home in. -/
theorem AuxOk.store {s : RingHistory} (h : AuxOk s) {slot : ℕ} {old new : InsnAux}
    (hget : s.ring.entries[slot]? = some old) {ring : DseAuxRing}
    (hentries : ring.entries = s.ring.entries.set slot new)
    (hother : ∀ (j : ℕ) (aux : InsnAux), s.ring.entries[j]? = some aux → aux.valid = true →
      new.valid = true → aux.seqId = new.seqId → j = slot)
    (hhome : new.valid = true → ∀ (j : ℕ) (a : TraceEntry), s.tb.entries.slots[j]? = some (some a) →
      a.seqId = new.seqId → j = slot)
    (holder : new.valid = true → s.tb.nextSeqId ≠ 0 → new.seqId < s.tb.nextSeqId) :
    AuxOk { s with
      ring := ring
      written := if new.valid = false then s.written
        else Function.update s.written new.seqId (some new) } := by
  have hlt := (List.getElem?_eq_some_iff.mp hget).1
  -- a slot holds the new record or what it held before
  have hcases : ∀ {i : ℕ} {aux : InsnAux}, ring.entries[i]? = some aux →
      (i = slot ∧ aux = new) ∨ (i ≠ slot ∧ s.ring.entries[i]? = some aux) := by
    intro i aux hi
    rw [hentries] at hi
    by_cases hne : slot = i
    · subst hne
      rw [List.getElem?_set_self hlt] at hi
      exact Or.inl ⟨rfl, (Option.some.inj hi).symm⟩
    · rw [List.getElem?_set_ne hne] at hi
      exact Or.inr ⟨fun heq => hne heq.symm, hi⟩
  constructor
  · intro i aux hi hvalid
    show (if new.valid = false then s.written else _) aux.seqId = some aux
    obtain ⟨-, hnew⟩ | ⟨hne, hold⟩ := hcases hi
    · rw [← hnew, if_neg (by rw [hvalid]; decide), Function.update_self]
    · split_ifs with hnew
      · exact h.written i aux hold hvalid
      · have hid : aux.seqId ≠ new.seqId :=
          fun heq => hne (hother i aux hold hvalid (Bool.eq_true_of_not_eq_false hnew) heq)
        rw [Function.update_of_ne hid]
        exact h.written i aux hold hvalid
  · intro i j aux a hi hvalid ha hsame
    obtain ⟨hslot, hnew⟩ | ⟨-, hold⟩ := hcases hi
    · rw [hnew] at hvalid hsame
      exact (hhome hvalid j a ha hsame).trans hslot.symm
    · exact h.home i j aux a hold hvalid ha hsame
  · intro i aux hi hvalid hnext
    obtain ⟨-, hnew⟩ | ⟨-, hold⟩ := hcases hi
    · rw [hnew] at hvalid ⊢
      exact holder hvalid hnext
    · exact h.older i aux hold hvalid hnext
  · intro i j a b hi hva hj hvb hsame
    obtain ⟨hislot, hanew⟩ | ⟨-, hiold⟩ := hcases hi
    · obtain ⟨hjslot, -⟩ | ⟨-, hjold⟩ := hcases hj
      · exact hislot.trans hjslot.symm
      · rw [hanew] at hva hsame
        exact hislot.trans (hother j b hjold hvb hva hsame.symm).symm
    · obtain ⟨hjslot, hbnew⟩ | ⟨-, hjold⟩ := hcases hj
      · rw [hbnew] at hvb hsame
        exact (hother i a hiold hva hvb hsame).trans hjslot.symm
      · exact h.distinct i j a b hiold hva hjold hvb hsame

theorem AuxOk.record {s : RingHistory} {k : ℕ} (h : AuxOk s) (htrace : TraceOk s k) (slot : ℕ)
    (aux : InsnAux) : AuxOk (s.call (.record slot aux)) := by
  cases href : traceSlot s.tb slot with
  | none =>
    have hsame : s.call (.record slot aux) = s := by rw [RingHistory.call, href]
    rw [hsame]
    exact h
  | some ref =>
    obtain ⟨hslot, hentry⟩ := traceSlot_eq_some href
    have hpos := (htrace.fresh slot ref.entry hentry).1
    cases hold : s.ring.entries[ref.slot]? with
    | none =>
      have hrecord : dseAuxRecord s.ring ref aux = (s.ring, none) := by
        rw [dseAuxRecord, if_neg (Nat.ne_of_gt hpos), hold]
      have hsame : s.call (.record slot aux) = s := by
        rw [RingHistory.call, href]
        dsimp only
        rw [hrecord]
        rfl
      rw [hsame]
      exact h
    | some old =>
      have hcall : s.call (.record slot aux) =
          { s with
            ring := { dseAuxReleaseString s.ring old with
              entries := s.ring.entries.set ref.slot (aux.storedFor ref.entry) }
            written := if (aux.storedFor ref.entry).valid = false then s.written
              else Function.update s.written (aux.storedFor ref.entry).seqId
                (some (aux.storedFor ref.entry)) } := by
        rw [RingHistory.call, href]
        dsimp only
        rw [dseAuxRecord, if_neg (Nat.ne_of_gt hpos), hold]
        rfl
      rw [hcall]
      refine h.store hold rfl (fun j stored hj hvalid _ hsame => ?_) (fun _ j a ha hsame => ?_)
        fun _ hnext => ?_
      · rw [hslot]
        exact (h.home j slot stored ref.entry hj hvalid hentry hsame.symm).symm
      · rw [hslot]
        exact htrace.distinct j slot a ref.entry ha hentry hsame
      · exact (htrace.fresh slot ref.entry hentry).2 hnext

theorem AuxOk.update {s : RingHistory} (h : AuxOk s) (slot : ℕ) (f : InsnAux → InsnAux) :
    AuxOk (s.call (.update slot f)) := by
  cases hget : s.ring.entries[slot]? with
  | none =>
    have hsame : s.call (.update slot f) = s := by rw [RingHistory.call, hget]
    rw [hsame]
    exact h
  | some aux =>
    have hcall : s.call (.update slot f) =
        { s with
          ring := { s.ring with entries := s.ring.entries.set slot (aux.updateWith f) }
          written := if (aux.updateWith f).valid = false then s.written
            else Function.update s.written (aux.updateWith f).seqId (some (aux.updateWith f)) } := by
      rw [RingHistory.call, hget]
      rfl
    rw [hcall]
    refine h.store hget rfl (fun j other hj hvalid hnew hsame => ?_) (fun hnew j a ha hsame => ?_)
      fun hnew hnext => ?_
    · exact h.distinct j slot other aux hj hvalid hget hnew hsame
    · exact h.home slot j aux a hget hnew ha hsame
    · exact h.older slot aux hget hnew hnext

/-! ### Runs -/

/-- Recording leaves the trace alone. -/
theorem call_record_tb (s : RingHistory) (slot : ℕ) (aux : InsnAux) :
    (s.call (.record slot aux)).tb = s.tb ∧ (s.call (.record slot aux)).recent = s.recent := by
  rw [RingHistory.call]
  split <;> exact ⟨rfl, rfl⟩

theorem call_update_tb (s : RingHistory) (slot : ℕ) (f : InsnAux → InsnAux) :
    (s.call (.update slot f)).tb = s.tb ∧ (s.call (.update slot f)).recent = s.recent := by
  rw [RingHistory.call]
  split <;> exact ⟨rfl, rfl⟩

theorem TraceOk.of_tb {s s' : RingHistory} {k : ℕ} (h : TraceOk s k)
    (hsame : s'.tb = s.tb ∧ s'.recent = s.recent) : TraceOk s' k := by
  obtain ⟨htb, hrecent⟩ := hsame
  apply h.keep
  · rw [htb]
    exact h.wf
  · rw [htb, hrecent]
    exact h.recent
  · intro j a ha
    rw [htb] at ha
    exact ⟨a, ha, rfl⟩
  · rw [htb]

/-- A call keeps both invariants. -/
theorem RingHistory.call_ok {s : RingHistory} {k : ℕ} (htrace : TraceOk s k) (haux : AuxOk s)
    (call : RingCall) : TraceOk (s.call call) k ∧ AuxOk (s.call call) := by
  cases call with
  | append entry => exact ⟨htrace.append entry, haux.append htrace entry⟩
  | control seqId edgeId targetLabel =>
    exact ⟨htrace.control seqId edgeId targetLabel, haux.control seqId edgeId targetLabel⟩
  | reset => exact ⟨htrace.reset, haux.reset⟩
  | record slot aux =>
    exact ⟨htrace.of_tb (call_record_tb s slot aux), haux.record htrace slot aux⟩
  | update slot f => exact ⟨htrace.of_tb (call_update_tb s slot f), haux.update slot f⟩

theorem RingHistory.calls_ok {s : RingHistory} {k : ℕ} (htrace : TraceOk s k) (haux : AuxOk s)
    (calls : List RingCall) : TraceOk (s.calls calls) k ∧ AuxOk (s.calls calls) := by
  induction calls generalizing s with
  | nil => exact ⟨htrace, haux⟩
  | cons call calls ih =>
    obtain ⟨htrace', haux'⟩ := RingHistory.call_ok htrace haux call
    exact ih htrace' haux'

/-- The two rings as they are created. -/
def RingHistory.start (tb : TraceBuffer) (ring : DseAuxRing) : RingHistory :=
  ⟨tb, ring, [], fun _ => none⟩

theorem TraceOk.start {capacity : ℕ} {tb : TraceBuffer} (hsmall : capacity < 2 ^ 32)
    (hcreate : traceBufferCreate capacity = some tb) (ring : DseAuxRing) :
    ∃ k, capacity = 2 ^ k ∧ TraceOk (RingHistory.start tb ring) k := by
  obtain ⟨k, hwf⟩ := TraceBuffer.WF.create hsmall hcreate
  unfold traceBufferCreate at hcreate
  split_ifs at hcreate
  obtain rfl := Option.some.inj hcreate
  -- every slot is empty
  have hempty : ∀ (i : ℕ) (a : TraceEntry),
      (RingBuffer.create capacity : RingBuffer TraceEntry).slots[i]? ≠ some (some a) := by
    intro i a ha
    have hmem := List.mem_replicate.mp (List.mem_of_getElem? ha)
    cases hmem.2
  refine ⟨k, ?_, hwf, (List.take_nil).symm, ?_, ?_⟩
  · rw [← hwf.ring.size]
    exact List.length_replicate.symm
  · intro i j a b ha
    exact absurd ha (hempty i a)
  · intro i a ha
    exact absurd ha (hempty i a)

theorem AuxOk.start {capacity : ℕ} {heap : Heap} {ring : DseAuxRing}
    (hcreate : dseAuxCreate capacity heap = some ring) (tb : TraceBuffer) :
    AuxOk (RingHistory.start tb ring) := by
  unfold dseAuxCreate at hcreate
  split_ifs at hcreate
  obtain rfl := Option.some.inj hcreate
  -- no record is valid
  have hinvalid : ∀ (i : ℕ) (aux : InsnAux),
      (List.replicate capacity InsnAux.zero)[i]? = some aux → aux.valid ≠ true := by
    intro i aux hi hvalid
    have hmem := List.mem_replicate.mp (List.mem_of_getElem? hi)
    rw [hmem.2] at hvalid
    cases hvalid
  constructor
  · intro i aux hi hvalid
    exact absurd hvalid (hinvalid i aux hi)
  · intro i j aux a hi hvalid
    exact absurd hvalid (hinvalid i aux hi)
  · intro i aux hi hvalid
    exact absurd hvalid (hinvalid i aux hi)
  · intro i j a b hi hvalid
    exact absurd hvalid (hinvalid i a hi)

/-! ### Reading back -/

/-- Reading back gives the recent entries, as far as they fit. -/
theorem TraceOk.getLast {s : RingHistory} {k : ℕ} (h : TraceOk s k) (i : ℕ) :
    traceGetLast s.tb i = if i < 2 ^ k then s.recent[i]? else none := by
  rw [traceGetLast, ← h.wf.ring.getElem?_toList, h.recent, List.getElem?_take]

theorem TraceOk.seqId_lt {s : RingHistory} {k : ℕ} (h : TraceOk s k) {i j : ℕ}
    {newer older : TraceEntry} (hij : i < j) (hnewer : traceGetLast s.tb i = some newer)
    (holder : traceGetLast s.tb j = some older) : older.seqId < newer.seqId :=
  h.wf.decreasing i j newer.seqId older.seqId hij (seqIdBack_eq_some.mpr ⟨newer, hnewer, rfl⟩)
    (seqIdBack_eq_some.mpr ⟨older, holder, rfl⟩)

/-- What is looked up is in the slot of the entry and has its id. -/
theorem dseAuxFor_eq_some {ring : DseAuxRing} {ref : TraceRef} {aux : InsnAux}
    (h : dseAuxFor ring ref = some aux) :
    ring.entries[ref.slot]? = some aux ∧ aux.valid = true ∧ aux.seqId = ref.entry.seqId := by
  unfold dseAuxFor at h
  split_ifs at h
  cases hget : ring.entries[ref.slot]? with
  | none =>
    rw [hget] at h
    cases h
  | some stored =>
    rw [hget] at h
    dsimp only at h
    split_ifs at h with hcheck
    obtain rfl := Option.some.inj h
    rw [not_or, not_or, not_or] at hcheck
    refine ⟨rfl, Bool.eq_true_of_not_eq_false hcheck.1, ?_⟩
    exact Classical.not_not.mp hcheck.2.2.1

theorem AuxOk.dseAuxFor {s : RingHistory} (h : AuxOk s) {ref : TraceRef} {aux : InsnAux}
    (hfor : dseAuxFor s.ring ref = some aux) : s.written ref.entry.seqId = some aux := by
  obtain ⟨hget, hvalid, hid⟩ := dseAuxFor_eq_some hfor
  rw [← hid]
  exact h.written ref.slot aux hget hvalid

/-- **The rings never mix generations.**  After any calls the trace gives back the entries since the
last reset, the newest first, as far as the capacity goes; their ids strictly decrease; and the
record found for an entry, through whatever pointer, is the one written for the id of the entry. -/
theorem rings_never_mix {capacity auxCapacity : ℕ} {heap : Heap} {tb : TraceBuffer}
    {ring : DseAuxRing} (hsmall : capacity < 2 ^ 32) (htb : traceBufferCreate capacity = some tb)
    (hring : dseAuxCreate auxCapacity heap = some ring) (calls : List RingCall) :
    (∀ i, traceGetLast ((RingHistory.start tb ring).calls calls).tb i =
      if i < capacity then ((RingHistory.start tb ring).calls calls).recent[i]? else none) ∧
    (∀ (i j : ℕ) (newer older : TraceEntry), i < j →
      traceGetLast ((RingHistory.start tb ring).calls calls).tb i = some newer →
      traceGetLast ((RingHistory.start tb ring).calls calls).tb j = some older →
      older.seqId < newer.seqId) ∧
    ∀ (ref : TraceRef) (aux : InsnAux),
      dseAuxFor ((RingHistory.start tb ring).calls calls).ring ref = some aux →
      ((RingHistory.start tb ring).calls calls).written ref.entry.seqId = some aux ∧
        aux.seqId = ref.entry.seqId := by
  obtain ⟨k, rfl, hstart⟩ := TraceOk.start hsmall htb ring
  obtain ⟨htrace, haux⟩ := RingHistory.calls_ok hstart (AuxOk.start hring tb) calls
  refine ⟨htrace.getLast, ?_, ?_⟩
  · intro i j newer older hij hnewer holder
    exact htrace.seqId_lt hij hnewer holder
  · intro ref aux hfor
    exact ⟨haux.dseAuxFor hfor, (dseAuxFor_eq_some hfor).2.2⟩

/-- A lap around a ring of two slots: the third entry takes the slot of the first, which still holds
the record of the first. -/
def lapCalls : List RingCall :=
  [.append ⟨0, 0, 1, 0#64, [], false, 0, 0⟩, .record 0 .zero, .append ⟨0, 0, 1, 0#64, [], false, 0, 0⟩,
    .append ⟨0, 0, 1, 0#64, [], false, 0, 0⟩]

theorem rings_never_mix_lap :
    ∃ s : RingHistory,
      s = (RingHistory.start ⟨RingBuffer.create 2, 1⟩
        ⟨List.replicate 2 .zero, 0, dseMaxStringTraceBytes, ⟨fun _ => true⟩⟩).calls lapCalls ∧
      (∀ i, traceGetLast s.tb i = if i < 2 then s.recent[i]? else none) ∧
      ∀ (ref : TraceRef) (aux : InsnAux), dseAuxFor s.ring ref = some aux →
        s.written ref.entry.seqId = some aux ∧ aux.seqId = ref.entry.seqId := by
  obtain ⟨hback, -, hfor⟩ := rings_never_mix (by decide : 2 < 2 ^ 32)
    (if_pos (by decide) : traceBufferCreate 2 = some ⟨RingBuffer.create 2, 1⟩)
    (if_pos (by decide) : dseAuxCreate 2 ⟨fun _ => true⟩ =
      some ⟨List.replicate 2 .zero, 0, dseMaxStringTraceBytes, ⟨fun _ => true⟩⟩) lapCalls
  exact ⟨_, rfl, hback, hfor⟩

end TaintForge
