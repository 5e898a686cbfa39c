import TaintForge.Env.TargetStateOracle
import TaintForge.Lib.IntervalPacking

/-!
# What a repeated sequence is

An occurrence of a sequence of patterns in a log takes one event for each pattern, in their order, with a bounded
gap between two of them.  The search follows the eager occurrences only, which take the first event that matches
each pattern after the first, and it counts as many of these as there can be.  There may be more occurrences that
do not meet than that: to skip an event that matches can keep a later one in its window.

* `Occurrence`, `Occurrence.Eager`: the occurrences, and those that the search looks for.
* `searchRepeats_sweep`: the search goes through the eager occurrences from left to right.
* `countSequenceRepeats_exact`: when the count is the largest number of occurrences.
-/

namespace TaintForge

open Packing

variable {events : List TargetEvent} {sequence : EventSequence} {maxGap : ℕ}

/-! ### The window search -/

theorem lt_length_of_matchesAt {index : ℕ} {clause : WhereClause}
    (h : matchesAt events index clause = true) : index < events.length := by
  by_contra hlength
  rw [matchesAt, List.getElem?_eq_none (Nat.not_lt.mp hlength)] at h
  exact Bool.false_ne_true h

theorem findMatch_eq_some {expected : WhereClause} {start stop found : ℕ} :
    findMatch events expected start stop = some found ↔
      (start ≤ found ∧ found < stop) ∧ matchesAt events found expected = true ∧
        ∀ j, start ≤ j → j < found → matchesAt events j expected = false := by
  unfold findMatch
  rw [List.find?_range'_eq_some]
  simp only [List.mem_range'_1, Bool.not_eq_true']
  constructor
  · rintro ⟨hmatch, hrange, hbefore⟩
    exact ⟨by omega, hmatch, hbefore⟩
  · rintro ⟨hrange, hmatch, hbefore⟩
    exact ⟨hmatch, by omega, hbefore⟩

theorem findMatch_eq_none {expected : WhereClause} {start stop : ℕ} :
    findMatch events expected start stop = none ↔
      ∀ j, start ≤ j → j < stop → matchesAt events j expected = false := by
  unfold findMatch
  rw [List.find?_eq_none]
  simp only [List.mem_range'_1, Bool.not_eq_true]
  constructor
  · intro h j hstart hstop
    exact h j (by omega)
  · intro h j hrange
    exact h j hrange.1 (by omega)

/-! ### Occurrences -/

/-- Two indexes that may follow each other in an occurrence. -/
def Near (maxGap i j : ℕ) : Prop := i < j ∧ j ≤ i + maxGap + 1

instance (maxGap i j : ℕ) : Decidable (Near maxGap i j) := inferInstanceAs (Decidable (_ ∧ _))

/-- An occurrence of a sequence: an event for each pattern, in order and near each other. -/
structure Occurrence (events : List TargetEvent) (sequence : EventSequence) (maxGap : ℕ) where
  indexes : List ℕ
  matched : List.Forall₂ (fun index clause => matchesAt events index clause = true) indexes sequence.patterns
  near : indexes.IsChain (Near maxGap)

/-- Each index after the given one is that of the first event behind its predecessor that matches. -/
def EagerAfter (events : List TargetEvent) : ℕ → List ℕ → List WhereClause → Prop
  | previous, index :: indexes, clause :: clauses =>
    (∀ between, previous < between → between < index → matchesAt events between clause = false) ∧
      EagerAfter events index indexes clauses
  | _, _, _ => True

namespace Occurrence

variable (o : Occurrence events sequence maxGap)

theorem ne_nil : o.indexes ≠ [] := by
  intro h
  have hmatched := o.matched
  rw [h] at hmatched
  cases hmatched

/-- The index of the first event. -/
def first : ℕ := o.indexes.head o.ne_nil

/-- The index of the last event. -/
def last : ℕ := o.indexes.getLast o.ne_nil

/-- Every event after the first is the first one that matches its pattern. -/
def Eager : Prop := EagerAfter events o.first o.indexes.tail sequence.rest

end Occurrence

/-- The indexes after a given one, for the patterns after the first. -/
structure Continues (events : List TargetEvent) (maxGap previous : ℕ) (others : List ℕ)
    (clauses : List WhereClause) : Prop where
  matched : List.Forall₂ (fun index clause => matchesAt events index clause = true) others clauses
  near : (previous :: others).IsChain (Near maxGap)

theorem continues_cons {previous index : ℕ} {others : List ℕ} {clause : WhereClause}
    {clauses : List WhereClause} :
    Continues events maxGap previous (index :: others) (clause :: clauses) ↔
      Near maxGap previous index ∧ matchesAt events index clause = true ∧
        Continues events maxGap index others clauses := by
  constructor
  · rintro ⟨hmatched, hnear⟩
    obtain ⟨hmatch, hmatched⟩ := List.forall₂_cons.mp hmatched
    obtain ⟨hnext, hnear⟩ := List.isChain_cons_cons.mp hnear
    exact ⟨hnext, hmatch, hmatched, hnear⟩
  · rintro ⟨hnext, hmatch, hmatched, hnear⟩
    exact ⟨List.forall₂_cons.mpr ⟨hmatch, hmatched⟩, List.isChain_cons_cons.mpr ⟨hnext, hnear⟩⟩

namespace Occurrence

/-- An occurrence is an index that matches the first pattern with indexes that continue from it. -/
theorem exists_continues (o : Occurrence events sequence maxGap) :
    ∃ others, o.indexes = o.first :: others ∧ matchesAt events o.first sequence.first = true ∧
      Continues events maxGap o.first others sequence.rest := by
  obtain ⟨indexes, hmatched, hnear⟩ := o
  cases indexes with
  | nil => cases hmatched
  | cons index others =>
    obtain ⟨hmatch, hothers⟩ := List.forall₂_cons.mp hmatched
    exact ⟨others, rfl, hmatch, hothers, hnear⟩

/-- The occurrence that starts with an index and continues from it. -/
def of {start : ℕ} {others : List ℕ} (hstart : matchesAt events start sequence.first = true)
    (h : Continues events maxGap start others sequence.rest) : Occurrence events sequence maxGap where
  indexes := start :: others
  matched := List.forall₂_cons.mpr ⟨hstart, h.matched⟩
  near := h.near

end Occurrence

/-! ### Following a sequence -/

/-- The loop over the other patterns finds the eager continuation. -/
theorem followSequence_eq_some {previous last : ℕ} {clauses : List WhereClause} :
    followSequence events maxGap previous clauses = some last ↔
      ∃ others, Continues events maxGap previous others clauses ∧
        EagerAfter events previous others clauses ∧ others.getLastD previous = last := by
  induction clauses generalizing previous with
  | nil =>
    constructor
    · intro h
      exact ⟨[], ⟨.nil, List.IsChain.singleton _⟩, trivial, Option.some.inj h⟩
    · rintro ⟨others, ⟨hmatched, -⟩, -, rfl⟩
      cases hmatched
      rfl
  | cons clause clauses ih =>
    unfold followSequence
    constructor
    · intro h
      split at h
      · cases h
      rename_i found hfound
      obtain ⟨hrange, hmatch, hbefore⟩ := findMatch_eq_some.mp hfound
      obtain ⟨others, hcontinues, heager, hlast⟩ := ih.mp h
      refine ⟨found :: others, continues_cons.mpr ⟨?_, hmatch, hcontinues⟩, ⟨?_, heager⟩, ?_⟩
      · exact ⟨by omega, by omega⟩
      · intro between hlow hhigh
        exact hbefore between hlow hhigh
      · rw [List.getLastD_cons, hlast]
    · rintro ⟨others, hcontinues, heager, hlast⟩
      cases others with
      | nil => cases hcontinues.matched
      | cons index others =>
        obtain ⟨⟨hlow, hhigh⟩, hmatch, hcontinues⟩ := continues_cons.mp hcontinues
        have hlength := lt_length_of_matchesAt hmatch
        have hfound : findMatch events clause (previous + 1) (min events.length (previous + maxGap + 2)) =
            some index := by
          refine findMatch_eq_some.mpr ⟨⟨hlow, by omega⟩, hmatch, ?_⟩
          intro between hafter hbefore
          exact heager.1 between hafter hbefore
        rw [hfound]
        rw [List.getLastD_cons] at hlast
        exact ih.mpr ⟨others, hcontinues, heager.2, hlast⟩

/-- An eager continuation ends no later than any other that starts no earlier. -/
theorem getLastD_le_of_eager {clauses : List WhereClause} {previous start : ℕ} {eager others : List ℕ}
    (hcontinues : Continues events maxGap previous eager clauses)
    (heager : EagerAfter events previous eager clauses)
    (hothers : Continues events maxGap start others clauses) (hle : previous ≤ start) :
    eager.getLastD previous ≤ others.getLastD start := by
  induction clauses generalizing previous start eager others with
  | nil =>
    cases hcontinues.matched
    cases hothers.matched
    exact hle
  | cons clause clauses ih =>
    cases eager with
    | nil => cases hcontinues.matched
    | cons index eager =>
      cases others with
      | nil => cases hothers.matched
      | cons other others =>
        obtain ⟨-, hmatch, hcontinues⟩ := continues_cons.mp hcontinues
        obtain ⟨hnear, hmatch', hothers⟩ := continues_cons.mp hothers
        rw [List.getLastD_cons, List.getLastD_cons]
        apply ih hcontinues heager.2 hothers
        -- Otherwise the other index would have been taken.
        by_contra hlt
        have hmiss := heager.1 other (by have := hnear.1; omega) (Nat.not_le.mp hlt)
        rw [hmiss] at hmatch'
        exact Bool.false_ne_true hmatch'

namespace Occurrence

theorem last_eq {o : Occurrence events sequence maxGap} {others : List ℕ}
    (h : o.indexes = o.first :: others) : o.last = others.getLastD o.first := by
  have hlast : o.indexes.getLast? = some o.last := List.getLast?_eq_getLast_of_ne_nil o.ne_nil
  rw [h, List.getLast?_cons, ← List.getLastD_eq_getLast?] at hlast
  exact (Option.some.inj hlast).symm

/-- The loop from the first index of an eager occurrence finds its last. -/
theorem Eager.followSequence {o : Occurrence events sequence maxGap} (h : o.Eager) :
    followSequence events maxGap o.first sequence.rest = some o.last := by
  obtain ⟨others, hindexes, -, hcontinues⟩ := o.exists_continues
  unfold Eager at h
  rw [hindexes] at h
  exact followSequence_eq_some.mpr ⟨others, hcontinues, h, (last_eq hindexes).symm⟩

/-- What the loop finds is an eager occurrence, which ends no later than any that starts no earlier. -/
theorem exists_eager {start previous : ℕ} (hstart : matchesAt events start sequence.first = true)
    (h : TaintForge.followSequence events maxGap start sequence.rest = some previous) :
    ∃ o : Occurrence events sequence maxGap, o.Eager ∧ o.first = start ∧ o.last = previous ∧
      ∀ other : Occurrence events sequence maxGap, start ≤ other.first → previous ≤ other.last := by
  obtain ⟨others, hcontinues, heager, rfl⟩ := followSequence_eq_some.mp h
  refine ⟨.of hstart hcontinues, heager, rfl, last_eq rfl, ?_⟩
  intro other hle
  obtain ⟨tail, hindexes, -, htail⟩ := other.exists_continues
  rw [last_eq hindexes]
  exact getLastD_le_of_eager hcontinues heager htail hle

theorem first_le_last (o : Occurrence events sequence maxGap) : o.first ≤ o.last := by
  obtain ⟨others, hindexes, -, ⟨-, hnear⟩⟩ := o.exists_continues
  have hsorted : (o.first :: others).Pairwise (· < ·) :=
    (hnear.imp fun _ _ h => h.1).pairwise
  have hmem : o.last ∈ o.first :: others := by
    rw [← hindexes]
    exact List.getLast_mem o.ne_nil
  rcases List.mem_cons.mp hmem with heq | hmem
  · exact heq.ge
  · exact (List.rel_of_pairwise_cons hsorted hmem).le

end Occurrence

/-! ### The count -/

/-- No occurrence starts between the cursor and the first event that matches the first pattern. -/
theorem le_first_of_findMatch {cursor start : ℕ}
    (h : findMatch events sequence.first cursor events.length = some start)
    (o : Occurrence events sequence maxGap) (hcursor : cursor ≤ o.first) : start ≤ o.first := by
  obtain ⟨-, -, hbefore⟩ := findMatch_eq_some.mp h
  obtain ⟨-, -, hmatch, -⟩ := o.exists_continues
  by_contra hlt
  rw [hbefore o.first hcursor (Nat.not_le.mp hlt)] at hmatch
  exact Bool.false_ne_true hmatch

/-- **The search is a sweep** from left to right through the eager occurrences. -/
theorem searchRepeats_sweep (cursor repeats : ℕ) (spans : List (ℕ × ℕ)) :
    ∃ found, searchRepeats events sequence maxGap cursor repeats spans =
        (repeats + found.length, spans ++ found) ∧
      Sweep (Occurrence.first : Occurrence events sequence maxGap → ℕ) Occurrence.last Occurrence.Eager
        cursor found := by
  fun_induction searchRepeats events sequence maxGap cursor repeats spans with
  | case1 cursor repeats spans hcursor hstart =>
    -- No event is left that matches the first pattern.
    refine ⟨[], by rw [List.append_nil]; rfl, .stop fun o _ => ?_⟩
    obtain ⟨-, -, hmatch, -⟩ := o.exists_continues
    by_contra hfirst
    rw [findMatch_eq_none.mp hstart o.first (Nat.not_lt.mp hfirst) (lt_length_of_matchesAt hmatch)] at hmatch
    exact Bool.false_ne_true hmatch
  | case2 cursor repeats spans hcursor start hstart previous hfollow ih =>
    obtain ⟨hrange, hmatch, -⟩ := findMatch_eq_some.mp hstart
    obtain ⟨o, heager, rfl, rfl, hearliest⟩ := Occurrence.exists_eager hmatch hfollow
    obtain ⟨found, hfound, hsweep⟩ := ih
    refine ⟨(o.first, o.last) :: found, ?_, .take o heager hrange.1 ?_ hsweep⟩
    · rw [hfound, List.append_assoc, List.length_cons, Nat.add_assoc, Nat.add_comm 1]
      rfl
    · intro other _ hother
      exact hearliest other (le_first_of_findMatch hstart other hother)
  | case3 cursor repeats spans hcursor start hstart hfollow ih =>
    -- No eager occurrence starts where the loop over the other patterns failed.
    obtain ⟨hrange, -, -⟩ := findMatch_eq_some.mp hstart
    obtain ⟨found, hfound, hsweep⟩ := ih
    refine ⟨found, hfound, hsweep.skip (by omega) ?_⟩
    intro o heager hcursor
    have hle := le_first_of_findMatch hstart o hcursor
    have hne : start ≠ o.first := by
      rintro rfl
      rw [heager.followSequence] at hfollow
      cases hfollow
    omega
  | case4 cursor repeats spans hcursor =>
    refine ⟨[], by rw [List.append_nil]; rfl, .stop fun o _ => ?_⟩
    obtain ⟨-, -, hmatch, -⟩ := o.exists_continues
    have hlength := lt_length_of_matchesAt hmatch
    omega

theorem countSequenceRepeats_sweep (events : List TargetEvent) (sequence : EventSequence) (maxGap : ℕ) :
    ∃ spans, countSequenceRepeats events sequence maxGap = (spans.length, spans) ∧
      Sweep (Occurrence.first : Occurrence events sequence maxGap → ℕ) Occurrence.last Occurrence.Eager
        0 spans := by
  obtain ⟨spans, hspans, hsweep⟩ := searchRepeats_sweep 0 0 []
  refine ⟨spans, ?_, hsweep⟩
  rw [Nat.zero_add, List.nil_append] at hspans
  exact hspans

/-- There are `k` occurrences of which no two meet. -/
def SequenceRepeats (events : List TargetEvent) (sequence : EventSequence) (maxGap k : ℕ) : Prop :=
  Packs (Occurrence.first : Occurrence events sequence maxGap → ℕ) Occurrence.last (fun _ => True) k

/-- There are `k` eager occurrences of which no two meet. -/
def EagerSequenceRepeats (events : List TargetEvent) (sequence : EventSequence) (maxGap k : ℕ) : Prop :=
  Packs (Occurrence.first : Occurrence events sequence maxGap → ℕ) Occurrence.last Occurrence.Eager k

/-- The count is the largest number of occurrences exactly where the eager ones pack as well. -/
theorem countSequenceRepeats_isGreatest (events : List TargetEvent) (sequence : EventSequence) (maxGap : ℕ) :
    IsGreatest {k | SequenceRepeats events sequence maxGap k} (countSequenceRepeats events sequence maxGap).1 ↔
      ∀ k, SequenceRepeats events sequence maxGap k → EagerSequenceRepeats events sequence maxGap k := by
  obtain ⟨spans, hspans, hsweep⟩ := countSequenceRepeats_sweep events sequence maxGap
  rw [hspans]
  exact hsweep.isGreatest_iff (fun _ _ => trivial) fun o _ => o.first_le_last

/-- **The count of a repeated sequence.**  Every span is that of an occurrence, the spans follow each other and
are counted, and the count is the largest number of occurrences of which no two meet exactly where the eager
occurrences pack as well as all of them. -/
theorem countSequenceRepeats_exact (events : List TargetEvent) (sequence : EventSequence) (maxGap : ℕ) :
    (∀ span ∈ (countSequenceRepeats events sequence maxGap).2,
      ∃ o : Occurrence events sequence maxGap, span = (o.first, o.last)) ∧
    (countSequenceRepeats events sequence maxGap).2.Pairwise
      (fun span next => span.1 ≤ span.2 ∧ span.2 < next.1 ∧ next.1 ≤ next.2) ∧
    (countSequenceRepeats events sequence maxGap).1 =
      (countSequenceRepeats events sequence maxGap).2.length ∧
    (IsGreatest {k | SequenceRepeats events sequence maxGap k} (countSequenceRepeats events sequence maxGap).1 ↔
      ∀ k, SequenceRepeats events sequence maxGap k → EagerSequenceRepeats events sequence maxGap k) := by
  have hgreatest := countSequenceRepeats_isGreatest events sequence maxGap
  obtain ⟨spans, hspans, hsweep⟩ := countSequenceRepeats_sweep events sequence maxGap
  obtain ⟨occurrences, hmap, -, hpairwise⟩ := hsweep.exists_intervals fun o _ => o.first_le_last
  rw [hspans] at hgreatest ⊢
  refine ⟨?_, ?_, rfl, hgreatest⟩
  · intro span hspan
    rw [← hmap] at hspan
    obtain ⟨o, -, rfl⟩ := List.mem_map.mp hspan
    exact ⟨o, rfl⟩
  · rw [← hmap, List.pairwise_map]
    exact hpairwise.imp fun hlt => ⟨Occurrence.first_le_last _, hlt, Occurrence.first_le_last _⟩

/-- The oracle reports a rule as met exactly where there are enough eager occurrences. -/
theorem repeatedSequence_matched (rule : RepeatedSequenceRule) (log : List TargetEvent) :
    (repeatedSequence rule log).matched = true ↔
      EagerSequenceRepeats (sourceEvents rule.source log) rule.sequence rule.maxGap rule.minRepeats := by
  obtain ⟨spans, hspans, hsweep⟩ :=
    countSequenceRepeats_sweep (sourceEvents rule.source log) rule.sequence rule.maxGap
  have hgreatest := hsweep.isGreatest fun o _ => o.first_le_last
  unfold repeatedSequence
  rw [hspans]
  show decide (rule.minRepeats ≤ spans.length) = true ↔ _
  rw [decide_eq_true_eq]
  constructor
  · intro hle
    exact Packs.of_le hgreatest.1 hle
  · intro hpacks
    exact hgreatest.2 hpacks

/-- The loop over at most one other pattern finds it where an occurrence has it. -/
theorem exists_followSequence_of_pair (o : Occurrence events sequence maxGap)
    (hpair : sequence.rest.length ≤ 1) :
    ∃ previous, followSequence events maxGap o.first sequence.rest = some previous := by
  obtain ⟨others, -, -, hcontinues⟩ := o.exists_continues
  match hrest : sequence.rest, others with
  | [], _ => exact ⟨o.first, rfl⟩
  | [clause], [] =>
    rw [hrest] at hcontinues
    cases hcontinues.matched
  | [clause], index :: others =>
    rw [hrest] at hcontinues
    obtain ⟨⟨hlow, hhigh⟩, hmatch, -⟩ := continues_cons.mp hcontinues
    unfold followSequence
    split
    · rename_i hnone
      have hlength := lt_length_of_matchesAt hmatch
      rw [findMatch_eq_none.mp hnone index hlow (by omega)] at hmatch
      exact absurd hmatch Bool.false_ne_true
    · rename_i found _
      exact ⟨found, rfl⟩
  | _ :: _ :: _, _ =>
    rw [hrest, List.length_cons, List.length_cons] at hpair
    omega

/-- **The count is exact** for a sequence of at most two patterns. -/
theorem countSequenceRepeats_pair (events : List TargetEvent) (sequence : EventSequence) (maxGap : ℕ)
    (hpair : sequence.rest.length ≤ 1) :
    IsGreatest {k | SequenceRepeats events sequence maxGap k} (countSequenceRepeats events sequence maxGap).1 := by
  apply (countSequenceRepeats_isGreatest events sequence maxGap).mpr
  intro k hk
  refine hk.of_within fun o _ => ?_
  obtain ⟨-, -, hmatch, -⟩ := o.exists_continues
  obtain ⟨previous, hprevious⟩ := exists_followSequence_of_pair o hpair
  obtain ⟨inner, heager, hfirst, hlast, hearliest⟩ := Occurrence.exists_eager hmatch hprevious
  refine ⟨inner, heager, hfirst.ge, ?_⟩
  rw [hlast]
  exact hearliest o le_rfl

/-! ### A missed occurrence -/

/-- An event with a name. -/
def namedEvent (name : String) : TargetEvent := [(py "event", .str (py name))]

/-- A log in which a second `send` is near enough to the `close`, and the first one is not. -/
def resentLog : List TargetEvent :=
  [namedEvent "connect", namedEvent "send", namedEvent "send", namedEvent "recv", namedEvent "close"]

/-- One session of a connection, with at most one other event between two of its events. -/
def sessionRule : RepeatedSequenceRule where
  ruleId := py "session"
  source := .network
  sequence := ⟨[(py "event", .str (py "connect"))],
    [[(py "event", .str (py "send"))], [(py "event", .str (py "close"))]]⟩
  minRepeats := 1
  maxGap := 1
  description := none
  minRepeats_pos := by decide
  maxGap_le := by decide

/-- The occurrence with the second `send`. -/
def resentOccurrence : Occurrence resentLog sessionRule.sequence sessionRule.maxGap where
  indexes := [0, 2, 4]
  matched := .cons (by decide) (.cons (by decide) (.cons (by decide) .nil))
  near := by decide

/-- The sequence is in the log, and the rule that asks for it once is reported as not met. -/
theorem countSequenceRepeats_misses :
    Nonempty (Occurrence (sourceEvents sessionRule.source resentLog) sessionRule.sequence sessionRule.maxGap) ∧
      ¬ IsGreatest {k | SequenceRepeats resentLog sessionRule.sequence sessionRule.maxGap k}
        (countSequenceRepeats resentLog sessionRule.sequence sessionRule.maxGap).1 ∧
      (repeatedSequence sessionRule resentLog).matched = false := by
  have hcount : countSequenceRepeats resentLog sessionRule.sequence sessionRule.maxGap = (0, []) := by
    decide +kernel
  refine ⟨⟨resentOccurrence⟩, ?_, ?_⟩
  · rw [hcount]
    intro hgreatest
    have hone : SequenceRepeats resentLog sessionRule.sequence sessionRule.maxGap 1 :=
      ⟨[resentOccurrence], rfl, fun _ _ => trivial, List.pairwise_singleton _ _⟩
    exact absurd (hgreatest.2 hone) (by decide)
  · decide +kernel

end TaintForge
