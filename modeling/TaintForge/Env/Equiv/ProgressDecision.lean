import TaintForge.Env.ProgressDecision
import TaintForge.Env.Equiv.ProgressOracle

/-!
# What the comparison of two observations says

* `countNew_balance`: what is new and what is gone account for the change of a set.
* `guestTexts_observed`, `targets_observed`: the sets of an observed iteration.
* `compare_observed`: the decision about two observed iterations.
-/

namespace TaintForge

namespace ProgressOracle

/-! ### Differences of sets -/

section Sets

variable {α : Type} [DecidableEq α] {xs ys : List α}

theorem countNew_pos : 0 < countNew xs ys ↔ ∃ x ∈ xs, x ∉ ys := by
  rw [countNew, List.countP_pos_iff]
  simp

theorem countNew_eq_zero : countNew xs ys = 0 ↔ ∀ x ∈ xs, x ∈ ys := by
  rw [countNew, List.countP_eq_zero]
  simp

@[simp] theorem countNew_self : countNew xs xs = 0 := countNew_eq_zero.mpr fun _ hx => hx

/-- **What is new and what is gone account for the change.** -/
theorem countNew_balance (hx : xs.Nodup) (hy : ys.Nodup) :
    xs.length + countNew ys xs = ys.length + countNew xs ys := by
  have hcommon : (xs.filter fun x => x ∈ ys).Perm (ys.filter fun y => y ∈ xs) := by
    rw [List.perm_ext_iff_of_nodup (hx.filter _) (hy.filter _)]
    intro a
    simp only [List.mem_filter, decide_eq_true_eq]
    exact and_comm
  have hlength : xs.countP (fun x => x ∈ ys) = ys.countP fun y => y ∈ xs := by
    rw [List.countP_eq_length_filter, List.countP_eq_length_filter]
    exact hcommon.length_eq
  have hxs := List.length_eq_countP_add_countP (fun x => decide (x ∈ ys)) (l := xs)
  have hys := List.length_eq_countP_add_countP (fun y => decide (y ∈ xs)) (l := ys)
  simp only [decide_eq_true_eq] at hxs hys
  unfold countNew
  omega

end Sets

/-! ### Reasons -/

@[simp] theorem reasonIf_eq_nil {p : Prop} [Decidable p] {text : PyStr} : reasonIf p text = [] ↔ ¬ p := by
  unfold reasonIf
  split <;> simp_all

theorem positiveReasons_eq_nil {newGuest newTargets : ℕ} {likelyDelta unmetDelta : ℤ} :
    positiveReasons newGuest newTargets likelyDelta unmetDelta = [] ↔
      newGuest = 0 ∧ newTargets = 0 ∧ 0 ≤ likelyDelta ∧ 0 ≤ unmetDelta := by
  simp only [positiveReasons, List.append_eq_nil_iff, reasonIf_eq_nil]
  omega

theorem negativeReasons_eq_nil {previousSignals currentSignals newGuest removedGuest : ℕ}
    {likelyDelta : ℤ} :
    negativeReasons previousSignals currentSignals newGuest removedGuest likelyDelta = [] ↔
      currentSignals ≤ previousSignals ∧ likelyDelta ≤ 0 ∧ (removedGuest = 0 ∨ 0 < newGuest) := by
  simp only [negativeReasons, List.append_eq_nil_iff, reasonIf_eq_nil]
  omega

theorem classify_progress {positive negative : List PyStr} :
    (classify positive negative).1 = .progress ↔ positive ≠ [] ∧ negative = [] := by
  unfold classify
  split
  · rename_i h
    exact iff_of_true rfl h
  · rename_i h
    refine iff_of_false ?_ h
    split <;> simp

theorem classify_regression {positive negative : List PyStr} :
    (classify positive negative).1 = .regression ↔ negative ≠ [] ∧ positive = [] := by
  unfold classify
  split
  · rename_i h
    refine iff_of_false (by simp) ?_
    intro h'
    exact h'.1 h.2
  · split
    · rename_i h
      exact iff_of_true rfl h
    · rename_i h
      exact iff_of_false (by simp) h

/-! ### Observed iterations -/

section Observed

variable {sha : Sha256} {ft : FloatText} {builtins : PyBuiltins} {a b : ObservedIteration sha ft builtins}

theorem guestTexts_observed (a : ObservedIteration sha ft builtins) : guestTexts ft a.observation =
    (a.read.guestEvents.map fun event => canonicalJson ft (.obj event.toDict)).dedup := by
  rw [guestTexts, a.observation_eq.2]
  exact congrArg List.dedup (List.map_map (l := a.read.guestEvents))

theorem targets_observed (a : ObservedIteration sha ft builtins) :
    targets a.observation = networkTargets a.read.networkEvents := by
  rw [targets, a.observation_eq.2, networkTargets]
  refine congrArg List.dedup ?_
  show (a.read.networkEvents.map NormalizedNetworkEvent.toDict).filterMap _ = _
  rw [List.filterMap_map]
  refine List.filterMap_congr fun event _ => ?_
  rcases event with ⟨_, _, _ | ip, _ | port, _, _⟩
  · rfl
  · rfl
  · rfl
  · show targetOf _ = some (ip, port.value)
    cases port <;> rfl

theorem length_guestTexts (a : ObservedIteration sha ft builtins) :
    (guestTexts ft a.observation).length = a.observation.metrics.uniqueGuestEvents := by
  rw [guestTexts_observed, a.observation_eq.2]
  rfl

theorem length_targets (a : ObservedIteration sha ft builtins) :
    (targets a.observation).length = a.observation.metrics.uniqueNetworkTargets := by
  rw [targets_observed, a.observation_eq.2]
  rfl

/-- The events of an iteration can be written one by one. -/
theorem writable_guestEvent (a : ObservedIteration sha ft builtins) {e : NormalizedGuestEvent}
    (he : e ∈ a.read.guestEvents) : Writable (.obj e.toDict) := by
  have hall : Writable a.state.behaviorJson := a.observation_eq.1.behavior
  rw [IterationState.behaviorJson, behaviorPayload, writable_obj] at hall
  have hguest := (hall _ List.mem_cons_self).2
  rw [writable_arr] at hguest
  exact hguest _ (List.mem_map_of_mem he)

/-- **An event is known from its text.** -/
theorem mem_guestTexts {e : NormalizedGuestEvent} (he : e ∈ b.read.guestEvents) :
    canonicalJson ft (.obj e.toDict) ∈ guestTexts ft a.observation ↔ e ∈ a.read.guestEvents := by
  rw [guestTexts_observed, List.mem_dedup, List.mem_map]
  constructor
  · rintro ⟨f, hf, htext⟩
    rwa [← guestEvent_faithful.text_inj (writable_guestEvent a hf) (writable_guestEvent b he) htext]
  · intro h
    exact ⟨e, h, rfl⟩

theorem newGuest_pos : 0 < countNew (guestTexts ft b.observation) (guestTexts ft a.observation) ↔
    ∃ e ∈ b.read.guestEvents, e ∉ a.read.guestEvents := by
  rw [countNew_pos, guestTexts_observed b]
  constructor
  · rintro ⟨text, htext, hnew⟩
    obtain ⟨e, he, rfl⟩ := List.mem_map.mp (List.mem_dedup.mp htext)
    exact ⟨e, he, fun hold => hnew ((mem_guestTexts he).mpr hold)⟩
  · rintro ⟨e, he, hnew⟩
    exact ⟨_, List.mem_dedup.mpr (List.mem_map_of_mem he), fun hold => hnew ((mem_guestTexts he).mp hold)⟩

theorem newTargets_pos : 0 < countNew (targets b.observation) (targets a.observation) ↔
    ∃ t ∈ networkTargets b.read.networkEvents, t ∉ networkTargets a.read.networkEvents := by
  rw [countNew_pos, targets_observed, targets_observed]

/-- **One digest, one set of documents.** -/
theorem read_eq_of_fingerprint (hsep : a.state.Separated sha ft b.state)
    (h : a.observation.stateFingerprint = b.observation.stateFingerprint) :
    a.snapshotId = b.snapshotId ∧ a.read.requirements = b.read.requirements ∧
      a.read.repairs = b.read.repairs ∧ a.read.guestEvents = b.read.guestEvents ∧
      a.read.networkEvents = b.read.networkEvents := by
  have ha := a.observation_eq.1
  have hb := b.observation_eq.1
  rw [a.fingerprint_eq, b.fingerprint_eq] at h
  have hsame := sameState_of_digest ha hb hsep h
  have hstate := state_faithful.text_inj (x := (a.snapshotId, _, _, _)) (y := (b.snapshotId, _, _, _))
    ha.state hb.state (hsep.state h)
  simp only [Prod.mk.injEq] at hstate
  obtain ⟨hsnapshot, hrequirements, hrepairs, -⟩ := hstate
  exact ⟨hsnapshot,
    requirement_faithful.list.text_inj ha.requirements hb.requirements (hsep.requirements hrequirements),
    repair_faithful.list.text_inj ha.repairs hb.repairs (hsep.repairs hrepairs),
    hsame.guestEvents, hsame.networkEvents⟩

end Observed

/-! ### The decision -/

/-- The later iteration shows something new, or lacks less. -/
def Improves (a b : ObservedIteration sha ft builtins) : Prop :=
  (∃ e ∈ b.read.guestEvents, e ∉ a.read.guestEvents) ∨
    (∃ t ∈ networkTargets b.read.networkEvents, t ∉ networkTargets a.read.networkEvents) ∨
    b.observation.metrics.likelyUnmetTotal < a.observation.metrics.likelyUnmetTotal ∨
    b.observation.metrics.unmetTotal < a.observation.metrics.unmetTotal

/-- The later iteration has more fatal signals or probable needs, or only lost events. -/
def Worsens (a b : ObservedIteration sha ft builtins) : Prop :=
  a.observation.metrics.fatalSignals < b.observation.metrics.fatalSignals ∨
    a.observation.metrics.likelyUnmetTotal < b.observation.metrics.likelyUnmetTotal ∨
    (∃ e ∈ a.read.guestEvents, e ∉ b.read.guestEvents) ∧ ∀ e ∈ b.read.guestEvents, e ∈ a.read.guestEvents

/-- The decision when nothing has changed. -/
def unchangedDecision : ProgressDecision where
  classification := .noProgress
  reasons := [py "no conservative progress signal changed"]
  newGuestEvents := 0
  removedGuestEvents := 0
  newNetworkTargets := 0
  likelyUnmetDelta := 0
  unmetDelta := 0

/-- **What a decision says about two iterations.** -/
structure Compared (a b : ObservedIteration sha ft builtins) (d : ProgressDecision) : Prop where
  balance : a.observation.metrics.uniqueGuestEvents + d.newGuestEvents =
    b.observation.metrics.uniqueGuestEvents + d.removedGuestEvents
  new_guest : 0 < d.newGuestEvents ↔ ∃ e ∈ b.read.guestEvents, e ∉ a.read.guestEvents
  removed_guest : 0 < d.removedGuestEvents ↔ ∃ e ∈ a.read.guestEvents, e ∉ b.read.guestEvents
  new_targets : 0 < d.newNetworkTargets ↔
    ∃ t ∈ networkTargets b.read.networkEvents, t ∉ networkTargets a.read.networkEvents
  progress : d.classification = .progress ↔ Improves a b ∧ ¬ Worsens a b
  regression : d.classification = .regression ↔ Worsens a b ∧ ¬ Improves a b
  fixed_point : a.state.Separated sha ft b.state →
    a.observation.stateFingerprint = b.observation.stateFingerprint → d = unchangedDecision

section Decision

variable {sha : Sha256} {ft : FloatText} {builtins : PyBuiltins} {a b : ObservedIteration sha ft builtins}

/-- The changes that the decision is made of. -/
def newGuest (a b : ObservedIteration sha ft builtins) : ℕ :=
  countNew (guestTexts ft b.observation) (guestTexts ft a.observation)

def newTargets (a b : ObservedIteration sha ft builtins) : ℕ :=
  countNew (targets b.observation) (targets a.observation)

def likelyDelta (a b : ObservedIteration sha ft builtins) : ℤ :=
  b.observation.metrics.likelyUnmetTotal - a.observation.metrics.likelyUnmetTotal

def unmetDelta (a b : ObservedIteration sha ft builtins) : ℤ :=
  b.observation.metrics.unmetTotal - a.observation.metrics.unmetTotal

def positives (a b : ObservedIteration sha ft builtins) : List PyStr :=
  positiveReasons (newGuest a b) (newTargets a b) (likelyDelta a b) (unmetDelta a b)

def negatives (a b : ObservedIteration sha ft builtins) : List PyStr :=
  negativeReasons a.observation.metrics.fatalSignals b.observation.metrics.fatalSignals (newGuest a b)
    (newGuest b a) (likelyDelta a b)

theorem compare_eq (hgoal : b.observation.goalReached = false) :
    compare ft (some a.observation.timed) b.observation =
      { classification := (classify (positives a b) (negatives a b)).1
        reasons := (classify (positives a b) (negatives a b)).2
        newGuestEvents := newGuest a b
        removedGuestEvents := newGuest b a
        newNetworkTargets := newTargets a b
        likelyUnmetDelta := likelyDelta a b
        unmetDelta := unmetDelta a b } := by
  unfold compare
  rw [hgoal]
  rfl

theorem positives_ne_nil : positives a b ≠ [] ↔ Improves a b := by
  have hguest : 0 < newGuest a b ↔ _ := newGuest_pos
  have htargets : 0 < newTargets a b ↔ _ := newTargets_pos
  rw [positives, ne_eq, positiveReasons_eq_nil, Improves, ← hguest, ← htargets]
  unfold likelyDelta unmetDelta
  omega

theorem negatives_ne_nil : negatives a b ≠ [] ↔ Worsens a b := by
  have hnew : newGuest a b = 0 ↔ ∀ e ∈ b.read.guestEvents, e ∈ a.read.guestEvents := by
    constructor
    · intro h e he
      by_contra hold
      exact absurd h (Nat.ne_of_gt (newGuest_pos.mpr ⟨e, he, hold⟩))
    · intro h
      by_contra hne
      obtain ⟨e, he, hold⟩ := newGuest_pos.mp (Nat.pos_of_ne_zero hne)
      exact hold (h e he)
  have hgone : 0 < newGuest b a ↔ _ := newGuest_pos
  rw [negatives, ne_eq, negativeReasons_eq_nil, Worsens, ← hgone, ← hnew]
  unfold likelyDelta
  omega

theorem unchanged (hsep : a.state.Separated sha ft b.state)
    (h : a.observation.stateFingerprint = b.observation.stateFingerprint) :
    newGuest a b = 0 ∧ newGuest b a = 0 ∧ newTargets a b = 0 ∧
      a.observation.metrics = b.observation.metrics := by
  obtain ⟨-, hrequirements, hrepairs, hguest, hnetwork⟩ := read_eq_of_fingerprint hsep h
  have htexts : guestTexts ft a.observation = guestTexts ft b.observation := by
    rw [guestTexts_observed, guestTexts_observed, hguest]
  have htargets : targets a.observation = targets b.observation := by
    rw [targets_observed, targets_observed, hnetwork]
  refine ⟨?_, ?_, ?_, ?_⟩
  · rw [newGuest, htexts, countNew_self]
  · rw [newGuest, htexts, countNew_self]
  · rw [newTargets, htargets, countNew_self]
  · rw [a.observation_eq.2, b.observation_eq.2]
    show buildMetrics ft a.read.requirements a.read.repairs a.read.guestEvents a.read.networkEvents =
      buildMetrics ft b.read.requirements b.read.repairs b.read.guestEvents b.read.networkEvents
    rw [hrequirements, hrepairs, hguest, hnetwork]

theorem compared (hgoal : b.observation.goalReached = false) :
    Compared a b (compare ft (some a.observation.timed) b.observation) := by
  rw [compare_eq hgoal]
  constructor
  case balance =>
    have hnodup : ∀ o : IterationObservation, (guestTexts ft o).Nodup := fun _ => List.nodup_dedup _
    have hbalance := countNew_balance (hnodup a.observation) (hnodup b.observation)
    rwa [length_guestTexts, length_guestTexts] at hbalance
  case new_guest => exact newGuest_pos
  case removed_guest => exact newGuest_pos
  case new_targets => exact newTargets_pos
  case progress =>
    show (classify (positives a b) (negatives a b)).1 = .progress ↔ _
    rw [classify_progress, positives_ne_nil, ← negatives_ne_nil, ne_eq, not_not]
  case regression =>
    show (classify (positives a b) (negatives a b)).1 = .regression ↔ _
    rw [classify_regression, negatives_ne_nil, ← positives_ne_nil, ne_eq, not_not]
  case fixed_point =>
    intro hsep h
    obtain ⟨hnew, hgone, htargets, hmetrics⟩ := unchanged hsep h
    have hlikely : likelyDelta a b = 0 := by rw [likelyDelta, hmetrics, sub_self]
    have hunmet : unmetDelta a b = 0 := by rw [unmetDelta, hmetrics, sub_self]
    have hpositive : positives a b = [] := by
      rw [positives, positiveReasons_eq_nil]
      omega
    have hnegative : negatives a b = [] := by
      rw [negatives, negativeReasons_eq_nil, hmetrics]
      omega
    rw [hpositive, hnegative, hnew, hgone, htargets, hlikely, hunmet]
    rfl

end Decision

/-- **The comparison of an observation with the stored one before it**: the counts account for the change of the
observed events, progress and regression are what the iterations show, and a fixed point is no progress. -/
theorem comparison_with_stored (sha : Sha256) (ft : FloatText) (builtins : PyBuiltins)
    (a b : ObservedIteration sha ft builtins) (text : PyStr) (previous : IterationObservation)
    (hsave : a.observation.save ft = .ok text)
    (hload : IterationObservation.load ft builtins (some text) = .ok previous)
    (hgoal : b.goalReached = false) : Compared a b (compare ft (some previous) b.observation) := by
  have hprevious : previous = a.observation.timed :=
    Except.ok.inj (hload.symm.trans (load_save a.stored.1 a.stored.2 hsave))
  rw [hprevious]
  apply compared
  rw [b.observation_eq.2]
  exact hgoal

/-- A later iteration that finds the same is no progress. -/
theorem comparison_with_stored_reordered :
    (compare noFloats (some firstIteration.observation.timed) laterIteration.observation).classification ≠
      .progress ∧
      ¬ Worsens firstIteration laterIteration := by
  have hsave : firstIteration.observation.save noFloats =
      .ok (storedText noFloats firstIteration.observation.toDict) :=
    (serialise_eq_ok firstIteration.stored.2).mpr ⟨firstObservation_writable, rfl⟩
  have hcompared := comparison_with_stored deviceSha noFloats asciiBuiltins firstIteration laterIteration
    (storedText noFloats firstIteration.observation.toDict) firstIteration.observation.timed hsave
    (load_save firstIteration.stored.1 firstIteration.stored.2 hsave) rfl
  have hequal : firstIteration.observation.stateFingerprint = laterIteration.observation.stateFingerprint :=
    ObservedIteration.fingerprint_of_agree (device_uniqueIds _ _) (device_uniqueIds _ _) rfl
      rawArtifacts_first rawArtifacts_later agree_reordered
  have hunchanged := hcompared.fixed_point device_separated hequal
  have hworse : ¬ Worsens firstIteration laterIteration := by
    rw [← negatives_ne_nil, not_not]
    obtain ⟨hnew, hgone, -, hmetrics⟩ := unchanged device_separated hequal
    rw [negatives, negativeReasons_eq_nil, likelyDelta, hmetrics]
    omega
  rw [hunchanged]
  exact ⟨by decide, hworse⟩

end ProgressOracle

end TaintForge
