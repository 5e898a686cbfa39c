import TaintForge.Env.ProgressOracle

/-!
# The comparison of two observations

What an iteration has changed, as it is recorded beside it.  The events of an observation were put there by
`observe`, so an address is a text and a port an integer, or they are null.

* `ProgressOracle.compare`: the decision.
* `ProgressOracle.positiveReasons`, `ProgressOracle.negativeReasons`: what speaks for progress and what against it.
-/

namespace TaintForge

namespace ProgressOracle

inductive ProgressClassification
  | baseline | progress | noProgress | regression | goalReached
  deriving DecidableEq

def ProgressClassification.value : ProgressClassification → PyStr
  | .baseline => py "baseline"
  | .progress => py "progress"
  | .noProgress => py "no_progress"
  | .regression => py "regression"
  | .goalReached => py "goal_reached"

structure ProgressDecision where
  classification : ProgressClassification
  reasons : List PyStr
  newGuestEvents : ℕ
  removedGuestEvents : ℕ
  newNetworkTargets : ℕ
  likelyUnmetDelta : ℤ
  unmetDelta : ℤ
  deriving DecidableEq

def ProgressDecision.toDict (d : ProgressDecision) : List (PyStr × Json) :=
  [(py "classification", .str d.classification.value),
    (py "reasons", .arr (d.reasons.map .str)),
    (py "new_guest_events", .int d.newGuestEvents),
    (py "removed_guest_events", .int d.removedGuestEvents),
    (py "new_network_targets", .int d.newNetworkTargets),
    (py "likely_unmet_delta", .int d.likelyUnmetDelta),
    (py "unmet_delta", .int d.unmetDelta)]

/-- The set of the events of the guest, as texts. -/
def guestTexts (ft : FloatText) (o : IterationObservation) : List PyStr :=
  (o.normalizedGuestEvents.map fun event => canonicalJson ft (.obj event)).dedup

/-- The address and the port of an event. -/
def targetOf (event : List (PyStr × Json)) : Option (PyStr × ℤ) :=
  match textOrNone (field (py "original_remote_ip") event),
      intOrBool (field (py "original_remote_port") event) with
  | some ip, some port => some (ip, port.value)
  | _, _ => none

/-- `_network_targets` of the events of an observation. -/
def targets (o : IterationObservation) : List (PyStr × ℤ) :=
  (o.normalizedNetworkEvents.filterMap targetOf).dedup

/-- A text for a condition that holds. -/
def reasonIf (p : Prop) [Decidable p] (text : PyStr) : List PyStr := if p then [text] else []

/-- What speaks for progress. -/
def positiveReasons (newGuest newTargets : ℕ) (likelyDelta unmetDelta : ℤ) : List PyStr :=
  reasonIf (0 < newGuest) (py "observed " ++ decimal newGuest ++ py " new normalized guest events") ++
    reasonIf (0 < newTargets) (py "observed " ++ decimal newTargets ++ py " new network targets") ++
    reasonIf (likelyDelta < 0)
      (py "likely unmet requirements decreased by " ++ decimalInt (-likelyDelta)) ++
    reasonIf (unmetDelta < 0) (py "unmet requirements decreased by " ++ decimalInt (-unmetDelta))

/-- What speaks against it. -/
def negativeReasons (previousSignals currentSignals newGuest removedGuest : ℕ) (likelyDelta : ℤ) :
    List PyStr :=
  reasonIf (previousSignals < currentSignals) (py "fatal signal count increased") ++
    reasonIf (0 < likelyDelta) (py "likely unmet requirements increased by " ++ decimalInt likelyDelta) ++
    reasonIf (0 < removedGuest ∧ newGuest = 0)
      (decimal removedGuest ++ py " previously observed guest events disappeared")

/-- What the reasons add up to. -/
def classify (positive negative : List PyStr) : ProgressClassification × List PyStr :=
  if positive ≠ [] ∧ negative = [] then (.progress, positive)
  else if negative ≠ [] ∧ positive = [] then (.regression, negative)
  else
    (.noProgress,
      if positive ++ negative = [] then [py "no conservative progress signal changed"]
      else positive ++ negative)

/-- How many elements of one list are not in another. -/
def countNew {α : Type} [DecidableEq α] (xs ys : List α) : ℕ := xs.countP fun x => x ∉ ys

/-- `ProgressOracle.compare`. -/
def compare (ft : FloatText) (previous : Option IterationObservation) (current : IterationObservation) :
    ProgressDecision :=
  if current.goalReached then
    { classification := .goalReached
      reasons :=
        [match current.goalReason with
          | some (c :: reason) => c :: reason
          | _ => py "explicit goal reached"]
      newGuestEvents := 0
      removedGuestEvents := 0
      newNetworkTargets := 0
      likelyUnmetDelta := 0
      unmetDelta := 0 }
  else
    match previous with
    | none =>
      { classification := .baseline
        reasons := [py "first completed iteration establishes the baseline"]
        newGuestEvents := current.metrics.uniqueGuestEvents
        removedGuestEvents := 0
        newNetworkTargets := current.metrics.uniqueNetworkTargets
        likelyUnmetDelta := 0
        unmetDelta := 0 }
    | some previous =>
      let newGuest := countNew (guestTexts ft current) (guestTexts ft previous)
      let removedGuest := countNew (guestTexts ft previous) (guestTexts ft current)
      let newTargets := countNew (targets current) (targets previous)
      let likelyDelta : ℤ := current.metrics.likelyUnmetTotal - previous.metrics.likelyUnmetTotal
      let unmetDelta : ℤ := current.metrics.unmetTotal - previous.metrics.unmetTotal
      let decision := classify (positiveReasons newGuest newTargets likelyDelta unmetDelta)
        (negativeReasons previous.metrics.fatalSignals current.metrics.fatalSignals newGuest removedGuest
          likelyDelta)
      { classification := decision.1
        reasons := decision.2
        newGuestEvents := newGuest
        removedGuestEvents := removedGuest
        newNetworkTargets := newTargets
        likelyUnmetDelta := likelyDelta
        unmetDelta := unmetDelta }

end ProgressOracle

end TaintForge
