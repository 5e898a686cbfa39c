import TaintForge.Env.Document

/-!
# The target-state oracle: repeated sequences

A rule of a target-state specification asks how often a sequence of patterns occurs in an event log, with at
most `max_gap` other events between two of its events.

* `parseRepeatedSequence`: the reader of such a rule.
* `countSequenceRepeats`: the search through a log.
* `repeatedSequence`: what the oracle reports.
-/

namespace TaintForge

/-! ### Patterns -/

/-- A value that a pattern may ask for. -/
inductive JsonScalar
  | null
  | str (s : PyStr)
  | int (n : ℤ)
  | float (x : PyFloat)
  | bool (b : Bool)
  deriving DecidableEq

/-- `_json_scalar`, with the value that passes. -/
def jsonScalar : Json → Option JsonScalar
  | .null => some .null
  | .str s => some (.str s)
  | .int n => some (.int n)
  | .float x => some (.float x)
  | .bool b => some (.bool b)
  | .arr _ | .obj _ => none

/-- The number that `==` of Python sees in a value. -/
def JsonScalar.number : JsonScalar → Option PyFloat
  | .int n => some (.finite n)
  | .float x => some x
  | .bool b => some (.finite (if b then 1 else 0))
  | .null | .str _ => none

/-- `x == y` of two numbers: a `nan` is not equal to itself. -/
def PyFloat.equals (x y : PyFloat) : Bool := x != .nan && x == y

/-- `value == scalar`, where only a scalar is equal to a scalar. -/
def JsonScalar.equals (value scalar : JsonScalar) : Bool :=
  match value.number, scalar.number with
  | some x, some y => x.equals y
  | none, none => value == scalar
  | _, _ => false

/-- An event of a log: the fields of its object. -/
abbrev TargetEvent := List (PyStr × Json)

/-- A pattern: the fields that an event must have. -/
abbrev WhereClause := List (PyStr × JsonScalar)

/-- `_matches`. -/
def eventMatches (event : TargetEvent) (clause : WhereClause) : Bool :=
  clause.all fun (key, value) =>
    (jsonScalar ((Json.lookup key event).getD .null)).any fun found => found.equals value

/-- The patterns of a sequence, of which there is at least one. -/
structure EventSequence where
  first : WhereClause
  rest : List WhereClause
  deriving DecidableEq

/-- The patterns as a list. -/
def EventSequence.patterns (sequence : EventSequence) : List WhereClause := sequence.first :: sequence.rest

/-! ### Rules -/

/-- The logs that a rule can be about. -/
inductive EventSource
  | syscall
  | network
  | trace
  deriving DecidableEq

/-- `_EVENT_SOURCES`: the name of a log in a specification. -/
def EventSource.name : EventSource → PyStr
  | .syscall => py "syscall"
  | .network => py "network"
  | .trace => py "trace"

/-- The logs in the order of the table. -/
def EventSource.members : List EventSource := [.syscall, .network, .trace]

/-- A `TargetRule` of the type `repeated_sequence`, with its parameters. -/
structure RepeatedSequenceRule where
  ruleId : PyStr
  source : EventSource
  sequence : EventSequence
  minRepeats : ℕ
  maxGap : ℕ
  description : Option PyStr
  minRepeats_pos : 0 < minRepeats
  maxGap_le : maxGap ≤ 1024

/-- `raise TargetStateError(message)` if the condition does not hold. -/
def requireTarget (p : Prop) [Decidable p] (message : PyStr) : Except PyStr Unit :=
  if p then .ok () else .error message

/-- The fields of a pattern. -/
def whereFields (label : PyStr) : List (PyStr × Json) → Except PyStr WhereClause
  | [] => .ok []
  | (key, value) :: fields => do
    requireTarget (key ≠ [] ∧ key.length ≤ 128) (label ++ py " contains an invalid field name")
    match jsonScalar value with
    | none => .error (label ++ py "." ++ key ++ py " must be a JSON scalar")
    | some scalar => do
      let rest ← whereFields label fields
      return (key, scalar) :: rest

/-- `_where`. -/
def whereClause (label : PyStr) : Json → Except PyStr WhereClause
  | .obj (field :: fields) => do
    requireTarget ((field :: fields).length ≤ 32) (label ++ py " contains too many fields")
    whereFields label (field :: fields)
  | _ => .error (label ++ py " must be a non-empty object")

/-- `_positive_int`. -/
def positiveInt (label : PyStr) : Json → Except PyStr { n : ℕ // 0 < n }
  | .int n => if h : 0 < n.toNat then .ok ⟨n.toNat, h⟩ else .error (label ++ py " must be a positive integer")
  | _ => .error (label ++ py " must be a positive integer")

/-- `_nonnegative_int`. -/
def nonnegativeInt (label : PyStr) : Json → Except PyStr ℕ
  | .int n => if 0 ≤ n then .ok n.toNat else .error (label ++ py " must be a non-negative integer")
  | _ => .error (label ++ py " must be a non-negative integer")

/-- `rules[index]` and the rest of a label. -/
def ruleLabel (index : ℕ) (field : PyStr) : PyStr := py "rules[" ++ decimal index ++ py "]" ++ field

/-- The patterns of a rule, from an offset. -/
def whereClauses (index : ℕ) : ℕ → List Json → Except PyStr (List WhereClause)
  | _, [] => .ok []
  | offset, item :: items => do
    let clause ← whereClause (ruleLabel index (py ".sequence[" ++ decimal offset ++ py "]")) item
    let clauses ← whereClauses index (offset + 1) items
    return clause :: clauses

/-- `_parse_rule` of a rule of the type `repeated_sequence`, once its id, its source and its description are
read. -/
def parseRepeatedSequence (index : ℕ) (ruleId : PyStr) (source : PyStr) (description : Option PyStr)
    (raw : List (PyStr × Json)) : Except PyStr RepeatedSequenceRule :=
  match EventSource.members.find? fun member => member.name == source with
  | none => .error (ruleLabel index (py " has invalid event source"))
  | some source =>
    match Json.lookup (py "sequence") raw with
    | some (.arr (item :: items)) => do
      requireTarget ((item :: items).length ≤ 32) (ruleLabel index (py ".sequence is too long"))
      let first ← whereClause (ruleLabel index (py ".sequence[0]")) item
      let rest ← whereClauses index 1 items
      let minimum ← positiveInt (ruleLabel index (py ".min_repeats"))
        ((Json.lookup (py "min_repeats") raw).getD (.int 2))
      let maxGap ← nonnegativeInt (ruleLabel index (py ".max_gap"))
        ((Json.lookup (py "max_gap") raw).getD (.int 0))
      if h : maxGap ≤ 1024 then
        .ok ⟨ruleId, source, ⟨first, rest⟩, minimum.1, maxGap, description, minimum.2, h⟩
      else .error (ruleLabel index (py ".max_gap is too large"))
    | _ => .error (ruleLabel index (py ".sequence must be non-empty"))

/-! ### The search -/

/-- Whether the event of an index matches a pattern. -/
def matchesAt (events : List TargetEvent) (index : ℕ) (clause : WhereClause) : Bool :=
  (events[index]?).any fun event => eventMatches event clause

/-- `_find_match`. -/
def findMatch (events : List TargetEvent) (expected : WhereClause) (start stop : ℕ) : Option ℕ :=
  (List.range' start (stop - start)).find? fun index => matchesAt events index expected

/-- The loop over `sequence[1:]`: the last index of an occurrence, or nothing where one of the patterns is not
found in its window. -/
def followSequence (events : List TargetEvent) (maxGap : ℕ) : ℕ → List WhereClause → Option ℕ
  | previous, [] => some previous
  | previous, expected :: rest =>
    match findMatch events expected (previous + 1) (min events.length (previous + maxGap + 2)) with
    | none => none
    | some found => followSequence events maxGap found rest

theorem findMatch_bounds {events : List TargetEvent} {expected : WhereClause} {start stop found : ℕ}
    (h : findMatch events expected start stop = some found) : start ≤ found ∧ found < stop := by
  have hmem := List.mem_range'_1.mp (List.mem_of_find?_eq_some h)
  omega

theorem le_of_followSequence {events : List TargetEvent} {maxGap : ℕ} {rest : List WhereClause}
    {previous last : ℕ} (h : followSequence events maxGap previous rest = some last) : previous ≤ last := by
  induction rest generalizing previous with
  | nil => exact (Option.some.inj h).le
  | cons expected rest ih =>
    unfold followSequence at h
    split at h
    · cases h
    · rename_i found hfound
      have hbounds := findMatch_bounds hfound
      have hlast := ih h
      omega

/-- The loop of `_count_sequence_repeats`, with its `cursor`, `repeats` and `spans`. -/
def searchRepeats (events : List TargetEvent) (sequence : EventSequence) (maxGap : ℕ) (cursor repeats : ℕ)
    (spans : List (ℕ × ℕ)) : ℕ × List (ℕ × ℕ) :=
  if cursor < events.length then
    match _hstart : findMatch events sequence.first cursor events.length with
    | none => (repeats, spans)
    | some start =>
      match hfollow : followSequence events maxGap start sequence.rest with
      | some previous =>
        searchRepeats events sequence maxGap (previous + 1) (repeats + 1) (spans ++ [(start, previous)])
      | none => searchRepeats events sequence maxGap (start + 1) repeats spans
  else (repeats, spans)
termination_by events.length - cursor
decreasing_by
  · have hbounds := findMatch_bounds _hstart
    have hlast := le_of_followSequence hfollow
    omega
  · have hbounds := findMatch_bounds _hstart
    omega

/-- `_count_sequence_repeats`. -/
def countSequenceRepeats (events : List TargetEvent) (sequence : EventSequence) (maxGap : ℕ) :
    ℕ × List (ℕ × ℕ) :=
  searchRepeats events sequence maxGap 0 0 []

/-! ### Reports -/

/-- An entry of the evidence for a repeated sequence. -/
structure SpanEvidence where
  startIndex : ℕ
  endIndex : ℕ
  length : ℕ
  deriving DecidableEq

/-- A `RuleEvaluation` of a repeated sequence. -/
structure SequenceEvaluation where
  ruleId : PyStr
  ruleType : PyStr
  matched : Bool
  observedCount : ℕ
  requiredCount : ℕ
  summary : PyStr
  evidence : List SpanEvidence
  deriving DecidableEq

/-- `_MAX_EVIDENCE_ITEMS`. -/
def maxEvidenceItems : ℕ := 12

/-- The events that a rule looks at: of the system calls, those of the guest. -/
def sourceEvents (source : EventSource) (events : List TargetEvent) : List TargetEvent :=
  match source with
  | .syscall => events.filter fun event => eventMatches event [(py "execution_context", .str (py "guest"))]
  | .network | .trace => events

/-- `_repeated_sequence`, on the events that the log has. -/
def repeatedSequence (rule : RepeatedSequenceRule) (log : List TargetEvent) : SequenceEvaluation :=
  let (repeats, spans) := countSequenceRepeats (sourceEvents rule.source log) rule.sequence rule.maxGap
  { ruleId := rule.ruleId
    ruleType := py "repeated_sequence"
    matched := decide (rule.minRepeats ≤ repeats)
    observedCount := repeats
    requiredCount := rule.minRepeats
    summary := py "observed sequence " ++ decimal repeats ++ py " times in " ++ rule.source.name ++
      py " events; requires " ++ decimal rule.minRepeats ++ py ", max_gap=" ++ decimal rule.maxGap
    evidence := (spans.take maxEvidenceItems).map fun (start, stop) => ⟨start, stop, stop - start + 1⟩ }

end TaintForge
