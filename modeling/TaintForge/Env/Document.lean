import TaintForge.Lib.Except
import TaintForge.Lib.JsonText

/-!
# Persisted documents

What the contracts, results and manifests have in common: the fields they read from a JSON object, the
digest of their canonical text, and the text that is stored.

Two things of the standard library are left open.  `Sha256` is the digest, of which only the form
matters, and `IsoFormat` is `datetime.fromisoformat`.

* `ensure`, `requireString`, `requireInt`, `enumOf`: the checks.
* `canonicalSha256`: the digest of a document.
* `serialise`, `Document.reload`: writing a document and reading it back.
-/

namespace TaintForge

/-! ### The standard library -/

/-- `re.fullmatch(r"[0-9a-f]{64}", text)`. -/
def isSha256 (text : PyStr) : Bool :=
  text.length == 64 && text.all fun c =>
    (decide (0x30 ≤ c) && decide (c ≤ 0x39)) || (decide (0x61 ≤ c) && decide (c ≤ 0x66))

/-- `hashlib.sha256(text.encode()).hexdigest()`, for a text that can be encoded. -/
structure Sha256 where
  hexdigest : PyStr → PyStr
  isSha256_hexdigest : ∀ text, isSha256 (hexdigest text)

/-- A point in time and whether its time zone is known. -/
structure DateTime where
  instant : ℤ
  aware : Bool
  deriving DecidableEq

/-- `datetime.fromisoformat`, with nothing where it raises `ValueError`. -/
structure IsoFormat where
  parse : PyStr → Option DateTime
  parse_nil : parse [] = none

/-- A Python `int`, which may be a `bool`. -/
inductive PyInt
  | int (n : ℤ)
  | bool (b : Bool)
  deriving DecidableEq

/-- The number that a value counts as. -/
def PyInt.value : PyInt → ℤ
  | .int n => n
  | .bool b => if b then 1 else 0

/-- What `json.dumps` makes of it. -/
def PyInt.toJson : PyInt → Json
  | .int n => .int n
  | .bool b => .bool b

/-- What `json.dumps` makes of an optional value. -/
def nullable {α : Type} (toJson : α → Json) : Option α → Json
  | none => .null
  | some x => toJson x

/-! ### Checks -/

/-- Why a document is refused, not written or not read. -/
inductive DocumentError
  | invalid (message : PyStr)
  | unicode
  | json (error : JsonError)
  deriving DecidableEq

/-- A check that raises. -/
def ensure (p : Prop) [Decidable p] (message : PyStr) : Except DocumentError Unit :=
  if p then .ok () else .error (.invalid message)

@[simp] theorem ensure_eq_ok {p : Prop} [Decidable p] {message : PyStr} {u : Unit} :
    ensure p message = .ok u ↔ p := by
  unfold ensure
  split
  · rename_i h
    exact iff_of_true rfl h
  · rename_i h
    exact iff_of_false (by nofun) h

/-- `_require_dict`. -/
def requireDict (label : PyStr) : Json → Except DocumentError (List (PyStr × Json))
  | .obj fields => .ok fields
  | _ => .error (.invalid (label ++ py " must be a JSON object"))

/-- `_require_string`. -/
def requireString (label : PyStr) : Json → Except DocumentError PyStr
  | .str s => if s = [] then .error (.invalid (label ++ py " must be a non-empty string")) else .ok s
  | _ => .error (.invalid (label ++ py " must be a non-empty string"))

/-- `_require_int`. -/
def requireInt (label : PyStr) : Json → Except DocumentError PyInt
  | .int n => .ok (.int n)
  | _ => .error (.invalid (label ++ py " must be an integer"))

/-- A list of elements. -/
def requireList (message : PyStr) : Json → Except DocumentError (List Json)
  | .arr items => .ok items
  | _ => .error (.invalid message)

/-- A field that may be absent or null. -/
def requireOptional {α : Type} (require : Json → Except DocumentError α) :
    Json → Except DocumentError (Option α)
  | .null => .ok none
  | j => (require j).map some

/-- A member of an enumeration from its value. -/
def enumOf {α : Type} (members : List α) (value : α → PyStr) (message : PyStr) :
    Json → Except DocumentError α
  | .str s =>
    match members.find? fun a => value a == s with
    | some a => .ok a
    | none => .error (.invalid message)
  | _ => .error (.invalid message)

/-- The elements one after another. -/
def mapOk {α β : Type} (f : α → Except DocumentError β) : List α → Except DocumentError (List β)
  | [] => .ok []
  | x :: xs => do
    let y ← f x
    let ys ← mapOk f xs
    return y :: ys

/-- `fields.get(key)`. -/
def field (key : PyStr) (fields : List (PyStr × Json)) : Json := (Json.lookup key fields).getD .null

/-- Comparison of a value with a string. -/
def isText (text : PyStr) : Json → Bool
  | .str s => s == text
  | _ => false

/-- `_validate_sha256`. -/
def validateSha256 (label text : PyStr) : Except DocumentError Unit :=
  ensure (isSha256 text) (label ++ py " must be a lowercase SHA-256 digest")

/-- `_parse_timestamp`. -/
def parseTimestamp (iso : IsoFormat) (label text : PyStr) : Except DocumentError DateTime :=
  match iso.parse text with
  | none => .error (.invalid (label ++ py " is not an ISO-8601 timestamp"))
  | some t =>
    if t.aware then .ok t else .error (.invalid (label ++ py " must include a timezone"))

/-- A regular expression of the form `[first][rest]{0,limit}`. -/
def matchesName (first rest : ℕ → Bool) (limit : ℕ) : PyStr → Bool
  | [] => false
  | c :: s => first c && s.all rest && decide (s.length ≤ limit)

/-- `[A-Za-z0-9]`. -/
def isAlphanumeric (c : ℕ) : Bool :=
  (decide (0x30 ≤ c) && decide (c ≤ 0x39)) || (decide (0x41 ≤ c) && decide (c ≤ 0x5A)) ||
    (decide (0x61 ≤ c) && decide (c ≤ 0x7A))

/-! ### Digests and texts -/

section Text

variable (sha : Sha256) (ft : FloatText)

/-- A text as bytes. -/
def encode (text : PyStr) : Except DocumentError PyStr :=
  if text.encodable then .ok text else .error .unicode

/-- `json.dumps`. -/
def dumps (l : Json.Layout) (j : Json) : Except DocumentError PyStr :=
  match Json.dumps ft l j with
  | .ok text => .ok text
  | .error error => .error (.json error)

/-- `_canonical_sha256`. -/
def canonicalSha256 (j : Json) : Except DocumentError PyStr := do
  let text ← dumps ft .compact j.sortKeys
  let bytes ← encode text
  return sha.hexdigest bytes

/-- What is written to a file for a document. -/
def serialise (j : Json) : Except DocumentError PyStr := do
  let text ← dumps ft .indented j
  encode (text ++ [0x0A])

/-- `json.loads`. -/
def loads (text : PyStr) : Except DocumentError Json :=
  match Json.loads ft text with
  | .ok j => .ok j
  | .error error => .error (.json error)

/-- A kind of documents. -/
structure Document (α : Type) where
  toDict : α → Except DocumentError Json
  fromDict : Json → Except DocumentError α

/-- A document is written, and the text is read back. -/
def Document.reload {α : Type} (document : Document α) (x : α) : Except DocumentError α := do
  let j ← document.toDict x
  let text ← serialise ft j
  let value ← loads ft text
  document.fromDict value

end Text

end TaintForge
