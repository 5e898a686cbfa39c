import TaintForge.Lib.Json
import Mathlib.Data.List.Sort
import Mathlib.Data.Nat.Digits.Defs

/-!
# The text of JSON documents

`json.dumps` and `json.loads`, on code points.  A number with a point or an exponent goes through the
functions `float` and `repr`, which are left open here.

* `Json.write`, `Json.dumps`: the writer with its layouts.
* `Json.sortKeys`: what `sort_keys=True` does to a document before it is written.
* `Json.scanString`, `Json.parseValue`, `Json.loads`: the reader.
-/

namespace TaintForge

/-- `repr(x)` and `float(text)`. -/
structure FloatText where
  repr : PyFloat → PyStr
  parse : PyStr → PyFloat

/-- Why a text cannot be read or a value cannot be written. -/
inductive JsonError
  | decode
  | intTooLarge
  | recursion
  deriving DecidableEq

/-- `sys.get_int_max_str_digits()`. -/
def maxStrDigits : ℕ := 4300

/-! ### Numbers -/

/-- The decimal digits of a number. -/
def decimal (n : ℕ) : PyStr :=
  if n = 0 then [0x30] else (Nat.digits 10 n).reverse.map (0x30 + ·)

/-- `int.__repr__`, for an integer that is not too large. -/
def decimalInt (n : ℤ) : PyStr :=
  if n < 0 then 0x2D :: decimal n.natAbs else decimal n.natAbs

/-- Whether an integer may be converted from or to a decimal text. -/
def convertible (n : ℤ) : Bool := decide ((decimal n.natAbs).length ≤ maxStrDigits)

namespace Json

/-- How a document is laid out: `indent`, the number of spaces after the commas and colons, and
`ensure_ascii`. -/
structure Layout where
  indent : Option ℕ
  itemPad : ℕ
  keyPad : ℕ
  ensureAscii : Bool

/-- `indent=2, ensure_ascii=False`. -/
def Layout.indented : Layout := ⟨some 2, 0, 1, false⟩

/-- `separators=(",", ":"), ensure_ascii=False`. -/
def Layout.compact : Layout := ⟨none, 0, 0, false⟩

/-- `ensure_ascii=False` alone. -/
def Layout.plain : Layout := ⟨none, 1, 1, false⟩

/-! ### The writer -/

/-- A digit of a `\u` escape. -/
def hexDigit (d : ℕ) : ℕ := if d < 10 then 0x30 + d else 0x61 + (d - 10)

/-- The escape of a code unit. -/
def unicodeEscape (c : ℕ) : PyStr :=
  [0x5C, 0x75, hexDigit (c / 0x1000 % 0x10), hexDigit (c / 0x100 % 0x10), hexDigit (c / 0x10 % 0x10),
    hexDigit (c % 0x10)]

/-- The letter of a short escape. -/
def shortEscape (c : ℕ) : Option ℕ :=
  if c = 0x22 then some 0x22
  else if c = 0x5C then some 0x5C
  else if c = 0x0A then some 0x6E
  else if c = 0x0D then some 0x72
  else if c = 0x09 then some 0x74
  else if c = 0x0C then some 0x66
  else if c = 0x08 then some 0x62
  else none

/-- A character inside a string. -/
def escapeChar (ensureAscii : Bool) (c : ℕ) : PyStr :=
  match shortEscape c with
  | some letter => [0x5C, letter]
  | none =>
    if c < 0x20 then unicodeEscape c
    else if ensureAscii && decide (0x7E < c) then
      if c < 0x10000 then unicodeEscape c
      else
        unicodeEscape (0xD800 + (c - 0x10000) / 0x400) ++ unicodeEscape (0xDC00 + (c - 0x10000) % 0x400)
    else [c]

/-- A string with its quotes. -/
def quoted (ensureAscii : Bool) (s : PyStr) : PyStr :=
  0x22 :: (s.flatMap (escapeChar ensureAscii) ++ [0x22])

/-- The line break before an element at some depth. -/
def Layout.newline (l : Layout) (depth : ℕ) : PyStr :=
  match l.indent with
  | none => []
  | some n => 0x0A :: List.replicate (n * depth) 0x20

/-- What stands before an element that is not the first one. -/
def Layout.comma (l : Layout) (depth : ℕ) : PyStr :=
  0x2C :: (List.replicate l.itemPad 0x20 ++ l.newline depth)

/-- What stands between a key and its value. -/
def Layout.colon (l : Layout) : PyStr := 0x3A :: List.replicate l.keyPad 0x20

section Writer

variable (ft : FloatText) (l : Layout)

mutual

/-- The text of a value at some depth. -/
def write (depth : ℕ) : Json → PyStr
  | .null => py "null"
  | .bool true => py "true"
  | .bool false => py "false"
  | .int n => decimalInt n
  | .float (.finite q) => ft.repr (.finite q)
  | .float (.inf true) => py "-Infinity"
  | .float (.inf false) => py "Infinity"
  | .float .nan => py "NaN"
  | .str s => quoted l.ensureAscii s
  | .arr [] => py "[]"
  | .arr (x :: xs) =>
    0x5B :: (l.newline (depth + 1) ++ write (depth + 1) x ++ writeItems (depth + 1) xs ++
      l.newline depth ++ [0x5D])
  | .obj [] => py "{}"
  | .obj ((k, x) :: rest) =>
    0x7B :: (l.newline (depth + 1) ++ quoted l.ensureAscii k ++ l.colon ++ write (depth + 1) x ++
      writeFields (depth + 1) rest ++ l.newline depth ++ [0x7D])

/-- The elements of an array after the first one. -/
def writeItems (depth : ℕ) : List Json → PyStr
  | [] => []
  | x :: xs => l.comma depth ++ write depth x ++ writeItems depth xs

/-- The fields of an object after the first one. -/
def writeFields (depth : ℕ) : List (PyStr × Json) → PyStr
  | [] => []
  | (k, x) :: rest =>
    l.comma depth ++ quoted l.ensureAscii k ++ l.colon ++ write depth x ++ writeFields depth rest

end

end Writer

mutual

/-- The integers of a document. -/
def ints : Json → List ℤ
  | .int n => [n]
  | .arr items => intsItems items
  | .obj fields => intsFields fields
  | _ => []

def intsItems : List Json → List ℤ
  | [] => []
  | x :: xs => ints x ++ intsItems xs

def intsFields : List (PyStr × Json) → List ℤ
  | [] => []
  | (_, x) :: rest => ints x ++ intsFields rest

end

mutual

/-- The strings of a document, its keys among them. -/
def strings : Json → List PyStr
  | .str s => [s]
  | .arr items => stringsItems items
  | .obj fields => stringsFields fields
  | _ => []

def stringsItems : List Json → List PyStr
  | [] => []
  | x :: xs => strings x ++ stringsItems xs

def stringsFields : List (PyStr × Json) → List PyStr
  | [] => []
  | (k, x) :: rest => k :: (strings x ++ stringsFields rest)

end

/-- Whether all integers of a document may be converted. -/
def printable (j : Json) : Bool := j.ints.all convertible

/-- `json.dumps`. -/
def dumps (ft : FloatText) (l : Layout) (j : Json) : Except JsonError PyStr :=
  if j.printable then .ok (write ft l 0 j) else .error .intTooLarge

mutual

/-- `sort_keys=True`. -/
def sortKeys : Json → Json
  | .arr items => .arr (sortKeysItems items)
  | .obj fields => .obj ((sortKeysFields fields).insertionSort fun a b => a.1 ≤ b.1)
  | j => j

def sortKeysItems : List Json → List Json
  | [] => []
  | x :: xs => sortKeys x :: sortKeysItems xs

def sortKeysFields : List (PyStr × Json) → List (PyStr × Json)
  | [] => []
  | (k, x) :: rest => (k, sortKeys x) :: sortKeysFields rest

end

/-! ### The reader -/

/-- The whitespace of JSON. -/
def isWhitespace (c : ℕ) : Bool := c == 0x20 || c == 0x09 || c == 0x0A || c == 0x0D

def skipWhitespace (s : PyStr) : PyStr := s.dropWhile isWhitespace

def isDigit (c : ℕ) : Bool := decide (0x30 ≤ c) && decide (c ≤ 0x39)

/-- The value of a digit of a `\u` escape. -/
def hexValue (c : ℕ) : Option ℕ :=
  if 0x30 ≤ c ∧ c ≤ 0x39 then some (c - 0x30)
  else if 0x61 ≤ c ∧ c ≤ 0x66 then some (c - 0x61 + 10)
  else if 0x41 ≤ c ∧ c ≤ 0x46 then some (c - 0x41 + 10)
  else none

/-- The code unit of four digits. -/
def hex4 (a b c d : ℕ) : Option ℕ :=
  match hexValue a, hexValue b, hexValue c, hexValue d with
  | some a, some b, some c, some d => some (a * 0x1000 + b * 0x100 + c * 0x10 + d)
  | _, _, _, _ => none

def isHighSurrogate (c : ℕ) : Bool := decide (0xD800 ≤ c) && decide (c ≤ 0xDBFF)

def isLowSurrogate (c : ℕ) : Bool := decide (0xDC00 ≤ c) && decide (c ≤ 0xDFFF)

/-- The character of a short escape. -/
def unescape (letter : ℕ) : Option ℕ :=
  if letter = 0x22 then some 0x22
  else if letter = 0x5C then some 0x5C
  else if letter = 0x2F then some 0x2F
  else if letter = 0x62 then some 0x08
  else if letter = 0x66 then some 0x0C
  else if letter = 0x6E then some 0x0A
  else if letter = 0x72 then some 0x0D
  else if letter = 0x74 then some 0x09
  else none

/-- One more character in front of what is scanned. -/
def prepend (c : ℕ) : Except JsonError (PyStr × PyStr) → Except JsonError (PyStr × PyStr)
  | .ok (s, rest) => .ok (c :: s, rest)
  | .error error => .error error

/-- `scanstring` in its strict mode: the string up to the closing quote and what follows it.  Two escapes
of surrogates that form a pair stand for one character. -/
def scanString : PyStr → Except JsonError (PyStr × PyStr)
  | [] => .error .decode
  | 0x22 :: rest => .ok ([], rest)
  | 0x5C :: 0x75 :: a :: b :: c :: d :: rest =>
    match hex4 a b c d with
    | none => .error .decode
    | some high =>
      if isHighSurrogate high then
        match rest with
        | 0x5C :: 0x75 :: e :: f :: g :: h :: more =>
          match hex4 e f g h with
          | none => .error .decode
          | some low =>
            if isLowSurrogate low then
              prepend (0x10000 + (high - 0xD800) * 0x400 + (low - 0xDC00)) (scanString more)
            else prepend high (scanString (0x5C :: 0x75 :: e :: f :: g :: h :: more))
        | rest => prepend high (scanString rest)
      else prepend high (scanString rest)
  | 0x5C :: letter :: rest =>
    match unescape letter with
    | none => .error .decode
    | some c => prepend c (scanString rest)
  | c :: rest => if c < 0x20 ∨ c = 0x5C then .error .decode else prepend c (scanString rest)

/-- The number that a list of digits spells. -/
def digitsValue (digits : PyStr) : ℕ := digits.foldl (fun n d => n * 10 + (d - 0x30)) 0

/-- A sign that may stand in front. -/
def spanSign (c : ℕ → Bool) : PyStr → PyStr × PyStr
  | [] => ([], [])
  | x :: rest => if c x then ([x], rest) else ([], x :: rest)

/-- The digits `0` or `[1-9][0-9]*` in front. -/
def spanInteger : PyStr → PyStr × PyStr
  | [] => ([], [])
  | 0x30 :: rest => ([0x30], rest)
  | s => s.span isDigit

/-- The part `\.[0-9]+` in front, when there is one. -/
def spanFraction : PyStr → PyStr × PyStr
  | 0x2E :: rest =>
    let (digits, more) := rest.span isDigit
    if digits = [] then ([], 0x2E :: rest) else (0x2E :: digits, more)
  | s => ([], s)

/-- The part `[eE][-+]?[0-9]+` in front, when there is one. -/
def spanExponent : PyStr → PyStr × PyStr
  | [] => ([], [])
  | e :: rest =>
    if e = 0x65 ∨ e = 0x45 then
      let (sign, body) := spanSign (fun c => c == 0x2B || c == 0x2D) rest
      let (digits, more) := body.span isDigit
      if digits = [] then ([], e :: rest) else (e :: (sign ++ digits), more)
    else ([], e :: rest)

section Reader

variable (ft : FloatText)

/-- `_match_number`. -/
def parseNumber (s : PyStr) : Except JsonError (Json × PyStr) :=
  let (sign, body) := spanSign (fun c => c == 0x2D) s
  let (digits, afterInteger) := spanInteger body
  if digits = [] then .error .decode
  else
    let (fraction, afterFraction) := spanFraction afterInteger
    let (exponent, rest) := spanExponent afterFraction
    if fraction = [] ∧ exponent = [] then
      if maxStrDigits < digits.length then .error .intTooLarge
      else
        .ok (.int (if sign = [] then (digitsValue digits : ℤ) else -(digitsValue digits : ℤ)), rest)
    else .ok (.float (ft.parse (sign ++ digits ++ fraction ++ exponent)), rest)

/-- The constants that may stand for a value, in the order in which they are tried. -/
def constants : List (PyStr × Json) :=
  [(py "null", .null), (py "true", .bool true), (py "false", .bool false), (py "NaN", .float .nan),
    (py "Infinity", .float (.inf false)), (py "-Infinity", .float (.inf true))]

/-- The constant in front, when there is one, and what follows it. -/
def parseConstant (s : PyStr) : Option (Json × PyStr) :=
  (constants.find? fun constant => constant.1.isPrefixOf s).map fun constant =>
    (constant.2, s.drop constant.1.length)

/-- The dictionary of some pairs: a later value of the same key replaces an earlier one. -/
def setField (key : PyStr) (value : Json) : List (PyStr × Json) → List (PyStr × Json)
  | [] => [(key, value)]
  | (k, x) :: rest => if k = key then (key, value) :: rest else (k, x) :: setField key value rest

/-- `dict(pairs)`. -/
def ofPairs (pairs : List (PyStr × Json)) : List (PyStr × Json) :=
  pairs.foldl (fun fields pair => setField pair.1 pair.2 fields) []

mutual

/-- `scan_once`: a value at the front and what follows it. -/
def parseValue : ℕ → PyStr → Except JsonError (Json × PyStr)
  | 0, _ => .error .recursion
  | _ + 1, [] => .error .decode
  | fuel + 1, c :: rest =>
    if c = 0x22 then
      match scanString rest with
      | .ok (s, rest) => .ok (.str s, rest)
      | .error error => .error error
    else if c = 0x7B then
      match skipWhitespace rest with
      | 0x7D :: rest => .ok (.obj [], rest)
      | rest =>
        match parseFields fuel rest with
        | .ok (pairs, rest) => .ok (.obj (ofPairs pairs), rest)
        | .error error => .error error
    else if c = 0x5B then
      match skipWhitespace rest with
      | 0x5D :: rest => .ok (.arr [], rest)
      | rest =>
        match parseItems fuel rest with
        | .ok (items, rest) => .ok (.arr items, rest)
        | .error error => .error error
    else
      match parseConstant (c :: rest) with
      | some constant => .ok constant
      | none => parseNumber ft (c :: rest)

/-- The elements of an array that has some, and its bracket. -/
def parseItems : ℕ → PyStr → Except JsonError (List Json × PyStr)
  | 0, _ => .error .recursion
  | fuel + 1, s =>
    match parseValue fuel s with
    | .error error => .error error
    | .ok (x, rest) =>
      match skipWhitespace rest with
      | [] => .error .decode
      | c :: rest =>
        if c = 0x5D then .ok ([x], rest)
        else if c = 0x2C then
          match parseItems fuel (skipWhitespace rest) with
          | .error error => .error error
          | .ok (xs, rest) => .ok (x :: xs, rest)
        else .error .decode

/-- The fields of an object that has some, and its brace. -/
def parseFields : ℕ → PyStr → Except JsonError (List (PyStr × Json) × PyStr)
  | 0, _ => .error .recursion
  | _ + 1, [] => .error .decode
  | fuel + 1, quote :: s =>
    if quote ≠ 0x22 then .error .decode
    else
      match scanString s with
      | .error error => .error error
      | .ok (key, rest) =>
        match skipWhitespace rest with
        | [] => .error .decode
        | colon :: rest =>
          if colon ≠ 0x3A then .error .decode
          else
            match parseValue fuel (skipWhitespace rest) with
            | .error error => .error error
            | .ok (x, rest) =>
              match skipWhitespace rest with
              | [] => .error .decode
              | c :: rest =>
                if c = 0x7D then .ok ([(key, x)], rest)
                else if c = 0x2C then
                  match parseFields fuel (skipWhitespace rest) with
                  | .error error => .error error
                  | .ok (pairs, rest) => .ok ((key, x) :: pairs, rest)
                else .error .decode

end

/-- `json.loads`.  Every nested call has read a character, so twice the length is depth enough. -/
def loads (s : PyStr) : Except JsonError Json :=
  if s.head? = some 0xFEFF then .error .decode
  else
    match parseValue ft (2 * s.length + 2) (skipWhitespace s) with
    | .error error => .error error
    | .ok (j, rest) => if skipWhitespace rest = [] then .ok j else .error .decode

end Reader

end Json

end TaintForge
