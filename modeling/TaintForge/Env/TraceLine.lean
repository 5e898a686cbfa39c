import TaintForge.Env.QemuStraceParser
import TaintForge.Env.RequirementExtractor

/-!
# What a tracer writes

The abstract side of the trace parsers: a line `name(args) = result` as the tracer writes it, the
failure or number that a result spells, and what it means that an event tells what the line says.
Nothing here depends on how a line is taken apart.

* `TraceLine`: a name, arguments that are any text, and a result on one line.
* `IsFailure`, `IsNumbered`, `BeginsWithDecimal`: the readings of a result.
* `SymbolText`, `NumberText`, `SeparatorText`, `PortText`: texts that look like a part of a line.
* `Tells`: an event has the line's name, arguments, error and value, and the extractor sees them.
-/

namespace TaintForge

open Matcher PyStr

/-- The name of a system call. -/
def IsName (s : PyStr) : Prop :=
  ∃ head tail, s = head :: tail ∧ isNameHead head = true ∧ ∀ c ∈ tail, isNameTail c = true

/-- The symbol of an error. -/
def IsErrnoName (s : PyStr) : Prop :=
  ∃ head tail, s = head :: tail ∧ isUpper head = true ∧ tail ≠ [] ∧ ∀ c ∈ tail, isUpperTail c = true

/-- A line `name(args) = result`.  Tracers may put more than one blank before the sign. -/
structure TraceLine where
  name : PyStr
  args : PyStr
  padding : ℕ
  result : PyStr
  name_isName : IsName name
  result_ne_nil : result ≠ []
  result_head : ∀ c ∈ result.head?, isSpace c = false
  result_last : ∀ c ∈ result.getLast?, isSpace c = false
  result_oneLine : ∀ c ∈ result, isLineBreak c = false

/-- The line as it is written. -/
def TraceLine.text (t : TraceLine) : PyStr :=
  t.name ++ (py "(" ++ (t.args ++ (py ")" ++
    (List.replicate (t.padding + 1) 0x20 ++ (py "=" ++ (py " " ++ t.result))))))

/-! ### What a result says -/

/-- `-1 E (text)` -/
def IsFailure (result E : PyStr) : Prop :=
  IsErrnoName E ∧ ∃ text, result = py "-1" ++ (py " " ++ (E ++ (py " (" ++ text ++ py ")")))

/-- `-1 errno=n`, with a text in parentheses or without. -/
def IsNumbered (result digits : PyStr) : Prop :=
  digits ≠ [] ∧ (∀ c ∈ digits, Json.isDigit c = true) ∧
    ∃ tail, (tail = [] ∨ ∃ text, tail = py " (" ++ text ++ py ")") ∧
      result = py "-1" ++ (py " " ++ (py "errno" ++ (py "=" ++ (digits ++ tail))))

/-- A result that begins with a decimal number, which no letter or further digit continues. -/
def BeginsWithDecimal (result : PyStr) (n : ℤ) : Prop :=
  ∃ sign digits rest, result = sign ++ (digits ++ rest) ∧ (sign = [] ∨ sign = py "-") ∧
    digits ≠ [] ∧ (∀ c ∈ digits, Json.isDigit c = true) ∧
    (∀ c t, rest = c :: t → isNameTail c = false ∧ isDecimal c = false) ∧
    n = if sign = [] then (Json.digitsValue digits : ℤ) else -(Json.digitsValue digits : ℤ)

/-- The first word of a text. -/
def firstWord (s : PyStr) : PyStr := s.takeWhile fun c => !isSpace c

/-- A decimal number, not too long for `int`. -/
def PlainDecimal (word : PyStr) : Prop :=
  ∃ sign digits, word = sign ++ digits ∧ (sign = [] ∨ sign = py "-") ∧ digits ≠ [] ∧
    (∀ c ∈ digits, Json.isDigit c = true) ∧ digits.length ≤ maxStrDigits

/-! ### Texts that look like a part of a line -/

/-- `) = x` -/
def SeparatorText (s : PyStr) : Prop :=
  ∃ w v x, s = py ")" ++ (w ++ (py "=" ++ (v ++ x))) ∧ w ≠ [] ∧ v ≠ [] ∧ x ≠ [] ∧
    (∀ c ∈ w, isSpace c = true) ∧ ∀ c ∈ v, isSpace c = true

/-- A result in which a separator follows. -/
def Separated (result : PyStr) : Prop := ∃ before rest, result = before ++ rest ∧ SeparatorText rest

/-- `htons(n)` -/
def PortText (s digits : PyStr) : Prop :=
  ∃ rest, s = py "htons(" ++ (digits ++ (py ")" ++ rest)) ∧ digits ≠ [] ∧
    ∀ c ∈ digits, isDecimal c = true

/-- The end of a text, white space or an opening parenthesis. -/
def EndsWord (s : PyStr) : Prop := ∀ c t, s = c :: t → isSpace c = true ∨ c = 0x28

/-- `= -1 E` -/
def SymbolCore (core E : PyStr) : Prop :=
  ∃ w v, core = py "=" ++ (w ++ (py "-1" ++ (v ++ E))) ∧ (∀ c ∈ w, isSpace c = true) ∧ v ≠ [] ∧
    (∀ c ∈ v, isSpace c = true) ∧ IsErrnoName E

/-- `= -1 errno=n`, in small letters or capitals. -/
def NumberCore (core digits : PyStr) : Prop :=
  ∃ w v word, core = py "=" ++ (w ++ (py "-1" ++ (v ++ (word ++ (py "=" ++ digits))))) ∧
    (∀ c ∈ w, isSpace c = true) ∧ v ≠ [] ∧ (∀ c ∈ v, isSpace c = true) ∧
    List.Forall₂ (fun c d => sameLetter c d = true) (py "errno") word ∧ digits ≠ [] ∧
    ∀ c ∈ digits, isDecimal c = true

/-- A text that begins with a core, where a word ends. -/
def Ended (Core : PyStr → PyStr → Prop) (s E : PyStr) : Prop :=
  ∃ core rest, s = core ++ rest ∧ Core core E ∧ EndsWord rest

/-- A text that begins with the symbol of a failure. -/
def SymbolText : PyStr → PyStr → Prop := Ended SymbolCore

/-- A text that begins with the number of a failure. -/
def NumberText : PyStr → PyStr → Prop := Ended NumberCore

/-! ### What an event tells -/

/-- An event tells what a line says, where `Fails` are the symbols that its result stands for; and
the extractor sees the same in a system call of the guest. -/
structure Tells (t : TraceLine) (Fails : PyStr → Prop) (e : SyscallEvent) : Prop where
  event : e.event = .syscall
  syscall : e.syscall = t.name
  args : e.args = t.args
  errno : ∀ E, e.errno = some E ↔ Fails E
  returnValue : ∀ n, e.returnValue = some n ↔ BeginsWithDecimal t.result n
  reaches : e.executionContext = .guest → ∃ reading, syscallReadings true [e] = [reading] ∧
    reading.syscall = t.name ∧ ∀ E, reading.errno = some E ↔ Fails E

/-- The symbols that a result of the native tracer stands for. -/
def StraceFails (t : TraceLine) (E : PyStr) : Prop := IsFailure t.result E

/-- The symbols that a result of QEMU stands for. -/
def QemuFails (table : ErrorTable) (t : TraceLine) (E : PyStr) : Prop :=
  IsFailure t.result E ∨
    ∃ digits, IsNumbered t.result digits ∧ E = table.name (Json.digitsValue digits)

end TaintForge
