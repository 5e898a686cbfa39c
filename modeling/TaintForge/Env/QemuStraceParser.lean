import TaintForge.Env.StraceParser

/-!
# The parser of QEMU's system call trace

Translated from `qemu_strace_parser.py`, on the text of a trace.  The lines are read by
`parse_strace_line`; an `errno` that it has left out is searched for in the raw line.

* `extractQemuErrno`: `_extract_qemu_errno`.
* `parseQemuStrace`: the payloads that are written for a trace.
-/

namespace TaintForge

open Matcher PyStr

/-- `errno.errorcode`: the names of the error numbers of the platform. -/
structure ErrorTable where
  errorcode : ℕ → Option PyStr
  name_ne_nil : ∀ code name, errorcode code = some name → name ≠ []

/-- `errorcode.get(code, f"ERRNO_{code}")`. -/
def ErrorTable.name (table : ErrorTable) (code : ℕ) : PyStr :=
  (table.errorcode code).getD (py "ERRNO_" ++ decimal code)

/-- `[A-Z]` -/
def isUpper (c : ℕ) : Bool := decide (0x41 ≤ c) && decide (c ≤ 0x5A)

/-- A character, in capitals or not. -/
def sameLetter (c d : ℕ) : Bool := d == c || d + 0x20 == c

/-- A literal of small letters, read with `re.IGNORECASE`. -/
def litIgnoreCase : PyStr → Matcher ℕ Unit
  | [] => pure ()
  | c :: s => do
    let _ ← char (sameLetter c)
    litIgnoreCase s

/-- `(?:\s|$|\()` -/
def boundaryRe : Matcher ℕ Unit :=
  alt (do let _ ← char isSpace; pure ()) (alt textEnd (lit (py "(")))

/-- `_QEMU_ERRNO_SYMBOL_RE`. -/
def qemuErrnoSymbolRe : Matcher ℕ PyStr := do
  lit (py "=")
  let _ ← many isSpace
  lit (py "-1")
  let _ ← many1 isSpace
  let head ← char isUpper
  let tail ← many1 isUpperTail
  boundaryRe
  pure (head :: tail)

/-- `_QEMU_ERRNO_NUMBER_RE`. -/
def qemuErrnoNumberRe : Matcher ℕ PyStr := do
  lit (py "=")
  let _ ← many isSpace
  lit (py "-1")
  let _ ← many1 isSpace
  litIgnoreCase (py "errno")
  lit (py "=")
  let digits ← many1 isDecimal
  boundaryRe
  pure digits

/-- `_extract_qemu_errno`. -/
def extractQemuErrno (table : ErrorTable) (line : PyStr) : Except PyError (Option PyStr) :=
  match search qemuErrnoSymbolRe line with
  | some symbol => .ok (some symbol)
  | none =>
    match search qemuErrnoNumberRe line with
    | some digits => do
      let code ← intOrRaise digits
      pure (some (table.name code.toNat))
    | none => .ok none

/-- The payload that is written for an event. -/
structure QemuPayload where
  event : SyscallEvent
  traceBackend : PyStr
  targetArch : PyStr
  deriving DecidableEq

section

variable (literalEval : PyStr → Option PyStr) (table : ErrorTable)

/-- The error of an event, searched for in the line where the event has none. -/
def filledErrno (event : SyscallEvent) (line : PyStr) : Except PyError (Option PyStr) :=
  if event.errno.getD [] = [] then
    (extractQemuErrno table line).map fun qemuErrno =>
      if qemuErrno.getD [] = [] then event.errno else qemuErrno
  else .ok event.errno

/-- The payload of an event that was read from a line. -/
def qemuPayload (targetArch : PyStr) (parsed : SyscallEvent × PyStr) : Except PyError QemuPayload :=
  (filledErrno table parsed.1 parsed.2).map fun errno =>
    ⟨{ parsed.1 with errno := errno }, py "qemu_strace", targetArch⟩

/-- The lines that `parse_qemu_strace` passes over. -/
def qemuSkips (line : PyStr) : Prop :=
  line = [] ∨ py "<unfinished ...>" <:+: line ∨ py "<... " <:+: line ∧ py " resumed>" <:+: line

instance (line : PyStr) : Decidable (qemuSkips line) :=
  inferInstanceAs (Decidable (_ ∨ _ ∨ _ ∧ _))

/-- The loop of `parse_qemu_strace` over numbered lines: the events, each with its line. -/
def qemuLoop (sourceFile : PyStr) :
    List PyStr → ℕ → Except PyError (List (SyscallEvent × PyStr))
  | [], _ => .ok []
  | rawLine :: lines, number =>
    let line := strip rawLine
    if qemuSkips line then qemuLoop sourceFile lines (number + 1)
    else do
      let parsed ← parseStraceLine literalEval line ⟨sourceFile, number, .guest⟩
      let events ← qemuLoop sourceFile lines (number + 1)
      pure (parsed.toList.map (·, line) ++ events)

/-- What `parse_qemu_strace` writes for numbered lines. -/
def qemuPayloads (sourceFile targetArch : PyStr) (lines : List PyStr) (number : ℕ) :
    Except PyError (List QemuPayload) := do
  let events ← qemuLoop literalEval sourceFile lines number
  events.mapM (qemuPayload table targetArch)

/-- `parse_qemu_strace`, on the name and the text of the trace. -/
def parseQemuStrace (sourceFile targetArch text : PyStr) : Except PyError (List QemuPayload) :=
  qemuPayloads literalEval table sourceFile targetArch (splitlines text) 1

end

end TaintForge
