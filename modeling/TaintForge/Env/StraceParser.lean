import TaintForge.Lib.Backtrack
import TaintForge.Lib.PyText

/-!
# The parser of strace output

Translated from `strace_parser.py`, on the text of a log file.  The regular expressions of the source
are backtracking matchers; a `.` stands for anything but a line feed and `$` also matches before the
line feed that ends a text.  What `ast.literal_eval` makes of a quoted string is left open.

* `parseStraceLine`: what one line of a log says.
* `parseResult`, `extractPaths`, `extractNetworkTarget`: the parts of a system call's line.
* `straceLoop`, `parseStraceFile`: the lines of a log from the first to the last.
-/

namespace TaintForge

open Matcher PyStr

/-- What the parsers raise. -/
inductive PyError
  | valueError
  | indexError
  deriving DecidableEq

/-! ### The regular expressions -/

/-- `.` -/
def isDot (c : ℕ) : Bool := c != 0x0A

/-- `[a-zA-Z_]` -/
def isNameHead (c : ℕ) : Bool :=
  (decide (0x61 ≤ c) && decide (c ≤ 0x7A)) || (decide (0x41 ≤ c) && decide (c ≤ 0x5A)) || c == 0x5F

/-- `[a-zA-Z0-9_]` -/
def isNameTail (c : ℕ) : Bool := isNameHead c || Json.isDigit c

/-- `[A-Z0-9_]` -/
def isUpperTail (c : ℕ) : Bool :=
  (decide (0x41 ≤ c) && decide (c ≤ 0x5A)) || Json.isDigit c || c == 0x5F

/-- `$` -/
def textEnd : Matcher ℕ Unit := fun s => if s = [] ∨ s = [0x0A] then [((), s)] else []

/-- The groups of `SYSCALL_RE`. -/
structure SyscallMatch where
  pid : Option PyStr
  name : PyStr
  args : PyStr
  result : PyStr
  deriving DecidableEq

/-- `(?P<result>.+?)\s*$` -/
def resultRe (pid : Option PyStr) (name args : PyStr) : Matcher ℕ SyscallMatch := do
  let result ← lazyMany1 isDot
  let _ ← many isSpace
  textEnd
  pure ⟨pid, name, args, result⟩

/-- `\)\s+=\s+` and the result. -/
def separatorRe (pid : Option PyStr) (name args : PyStr) : Matcher ℕ SyscallMatch := do
  lit (py ")")
  let _ ← many1 isSpace
  lit (py "=")
  let _ ← many1 isSpace
  resultRe pid name args

/-- `\((?P<args>.*)` and the rest. -/
def argumentsRe (pid : Option PyStr) (name : PyStr) : Matcher ℕ SyscallMatch := do
  lit (py "(")
  let args ← many isDot
  separatorRe pid name args

/-- `(?P<name>[a-zA-Z_][a-zA-Z0-9_]*)` and the rest. -/
def callRe (pid : Option PyStr) : Matcher ℕ SyscallMatch := do
  let head ← char isNameHead
  let tail ← many isNameTail
  argumentsRe pid (head :: tail)

/-- `SYSCALL_RE`. -/
def syscallRe : Matcher ℕ SyscallMatch := do
  let _ ← many isSpace
  let pid ← opt do
    let pid ← many1 isDecimal
    let _ ← many1 isSpace
    pure pid
  callRe pid

/-- `CHROOT_SUCCESS_RE`. -/
def chrootSuccessRe : Matcher ℕ Unit := do
  lit (py "chroot(\"")
  let _ ← many isDot
  lit (py "\")")
  let _ ← many1 isSpace
  lit (py "=")
  let _ ← many1 isSpace
  lit (py "0")

/-- `GUEST_EXEC_RE`. -/
def guestExecRe : Matcher ℕ PyStr := do
  lit (py "execve(\"")
  let path ← alt (do lit (py "/bin/unpacked.elf"); pure (py "/bin/unpacked.elf")) do
    lit (py "/usr/bin/qemu-")
    let rest ← many1 (· != 0x22)
    pure (py "/usr/bin/qemu-" ++ rest)
  lit (py "\"")
  pure path

/-- `EXIT_RE`. -/
def exitRe : Matcher ℕ PyStr := do
  lit (py "+++ exited with ")
  let sign ← opt (lit (py "-"))
  let digits ← many1 isDecimal
  lit (py " +++")
  pure ((if sign.isSome then py "-" else []) ++ digits)

/-- `SIGNAL_RE`. -/
def signalRe : Matcher ℕ PyStr := do
  lit (py "--- ")
  let signal ← many1 isUpperTail
  lit (py " ")
  pure signal

/-- `QUOTED_STRING_RE`. -/
def quotedStringRe : Matcher ℕ PyStr := do
  lit (py "\"")
  let items ← star (alt
    (do lit (py "\\"); let c ← char isDot; pure (py "\\" ++ [c]))
    (do let c ← char fun c => c != 0x22 && c != 0x5C; pure [c]))
  lit (py "\"")
  pure (py "\"" ++ items.flatten ++ py "\"")

/-- `INET_ADDR_RE`. -/
def inetAddrRe : Matcher ℕ PyStr := do
  lit (py "inet_addr(\"")
  let ip ← many1 (· != 0x22)
  lit (py "\")")
  pure ip

/-- `HTONS_PORT_RE`. -/
def htonsPortRe : Matcher ℕ PyStr := do
  lit (py "htons(")
  let port ← many1 isDecimal
  lit (py ")")
  pure port

/-! ### The tables -/

/-- `PATH_SYSCALLS`. -/
def pathSyscalls : List PyStr :=
  [py "open", py "openat", py "creat", py "stat", py "lstat", py "fstat", py "newfstatat",
    py "access", py "faccessat", py "readlink", py "readlinkat", py "unlink", py "unlinkat",
    py "rename", py "renameat", py "mkdir", py "mkdirat", py "rmdir", py "chdir", py "execve",
    py "execveat"]

/-- `NETWORK_SYSCALLS`. -/
def networkSyscalls : List PyStr :=
  [py "socket", py "connect", py "bind", py "listen", py "accept", py "accept4", py "sendto",
    py "recvfrom", py "sendmsg", py "recvmsg"]

/-- `PROCESS_SYSCALLS`. -/
def processSyscalls : List PyStr :=
  [py "execve", py "execveat", py "fork", py "vfork", py "clone", py "clone3", py "wait4"]

/-- `MEMORY_SYSCALLS`. -/
def memorySyscalls : List PyStr :=
  [py "mmap", py "mmap2", py "munmap", py "mprotect", py "brk"]

/-- `ANTI_ANALYSIS_SYSCALLS`. -/
def antiAnalysisSyscalls : List PyStr := [py "ptrace"]

/-- `HIGH_RISK_SYSCALLS`. -/
def highRiskSyscalls : List PyStr :=
  [py "ptrace", py "mount", py "umount", py "umount2", py "reboot", py "kexec_load",
    py "init_module", py "finit_module", py "delete_module", py "setuid", py "setgid", py "setreuid",
    py "setregid", py "setresuid", py "setresgid"]

/-! ### The events -/

/-- The `event` of an event. -/
inductive EventKind
  | syscall
  | processExit
  | signal
  deriving DecidableEq

/-- The categories of `classify_syscall`. -/
inductive SyscallCategory
  | antiAnalysis
  | filesystem
  | network
  | process
  | memory
  | other
  deriving DecidableEq

/-- Whether a line was written before the guest program was started, or after. -/
inductive ExecutionContext
  | hostWrapper
  | guest
  deriving DecidableEq

/-- `SyscallEvent`. -/
structure SyscallEvent where
  event : EventKind
  syscall : PyStr
  category : SyscallCategory
  executionContext : ExecutionContext
  sourceFile : PyStr
  lineNumber : ℕ
  raw : PyStr
  args : PyStr
  result : PyStr
  pid : Option ℤ := none
  returnValue : Option ℤ := none
  errno : Option PyStr := none
  path : Option PyStr := none
  paths : List PyStr := []
  remoteIp : Option PyStr := none
  remotePort : Option ℤ := none
  highRisk : Bool := false
  deriving DecidableEq

/-- Where a line stands: `source_file`, `line_number` and `execution_context`. -/
structure LinePosition where
  sourceFile : PyStr
  lineNumber : ℕ
  executionContext : ExecutionContext
  deriving DecidableEq

/-! ### One line -/

/-- `int(text)`, as a step that may raise. -/
def intOrRaise (s : PyStr) : Except PyError ℤ :=
  match pyInt s with
  | some n => .ok n
  | none => .error .valueError

/-- `int(text) if text else None`. -/
def optionalIntOrRaise (s : Option PyStr) : Except PyError (Option ℤ) :=
  match s with
  | some s => (intOrRaise s).map some
  | none => .ok none

/-- `is_successful_chroot_line`. -/
def isSuccessfulChrootLine (line : PyStr) : Bool := (first chrootSuccessRe line).isSome

/-- `is_guest_execve_line`. -/
def isGuestExecveLine (line : PyStr) : Bool := (first guestExecRe line).isSome

/-- `parse_result`. -/
def parseResult (result : PyStr) : Except PyError (Option ℤ × Option PyStr) :=
  let result := strip result
  if py "?" <+: result then .ok (none, none)
  else match split result with
    | [] => .error .indexError
    | word :: words =>
      match pyInt word with
      | some n => .ok (some n, none)
      | none =>
        match words with
        | second :: _ => if word = py "-1" then .ok (none, some second) else .ok (none, none)
        | [] => .ok (none, none)

/-- `value.strip('"')`. -/
def stripQuotes (s : PyStr) : PyStr := rstripOf 0x22 (s.dropWhile (· == 0x22))

section

variable (literalEval : PyStr → Option PyStr)

/-- `extract_quoted_strings`. -/
def extractQuotedStrings (args : PyStr) : List PyStr :=
  (findAll quotedStringRe args).map fun raw => (literalEval raw).getD (stripQuotes raw)

/-- `extract_paths`. -/
def extractPaths (syscall args : PyStr) : List PyStr :=
  if syscall ∈ pathSyscalls then
    match extractQuotedStrings literalEval args with
    | [] => []
    | quoted :: more =>
      if syscall = py "rename" ∨ syscall = py "renameat" then quoted :: more.take 1 else [quoted]
  else []

/-- `extract_network_target`. -/
def extractNetworkTarget (args : PyStr) : Except PyError (Option PyStr × Option ℤ) := do
  let port ← optionalIntOrRaise (search htonsPortRe args)
  pure (search inetAddrRe args, port)

/-- `classify_syscall`. -/
def classifySyscall (syscall : PyStr) : SyscallCategory :=
  if syscall ∈ antiAnalysisSyscalls then .antiAnalysis
  else if syscall ∈ pathSyscalls then .filesystem
  else if syscall ∈ networkSyscalls then .network
  else if syscall ∈ processSyscalls then .process
  else if syscall ∈ memorySyscalls then .memory
  else .other

/-- `parse_syscall_match`. -/
def parseSyscallMatch (m : SyscallMatch) (line : PyStr) (position : LinePosition) :
    Except PyError SyscallEvent := do
  let paths := extractPaths literalEval m.name m.args
  let (remoteIp, remotePort) ← extractNetworkTarget m.args
  let (returnValue, errno) ← parseResult m.result
  let pid ← optionalIntOrRaise m.pid
  pure
    { event := .syscall
      syscall := m.name
      category := classifySyscall m.name
      sourceFile := position.sourceFile
      lineNumber := position.lineNumber
      raw := line
      args := m.args
      result := m.result
      pid := pid
      returnValue := returnValue
      errno := errno
      path := paths.head?
      paths := paths
      remoteIp := remoteIp
      remotePort := remotePort
      highRisk := decide (m.name ∈ highRiskSyscalls)
      executionContext := position.executionContext }

/-- The event of a process that has exited. -/
def exitEvent (exitCode line : PyStr) (returnValue : ℤ) (position : LinePosition) : SyscallEvent :=
  { event := .processExit
    syscall := py "exit"
    category := .process
    sourceFile := position.sourceFile
    lineNumber := position.lineNumber
    raw := line
    args := []
    result := exitCode
    returnValue := some returnValue
    executionContext := position.executionContext }

/-- The event of a signal. -/
def signalEvent (signal line : PyStr) (position : LinePosition) : SyscallEvent :=
  { event := .signal
    syscall := py "signal"
    category := .process
    sourceFile := position.sourceFile
    lineNumber := position.lineNumber
    raw := line
    args := []
    result := signal
    executionContext := position.executionContext }

/-- `parse_strace_line`. -/
def parseStraceLine (line : PyStr) (position : LinePosition) : Except PyError (Option SyscallEvent) :=
  match first syscallRe line with
  | some m => (parseSyscallMatch literalEval m line position).map some
  | none =>
    match first exitRe line with
    | some exitCode => do
      let returnValue ← intOrRaise exitCode
      pure (some (exitEvent exitCode line returnValue position))
    | none =>
      match first signalRe line with
      | some signal => .ok (some (signalEvent signal line position))
      | none => .ok none

/-! ### A file -/

/-- The lines that `parse_strace_file` passes over. -/
def straceSkips (line : PyStr) : Prop :=
  line = [] ∨ py "<unfinished ...>" <:+: line ∨ py "resumed>" <:+: line

instance (line : PyStr) : Decidable (straceSkips line) :=
  inferInstanceAs (Decidable (_ ∨ _ ∨ _))

/-- The loop of `parse_strace_file` over numbered lines, with the context that it ends in. -/
def straceLoop (sourceFile : PyStr) :
    List PyStr → ℕ → ExecutionContext → Except PyError (List SyscallEvent × ExecutionContext)
  | [], _, context => .ok ([], context)
  | rawLine :: lines, number, context =>
    let line := strip rawLine
    if straceSkips line then straceLoop sourceFile lines (number + 1) context
    else do
      let context := if isGuestExecveLine line then .guest else context
      let parsed ← parseStraceLine literalEval line ⟨sourceFile, number, context⟩
      let context := if isSuccessfulChrootLine line then .guest else context
      let (events, context) ← straceLoop sourceFile lines (number + 1) context
      pure (parsed.toList ++ events, context)

/-- `parse_strace_file`, on the name and the text of the file. -/
def parseStraceFile (sourceFile text : PyStr) : Except PyError (List SyscallEvent) := do
  let (events, _) ← straceLoop literalEval sourceFile (splitlines text) 1 .hostWrapper
  pure events

end

end TaintForge
