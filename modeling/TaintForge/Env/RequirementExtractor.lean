import TaintForge.Env.StraceParser

/-!
# What the requirement extractor reads of the system calls

Translated from the beginning of `requirement_extractor.py`: which events are selected, and what
`_extract_syscall_requirements` reads of a system call before it decides what the program lacks.

* `selectSyscallEvents`: `_select_syscall_events`.
* `syscallReadings`: the system calls that the loop looks at.
-/

namespace TaintForge

/-- `_optional_string`. -/
def optionalString (value : Option PyStr) : Option PyStr :=
  match value with
  | none => none
  | some rendered => if rendered = [] then none else some rendered

/-- `_select_syscall_events`. -/
def selectSyscallEvents (guestOnly : Bool) (events : List SyscallEvent) : List SyscallEvent :=
  events.filter fun event => !guestOnly || decide (event.executionContext = .guest)

/-- What the loop of `_extract_syscall_requirements` reads of a system call. -/
structure SyscallReading where
  index : ℕ
  syscall : PyStr
  errno : Option PyStr
  path : Option PyStr
  returnValue : Option ℤ
  remoteIp : Option PyStr
  remotePort : Option ℤ
  deriving DecidableEq

/-- The readings of one event: none, unless it is a system call. -/
def syscallReading (index : ℕ) (event : SyscallEvent) : Option SyscallReading :=
  match event.event with
  | .syscall => some
    { index := index
      syscall := event.syscall
      errno := optionalString event.errno
      path := optionalString event.path
      returnValue := event.returnValue
      remoteIp := optionalString event.remoteIp
      remotePort := event.remotePort }
  | .signal => none
  | .processExit => none

/-- The system calls that `_extract_syscall_requirements` looks at. -/
def syscallReadings (guestOnly : Bool) (events : List SyscallEvent) : List SyscallReading :=
  (selectSyscallEvents guestOnly events).zipIdx.filterMap fun x => syscallReading x.2 x.1

end TaintForge
