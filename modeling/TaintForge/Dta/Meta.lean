import Mathlib.Data.BitVec
import Mathlib.Data.Fintype.Defs

/-!
# What is known of an instruction

The registers, the slices of registers and the description `InsnMeta` of a decoded instruction, as
`dta.h` declares them.
-/

namespace TaintForge

/-- `RegId`; `REG_INVALID` is the `none` of `Option RegId`. -/
inductive RegId where
  | rax | rcx | rdx | rbx | rsp | rbp | rsi | rdi
  | r8 | r9 | r10 | r11 | r12 | r13 | r14 | r15
  deriving DecidableEq, Repr

/-- The number the compiler gives the register. -/
def RegId.toNat : RegId → ℕ
  | rax => 0 | rcx => 1 | rdx => 2 | rbx => 3 | rsp => 4 | rbp => 5 | rsi => 6 | rdi => 7
  | r8 => 8 | r9 => 9 | r10 => 10 | r11 => 11 | r12 => 12 | r13 => 13 | r14 => 14 | r15 => 15

/-- The loop over `REG_COUNT` registers. -/
def RegId.all : List RegId :=
  [.rax, .rcx, .rdx, .rbx, .rsp, .rbp, .rsi, .rdi, .r8, .r9, .r10, .r11, .r12, .r13, .r14, .r15]

theorem RegId.mem_all (r : RegId) : r ∈ RegId.all := by cases r <;> decide

instance : Fintype RegId := ⟨⟨RegId.all, by decide⟩, RegId.mem_all⟩

/-- `MAX_REG_BYTES` -/
def maxRegBytes : ℕ := 8

/-- A run of bytes of a register; `mask` has the bits of the bytes. -/
structure RegSlice where
  regId : Option RegId
  byteOffset : ℕ
  width : ℕ
  mask : BitVec 8
  deriving DecidableEq, Repr

/-- `regSliceIsValid` -/
def regSliceIsValid (slice : RegSlice) : Bool :=
  slice.regId.isSome && slice.width != 0 && decide (slice.width ≤ maxRegBytes) &&
    decide (slice.byteOffset < maxRegBytes) &&
    decide (slice.width ≤ maxRegBytes - slice.byteOffset) &&
    slice.mask == BitVec.ofNat 8 ((2 ^ slice.width - 1) <<< slice.byteOffset)

/-- `DtaInsnFamily` -/
inductive DtaInsnFamily where
  | unsupported | dataMovement | logical | arithmetic | compare | shiftRotate | stack | string
  deriving DecidableEq, Repr

/-- `X86ConditionCode` -/
inductive X86ConditionCode where
  | none | o | no | b | ae | e | ne | be | a | s | ns | p | np | l | ge | le | g
  deriving DecidableEq, Repr

/-- The disassembler's instruction ids: the ones the code names, and the rest by number. -/
inductive X86Insn where
  | mov | movzx | movsx | lea | xchg
  | xor | and | or | not
  | add | sub | adc | sbb | inc | dec | neg
  | cmp | test
  | shl | sal | shr | sar | rol | ror | rcl | rcr | shld | shrd
  | push | pop | pushf | pushfd | pushfq | pushal | popal | enter | leave | call | ret
  | movsb | movsw | movsd | movsq | stosb | stosw | stosd | stosq | lodsb | lodsw | lodsd | lodsq
  | imul | mul | idiv | div | cbw | cwd | cwde | cdq | nop | jmp
  | jcc (condition : X86ConditionCode)
  | setcc (condition : X86ConditionCode)
  | cmovcc (condition : X86ConditionCode)
  | other (id : ℕ)
  deriving DecidableEq, Repr

/-- What decoding an instruction tells. -/
structure InsnMeta where
  insnId : X86Insn
  hasMemRead : Bool
  hasMemWrite : Bool
  regsReadMask : BitVec 32
  regsWrittenMask : BitVec 32
  memAddrRegMask : BitVec 32
  memReadAddrRegMask : BitVec 32
  memWriteAddrRegMask : BitVec 32
  regReads : List RegSlice
  regWrites : List RegSlice
  isSelfZeroing : Bool
  flagsReadMask : BitVec 8
  flagsWriteMask : BitVec 8
  conditionCode : X86ConditionCode
  isConditionalBranch : Bool
  hasRepPrefix : Bool
  stringElementSize : ℕ
  deriving DecidableEq, Repr

end TaintForge
