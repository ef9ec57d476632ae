import AccumulatorMachine.Instruction
import AccumulatorMachine.Memory

/-!
# Faults

What halts a machine abnormally, the numbered condition each fault reports, and the states a
machine can be in.
-/

namespace AccumulatorMachine

inductive Status
  /-- Not yet set up. -/
  | uninitialized
  /-- Reset, or the last load failed. -/
  | noProgram
  | running
  /-- An INPUT instruction waits for its value. -/
  | awaitingInput
  /-- Stopped on request or at a breakpoint, and can go on. -/
  | paused
  | haltedNormal
  | haltedAbnormal
  | haltedByUser
  deriving DecidableEq, Repr

namespace Status

def all : List Status :=
  [uninitialized, noProgram, running, awaitingInput, paused, haltedNormal, haltedAbnormal,
    haltedByUser]

theorem mem_all (s : Status) : s ∈ all := by cases s <;> decide

def description : Status → String
  | uninitialized => "uninitialized"
  | noProgram => "no program loaded"
  | running => "running"
  | awaitingInput => "blocked on input"
  | paused => "paused"
  | haltedNormal => "halted normally"
  | haltedAbnormal => "halted abnormally"
  | haltedByUser => "halted by user"

def tag : Status → String
  | uninitialized => "Uninitialized"
  | noProgram => "NoProgramLoaded"
  | running => "Running"
  | awaitingInput => "BlockedOnInput"
  | paused => "Paused"
  | haltedNormal => "HaltedNormal"
  | haltedAbnormal => "HaltedAbnormal"
  | haltedByUser => "HaltedByUser"

def isHalted : Status → Bool
  | haltedNormal | haltedAbnormal | haltedByUser => true
  | _ => false

def hasProgram : Status → Bool
  | uninitialized | noProgram => false
  | _ => true

end Status

/-- The numbered conditions that halts and failed loads report. -/
inductive ErrorCode
  | illegalOpcode
  | illegalCondition
  | addressOutOfRange
  | invalidImage
  | imageUnreadable
  | invalidValue
  | programTooLong
  deriving DecidableEq, Repr

namespace ErrorCode

def number : ErrorCode → Nat
  | illegalOpcode => 1
  | illegalCondition => 2
  | addressOutOfRange => 3
  | invalidImage => 4
  | imageUnreadable => 5
  | invalidValue => 7
  | programTooLong => 8

def message : ErrorCode → String
  | illegalOpcode => "Illegal opcode"
  | illegalCondition => "Illegal conditional operand"
  | addressOutOfRange => "Address out of range"
  | invalidImage => "Invalid machine code format"
  | imageUnreadable => "IO Exception on input file"
  | invalidValue => "Illegal numeric value in register"
  | programTooLong => "Maximum program statements reached"

end ErrorCode

/-- A fatal condition raised while an instruction is fetched or executed. -/
inductive Fault
  | illegalOpcode (opcode : Byte) (address : Word)
  | illegalCondition (address : Word)
  | addressOutOfRange (location : Location)
  /-- The next instruction would lie past the last cell. -/
  | endOfMemory
  /-- No value could be had for an INPUT instruction; the text says why. -/
  | invalidValue (reason : String)
  deriving DecidableEq, Repr

namespace Fault

def message : Fault → String
  | illegalOpcode opcode address =>
    "illegal opcode " ++ Text.hexText 1 opcode.toNat ++ " at address " ++
      Text.hexText 3 address.toNat
  | illegalCondition address =>
    "illegal conditional operand at address " ++ Text.hexText 3 address.toNat
  | addressOutOfRange location =>
    "address " ++ Text.decimalText location.toInt ++ " out of range"
  | endOfMemory => "maximum program statements reached"
  | invalidValue reason => "illegal numeric value in register: " ++ reason

def code : Fault → ErrorCode
  | illegalOpcode _ _ => .illegalOpcode
  | illegalCondition _ => .illegalCondition
  | addressOutOfRange _ => .addressOutOfRange
  | endOfMemory => .programTooLong
  | invalidValue _ => .invalidValue

def ofDecodeError (e : DecodeError) (address : Word) : Fault :=
  match e with
  | .illegalOpcode nibble => illegalOpcode nibble address
  | .illegalCondition _ => illegalCondition address

def ofMemoryError (e : MemoryError) : Fault := addressOutOfRange e.location

end Fault

end AccumulatorMachine
