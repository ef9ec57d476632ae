import AccumulatorMachine.Machine.Basic
import AccumulatorMachine.Text.Description

/-!
# Reports on a machine

The core dump, which shows state, registers and memory in full, and the one-line description.
-/

namespace AccumulatorMachine

def Register.dumpLine (r : Register) : String :=
  Text.padRight 6 r.designation.name ++ " " ++
    DisplayMode.hex.render r.designation.isAddress r.value ++ "\n"

namespace Machine

/-- The lines of a core dump before the registers. -/
def dumpHeader (m : Machine) : String :=
  let error := match m.errorCode? with
    | some code =>
      "Error: " ++ code.message ++ " (" ++ Text.decimalText code.number ++ ")\n"
    | none => ""
  "MARIE core dump\nState: " ++ m.status.description ++ "\n" ++ error ++ "Cycles: " ++
    Text.decimalText m.cycles.toNat ++ "\n\n"

/-- State, error, cycle count, registers and memory. -/
def coreDump (m : Machine) : String :=
  m.dumpHeader ++ String.join (m.registers.toList.map Register.dumpLine) ++ "\n" ++
    m.memory.hexRows

end Machine

open Text (describeRecord)

def Register.describe (r : Register) : String :=
  describeRecord "Register" [("designation", r.designation.tag),
    ("value", Text.decimalText r.stored.toInt), ("mode", r.mode.tag),
    ("rendering", Text.quoted r.rendering)]

def Registers.describe (rs : Registers) : String :=
  describeRecord "Registers" (Designation.all.map fun d => (d.key, (rs.get d).describe))

def Fault.describe : Fault → String
  | illegalOpcode opcode address =>
    describeRecord "IllegalOpcode" [("opcode", Text.decimalText opcode.toNat),
      ("address", Text.decimalText address.toNat)]
  | illegalCondition address =>
    describeRecord "IllegalConditionalOperand" [("address", Text.decimalText address.toNat)]
  | addressOutOfRange location => "AddressOutOfRange(" ++ Text.decimalText location.toInt ++ ")"
  | endOfMemory => "MaxProgramReached"
  | invalidValue reason => "InvalidRegisterValue(" ++ Text.quoted reason ++ ")"

def Memory.describe (m : Memory) : String :=
  describeRecord "Memory" [("non_zero_cells", Text.decimalText m.nonZero),
    ("total_cells", Text.decimalText memorySize)]

def Machine.describe (m : Machine) : String :=
  let fault := match m.fault with
    | some f => "Some(" ++ f.describe ++ ")"
    | none => "None"
  describeRecord "Machine" [("state", m.status.tag), ("fault", fault),
    ("cycles", Text.decimalText m.cycles.toNat), ("regs", m.registers.describe),
    ("lines", Text.decimalText m.listing.size)]

end AccumulatorMachine
