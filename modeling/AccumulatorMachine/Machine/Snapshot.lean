import AccumulatorMachine.Json.Fields
import AccumulatorMachine.Json.Reader
import AccumulatorMachine.Json.Writer
import AccumulatorMachine.Machine.Basic

/-!
# Snapshots

A machine as a JSON value, and the machine that a value denotes. Reading checks bounds, tags and
the number of memory cells. It does not ask whether the parts fit together: a register keeps the
name and the text it is given, and a listing its own map of rows.
-/

namespace AccumulatorMachine

open Json (int)

/-- The bounds of a signed number of some bits. -/
def Json.signed? (bits : Nat) (j : Json String) : Option (BitVec bits) :=
  let bound : Nat := 1 <<< (bits - 1)
  (Json.intBetween? (-bound) (bound - 1) j).map (BitVec.ofInt bits)

/-- The bounds of an unsigned number of some bits. -/
def Json.unsigned? (bits : Nat) (j : Json String) : Option (BitVec bits) :=
  (Json.natBelow? (1 <<< bits) j).map (BitVec.ofNat bits)

namespace DisplayMode

def toJson (mode : DisplayMode) : Json String := .string mode.tag

def ofJson? : Json String → Option DisplayMode := Json.ofTag? all tag

end DisplayMode

namespace Register

def fieldNames : List String := ["designation", "value", "mode", "rendering"]

def toJson (r : Register) : Json String :=
  .object [("designation", .string r.designation.tag), ("value", int r.stored.toInt),
    ("mode", r.mode.toJson), ("rendering", .string r.rendering)]

def ofJson? (j : Json String) : Option Register := do
  let [designation, value, mode, rendering] ← Json.record? fieldNames j | none
  return {
    designation := ← Json.ofTag? Designation.all Designation.tag (← designation)
    stored := ← Json.signed? 16 (← value)
    mode := ← DisplayMode.ofJson? (← mode)
    rendering := ← Json.string? (← rendering) }

end Register

namespace Registers

def toJson (rs : Registers) : Json String :=
  .object (Designation.all.map fun d => (d.key, (rs.get d).toJson))

def ofJson? (j : Json String) : Option Registers := do
  let [ac, ir, mar, mbr, pc, input, output] ← Json.record? (Designation.all.map Designation.key) j
    | none
  return {
    ac := ← Register.ofJson? (← ac)
    ir := ← Register.ofJson? (← ir)
    mar := ← Register.ofJson? (← mar)
    mbr := ← Register.ofJson? (← mbr)
    pc := ← Register.ofJson? (← pc)
    input := ← Register.ofJson? (← input)
    output := ← Register.ofJson? (← output) }

end Registers

namespace Memory

def toJson (m : Memory) : Json String :=
  .object [("cells", .array (m.cells.toList.map fun w => int w.toInt))]

def ofJson? (j : Json String) : Option Memory := do
  let [cells] ← Json.record? ["cells"] j | none
  let words ← Json.items? (Json.signed? 16) (← cells)
  if h : words.length = memorySize then return ⟨⟨words.toArray, h⟩⟩ else none

end Memory

namespace Fault

def toJson : Fault → Json String
  | illegalOpcode opcode address =>
    .object [("IllegalOpcode",
      .object [("opcode", int opcode.toNat), ("address", int address.toNat)])]
  | illegalCondition address =>
    .object [("IllegalConditionalOperand", .object [("address", int address.toNat)])]
  | addressOutOfRange location => .object [("AddressOutOfRange", int location.toInt)]
  | endOfMemory => .string "MaxProgramReached"
  | invalidValue reason => .object [("InvalidRegisterValue", .string reason)]

def ofJson? (j : Json String) : Option Fault := do
  let (tag, data) ← Json.alternative? j
  if tag = "IllegalOpcode" then
    let [opcode, address] ← Json.record? ["opcode", "address"] (← data) | none
    return .illegalOpcode (← Json.unsigned? 8 (← opcode)) (← Json.unsigned? 16 (← address))
  else if tag = "IllegalConditionalOperand" then
    let [address] ← Json.record? ["address"] (← data) | none
    return .illegalCondition (← Json.unsigned? 16 (← address))
  else if tag = "AddressOutOfRange" then
    return .addressOutOfRange (← Json.signed? 32 (← data))
  else if tag = "MaxProgramReached" then
    let _ ← Json.tag? j
    return .endOfMemory
  else if tag = "InvalidRegisterValue" then
    return .invalidValue (← Json.string? (← data))
  else none

end Fault

namespace Line

def fieldNames : List String :=
  ["address", "word", "label", "mnemonic", "operand_token", "breakpoint"]

def toJson (line : Line) : Json String :=
  .object [("address", int line.address.toNat), ("word", int line.word.toInt),
    ("label", .string line.label), ("mnemonic", .string line.mnemonic),
    ("operand_token", .string line.operandToken), ("breakpoint", .bool line.breakpoint)]

def ofJson? (j : Json String) : Option Line := do
  let [address, word, label, mnemonic, operandToken, breakpoint] ← Json.record? fieldNames j | none
  return {
    address := ← Json.unsigned? 16 (← address)
    word := ← Json.signed? 16 (← word)
    label := ← Json.string? (← label)
    mnemonic := ← Json.string? (← mnemonic)
    operandToken := ← Json.string? (← operandToken)
    breakpoint := ← Json.bool? (← breakpoint) }

end Line

namespace Listing

def linesToJson (l : Listing) : Json String := .array (l.lines.toList.map Line.toJson)

/-- The map of rows as an object with decimal keys, in ascending order of addresses. -/
def rowsToJson (l : Listing) : Json String :=
  .object (l.owned.map fun entry => (Text.decimalText entry.1.toNat, int entry.2))

def toJson (l : Listing) : Json String :=
  .object [("lines", l.linesToJson), ("rows", l.rowsToJson)]

def rowsOfJson? : Json String → Option (Std.ExtTreeMap Word Nat)
  | .object fields => do
    let rows ← fields.mapM fun (key, j) => do
      return (BitVec.ofNat 16 (← Json.natKey? UInt16.size key), ← Json.natBelow? UInt64.size j)
    return .ofList rows
  | _ => none

def ofJson? (j : Json String) : Option Listing := do
  let [lines, rows] ← Json.record? ["lines", "rows"] j | none
  let lines ← Json.items? Line.ofJson? (← lines)
  return ⟨lines.toArray, ← rowsOfJson? (← rows)⟩

end Listing

namespace OutputRecord

def toJson (r : OutputRecord) : Json String :=
  .object [("value", int r.value.toInt), ("mode", r.mode.toJson)]

def ofJson? (j : Json String) : Option OutputRecord := do
  let [value, mode] ← Json.record? ["value", "mode"] j | none
  return ⟨← Json.signed? 16 (← value), ← DisplayMode.ofJson? (← mode)⟩

end OutputRecord

namespace Machine

def fieldNames : List String :=
  ["regs", "mem", "state", "fault", "program", "cursor", "executed_line", "output", "cycles",
    "last_opcode"]

def toJson (m : Machine) : Json String :=
  .object [("regs", m.registers.toJson), ("mem", m.memory.toJson), ("state", .string m.status.tag),
    ("fault", .ofOption (m.fault.map Fault.toJson)), ("program", m.listing.toJson),
    ("cursor", .ofOption (m.cursor.map fun row => int row)),
    ("executed_line", .ofOption (m.executedLine.map fun row => int row)),
    ("output", .array (m.output.toList.map OutputRecord.toJson)),
    ("cycles", int m.cycles.toNat),
    ("last_opcode", .ofOption (m.lastOpcode.map fun op => .string op.tag))]

def ofJson? (j : Json String) : Option Machine := do
  let [registers, memory, status, fault, listing, cursor, executedLine, output, cycles,
    lastOpcode] ← Json.record? fieldNames j | none
  let output ← Json.items? OutputRecord.ofJson? (← output)
  return {
    registers := ← Registers.ofJson? (← registers)
    memory := ← Memory.ofJson? (← memory)
    status := ← Json.ofTag? Status.all Status.tag (← status)
    fault := ← Json.optional? Fault.ofJson? fault
    listing := ← Listing.ofJson? (← listing)
    cursor := ← Json.optional? (Json.natBelow? UInt64.size) cursor
    executedLine := ← Json.optional? (Json.natBelow? UInt64.size) executedLine
    output := output.toArray
    cycles := .ofNat (← Json.natBelow? UInt64.size (← cycles))
    lastOpcode := ← Json.optional? (Json.ofTag? Opcode.all Opcode.tag) lastOpcode }

def snapshot (m : Machine) : String := Json.compact m.toJson

def ofSnapshot? (text : String) : Option Machine :=
  (Json.valueOfBytes? (Json.utf8 text)).bind ofJson?

end Machine

end AccumulatorMachine
