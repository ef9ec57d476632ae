import AccumulatorMachine.Word
import AccumulatorMachine.Text.Blank
import AccumulatorMachine.Text.Numeral

/-!
# Instructions

An instruction is one word: the high nibble is the operation, the low twelve bits the operand. The
operand of a conditional skip holds its condition in bits 11 and 10. Decoding refuses the one
nibble and the one condition that mean nothing.
-/

namespace AccumulatorMachine

/-- The operations, in the order of their nibbles. -/
inductive Opcode
  | jns
  | load
  | store
  | add
  | subt
  | input
  | output
  | halt
  | skipCond
  | jump
  | clear
  | addI
  | jumpI
  | loadI
  | storeI
  deriving DecidableEq, Repr

/-- A word field that means nothing. -/
inductive DecodeError
  | illegalOpcode (nibble : Byte)
  | illegalCondition (bits : Byte)
  deriving DecidableEq, Repr

def DecodeError.message : DecodeError → String
  | illegalOpcode nibble => "illegal opcode: " ++ Text.hexText 1 nibble.toNat
  | illegalCondition bits =>
    "illegal conditional operand: " ++ String.ofList (Text.numeral 2 2 bits.toNat)

namespace Opcode

def all : List Opcode :=
  [jns, load, store, add, subt, input, output, halt, skipCond, jump, clear, addI, jumpI, loadI,
    storeI]

def nibble : Opcode → Byte
  | jns => 0
  | load => 1
  | store => 2
  | add => 3
  | subt => 4
  | input => 5
  | output => 6
  | halt => 7
  | skipCond => 8
  | jump => 9
  | clear => 10
  | addI => 11
  | jumpI => 12
  | loadI => 13
  | storeI => 14

def ofNibble (n : Byte) : Except DecodeError Opcode :=
  match all[n.toNat]? with
  | some op => .ok op
  | none => .error (.illegalOpcode n)

def mnemonic : Opcode → String
  | jns => "JNS"
  | load => "LOAD"
  | store => "STORE"
  | add => "ADD"
  | subt => "SUBT"
  | input => "INPUT"
  | output => "OUTPUT"
  | halt => "HALT"
  | skipCond => "SKIPCOND"
  | jump => "JUMP"
  | clear => "CLEAR"
  | addI => "ADDI"
  | jumpI => "JUMPI"
  | loadI => "LOADI"
  | storeI => "STOREI"

def tag : Opcode → String
  | jns => "JnS"
  | load => "Load"
  | store => "Store"
  | add => "Add"
  | subt => "Subt"
  | input => "Input"
  | output => "Output"
  | halt => "Halt"
  | skipCond => "SkipCond"
  | jump => "Jump"
  | clear => "Clear"
  | addI => "AddI"
  | jumpI => "JumpI"
  | loadI => "LoadI"
  | storeI => "StoreI"

def ofMnemonic? (text : String) : Option Opcode :=
  let key := (Text.trim text).toUpper
  all.find? (·.mnemonic = key)

/-- Whether fetching loads the operand's cell into MBR. -/
def needsOperand : Opcode → Bool
  | jns | load | store | add | subt | addI | jumpI | loadI | storeI => true
  | input | output | halt | skipCond | jump | clear => false

/-- Whether the operand field is shown beside the mnemonic. -/
def showsOperand : Opcode → Bool
  | input | output | halt | clear => false
  | _ => true

@[simp] theorem ofNibble_nibble (op : Opcode) : ofNibble op.nibble = .ok op := by cases op <;> rfl

theorem mem_all (op : Opcode) : op ∈ all := by cases op <;> decide

end Opcode

inductive Condition
  | negative
  | zero
  | positive
  deriving DecidableEq, Repr

namespace Condition

def tag : Condition → String
  | negative => "Negative"
  | zero => "Zero"
  | positive => "Positive"

def bits (w : Word) : Byte := ((w &&& 0x0C00#16) >>> 10).setWidth 8

def ofWord (w : Word) : Except DecodeError Condition :=
  match (bits w).toNat with
  | 0 => .ok negative
  | 1 => .ok zero
  | 2 => .ok positive
  | _ => .error (.illegalCondition (bits w))

def holds (c : Condition) (ac : Word) : Bool :=
  match c with
  | negative => ac.toInt < 0
  | zero => ac.toInt = 0
  | positive => 0 < ac.toInt

end Condition

namespace Word

def opcodeNibble (w : Word) : Byte := (w >>> 12).setWidth 8

def decode (w : Word) : Except DecodeError Opcode := Opcode.ofNibble w.opcodeNibble

/-- The instruction word of an operation and the low twelve bits of an operand. -/
def encode (op : Opcode) (operand : Word) : Word := op.nibble.setWidth 16 <<< 12 ||| operand.low12

/-- An instruction word as text; a word that is no instruction is shown as data. -/
def disassemble (w : Word) : String :=
  match w.decode with
  | .ok op =>
    if op.showsOperand then op.mnemonic ++ " " ++ Text.hexText 3 w.low12.toNat
    else op.mnemonic
  | .error _ => "DATA " ++ Text.hexText 4 w.toNat

theorem toNat_opcodeNibble (w : Word) : w.opcodeNibble.toNat = w.toNat / 4096 := by
  simp only [opcodeNibble, BitVec.toNat_setWidth, BitVec.toNat_ushiftRight,
    Nat.shiftRight_eq_div_pow]
  omega

end Word

end AccumulatorMachine
