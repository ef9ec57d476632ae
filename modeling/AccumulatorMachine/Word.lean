/-!
# Machine words

A word has sixteen bits and is read in two ways: as a signed number (`BitVec.toInt`) by arithmetic
and conditions, and as an unsigned one (`BitVec.toNat`) by addresses and hexadecimal output.
-/

namespace AccumulatorMachine

abbrev Byte := BitVec 8

abbrev Word := BitVec 16

/-- A place in memory as instructions and callers name it: a signed 32-bit number, of which only
`0` to `4095` exist. -/
abbrev Location := BitVec 32

namespace Word

/-- The word that a number leaves in sixteen bits. -/
def ofInt (n : Int) : Word := BitVec.ofInt 16 n

/-- The low twelve bits, all that an address-class register or an operand field can hold. -/
def low12 (w : Word) : Word := w &&& 0x0FFF#16

/-- The location of a word read as a signed number. -/
def toLocation (w : Word) : Location := w.signExtend 32

/-- The location of a word read as an unsigned number. -/
def toLocationUnsigned (w : Word) : Location := w.setWidth 32

theorem toNat_low12 (w : Word) : w.low12.toNat = w.toNat % 4096 := by
  rw [low12, BitVec.toNat_and]
  exact Nat.and_two_pow_sub_one_eq_mod w.toNat 12

theorem toNat_low12_lt (w : Word) : w.low12.toNat < 4096 := by
  rw [toNat_low12]
  omega

@[simp] theorem low12_low12 (w : Word) : w.low12.low12 = w.low12 := by
  simp [low12, BitVec.and_assoc]

@[simp] theorem ofInt_toInt (w : Word) : ofInt w.toInt = w := BitVec.ofInt_toInt

end Word

end AccumulatorMachine
