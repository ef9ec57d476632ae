import AccumulatorMachine.Machine.Cycle

/-!
# Values after assignments

In a well-formed machine an assignment changes the value of one register, cut to its width, and
nothing else that a program can see. Addresses are moved to natural numbers here, so that bounds
are left to `omega` later.
-/

namespace AccumulatorMachine

namespace Word

@[simp] theorem toNat_toLocationUnsigned (w : Word) : w.toLocationUnsigned.toNat = w.toNat := by
  rw [toLocationUnsigned, BitVec.toNat_setWidth]
  omega

theorem toNat_toLocation_of_lt {w : Word} (h : w.toNat < 32768) : w.toLocation.toNat = w.toNat := by
  have hmsb : w.msb = false := by
    rw [BitVec.msb_eq_false_iff_two_mul_lt]
    omega
  rw [toLocation, BitVec.signExtend_eq_setWidth_of_msb_false hmsb, BitVec.toNat_setWidth]
  omega

theorem toNat_of_toLocation_lt {w : Word} (h : w.toLocation.toNat < 4096) :
    w.toLocation.toNat = w.toNat := by
  rcases Nat.lt_or_ge w.toNat 32768 with hlt | hge
  · exact toNat_toLocation_of_lt hlt
  · have hmsb : w.msb = true := by
      rw [BitVec.msb_eq_true_iff_two_mul_ge]
      omega
    rw [toLocation, BitVec.toNat_signExtend, hmsb, BitVec.toNat_setWidth] at h
    simp at h
    omega

theorem toInt_of_lt {w : Word} (h : w.toNat < 32768) : w.toInt = w.toNat := by
  rw [BitVec.toInt_eq_toNat_of_lt]
  omega

theorem toNat_ofInt_natCast (n : Nat) : (ofInt n).toNat = n % 65536 := by
  simp [ofInt]

theorem ofInt_add (a b : Word) : ofInt (a.toInt + b.toInt) = a + b := by
  rw [ofInt, BitVec.ofInt_add, BitVec.ofInt_toInt, BitVec.ofInt_toInt]

theorem ofInt_sub (a b : Word) : ofInt (a.toInt - b.toInt) = a - b := by
  rw [ofInt, Int.sub_eq_add_neg, BitVec.ofInt_add, BitVec.ofInt_neg, BitVec.ofInt_toInt,
    BitVec.ofInt_toInt, BitVec.sub_eq_add_neg]

theorem ofInt_succ (a : Word) : ofInt (a.toInt + 1) = BitVec.ofNat 16 (a.toNat + 1) := by
  rw [ofInt, BitVec.ofInt_add, BitVec.ofInt_toInt, BitVec.ofNat_add, BitVec.ofNat_toNat,
    BitVec.setWidth_eq]
  rfl

end Word

attribute [simp] Designation.isAddress

/-- What a number leaves in the register with a designation. -/
@[simp] def Designation.cut (d : Designation) (n : Int) : Word :=
  if d.isAddress then (Word.ofInt n).low12 else Word.ofInt n

namespace Memory

def put (m : Memory) (i : Nat) (w : Word) : Memory := ⟨m.cells.setIfInBounds i w⟩

theorem cell_put (m : Memory) {i : Nat} (h : i < memorySize) (w : Word) (j : Nat) :
    (m.put i w).cell j = if j = i then w else m.cell j := by
  simp only [cell, put, Vector.getElem?_setIfInBounds]
  grind

theorem write_eq_put (m : Memory) {place : Location} (h : place.toNat < memorySize) (w : Word) :
    m.write place w = .ok (m.put place.toNat w) := by
  rw [write_of_lt m w h, put]
  congr 2
  ext j hj
  rw [Vector.getElem_set, Vector.getElem_setIfInBounds]

end Memory

namespace Machine

def put (m : Machine) (i : Nat) (w : Word) : Machine := { m with memory := m.memory.put i w }

@[simp] theorem wellFormed_put (m : Machine) (i : Nat) (w : Word) :
    (m.put i w).WellFormed ↔ m.WellFormed := Iff.rfl

section assign

variable (m : Machine) (d : Designation) (n : Int)

@[simp] theorem memory_assign : (m.assign d n).memory = m.memory := rfl

@[simp] theorem status_assign : (m.assign d n).status = m.status := rfl

@[simp] theorem output_assign : (m.assign d n).output = m.output := rfl

@[simp] theorem wellFormed_assign : (m.assign d n).WellFormed ↔ m.WellFormed := by
  simp only [WellFormed, Registers.WellFormed, assign, Registers.get_modify]
  apply forall_congr'
  intro e
  split <;> rfl

theorem mode_assign (e : Designation) :
    ((m.assign d n).registers.get e).mode = (m.registers.get e).mode := by
  rw [assign, Registers.get_modify]
  split <;> rfl

end assign

variable {m : Machine}

theorem value_assign (h : m.WellFormed) (d e : Designation) (n : Int) :
    (m.assign d n).value e = if e = d then d.cut n else m.value e := by
  split
  next he => rw [he, value_assign_self h, Designation.cut]
  next he => exact value_assign_ne m he n

theorem low12_value (h : m.WellFormed) {d : Designation} (hd : d.isAddress = true) :
    (m.value d).low12 = m.value d := by
  rw [value, Register.value, h d, if_pos hd, Word.low12_low12]

theorem toNat_value_lt (h : m.WellFormed) {d : Designation} (hd : d.isAddress = true) :
    (m.value d).toNat < 4096 := by
  rw [← low12_value h hd]
  exact Word.toNat_low12_lt _

/-- The location that an address register names is the cell of its number. -/
theorem toNat_toLocation_value (h : m.WellFormed) {d : Designation} (hd : d.isAddress = true) :
    (m.value d).toLocation.toNat = (m.value d).toNat := by
  have hlt := toNat_value_lt h hd
  apply Word.toNat_toLocation_of_lt
  omega

end Machine

end AccumulatorMachine
