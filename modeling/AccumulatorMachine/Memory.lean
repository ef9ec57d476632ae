import AccumulatorMachine.Word
import AccumulatorMachine.Text.Numeral

/-!
# Memory

4096 words, named by locations. Reading and writing refuse a location outside memory; the number
of cells is part of the type.
-/

namespace AccumulatorMachine

def memorySize : Nat := 4096

theorem toNat_lt_memorySize_iff {bits : Nat} (hbits : 12 < bits) (n : BitVec bits) :
    n.toNat < memorySize ↔ 0 ≤ n.toInt ∧ n.toInt ≤ 4095 := by
  have hlt := n.isLt
  have hpow : 2 ^ 13 ≤ 2 ^ bits := Nat.pow_le_pow_right (by decide) hbits
  rw [BitVec.toInt_eq_toNat_cond, memorySize]
  split <;> omega

structure Memory where
  cells : Vector Word memorySize
  deriving DecidableEq

/-- A location at which there is no cell. -/
structure MemoryError where
  location : Location
  deriving DecidableEq, Repr

def MemoryError.message (e : MemoryError) : String :=
  "memory address " ++ Text.decimalText e.location.toInt ++ " out of range (0-4095)"

namespace Memory

def zero : Memory := ⟨Vector.replicate memorySize 0⟩

def read (m : Memory) (place : Location) : Except MemoryError Word :=
  if h : place.toNat < memorySize then .ok m.cells[place.toNat] else .error ⟨place⟩

def write (m : Memory) (place : Location) (w : Word) : Except MemoryError Memory :=
  if h : place.toNat < memorySize then .ok ⟨m.cells.set place.toNat w⟩ else .error ⟨place⟩

/-- The word in a cell, zero outside memory. -/
def cell (m : Memory) (i : Nat) : Word := m.cells[i]?.getD 0

def clear (m : Memory) : Memory := ⟨m.cells.map fun _ => 0⟩

/-- The sum of two numbers of sixty-four bits, or the largest of these if it is none of them. -/
def saturatingAdd (a b : Nat) : Nat := min (a + b) (UInt64.size - 1)

/-- The cells from `start` on, at most `count` of them, each with its address. The two are any
numbers of sixty-four bits. -/
def dump (m : Memory) (start count : Nat) : List (Nat × Word) :=
  let stop := min (saturatingAdd start count) memorySize
  let first := min start stop
  (List.range' first (stop - first)).map fun i => (i, m.cell i)

def rowWidth : Nat := 16

/-- One row: the address of its first cell, then its words in hexadecimal. -/
def hexRow (m : Memory) (row : Nat) : String :=
  Text.hexText 3 (row * rowWidth) ++ " " ++
    String.join ((List.range' (row * rowWidth) rowWidth).map fun i =>
      " " ++ Text.hexText 4 (m.cell i).toNat)

/-- The whole memory in rows, each ended by a line feed. -/
def hexRows (m : Memory) : String :=
  String.join ((List.range (memorySize / rowWidth)).map fun row => m.hexRow row ++ "\n")

def nonZero (m : Memory) : Nat := m.cells.toList.countP (· ≠ 0)

theorem clear_eq_zero (m : Memory) : m.clear = zero := by
  rw [clear, zero, Vector.map_const']

theorem read_of_le (m : Memory) {place : Location} (h : memorySize ≤ place.toNat) :
    m.read place = .error ⟨place⟩ := by
  simp [read, Nat.not_lt.2 h]

theorem write_of_lt (m : Memory) {place : Location} (w : Word) (h : place.toNat < memorySize) :
    m.write place w = .ok ⟨m.cells.set place.toNat w⟩ := by
  simp [write, h]

theorem write_of_le (m : Memory) {place : Location} (w : Word) (h : memorySize ≤ place.toNat) :
    m.write place w = .error ⟨place⟩ := by
  simp [write, Nat.not_lt.2 h]

@[simp] theorem cell_zero (i : Nat) : zero.cell i = 0 := by
  simp only [cell, zero, Vector.getElem?_replicate]
  split <;> rfl

theorem read_eq_cell (m : Memory) {place : Location} (h : place.toNat < memorySize) :
    m.read place = .ok (m.cell place.toNat) := by
  simp [read, cell, h]

theorem cell_of_write {m m' : Memory} {place : Location} {w : Word} (h : m.write place w = .ok m')
    (i : Nat) : m'.cell i = if i = place.toNat then w else m.cell i := by
  rw [write] at h
  split at h
  next hlt =>
    injection h with h
    subst h
    simp only [cell, Vector.getElem?_set]
    grind
  next => cases h

end Memory

end AccumulatorMachine
