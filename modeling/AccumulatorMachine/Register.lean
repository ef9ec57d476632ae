import AccumulatorMachine.Display

/-!
# Registers

Seven registers, each with its value, its display mode and the text that shows it. The two that
hold addresses keep twelve bits. A register names itself, because a restored snapshot may put the
register of one name in the slot of another; `Registers.WellFormed` says that none does.
-/

namespace AccumulatorMachine

inductive Designation
  | ac
  | ir
  | mar
  | mbr
  | pc
  | input
  | output
  deriving DecidableEq, Repr

namespace Designation

def all : List Designation := [ac, ir, mar, mbr, pc, input, output]

theorem mem_all (d : Designation) : d ∈ all := by cases d <;> decide

def name : Designation → String
  | ac => "AC"
  | ir => "IR"
  | mar => "MAR"
  | mbr => "MBR"
  | pc => "PC"
  | input => "INPUT"
  | output => "OUTPUT"

def tag : Designation → String
  | ac => "Ac"
  | ir => "Ir"
  | mar => "Mar"
  | mbr => "Mbr"
  | pc => "Pc"
  | input => "Input"
  | output => "Output"

/-- The slot's name in a snapshot of the register file. -/
def key : Designation → String
  | ac => "ac"
  | ir => "ir"
  | mar => "mar"
  | mbr => "mbr"
  | pc => "pc"
  | input => "input"
  | output => "output"

/-- Whether the register holds an address and so keeps twelve bits. -/
def isAddress : Designation → Bool
  | mar | pc => true
  | _ => false

/-- The mode a new register is shown in: decimal for the two that face the user. -/
def initialMode : Designation → DisplayMode
  | input | output => .decimal
  | _ => .hex

end Designation

/-- A register: its name, the word it stores, and how that word is shown. -/
structure Register where
  designation : Designation
  stored : Word
  mode : DisplayMode
  rendering : String
  deriving DecidableEq, Repr

namespace Register

def freshRendering (r : Register) : String := r.mode.render r.designation.isAddress r.stored

/-- The register with its text brought up to date. -/
def rendered (r : Register) : Register := { r with rendering := r.freshRendering }

/-- A new register: zero, in its initial mode. -/
def new (d : Designation) : Register :=
  rendered { designation := d, stored := 0, mode := d.initialMode, rendering := "" }

/-- The value that is read: twelve bits from an address register, whatever it stores. -/
def value (r : Register) : Word := if r.designation.isAddress then r.stored.low12 else r.stored

/-- Store a number, cut to the register's width. -/
def setValue (r : Register) (n : Int) : Register :=
  let w := Word.ofInt n
  rendered { r with stored := if r.designation.isAddress then w.low12 else w }

def setMode (r : Register) (mode : DisplayMode) : Register := rendered { r with mode }

/-- Store what a literal denotes in the register's mode. -/
def setLiteral (r : Register) (text : String) : Except LiteralError Register := do
  let w ← r.mode.literal text
  return r.setValue w.toInt

/-- The register's text shows what it stores. -/
def IsRendered (r : Register) : Prop := r.rendering = r.freshRendering

@[simp] theorem designation_setValue (r : Register) (n : Int) :
    (r.setValue n).designation = r.designation := rfl

@[simp] theorem mode_setValue (r : Register) (n : Int) : (r.setValue n).mode = r.mode := rfl

@[simp] theorem designation_setMode (r : Register) (mode : DisplayMode) :
    (r.setMode mode).designation = r.designation := rfl

@[simp] theorem stored_setMode (r : Register) (mode : DisplayMode) :
    (r.setMode mode).stored = r.stored := rfl

@[simp] theorem value_setMode (r : Register) (mode : DisplayMode) :
    (r.setMode mode).value = r.value := rfl

theorem value_setValue (r : Register) (n : Int) :
    (r.setValue n).value =
      if r.designation.isAddress then (Word.ofInt n).low12 else Word.ofInt n := by
  simp only [value, setValue, rendered]
  split <;> simp

theorem isRendered_setValue (r : Register) (n : Int) : (r.setValue n).IsRendered := rfl

theorem isRendered_setMode (r : Register) (mode : DisplayMode) : (r.setMode mode).IsRendered := rfl

end Register

/-- The register file: one slot for each designation. -/
structure Registers where
  ac : Register
  ir : Register
  mar : Register
  mbr : Register
  pc : Register
  input : Register
  output : Register
  deriving DecidableEq, Repr

namespace Registers

def new : Registers where
  ac := .new .ac
  ir := .new .ir
  mar := .new .mar
  mbr := .new .mbr
  pc := .new .pc
  input := .new .input
  output := .new .output

def get (rs : Registers) : Designation → Register
  | .ac => rs.ac
  | .ir => rs.ir
  | .mar => rs.mar
  | .mbr => rs.mbr
  | .pc => rs.pc
  | .input => rs.input
  | .output => rs.output

def modify (rs : Registers) (d : Designation) (f : Register → Register) : Registers :=
  match d with
  | .ac => { rs with ac := f rs.ac }
  | .ir => { rs with ir := f rs.ir }
  | .mar => { rs with mar := f rs.mar }
  | .mbr => { rs with mbr := f rs.mbr }
  | .pc => { rs with pc := f rs.pc }
  | .input => { rs with input := f rs.input }
  | .output => { rs with output := f rs.output }

def toList (rs : Registers) : List Register := Designation.all.map rs.get

/-- Every register set to zero, in the mode it had. -/
def reset (rs : Registers) : Registers :=
  Designation.all.foldl (fun rs d => rs.modify d (·.setValue 0)) rs

/-- Each slot holds the register of its own name. -/
def WellFormed (rs : Registers) : Prop := ∀ d, (rs.get d).designation = d

theorem get_modify (rs : Registers) (d e : Designation) (f : Register → Register) :
    (rs.modify d f).get e = if e = d then f (rs.get e) else rs.get e := by
  cases d <;> cases e <;> rfl

@[simp] theorem get_modify_self (rs : Registers) (d : Designation) (f : Register → Register) :
    (rs.modify d f).get d = f (rs.get d) := by
  cases d <;> rfl

@[simp] theorem get_modify_ne (rs : Registers) {d e : Designation} (f : Register → Register)
    (h : e ≠ d) : (rs.modify d f).get e = rs.get e := by
  simp [get_modify, h]

theorem get_reset (rs : Registers) (d : Designation) : rs.reset.get d = (rs.get d).setValue 0 := by
  cases d <;> rfl

@[ext] theorem ext_get {a b : Registers} (h : ∀ d, a.get d = b.get d) : a = b := by
  cases a
  cases b
  rw [Registers.mk.injEq]
  exact ⟨h .ac, h .ir, h .mar, h .mbr, h .pc, h .input, h .output⟩

theorem wellFormed_new : new.WellFormed := by
  intro d
  cases d <;> rfl

theorem WellFormed.modify {rs : Registers} (h : rs.WellFormed) (d : Designation)
    {f : Register → Register} (hf : ∀ r, (f r).designation = r.designation) :
    (rs.modify d f).WellFormed := by
  intro e
  rw [get_modify]
  split
  · rw [hf, h e]
  · exact h e

end Registers

end AccumulatorMachine
