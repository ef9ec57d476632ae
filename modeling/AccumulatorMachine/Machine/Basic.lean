import AccumulatorMachine.Fault
import AccumulatorMachine.Listing
import AccumulatorMachine.Register

/-!
# The machine

Everything that a running program can observe or change: registers, memory, the state and the
pending fault, the listing of the loaded program, the output not yet drained, and the bookkeeping
of fetches and cycles.
-/

namespace AccumulatorMachine

/-- A value written by an OUTPUT instruction, with the mode OUTPUT was shown in at that moment. -/
structure OutputRecord where
  value : Word
  mode : DisplayMode
  deriving DecidableEq, Repr

def OutputRecord.text (r : OutputRecord) : String := r.mode.render false r.value

structure Machine where
  registers : Registers
  memory : Memory
  status : Status
  /-- The first fatal condition raised since the program was loaded or restarted. -/
  fault : Option Fault
  listing : Listing
  /-- The row of the program line fetched last. -/
  cursor : Option Nat
  /-- The row of the line fetched by the last cycle, if a line owns that address. -/
  executedLine : Option Nat
  output : Array OutputRecord
  /-- Instructions completed since the program was loaded, modulo 2^64. -/
  cycles : UInt64
  lastOpcode : Option Opcode

namespace Machine

/-- A new machine: no program, memory and registers zero. -/
def new : Machine where
  registers := .new
  memory := .zero
  status := .noProgram
  fault := none
  listing := .empty
  cursor := none
  executedLine := none
  output := #[]
  cycles := 0
  lastOpcode := none

/-- Forget the program and all it left behind. Only the registers' display modes are kept. -/
def reset (m : Machine) : Machine := { new with registers := m.registers.reset }

def isRunning (m : Machine) : Bool := m.status = .running

def value (m : Machine) (d : Designation) : Word := (m.registers.get d).value

def assign (m : Machine) (d : Designation) (n : Int) : Machine :=
  { m with registers := m.registers.modify d (·.setValue n) }

def setMode (m : Machine) (d : Designation) (mode : DisplayMode) : Machine :=
  { m with registers := m.registers.modify d (·.setMode mode) }

def errorCode? (m : Machine) : Option ErrorCode := m.fault.map Fault.code

def drain (m : Machine) : Array OutputRecord × Machine := (m.output, { m with output := #[] })

/-- Stop: abnormally if a fault is pending, normally otherwise. -/
def halt (m : Machine) : Machine :=
  { m with status := if m.fault.isSome then .haltedAbnormal else .haltedNormal }

/-- Record a fault and halt. Of several faults the first is kept. -/
def raise (m : Machine) (f : Fault) : Machine := halt { m with fault := m.fault.or (some f) }

def pause (m : Machine) : Machine := { m with status := .paused }

def stopByUser (m : Machine) : Machine := { m with status := .haltedByUser }

/-- Put a loaded program back at its first line and run. Memory and the registers other than PC
stay as the program left them. Nothing happens when no program is loaded. -/
def restart (m : Machine) : Machine :=
  if m.status.hasProgram then
    { m.assign .pc (m.listing.entry?.getD 0).toNat with
      fault := none
      cursor := if m.listing.isEmpty then none else some 0
      executedLine := none
      status := .running }
  else m

/-- Complete a pending INPUT instruction: the value goes to INPUT, and what INPUT holds to AC. -/
def completeInput (m : Machine) (n : Int) : Machine :=
  let m := m.assign .input n
  { m.assign .ac (m.value .input).toInt with status := .running }

/-- Each register slot holds the register of its own name. -/
def WellFormed (m : Machine) : Prop := m.registers.WellFormed

theorem wellFormed_new : new.WellFormed := Registers.wellFormed_new

theorem WellFormed.assign {m : Machine} (h : m.WellFormed) (d : Designation) (n : Int) :
    (m.assign d n).WellFormed :=
  Registers.WellFormed.modify h d fun _ => rfl

theorem WellFormed.setMode {m : Machine} (h : m.WellFormed) (d : Designation)
    (mode : DisplayMode) : (m.setMode d mode).WellFormed :=
  Registers.WellFormed.modify h d fun _ => rfl

theorem WellFormed.reset {m : Machine} (h : m.WellFormed) : m.reset.WellFormed := by
  intro d
  rw [Machine.reset, Registers.get_reset, Register.designation_setValue]
  exact h d

theorem WellFormed.completeInput {m : Machine} (h : m.WellFormed) (n : Int) :
    (m.completeInput n).WellFormed :=
  (h.assign .input n).assign .ac _

theorem value_assign_self {m : Machine} (h : m.WellFormed) (d : Designation) (n : Int) :
    (m.assign d n).value d = if d.isAddress then (Word.ofInt n).low12 else Word.ofInt n := by
  rw [value, assign, Registers.get_modify_self, Register.value_setValue, h d]

theorem value_assign_ne (m : Machine) {d e : Designation} (h : e ≠ d) (n : Int) :
    (m.assign d n).value e = m.value e := by
  rw [value, assign, Registers.get_modify_ne _ _ h, value]

end Machine

end AccumulatorMachine
