import AccumulatorMachine.Machine.Basic

/-!
# The fetch-execute cycle

Fetching and executing are actions on a machine that may fault. A fault keeps what the action has
done so far. `Machine.cycle` puts the two together and turns a fault into an abnormal halt.
-/

namespace AccumulatorMachine

/-- Part of a cycle: it changes the machine and may raise a fault, whose earlier effects stay. -/
abbrev Action := EStateM Fault Machine

namespace Action

def value (d : Designation) : Action Word := do return (← get).value d

def assign (d : Designation) (n : Int) : Action Unit := modify (·.assign d n)

def read (place : Location) : Action Word := fun m =>
  match m.memory.read place with
  | .ok w => .ok w m
  | .error e => .error (.ofMemoryError e) m

def write (place : Location) (w : Word) : Action Unit := fun m =>
  match m.memory.write place w with
  | .ok memory => .ok () { m with memory }
  | .error e => .error (.ofMemoryError e) m

def loadMbr : Action Unit := do
  let w ← read (← value .mar).toLocation
  assign .mbr w.toInt

/-- Follow a pointer: MAR takes MBR, and MBR the cell it names. -/
def follow : Action Unit := do
  assign .mar (← value .mbr).toInt
  loadMbr

def addMbr : Action Unit := do
  assign .ac ((← value .ac).toInt + (← value .mbr).toInt)

/-- Remember which line was fetched. -/
def noteFetched (address : Word) : Action Unit := modify fun m =>
  let row := m.listing.rowOf? address
  { m with executedLine := row, cursor := row.or m.cursor }

/-- Fetch and decode the instruction that PC names: load IR, for some operations MAR and MBR, and
advance PC. An instruction in the last cell has no successor and faults. -/
def fetch : Action Opcode := do
  assign .mar (← value .pc).toInt
  let address ← value .mar
  let w ← read address.toLocationUnsigned
  assign .ir w.toInt
  noteFetched address
  match w.decode with
  | .error e => throw (.ofDecodeError e address)
  | .ok op =>
    if op.needsOperand then
      assign .mar w.low12.toInt
      loadMbr
    let next := (← value .pc).toInt + 1
    if 4095 < next then throw .endOfMemory
    assign .pc next
    return op

def execute (op : Opcode) : Action Unit := do
  let ir ← value .ir
  match op with
  | .jns =>
    assign .mbr (← value .pc).toInt
    assign .mar ir.low12.toInt
    write (← value .mar).toLocation (← value .mbr)
    assign .mbr (← value .mar).toInt
    assign .ac ((← value .mbr).toInt + 1)
    assign .pc (← value .ac).toInt
  | .load => assign .ac (← value .mbr).toInt
  | .store =>
    assign .mbr (← value .ac).toInt
    write (← value .mar).toLocation (← value .mbr)
  | .add => addMbr
  | .subt => assign .ac ((← value .ac).toInt - (← value .mbr).toInt)
  | .input => modify fun m => { m with status := .awaitingInput }
  | .output =>
    assign .output (← value .ac).toInt
    modify fun m =>
      let shown := m.registers.output
      { m with output := m.output.push ⟨shown.value, shown.mode⟩ }
  | .halt => modify Machine.halt
  | .skipCond =>
    match Condition.ofWord ir with
    | .error e => throw (.ofDecodeError e (← value .mar))
    | .ok c => if c.holds (← value .ac) then assign .pc ((← value .pc).toInt + 1)
  | .jump => assign .pc ir.low12.toInt
  | .clear => assign .ac 0
  | .addI =>
    follow
    addMbr
  | .jumpI => assign .pc (← value .mbr).toInt
  | .loadI =>
    follow
    assign .ac (← value .mbr).toInt
  | .storeI =>
    -- The pointed-to cell holds the address of the target, and is not cut to twelve bits.
    follow
    write (← value .mbr).toLocation (← value .ac)

@[simp] theorem run_value (d : Designation) (m : Machine) :
    (value d).run m = .ok (m.value d) m := rfl

@[simp] theorem run_assign (d : Designation) (n : Int) (m : Machine) :
    (assign d n).run m = .ok () (m.assign d n) := rfl

theorem run_read_of_lt {place : Location} (m : Machine) (h : place.toNat < memorySize) :
    (read place).run m = .ok (m.memory.cell place.toNat) m := by
  rw [EStateM.run, read, Memory.read_eq_cell _ h]

theorem run_read_of_le {place : Location} (m : Machine) (h : memorySize ≤ place.toNat) :
    (read place).run m = .error (.addressOutOfRange place) m := by
  rw [EStateM.run, read, Memory.read_of_le _ h]
  rfl

end Action

namespace Machine

/-- The machine that an action leaves, halted if it faulted. -/
def settle {α : Type} : EStateM.Result Fault Machine α → Machine
  | .ok _ m => m
  | .error f m => m.raise f

/-- One cycle: fetch, decode and execute. The answer is the instruction executed, also when its
execution faulted; there is none if the machine was not running or the fetch faulted. -/
def cycle (m : Machine) : Option Opcode × Machine :=
  if m.status ≠ .running then (none, m)
  else if m.fault.isSome then (none, m.halt)
  else
    match Action.fetch.run m with
    | .error f m => (none, m.raise f)
    | .ok op m =>
      let m := settle ((Action.execute op).run m)
      (some op, { m with cycles := m.cycles + 1, lastOpcode := some op })

def cyclesFrom (m : Machine) : Nat → Machine
  | 0 => m
  | n + 1 => cyclesFrom m.cycle.2 n

end Machine

end AccumulatorMachine
