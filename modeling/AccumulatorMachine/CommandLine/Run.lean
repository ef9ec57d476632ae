import AccumulatorMachine.CommandLine.Arguments
import AccumulatorMachine.CommandLine.InputLine
import AccumulatorMachine.CommandLine.Report
import AccumulatorMachine.Machine.Report

/-!
# Running a program from the command line

A run prints what the program outputs, hands it one line of input for each INPUT instruction, and
reports how it ended. It alternates between advancing, until the machine waits for input or is
done, and taking a line.
-/

namespace AccumulatorMachine.CommandLine

/-- A program that runs, and what it has printed. -/
structure Run where
  controller : Controller
  options : RunOptions
  files : Companions
  /-- The machine's cycle count when the program was loaded. -/
  startCycles : UInt64
  stdout : String
  stderr : String

namespace Run

def status (r : Run) : Status := r.controller.machine.status

def control {α : Type} (r : Run) (action : Control α) : Run :=
  match action.run r.controller with
  | .ok _ c => { r with controller := c }
  | .error _ c => { r with controller := c }

def printOutput (r : Run) : Run :=
  let (records, c) := r.controller.drain
  let stdout := records.foldl
    (fun s record => s ++ record.text ++ if r.options.linefeeds then "\n" else "") r.stdout
  { r with controller := c, stdout }

/-- The trace line of an instruction: where it lay, what it was, and AC after it. -/
def traceLine (pc word ac : Word) : String :=
  Text.hexText 3 pc.toNat ++ "  " ++ Text.padRight 14 word.disassemble ++ " AC=" ++
    DisplayMode.hex.render false ac ++ "\n"

def spent (r : Run) : Nat := r.controller.machine.cycles.toNat - r.startCycles.toNat

/-- Execute one instruction and trace it, unless the cycle limit has been reached. -/
def tracedStep (r : Run) : Run :=
  if r.options.maxCycles.any fun limit => limit.toNat ≤ r.spent then
    { r with controller := r.controller.requestPause }
  else
    let before := r.controller.machine
    let pc := before.value .pc
    let word := (before.memory.read pc.toLocation).toOption.getD 0
    let r := r.control Control.step
    { r with stderr := r.stderr ++ traceLine pc word (r.controller.machine.value .ac) }

/-- The run of a program just loaded, advanced by its first instruction if it is traced, and until
it stops if not. -/
def start (fuel : Nat) (r : Run) : Run :=
  if r.options.trace then r.tracedStep else r.control (Control.runToCompletion fuel)

/-- Print, and go on with a traced run until it stops, for at most `fuel` instructions. -/
def advance : Nat → Run → Run
  | 0, r => r.printOutput
  | fuel + 1, r =>
    let r := r.printOutput
    if r.options.trace ∧ r.status = .running then advance fuel r.tracedStep else r

/-- Answer a pending INPUT instruction by a line of input, or by the end of the input. A line that
cannot be read halts the machine. -/
def answer (fuel : Nat) (line? : Option InputLine) (r : Run) : Run :=
  match line? with
  | none => r.control (Control.abort (.invalidValue "end of input"))
  | some none => r.control (Control.abort (.invalidValue "stream did not contain valid UTF-8"))
  | some (some text) =>
    match (Control.supplyLiteral fuel text).run r.controller with
    | .ok _ c => { r with controller := c }
    | .error e _ => r.control (Control.abort (.invalidValue e.message))

/-- Run on with the lines of input that are left. -/
def feed (fuel : Nat) : List InputLine → Run → Run
  | lines, r =>
    let r := r.advance fuel
    if r.status = .awaitingInput then
      match lines with
      | [] => (r.answer fuel none).advance fuel
      | line :: lines => feed fuel lines (r.answer fuel (some line))
    else r

/-- A run that has been loaded and has not started. -/
def ofImage (program : String) (options : RunOptions) (image : Except ImageError Image) :
    Except Report Run := do
  let files := Companions.ofPath program
  let config := match options.maxCycles with
    | some limit => Config.default.withCycleLimit limit
    | none => Config.default
  let c ← loadOrReport config files image
  let machine := (c.machine.setMode .input options.inputMode).setMode .output options.outputMode
  return {
    controller := { c with machine }
    options
    files
    startCycles := machine.cycles
    stdout := ""
    stderr := "" }

/-- What the run printed, with the line end that is left to the end when there are none between the
output values. -/
def printed (r : Run) : String := if r.options.linefeeds then r.stdout else r.stdout ++ "\n"

/-- The core dump to write and where, if one is asked for. -/
def dump? (r : Run) : Option (String × String) :=
  if r.options.dump then some (r.files.dump, r.controller.machine.coreDump) else none

/-- The report of a run that has stopped, when its core dump, if any, has been written. -/
def report (r : Run) : Report :=
  let m := r.controller.machine
  match m.status with
  | .haltedAbnormal =>
    let message := (m.errorCode?.map ErrorCode.message).getD "unknown error"
    let fault := match m.fault with
      | some f => f.message ++ "\n"
      | none => ""
    ⟨2, r.printed ++ "Machine halted abnormally.  Error: " ++ message ++ "\n", r.stderr ++ fault⟩
  | .paused =>
    ⟨3, r.printed, r.stderr ++ "Stopped after " ++ Text.decimalText m.cycles.toNat ++
      " cycles.\n"⟩
  | _ => ⟨0, r.printed, r.stderr⟩

/-- The report of a run whose core dump could not be written. -/
def reportUnwritten (r : Run) (reason : String) : Report :=
  ⟨1, r.printed, r.stderr ++ "Failed to write " ++ r.files.dump ++ ": " ++ reason ++ "\n"⟩

end Run

end AccumulatorMachine.CommandLine
