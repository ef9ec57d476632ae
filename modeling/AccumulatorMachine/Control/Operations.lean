import AccumulatorMachine.Control.Basic

/-!
# Operations of a controller

What a caller may ask of a controller. An operation that is refused says why. Operations that let a
run go on take a bound on its ticks; a run that has not ended by then is answered as running.
-/

namespace AccumulatorMachine

/-- An operation of a controller that may be refused. -/
abbrev Control := EStateM Refusal Controller

namespace Controller

/-- Ask a running machine to pause: at once, or after its worker's current instruction. -/
def requestPause (c : Controller) : Controller :=
  if c.machine.isRunning then
    if c.working then { c with pausePending := true } else { c with machine := c.machine.pause }
  else c

/-- Stop a machine that has not halted: at once, or after its worker's current instruction. -/
def requestStop (c : Controller) : Controller :=
  match c.machine.status with
  | .running =>
    if c.working then { c with stopPending := true } else { c with machine := c.machine.stopByUser }
  | .paused | .awaitingInput => { c with machine := c.machine.stopByUser }
  | _ => c

/-- Leave a pause request for the next look between two instructions. -/
def leavePause (c : Controller) : Controller := { c with pausePending := true }

/-- Leave a stop request for the next look between two instructions, or for the next input. -/
def leaveStop (c : Controller) : Controller := { c with stopPending := true }

def clearBreakpoints (c : Controller) : Controller :=
  { c with machine := { c.machine with listing := c.machine.listing.clearBreakpoints } }

def drain (c : Controller) : Array OutputRecord × Controller :=
  let (records, machine) := c.machine.drain
  (records, { c with machine })

end Controller

namespace Control

def status : Control Status := do return (← get).machine.status

def modifyMachine (f : Machine → Machine) : Control Unit :=
  modify fun c => { c with machine := f c.machine }

def ensureIdle : Control Unit := do
  if (← get).working then throw .busy

/-- Carry out a load; a refused one has reset the machine. -/
def loading (action : Machine.Loading Unit) : Control Unit := do
  ensureIdle
  fun c =>
    match action.run c.machine with
    | .ok _ machine => .ok () { c with machine }
    | .error e machine => .error (.load e) { c with machine }

def load (image : Image) : Control Unit := loading (Machine.load image)

/-- Load an image that may not have been readable. -/
def loadRead (image : Except ImageError Image) : Control Unit := loading (Machine.loadRead image)

@[simp] theorem loadRead_ok (image : Image) : loadRead (.ok image) = load image := rfl

/-- Make the machine run, for a new step or run. A halted machine begins again at its first line.
Requests left over are forgotten, and the cycles of the run are counted from here. -/
def prepare (mode : RunMode) : Control Unit := do
  ensureIdle
  match ← status with
  | .uninitialized | .noProgram => throw .noProgram
  | .awaitingInput => throw .awaitingInput
  | .haltedNormal | .haltedAbnormal | .haltedByUser => modifyMachine Machine.restart
  | .paused => modifyMachine fun m => { m with status := .running }
  | .running => pure ()
  modify fun c =>
    { c with runStart := c.machine.cycles, pausePending := false, stopPending := false, mode }

def step : Control Status := do
  prepare .singleStep
  modifyMachine fun m => m.cycle.2
  status

def runToCompletion (fuel : Nat) : Control Status := do
  prepare .toCompletion
  modify (Controller.runLoop fuel)
  status

def runToBreakpoint : Control Unit := do
  prepare .toBreakpoint
  modify fun c => { c with working := true }

def wait (fuel : Nat) : Control Status := do
  modify (Controller.workLoop fuel)
  status

/-- Continue a paused machine in the way it was driven before. -/
def resume (fuel : Nat) : Control Status := do
  let now ← status
  if now ≠ .paused then throw (.notPaused now)
  match (← get).mode with
  | .singleStep => step
  | .toCompletion => runToCompletion fuel
  | .toBreakpoint =>
    runToBreakpoint
    return .running

/-- Complete a pending INPUT instruction and go on in the way the machine was driven before. A stop
request left over is honoured in place of the input. -/
def supply (fuel : Nat) (n : Int) : Control Status := do
  let now ← status
  if now ≠ .awaitingInput then throw (.notAwaitingInput now)
  modify (Controller.workLoop fuel)
  if (← get).stopPending then
    modify fun c => { c with stopPending := false, machine := c.machine.stopByUser }
    return .haltedByUser
  modifyMachine (·.completeInput n)
  match (← get).mode with
  | .singleStep => status
  | .toCompletion =>
    modify (Controller.runLoop fuel)
    status
  | .toBreakpoint =>
    if (← get).machine.atBreakpoint then
      modifyMachine Machine.pause
      return .paused
    modify fun c => { c with working := true }
    return .running

def supplyLiteral (fuel : Nat) (text : String) : Control Status := do
  match (← get).machine.registers.input.mode.literal text with
  | .error e => throw (.literal e)
  | .ok w => supply fuel w.toInt

/-- Give up on a pending INPUT instruction: the machine halts with a fault. -/
def abort (f : Fault) : Control Unit := do
  let now ← status
  if now ≠ .awaitingInput then throw (.notAwaitingInput now)
  modifyMachine (·.raise f)

/-- Change the listing, unless no line owns an address. -/
def changeListing (address : Word) (f : Listing → Option Listing) : Control Unit := do
  match f (← get).machine.listing with
  | none => throw (.notAProgramLine address)
  | some listing => modifyMachine fun m => { m with listing }

def setBreakpoint (address : Word) (on : Bool) : Control Unit :=
  changeListing address (·.setBreakpoint? address on)

/-- Flip a breakpoint and say whether it is now set. -/
def toggleBreakpoint (address : Word) : Control Bool := do
  changeListing address (·.toggleBreakpoint? address)
  return (← get).machine.listing.hasBreakpointAt address

end Control

end AccumulatorMachine
