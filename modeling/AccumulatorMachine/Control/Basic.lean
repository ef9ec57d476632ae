import AccumulatorMachine.Control.Config
import AccumulatorMachine.Machine.Cycle
import AccumulatorMachine.Machine.Load

/-!
# Execution control

A controller owns a machine and drives it in one of three ways: one instruction at a time, to
completion on the caller's time, or to a breakpoint by a worker beside the caller. Pause and stop
requests are flags that a run looks at between two instructions. This module holds the state, and
the ticks of which runs consist: each is one passage between two looks of others at the machine.
-/

namespace AccumulatorMachine

/-- How a controller drives its machine. -/
inductive RunMode
  | singleStep
  | toCompletion
  | toBreakpoint
  deriving DecidableEq, Repr

inductive Refusal
  | noProgram
  | busy
  | awaitingInput
  | notAwaitingInput (status : Status)
  | notPaused (status : Status)
  | notAProgramLine (address : Word)
  | literal (e : LiteralError)
  | load (e : LoadError)
  deriving DecidableEq, Repr

def Refusal.message : Refusal → String
  | noProgram => "no program loaded"
  | busy => "machine is running"
  | awaitingInput => "machine is waiting for input"
  | notAwaitingInput status => "machine is not waiting for input (" ++ status.description ++ ")"
  | notPaused status => "machine is not paused (" ++ status.description ++ ")"
  | notAProgramLine address =>
    "no program line at address " ++ Text.hexText 3 address.toNat
  | literal e => e.message
  | load e => e.message

structure Controller where
  machine : Machine
  config : Config
  mode : RunMode
  pausePending : Bool
  stopPending : Bool
  /-- Whether a worker is driving the machine. A worker that has driven it to its end counts as gone
  at once, though operations are refused as busy for the moment until it has finished. -/
  working : Bool
  /-- The machine's cycle count when the current run began. -/
  runStart : UInt64

namespace Controller

def new (config : Config) : Controller where
  machine := .new
  config := config
  mode := .singleStep
  pausePending := false
  stopPending := false
  working := false
  runStart := 0

/-- Look at the requests: a pending stop comes first, then a pending pause. Says whether the machine
goes on running. -/
def observe (c : Controller) : Bool × Controller :=
  if c.stopPending then
    (false, { c with stopPending := false, machine := c.machine.stopByUser })
  else if c.pausePending then
    (false, { c with pausePending := false, machine := c.machine.pause })
  else (c.machine.isRunning, c)

def spent (c : Controller) : Nat := c.machine.cycles.toNat - c.runStart.toNat

def limitReached (c : Controller) : Bool :=
  c.config.cycleLimit.any fun limit => limit.toNat ≤ c.spent

/-- One tick of a run to completion: look at the requests and the cycle limit, then execute one
instruction. Says whether the run goes on. -/
def runTick (c : Controller) : Bool × Controller :=
  match c.observe with
  | (false, c) => (false, c)
  | (true, c) =>
    if c.limitReached then (false, { c with machine := c.machine.pause })
    else (true, { c with machine := c.machine.cycle.2 })

/-- Run to completion, for at most `fuel` ticks. -/
def runLoop : Nat → Controller → Controller
  | 0, c => c
  | fuel + 1, c =>
    match c.runTick with
    | (true, c) => runLoop fuel c
    | (false, c) => c

end Controller

namespace Machine

/-- Whether the line just executed carries a breakpoint and the machine still runs. -/
def atBreakpoint (m : Machine) : Bool := m.isRunning && m.executedLine.any m.listing.hasBreakpoint

def pauseAtBreakpoint (m : Machine) : Machine := if m.atBreakpoint then m.pause else m

end Machine

namespace Controller

/-- One tick of a worker: look at the requests, execute one instruction, and pause if its line
carries a breakpoint. The worker ends when the machine no longer runs. -/
def workTick (c : Controller) : Controller :=
  match c.observe with
  | (false, c) => { c with working := false }
  | (true, c) =>
    let machine := c.machine.cycle.2.pauseAtBreakpoint
    { c with machine, working := machine.isRunning }

/-- Let the worker, if there is one, run to its end, for at most `fuel` ticks. -/
def workLoop : Nat → Controller → Controller
  | 0, c => c
  | fuel + 1, c => if c.working then workLoop fuel c.workTick else c

end Controller

end AccumulatorMachine
