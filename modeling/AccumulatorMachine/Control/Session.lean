import AccumulatorMachine.Control.Operations

/-!
# Sessions

A session is a list of operations on a controller and on the machine it owns. Each operation has a
reply and leaves a controller.
-/

namespace AccumulatorMachine

/-- What a caller can ask of a controller, or do to its machine between two instructions. -/
inductive Operation
  | load (image : Except ImageError Image)
  | step
  | run
  | runToBreakpoint
  | resume
  | supply (n : Int)
  | supplyLiteral (text : String)
  | abort (f : Fault)
  | requestPause
  | requestStop
  | leavePause
  | leaveStop
  | wait
  | setBreakpoint (address : Word) (on : Bool)
  | toggleBreakpoint (address : Word)
  | clearBreakpoints
  | drain
  | setDelay (delay : Nat)
  | cycle
  | halt
  | restart
  | reset
  | assign (d : Designation) (n : Int)
  | setMode (d : Designation) (mode : DisplayMode)
  | write (place : Location) (w : Word)

inductive Reply
  | done
  | status (now : Status)
  | breakpoint (on : Bool)
  | output (records : Array OutputRecord)
  | executed (op : Option Opcode)
  | refused (e : Refusal)
  | noCell (e : MemoryError)

namespace Controller

/-- Carry out an action and put what it gives into a reply. -/
def answer {α : Type} (action : Control α) (reply : α → Reply) (c : Controller) :
    Reply × Controller :=
  match action.run c with
  | .ok x c => (reply x, c)
  | .error e c => (.refused e, c)

def onMachine (c : Controller) (machine : Machine) : Reply × Controller :=
  (.done, { c with machine })

/-- Carry out one operation. A run in it lasts for at most `fuel` ticks. -/
def perform (fuel : Nat) (c : Controller) : Operation → Reply × Controller
  | .load image => answer (Control.loadRead image) (fun _ => .done) c
  | .step => answer Control.step .status c
  | .run => answer (Control.runToCompletion fuel) .status c
  | .runToBreakpoint => answer Control.runToBreakpoint (fun _ => .status .running) c
  | .resume => answer (Control.resume fuel) .status c
  | .supply n => answer (Control.supply fuel n) .status c
  | .supplyLiteral text => answer (Control.supplyLiteral fuel text) .status c
  | .abort f => answer (Control.abort f) (fun _ => .done) c
  | .requestPause => (.done, c.requestPause)
  | .requestStop => (.done, c.requestStop)
  | .leavePause => (.done, c.leavePause)
  | .leaveStop => (.done, c.leaveStop)
  | .wait => answer (Control.wait fuel) .status c
  | .setBreakpoint address on => answer (Control.setBreakpoint address on) (fun _ => .done) c
  | .toggleBreakpoint address => answer (Control.toggleBreakpoint address) .breakpoint c
  | .clearBreakpoints => (.done, c.clearBreakpoints)
  | .drain =>
    let (records, c) := c.drain
    (.output records, c)
  | .setDelay delay => (.done, { c with config := c.config.setDelay delay })
  | .cycle =>
    let (op, machine) := c.machine.cycle
    (.executed op, { c with machine })
  | .halt => c.onMachine c.machine.halt
  | .restart => c.onMachine c.machine.restart
  | .reset => c.onMachine c.machine.reset
  | .assign d n => c.onMachine (c.machine.assign d n)
  | .setMode d mode => c.onMachine (c.machine.setMode d mode)
  | .write place w =>
    match c.machine.memory.write place w with
    | .ok memory => c.onMachine { c.machine with memory }
    | .error e => (.noCell e, c)

def performAll (fuel : Nat) : Controller → List Operation → List Reply × Controller
  | c, [] => ([], c)
  | c, op :: ops =>
    let (reply, c) := c.perform fuel op
    let (replies, c) := performAll fuel c ops
    (reply :: replies, c)

theorem performAll_append (fuel : Nat) (c : Controller) (first second : List Operation) :
    c.performAll fuel (first ++ second) =
      let (front, c) := c.performAll fuel first
      let (back, c) := c.performAll fuel second
      (front ++ back, c) := by
  induction first generalizing c with
  | nil => rfl
  | cons op ops ih => simp only [List.cons_append, performAll, ih]

end Controller

end AccumulatorMachine
