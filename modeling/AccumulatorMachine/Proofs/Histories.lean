import AccumulatorMachine.Proofs.Operations

/-!
# Histories of a controller

A history is what has happened to a controller: how often the cycle was called, which values were
given to the machine and which output was handed over by the replies. A loaded program is driven by
a start and any permitted events after it. The functions `…Calls` count the calls of the cycle in
the parts of an event, along the recursion of what they count for.
-/

namespace AccumulatorMachine

/-- What can happen to a controller: an operation of its caller, or a tick of its worker. -/
inductive Event
  | call (op : Operation)
  | tick

/-- The value that an event gives to a machine that waits for it. -/
def Event.given : Event → List Int
  | .call (.supply n) => [n]
  | _ => []

def Reply.records : Reply → Array OutputRecord
  | .output records => records
  | _ => #[]

namespace Controller

/-- The controller after an event. A run in it lasts for at most `fuel` ticks. -/
def after (fuel : Nat) (c : Controller) : Event → Controller
  | .call op => (c.perform fuel op).2
  | .tick => if c.working then c.workTick else c

/-- The controller whose machine is at its first line and running, without requests left over. -/
def restarted (c : Controller) : Controller :=
  { c with machine := c.machine.restart, pausePending := false, stopPending := false }

def runCalls : Nat → Controller → Nat
  | 0, _ => 0
  | fuel + 1, c =>
    match c.runTick with
    | (true, c) => runCalls fuel c + 1
    | (false, _) => 0

def tickCalls (c : Controller) : Nat := if c.observe.1 then 1 else 0

def workCalls : Nat → Controller → Nat
  | 0, _ => 0
  | fuel + 1, c => if c.working then c.tickCalls + workCalls fuel c.workTick else 0

theorem workCalls_of_idle {c : Controller} (h : c.working = false) (fuel : Nat) :
    c.workCalls fuel = 0 := by
  cases fuel with
  | zero => rfl
  | succ fuel => rw [workCalls, h, if_neg Bool.false_ne_true]

def stepCalls (c : Controller) : Nat := if c.refusal? = none then 1 else 0

def startCalls (fuel : Nat) (c : Controller) : Nat :=
  if c.refusal? = none then runCalls fuel (c.begin .toCompletion) else 0

def resumeCalls (fuel : Nat) (c : Controller) : Nat :=
  if c.machine.status ≠ .paused then 0
  else
    match c.mode with
    | .singleStep => c.stepCalls
    | .toCompletion => c.startCalls fuel
    | .toBreakpoint => 0

def goOnCalls (fuel : Nat) (c : Controller) : Nat :=
  if c.mode = .toCompletion then runCalls fuel c else 0

def supplyCalls (fuel : Nat) (c : Controller) (n : Int) : Nat :=
  if c.machine.status ≠ .awaitingInput then 0
  else
    workCalls fuel c +
      let c := c.workLoop fuel
      if c.stopPending then 0 else (c.supplied n).goOnCalls fuel

theorem supplyCalls_of_ready {c : Controller} (hwait : c.machine.status = .awaitingInput)
    (hidle : c.working = false) (hstop : c.stopPending = false) (fuel : Nat) (n : Int) :
    c.supplyCalls fuel n = (c.supplied n).goOnCalls fuel := by
  rw [supplyCalls, if_neg (not_not_intro hwait), workLoop_of_idle hidle, workCalls_of_idle hidle,
    Nat.zero_add]
  exact if_neg (Bool.eq_false_iff.1 hstop)

/-- How often an event calls the cycle. -/
def calls (fuel : Nat) (c : Controller) : Event → Nat
  | .tick => if c.working then c.tickCalls else 0
  | .call .step => c.stepCalls
  | .call .run => c.startCalls fuel
  | .call .resume => c.resumeCalls fuel
  | .call (.supply n) => c.supplyCalls fuel n
  | .call (.supplyLiteral text) =>
    match c.machine.registers.input.mode.literal text with
    | .error _ => 0
    | .ok w => c.supplyCalls fuel w.toInt
  | .call .wait => workCalls fuel c
  | .call .cycle => 1
  | .call _ => 0

/-- The output that an event takes from the machine: what the reply to its operation hands over. -/
def taken (fuel : Nat) (c : Controller) : Event → Array OutputRecord
  | .call op => (c.perform fuel op).1.records
  | .tick => #[]

theorem records_answer {α : Type} (action : Control α) {reply : α → Reply}
    (hreply : ∀ x, (reply x).records = #[]) (c : Controller) :
    (c.answer action reply).1.records = #[] := by
  unfold answer
  split
  next x _ _ => exact hreply x
  next => rfl

theorem taken_of_ne (fuel : Nat) (c : Controller) {e : Event} (he : e ≠ .call .drain) :
    c.taken fuel e = #[] := by
  cases e with
  | tick => rfl
  | call op =>
    cases op with
    | drain => exact (he rfl).elim
    | load | step | run | runToBreakpoint | resume | supply | supplyLiteral | abort | wait
    | setBreakpoint | toggleBreakpoint =>
      rw [taken, perform]
      exact records_answer _ (fun _ => rfl) c
    | write place w =>
      unfold taken perform
      dsimp only
      cases c.machine.memory.write place w <;> rfl
    | _ => rfl

/-- A drain hands over all the output there is, and leaves none. -/
theorem taken_drain (fuel : Nat) (c : Controller) :
    c.taken fuel (.call .drain) = c.machine.output ∧
      (c.after fuel (.call .drain)).machine.output = #[] :=
  ⟨rfl, rfl⟩

/-- The events of a schedule that drives a program on: no stop, no abort, no new load, no start
after a halt, and a value only for a machine that waits for it. -/
def permits (c : Controller) : Event → Bool
  | .tick => true
  | .call .step | .call .run | .call .runToBreakpoint => !c.machine.status.isHalted
  | .call (.supply _) => c.machine.status = .awaitingInput
  | .call .resume | .call .wait | .call .requestPause | .call .leavePause | .call .drain => true
  | .call (.setBreakpoint _ _) | .call (.toggleBreakpoint _) | .call .clearBreakpoints => true
  | .call _ => false

end Controller

def Operation.isStart : Operation → Bool
  | .step | .run | .runToBreakpoint => true
  | _ => false

theorem Controller.isHalted_of_permits {c : Controller} {op : Operation} (hop : op.isStart = true)
    (h : c.permits (.call op) = true) : c.machine.status.isHalted = false := by
  cases op with
  | step | run | runToBreakpoint =>
    unfold permits at h
    simpa using h
  | _ => cases hop

/-- A controller with its past: how often it has called the cycle, the values that were given to it
and the output that was taken from it. -/
structure History where
  controller : Controller
  calls : Nat
  inputs : List Int
  drained : Array OutputRecord

namespace History

def begin (c : Controller) : History := ⟨c, 0, [], #[]⟩

def extend (fuel : Nat) (h : History) (e : Event) : History where
  controller := h.controller.after fuel e
  calls := h.calls + h.controller.calls fuel e
  inputs := h.inputs ++ e.given
  drained := h.drained ++ h.controller.taken fuel e

/-- The histories of a loaded controller that begin with a start and go on with permitted events,
each with a bound of its own on the ticks of a run. -/
inductive Driven (loaded : Controller) : History → Prop
  | start {op : Operation} (fuel : Nat) (hop : op.isStart = true) :
    Driven loaded ((begin loaded).extend fuel (.call op))
  | next {h : History} {e : Event} (fuel : Nat) (hd : Driven loaded h)
      (he : h.controller.permits e = true) : Driven loaded (h.extend fuel e)

def towards (h : History) (c : Controller) (calls : Nat) : History :=
  { h with controller := c, calls := h.calls + calls }

theorem extend_eq_towards (fuel : Nat) (h : History) (e : Event) (hgiven : e.given = [])
    (hdrain : e ≠ .call .drain) :
    h.extend fuel e = h.towards (h.controller.after fuel e) (h.controller.calls fuel e) := by
  unfold extend towards
  rw [hgiven, Controller.taken_of_ne fuel h.controller hdrain, List.append_nil, Array.append_empty]

theorem extend_call (fuel : Nat) (h : History) (op : Operation) {α : Type} {action : Control α}
    {reply : α → Reply}
    (hperform : h.controller.perform fuel op = h.controller.answer action reply)
    (hgiven : Event.given (.call op) = []) (hdrain : Event.call op ≠ .call .drain) :
    h.extend fuel (.call op) =
      h.towards (Control.exec action h.controller) (h.controller.calls fuel (.call op)) := by
  rw [extend_eq_towards fuel h _ hgiven hdrain, Controller.after, hperform, Control.snd_answer]

theorem towards_towards (h : History) (c c' : Controller) (k k' : Nat) :
    (h.towards c k).towards c' k' = h.towards c' (k + k') := by
  simp [towards, Nat.add_assoc]

end History

end AccumulatorMachine
