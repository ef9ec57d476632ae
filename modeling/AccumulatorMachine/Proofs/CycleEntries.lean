import AccumulatorMachine.Proofs.Histories

/-!
# Where the cycle is called

The machines on which an event calls the cycle, in the order of the calls. There is one of them for
each call.
-/

namespace AccumulatorMachine

namespace Controller

def runEntries : Nat → Controller → List Machine
  | 0, _ => []
  | fuel + 1, c =>
    match c.runTick with
    | (true, next) => c.machine :: runEntries fuel next
    | (false, _) => []

def tickEntries (c : Controller) : List Machine := if c.observe.1 then [c.machine] else []

def workEntries : Nat → Controller → List Machine
  | 0, _ => []
  | fuel + 1, c => if c.working then c.tickEntries ++ workEntries fuel c.workTick else []

def stepEntries (c : Controller) : List Machine :=
  if c.refusal? = none then [c.machine.begin] else []

def startEntries (fuel : Nat) (c : Controller) : List Machine :=
  if c.refusal? = none then runEntries fuel (c.begin .toCompletion) else []

def resumeEntries (fuel : Nat) (c : Controller) : List Machine :=
  if c.machine.status ≠ .paused then []
  else
    match c.mode with
    | .singleStep => c.stepEntries
    | .toCompletion => c.startEntries fuel
    | .toBreakpoint => []

def goOnEntries (fuel : Nat) (c : Controller) : List Machine :=
  if c.mode = .toCompletion then runEntries fuel c else []

def supplyEntries (fuel : Nat) (c : Controller) (n : Int) : List Machine :=
  if c.machine.status ≠ .awaitingInput then []
  else
    workEntries fuel c ++
      let c := c.workLoop fuel
      if c.stopPending then [] else (c.supplied n).goOnEntries fuel

/-- The machines on which an event calls the cycle, in the order of the calls. -/
def entries (fuel : Nat) (c : Controller) : Event → List Machine
  | .tick => if c.working then c.tickEntries else []
  | .call .step => c.stepEntries
  | .call .run => c.startEntries fuel
  | .call .resume => c.resumeEntries fuel
  | .call (.supply n) => c.supplyEntries fuel n
  | .call (.supplyLiteral text) =>
    match c.machine.registers.input.mode.literal text with
    | .error _ => []
    | .ok w => c.supplyEntries fuel w.toInt
  | .call .wait => workEntries fuel c
  | .call .cycle => [c.machine]
  | .call _ => []

section entries

variable (fuel : Nat) (c : Controller)

theorem length_runEntries : (runEntries fuel c).length = runCalls fuel c := by
  induction fuel generalizing c with
  | zero => rfl
  | succ fuel ih =>
    rw [runEntries, runCalls]
    obtain ⟨going, next⟩ := c.runTick
    cases going with
    | true => simp [ih]
    | false => rfl

theorem length_tickEntries : c.tickEntries.length = c.tickCalls := by
  unfold tickEntries tickCalls
  split <;> rfl

theorem length_workEntries : (workEntries fuel c).length = workCalls fuel c := by
  induction fuel generalizing c with
  | zero => rfl
  | succ fuel ih =>
    rw [workEntries, workCalls]
    split
    · simp [ih, length_tickEntries]
    · rfl

theorem length_stepEntries : c.stepEntries.length = c.stepCalls := by
  unfold stepEntries stepCalls
  split <;> rfl

theorem length_startEntries : (c.startEntries fuel).length = c.startCalls fuel := by
  unfold startEntries startCalls
  split
  · exact length_runEntries fuel _
  · rfl

theorem length_supplyEntries (n : Int) :
    (c.supplyEntries fuel n).length = c.supplyCalls fuel n := by
  unfold supplyEntries supplyCalls
  split
  · rfl
  · rw [List.length_append, length_workEntries]
    dsimp only
    split
    · rfl
    · unfold goOnEntries goOnCalls
      split
      · rw [length_runEntries]
      · rfl

/-- There is one entry for each call of the cycle. -/
theorem length_entries (e : Event) : (c.entries fuel e).length = c.calls fuel e := by
  cases e with
  | tick =>
    rw [entries, calls]
    split
    · exact length_tickEntries c
    · rfl
  | call op =>
    cases op with
    | step => exact length_stepEntries c
    | run => exact length_startEntries fuel c
    | resume =>
      rw [entries, calls, resumeEntries, resumeCalls]
      split
      · rfl
      · cases c.mode with
        | singleStep => exact length_stepEntries c
        | toCompletion => exact length_startEntries fuel c
        | toBreakpoint => rfl
    | supply n => exact length_supplyEntries fuel c n
    | supplyLiteral text =>
      rw [entries, calls]
      cases c.machine.registers.input.mode.literal text with
      | error e => rfl
      | ok w => exact length_supplyEntries fuel c w.toInt
    | wait => exact length_workEntries fuel c
    | _ => rfl

end entries

end Controller

end AccumulatorMachine
