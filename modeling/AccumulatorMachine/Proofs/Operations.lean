import AccumulatorMachine.Control.Session
import AccumulatorMachine.Proofs.Loading

/-!
# What the operations of a controller do

The exact result of each operation that may be refused. A start is refused for one of three
reasons; otherwise it forgets the requests left over and makes the machine run. Nothing later opens
the definitions of the operations.
-/

namespace AccumulatorMachine

/-- The machine made to run: a halted one from its first line, a paused one from where it is. -/
def Machine.begin (m : Machine) : Machine :=
  match m.status with
  | .haltedNormal | .haltedAbnormal | .haltedByUser => m.restart
  | .paused => { m with status := .running }
  | _ => m

/-- The machine as a run that has ended leaves it: paused, if it could have gone on. -/
def Machine.atRest (m : Machine) : Machine := if m.status = .running then m.pause else m

theorem Status.hasProgram_of_isHalted {s : Status} (h : s.isHalted = true) :
    s.hasProgram = true := by
  cases s <;> first | rfl | cases h

namespace Machine

variable {m : Machine}

theorem status_restart (h : m.status.hasProgram = true) : m.restart.status = .running := by
  rw [restart, if_pos h]

theorem of_run_load {image : Image} {m' : Machine} (h : (load image).run m = .ok () m') :
    m'.status = .haltedNormal ∧ m'.cycles = 0 := by
  rw [run_load] at h
  cases hlines : image.lines with
  | error e =>
    rw [hlines] at h
    cases h
  | ok lines =>
    rw [hlines] at h
    cases h
    exact ⟨rfl, rfl⟩

theorem begin_of_running (h : m.status = .running) : m.begin = m := by
  rw [begin, h]

theorem begin_of_paused (h : m.status = .paused) : m.begin = { m with status := .running } := by
  rw [begin, h]

theorem begin_of_isHalted (h : m.status.isHalted = true) : m.begin = m.restart := by
  unfold begin
  split <;> simp_all [Status.isHalted]

theorem cycles_begin (m : Machine) : m.begin.cycles = m.cycles := by
  unfold begin restart
  split <;> first | rfl | (split <;> rfl)

theorem atRest_of_running (h : m.status = .running) : m.atRest = m.pause := if_pos h

theorem atRest_of_ne (h : m.status ≠ .running) : m.atRest = m := if_neg h

theorem status_atRest_ne (m : Machine) : m.atRest.status ≠ .running := by
  unfold atRest
  split
  · nofun
  · assumption

@[simp] theorem cycles_atRest (m : Machine) : m.atRest.cycles = m.cycles := by
  unfold atRest
  split <;> rfl

@[simp] theorem output_atRest (m : Machine) : m.atRest.output = m.output := by
  unfold atRest
  split <;> rfl

theorem status_of_atBreakpoint (h : m.atBreakpoint = true) : m.status = .running := by
  unfold atBreakpoint isRunning at h
  simp only [Bool.and_eq_true, decide_eq_true_eq] at h
  exact h.1

end Machine

namespace Controller

/-- Why a step or a run cannot start, if it cannot. -/
def refusal? (c : Controller) : Option Refusal :=
  if c.working then some .busy
  else
    match c.machine.status with
    | .uninitialized | .noProgram => some .noProgram
    | .awaitingInput => some .awaitingInput
    | _ => none

/-- A start needs a controller without a worker, and a machine that runs, is paused or has halted.
-/
theorem refusal?_eq_none_iff {c : Controller} :
    c.refusal? = none ↔ c.working = false ∧ (c.machine.status = .running ∨
      c.machine.status = .paused ∨ c.machine.status.isHalted = true) := by
  unfold refusal?
  cases c.working with
  | true => simp
  | false => cases c.machine.status <;> simp [Status.isHalted]

theorem status_begin {c : Controller} (h : c.refusal? = none) :
    c.machine.begin.status = .running := by
  rcases refusal?_eq_none_iff.1 h with ⟨-, hrun | hpaused | hhalted⟩
  · rw [Machine.begin_of_running hrun, hrun]
  · rw [Machine.begin_of_paused hpaused]
  · rw [Machine.begin_of_isHalted hhalted]
    exact Machine.status_restart (Status.hasProgram_of_isHalted hhalted)

def begin (c : Controller) (mode : RunMode) : Controller :=
  { c with
    machine := c.machine.begin
    mode
    pausePending := false
    stopPending := false
    runStart := c.machine.begin.cycles }

def cycled (c : Controller) : Controller := { c with machine := c.machine.cycle.2 }

def supplied (c : Controller) (n : Int) : Controller :=
  { c with machine := c.machine.completeInput n }

/-- The controller that goes on after an input in the way it was driven before. -/
def goOn (fuel : Nat) (c : Controller) : Controller :=
  match c.mode with
  | .singleStep => c
  | .toCompletion => c.runLoop fuel
  | .toBreakpoint =>
    if c.machine.atBreakpoint then { c with machine := c.machine.pause }
    else { c with working := true }

theorem goOn_of_singleStep {c : Controller} (h : c.mode = .singleStep) (fuel : Nat) :
    c.goOn fuel = c := by
  rw [goOn, h]

theorem goOn_of_toCompletion {c : Controller} (h : c.mode = .toCompletion) (fuel : Nat) :
    c.goOn fuel = c.runLoop fuel := by
  rw [goOn, h]

theorem goOn_of_toBreakpoint {c : Controller} (h : c.mode = .toBreakpoint) (fuel : Nat) :
    c.goOn fuel =
      if c.machine.atBreakpoint then { c with machine := c.machine.pause }
      else { c with working := true } := by
  rw [goOn, h]

theorem workLoop_of_idle {c : Controller} (h : c.working = false) (fuel : Nat) :
    c.workLoop fuel = c := by
  cases fuel with
  | zero => rfl
  | succ fuel => rw [workLoop, h, if_neg Bool.false_ne_true]

end Controller

namespace Control

variable (c : Controller) (fuel : Nat)

theorem run_status : status.run c = .ok c.machine.status c := rfl

theorem run_prepare (mode : RunMode) :
    (prepare mode).run c =
      match c.refusal? with
      | some e => .error e c
      | none => .ok () (c.begin mode) := by
  obtain ⟨machine, config, old, pausePending, stopPending, working, runStart⟩ := c
  cases working with
  | true => rfl
  | false =>
    obtain ⟨registers, memory, status⟩ := machine
    cases status <;> rfl

theorem run_prepare_bind {α : Type} (mode : RunMode) (rest : Control α) :
    (prepare mode >>= fun _ => rest).run c =
      match c.refusal? with
      | some e => .error e c
      | none => rest.run (c.begin mode) := by
  rw [EStateM.run_bind, run_prepare]
  cases c.refusal? <;> rfl

theorem run_step :
    step.run c =
      match c.refusal? with
      | some e => .error e c
      | none =>
        .ok (c.begin .singleStep).cycled.machine.status (c.begin .singleStep).cycled :=
  run_prepare_bind c .singleStep _

theorem run_runToCompletion :
    (runToCompletion fuel).run c =
      match c.refusal? with
      | some e => .error e c
      | none =>
        let c := (c.begin .toCompletion).runLoop fuel
        .ok c.machine.status c :=
  run_prepare_bind c .toCompletion _

theorem run_runToBreakpoint :
    runToBreakpoint.run c =
      match c.refusal? with
      | some e => .error e c
      | none => .ok () { c.begin .toBreakpoint with working := true } :=
  run_prepare_bind c .toBreakpoint _

theorem run_resume :
    (resume fuel).run c =
      if c.machine.status ≠ .paused then .error (.notPaused c.machine.status) c
      else
        match c.mode with
        | .singleStep => step.run c
        | .toCompletion => (runToCompletion fuel).run c
        | .toBreakpoint => (do runToBreakpoint; return .running : Control Status).run c := by
  unfold resume
  by_cases h : c.machine.status = .paused
  · cases hmode : c.mode <;> simp [EStateM.run_bind, h, hmode, status]
  · simp [EStateM.run_bind, h, status]

theorem run_supply (n : Int) :
    (supply fuel n).run c =
      if c.machine.status ≠ .awaitingInput then .error (.notAwaitingInput c.machine.status) c
      else
        let c := c.workLoop fuel
        if c.stopPending then
          .ok .haltedByUser { c with stopPending := false, machine := c.machine.stopByUser }
        else
          let c := (c.supplied n).goOn fuel
          .ok c.machine.status c := by
  unfold supply
  rw [run_bind_ok _ (run_status c)]
  by_cases h : c.machine.status = .awaitingInput
  · rw [if_neg (not_not_intro h), if_neg (not_not_intro h)]
    dsimp only
    rw [run_bind_ok _ (EStateM.run_modify ..), run_bind_ok _ (EStateM.run_get _)]
    cases hstop : (c.workLoop fuel).stopPending with
    | true => rfl
    | false =>
      have hsupply : (modifyMachine (·.completeInput n)).run (c.workLoop fuel) =
          .ok () ((c.workLoop fuel).supplied n) := rfl
      simp only [Bool.false_eq_true, if_false]
      rw [run_bind_ok _ hsupply, run_bind_ok _ (EStateM.run_get _)]
      have hrun : ((c.workLoop fuel).supplied n).machine.status = .running := rfl
      generalize (c.workLoop fuel).supplied n = c at hrun
      unfold Controller.goOn
      cases hmode : c.mode with
      | singleStep => rfl
      | toCompletion => rfl
      | toBreakpoint =>
        dsimp only
        rw [run_bind_ok _ (EStateM.run_get _), ← hmode]
        split
        · rfl
        · rw [hrun]
          rfl
  · rw [if_pos h, if_pos h]
    rfl

theorem run_supplyLiteral (text : String) :
    (supplyLiteral fuel text).run c =
      match c.machine.registers.input.mode.literal text with
      | .error e => .error (.literal e) c
      | .ok w => (supply fuel w.toInt).run c := by
  unfold supplyLiteral
  rw [run_bind_ok _ (EStateM.run_get _)]
  cases c.machine.registers.input.mode.literal text <;> rfl

theorem run_abort (f : Fault) :
    (abort f).run c =
      if c.machine.status ≠ .awaitingInput then .error (.notAwaitingInput c.machine.status) c
      else .ok () { c with machine := c.machine.raise f } := by
  unfold abort
  rw [run_bind_ok _ (run_status c)]
  split <;> rfl

theorem run_loading (action : Machine.Loading Unit) :
    (loading action).run c =
      if c.working then .error .busy c
      else
        match action.run c.machine with
        | .ok _ machine => .ok () { c with machine }
        | .error e machine => .error (.load e) { c with machine } := by
  obtain ⟨machine, config, mode, pausePending, stopPending, working, runStart⟩ := c
  cases working <;> rfl

theorem of_run_load {image : Image} {c₀ c : Controller} (h : (load image).run c₀ = .ok () c) :
    c₀.working = false ∧ ∃ machine,
      (Machine.load image).run c₀.machine = .ok () machine ∧ c = { c₀ with machine } := by
  rw [load, run_loading] at h
  cases hwork : c₀.working with
  | true =>
    rw [hwork, if_pos rfl] at h
    cases h
  | false =>
    rw [hwork, if_neg Bool.false_ne_true] at h
    split at h
    next machine hm =>
      cases h
      exact ⟨rfl, machine, hm, rfl⟩
    next => cases h

theorem loaded_of_run_load {image : Image} {c₀ c : Controller}
    (h : (load image).run c₀ = .ok () c) :
    c.working = false ∧ c.machine.status = .haltedNormal ∧ c.machine.cycles = 0 := by
  obtain ⟨hidle, machine, hmachine, rfl⟩ := of_run_load h
  exact ⟨hidle, Machine.of_run_load hmachine⟩

theorem exists_lines_of_run_load {image : Image} {c₀ c : Controller}
    (h : (load image).run c₀ = .ok () c) : ∃ lines, image.lines = .ok lines := by
  obtain ⟨-, machine, hmachine, -⟩ := of_run_load h
  rw [Machine.run_load] at hmachine
  cases hlines : image.lines with
  | error e =>
    rw [hlines] at hmachine
    cases hmachine
  | ok lines => exact ⟨lines, rfl⟩

theorem run_changeListing (address : Word) (f : Listing → Option Listing) :
    (changeListing address f).run c =
      match f c.machine.listing with
      | none => .error (.notAProgramLine address) c
      | some listing => .ok () { c with machine := { c.machine with listing } } := by
  unfold changeListing
  rw [EStateM.run_bind]
  dsimp only [EStateM.run_get]
  cases f c.machine.listing <;> rfl

def exec {α : Type} (action : Control α) (c : Controller) : Controller :=
  match action.run c with
  | .ok _ c => c
  | .error _ c => c

def accepts {α : Type} (action : Control α) (c : Controller) : Bool :=
  match action.run c with
  | .ok _ _ => true
  | .error _ _ => false

theorem run_of_accepts {action : Control Unit} (h : accepts action c = true) :
    action.run c = .ok () (exec action c) := by
  unfold accepts at h
  unfold exec
  cases hrun : action.run c with
  | ok _ c => rfl
  | error e c => simp [hrun] at h

theorem snd_answer {α : Type} (action : Control α) (reply : α → Reply) :
    (c.answer action reply).2 = exec action c := by
  unfold Controller.answer exec
  cases action.run c <;> rfl

theorem exec_step :
    exec step c = if c.refusal? = none then (c.begin .singleStep).cycled else c := by
  rw [exec, run_step]
  cases c.refusal? <;> rfl

theorem exec_runToCompletion :
    exec (runToCompletion fuel) c =
      if c.refusal? = none then (c.begin .toCompletion).runLoop fuel else c := by
  rw [exec, run_runToCompletion]
  cases c.refusal? <;> rfl

theorem exec_runToBreakpoint :
    exec runToBreakpoint c =
      if c.refusal? = none then { c.begin .toBreakpoint with working := true } else c := by
  rw [exec, run_runToBreakpoint]
  cases c.refusal? <;> rfl

theorem exec_resume :
    exec (resume fuel) c =
      if c.machine.status ≠ .paused then c
      else
        match c.mode with
        | .singleStep => exec step c
        | .toCompletion => exec (runToCompletion fuel) c
        | .toBreakpoint => exec runToBreakpoint c := by
  rw [exec, run_resume]
  by_cases h : c.machine.status ≠ .paused
  · rw [if_pos h, if_pos h]
  · rw [if_neg h, if_neg h]
    cases c.mode with
    | singleStep => rfl
    | toCompletion => rfl
    | toBreakpoint =>
      dsimp only
      rw [EStateM.run_bind, exec]
      cases runToBreakpoint.run c <;> rfl

theorem exec_supply (n : Int) :
    exec (supply fuel n) c =
      if c.machine.status ≠ .awaitingInput then c
      else
        let c := c.workLoop fuel
        if c.stopPending then { c with stopPending := false, machine := c.machine.stopByUser }
        else (c.supplied n).goOn fuel := by
  rw [exec, run_supply]
  by_cases h : c.machine.status ≠ .awaitingInput
  · rw [if_pos h, if_pos h]
  · rw [if_neg h, if_neg h]
    dsimp only
    cases (c.workLoop fuel).stopPending <;> rfl

theorem exec_supply_of_ready {c : Controller} (hwait : c.machine.status = .awaitingInput)
    (hidle : c.working = false) (hstop : c.stopPending = false) (fuel : Nat) (n : Int) :
    exec (supply fuel n) c = (c.supplied n).goOn fuel := by
  rw [exec_supply, if_neg (not_not_intro hwait), Controller.workLoop_of_idle hidle]
  exact if_neg (Bool.eq_false_iff.1 hstop)

theorem exec_abort (f : Fault) :
    exec (abort f) c =
      if c.machine.status ≠ .awaitingInput then c
      else { c with machine := c.machine.raise f } := by
  rw [exec, run_abort]
  by_cases h : c.machine.status ≠ .awaitingInput
  · rw [if_pos h, if_pos h]
  · rw [if_neg h, if_neg h]

/-- A load that finds no worker changes the machine only: it is reset, and loaded if an image could
be read. -/
theorem exec_loadRead (source : Except ImageError Image) :
    exec (loadRead source) c =
      if c.working then c
      else
        { c with machine :=
          match source with
          | .error _ => c.machine.reset
          | .ok image => c.machine.afterLoad image } := by
  rw [exec, loadRead, run_loading]
  by_cases hwork : c.working = true
  · rw [if_pos hwork, if_pos hwork]
  · rw [if_neg hwork, if_neg hwork]
    cases source with
    | error e => rfl
    | ok image =>
      have hrun : (Machine.loadRead (.ok image)).run c.machine =
          (Machine.load image).run c.machine := rfl
      rw [hrun]
      dsimp only [Machine.afterLoad]
      cases (Machine.load image).run c.machine <;> rfl

theorem exec_changeListing (address : Word) (f : Listing → Option Listing) :
    exec (changeListing address f) c =
      { c with machine :=
        { c.machine with listing := (f c.machine.listing).getD c.machine.listing } } := by
  rw [exec, run_changeListing]
  cases f c.machine.listing <;> rfl

theorem exec_toggleBreakpoint (address : Word) :
    exec (toggleBreakpoint address) c =
      exec (changeListing address (·.toggleBreakpoint? address)) c := by
  rw [exec, exec, toggleBreakpoint, EStateM.run_bind]
  cases (changeListing address (·.toggleBreakpoint? address)).run c <;> rfl

end Control

namespace Controller

variable (c : Controller)

/-- A tick of a run to completion: a pending stop, a pending pause, a machine that does not run and
a limit that is reached end the run, in this order. -/
theorem runTick_eq :
    c.runTick =
      if c.stopPending then
        (false, { c with stopPending := false, machine := c.machine.stopByUser })
      else if c.pausePending then
        (false, { c with pausePending := false, machine := c.machine.pause })
      else if c.machine.status ≠ .running then (false, c)
      else if c.limitReached then (false, { c with machine := c.machine.pause })
      else (true, c.cycled) := by
  unfold runTick observe
  cases hstop : c.stopPending with
  | true => rfl
  | false =>
    cases hpause : c.pausePending with
    | true => rfl
    | false =>
      by_cases h : c.machine.status = .running <;>
        simp [Machine.isRunning, h, hstop, hpause, cycled]

theorem runTick_of_pausePending {c : Controller} (hstop : c.stopPending = false)
    (hpause : c.pausePending = true) :
    c.runTick = (false, { c with pausePending := false, machine := c.machine.pause }) := by
  rw [runTick_eq, if_neg (Bool.eq_false_iff.1 hstop), if_pos hpause]

theorem runTick_eq_true {c d : Controller} (h : c.runTick = (true, d)) :
    c.stopPending = false ∧ c.pausePending = false ∧ c.machine.status = .running ∧
      d = c.cycled := by
  rw [runTick_eq] at h
  split at h
  next => cases h
  next hstop =>
    split at h
    next => cases h
    next hpause =>
      split at h
      next => cases h
      next hrun =>
        split at h
        next => cases h
        next =>
          cases h
          exact ⟨Bool.eq_false_iff.2 hstop, Bool.eq_false_iff.2 hpause,
            Decidable.not_not.1 hrun, rfl⟩

/-- A tick of a worker, which ends for the same requests and has no limit. -/
theorem workTick_eq :
    c.workTick =
      if c.stopPending then
        { c with stopPending := false, machine := c.machine.stopByUser, working := false }
      else if c.pausePending then
        { c with pausePending := false, machine := c.machine.pause, working := false }
      else if c.machine.status ≠ .running then { c with working := false }
      else
        let machine := c.machine.cycle.2.pauseAtBreakpoint
        { c with machine, working := machine.isRunning } := by
  unfold workTick observe
  cases hstop : c.stopPending with
  | true => rfl
  | false =>
    cases hpause : c.pausePending with
    | true => rfl
    | false =>
      by_cases h : c.machine.status = .running <;> simp [Machine.isRunning, h, hstop, hpause]

theorem workTick_of_pausePending {c : Controller} (hstop : c.stopPending = false)
    (hpause : c.pausePending = true) :
    c.workTick =
      { c with pausePending := false, machine := c.machine.pause, working := false } := by
  rw [workTick_eq, if_neg (Bool.eq_false_iff.1 hstop), if_pos hpause]

theorem perform_wait (fuel : Nat) :
    c.perform fuel .wait = (.status (c.workLoop fuel).machine.status, c.workLoop fuel) := rfl

theorem perform_supply_of_ready {c : Controller} (hwait : c.machine.status = .awaitingInput)
    (hidle : c.working = false) (hstop : c.stopPending = false) (fuel : Nat) (n : Int) :
    c.perform fuel (.supply n) =
      (.status ((c.supplied n).goOn fuel).machine.status, (c.supplied n).goOn fuel) := by
  rw [perform, answer, Control.run_supply, if_neg (not_not_intro hwait), workLoop_of_idle hidle]
  dsimp only
  rw [if_neg (Bool.eq_false_iff.1 hstop)]

end Controller

end AccumulatorMachine
