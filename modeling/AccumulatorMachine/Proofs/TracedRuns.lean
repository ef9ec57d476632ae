import AccumulatorMachine.CommandLine.Execute
import AccumulatorMachine.Proofs.Operations
import AccumulatorMachine.Proofs.Simulation

/-!
# Traced runs

A traced run steps through its program, prints after each instruction and tests the cycle limit
itself. A run that is not traced leaves all that to the controller and prints when the machine
waits or is done. Between two looks at the machine the traced run is ahead with its printing; when
both have printed they agree.
-/

namespace AccumulatorMachine.CommandLine.Run

/-- What is on standard output when some more records have been printed. -/
def shown (linefeeds : Bool) (printed : String) (records : Array OutputRecord) : String :=
  records.foldl (fun s record => s ++ record.text ++ if linefeeds then "\n" else "") printed

theorem shown_append (linefeeds : Bool) (printed : String) (first second : Array OutputRecord) :
    shown linefeeds printed (first ++ second) =
      shown linefeeds (shown linefeeds printed first) second :=
  Array.foldl_append

/-- The trace of some instructions: where each lay, what it was, and AC after it. -/
def traceText (entries : List (Word × Word × Word)) : String :=
  entries.foldl (fun s entry => s ++ traceLine entry.1 entry.2.1 entry.2.2) ""

theorem traceText_append (entries : List (Word × Word × Word)) (pc word ac : Word) :
    traceText (entries ++ [(pc, word, ac)]) = traceText entries ++ traceLine pc word ac :=
  List.foldl_append

def looped (n : Nat) (r : Run) : Run := { r with controller := r.controller.runLoop n }

def cycled (r : Run) : Run := { r with controller := r.controller.cycled }

def withMachine (r : Run) (machine : Machine) : Run :=
  { r with controller := { r.controller with machine } }

theorem printOutput_eq (r : Run) :
    r.printOutput =
      { r.withMachine { r.controller.machine with output := #[] } with
        stdout := shown r.options.linefeeds r.stdout r.controller.machine.output } :=
  rfl

def limitReached (r : Run) : Bool := r.options.maxCycles.any fun limit => limit.toNat ≤ r.spent

theorem control_eq {α : Type} (r : Run) (action : Control α) :
    r.control action = { r with controller := Control.exec action r.controller } := by
  unfold control Control.exec
  cases action.run r.controller <;> rfl

theorem tracedStep_of_limitReached {r : Run} (h : r.limitReached = true) :
    r.tracedStep = { r with controller := r.controller.requestPause } :=
  if_pos h

theorem tracedStep_of_not_limitReached {r : Run} (h : r.limitReached = false)
    (hgo : r.controller.refusal? = none) :
    ∃ pc word ac, r.tracedStep =
      { r with
        controller := (r.controller.begin .singleStep).cycled
        stderr := r.stderr ++ traceLine pc word ac } := by
  let before := r.controller.machine
  let after := r.control Control.step
  have hstep : r.tracedStep =
      { after with
        stderr := after.stderr ++ traceLine (before.value .pc)
          ((before.memory.read (before.value .pc).toLocation).toOption.getD 0)
          (after.controller.machine.value .ac) } :=
    if_neg (Bool.eq_false_iff.1 h)
  have hafter : after = { r with controller := (r.controller.begin .singleStep).cycled } := by
    change r.control Control.step = _
    rw [control_eq, Control.exec_step, if_pos hgo]
  rw [hstep, hafter]
  exact ⟨_, _, _, rfl⟩

theorem advance_of_not_going {r : Run} (h : ¬(r.options.trace = true ∧ r.status = .running))
    (fuel : Nat) : r.advance fuel = r.printOutput := by
  cases fuel with
  | zero => rfl
  | succ fuel => exact if_neg h

theorem advance_of_going {r : Run} (h : r.options.trace = true ∧ r.status = .running)
    (fuel : Nat) : r.advance (fuel + 1) = r.printOutput.tracedStep.advance fuel :=
  if_pos h

/-- What a line of input gives to an INPUT instruction that reads in a mode, or why it gives
nothing. There is no line at the end of the input. -/
def lineValue (mode : DisplayMode) : Option InputLine → Except String Word
  | none => .error "end of input"
  | some none => .error "stream did not contain valid UTF-8"
  | some (some text) =>
    match mode.literal text with
    | .error e => .error (Refusal.literal e).message
    | .ok w => .ok w

/-- The machine that has been given a line for its INPUT instruction: it has the value or halts. -/
def answered (m : Machine) (line? : Option InputLine) : Machine :=
  match lineValue m.registers.input.mode line? with
  | .error reason => m.raise (.invalidValue reason)
  | .ok w => m.completeInput w.toInt

theorem answered_altered (m : Machine) (before : Array OutputRecord) (line? : Option InputLine) :
    answered (m.altered id before) line? = (answered m line?).altered id before := by
  unfold answered
  change (match lineValue m.registers.input.mode line? with | .error _ => _ | .ok _ => _) = _
  cases lineValue m.registers.input.mode line? with
  | error reason => exact Machine.altered_raise ..
  | ok w => exact Machine.altered_completeInput ..

theorem control_abort {r : Run} (h : r.status = .awaitingInput) (f : Fault) :
    r.control (Control.abort f) = r.withMachine (r.controller.machine.raise f) := by
  have hwait : r.controller.machine.status = .awaitingInput := h
  unfold control
  rw [Control.run_abort, if_neg (not_not_intro hwait)]
  rfl

theorem answer_eq {r : Run} (h : r.status = .awaitingInput) (fuel : Nat)
    (line? : Option InputLine) :
    r.answer fuel line? =
      match lineValue r.controller.machine.registers.input.mode line? with
      | .error reason => r.withMachine (r.controller.machine.raise (.invalidValue reason))
      | .ok w =>
        { r with controller := Control.exec (Control.supply fuel w.toInt) r.controller } := by
  have hwait : r.controller.machine.status = .awaitingInput := h
  cases line? with
  | none => exact control_abort h _
  | some line =>
    cases line with
    | none => exact control_abort h _
    | some text =>
      unfold answer lineValue
      dsimp only
      rw [Control.run_supplyLiteral]
      cases r.controller.machine.registers.input.mode.literal text with
      | error e => exact control_abort h _
      | ok w =>
        dsimp only
        rw [Control.exec, Control.run_supply, if_neg (not_not_intro hwait)]
        dsimp only
        cases (r.controller.workLoop fuel).stopPending <;> rfl

section feed

variable {r : Run} {fuel : Nat}

theorem feed_of_ne (h : (r.advance fuel).status ≠ .awaitingInput) (lines : List InputLine) :
    feed fuel lines r = r.advance fuel := by
  cases lines <;> exact if_neg h

theorem feed_nil (h : (r.advance fuel).status = .awaitingInput) :
    feed fuel [] r = ((r.advance fuel).answer fuel none).advance fuel :=
  if_pos h

theorem feed_cons (h : (r.advance fuel).status = .awaitingInput) (line : InputLine)
    (lines : List InputLine) :
    feed fuel (line :: lines) r = feed fuel lines ((r.advance fuel).answer fuel (some line)) :=
  if_pos h

end feed

/-- A run that is not traced: its controller runs to completion, with the cycle limit of the
options, and nothing has been printed on standard error. -/
structure Untraced (o : RunOptions) (r : Run) : Prop where
  options : r.options = { o with trace := false }
  startCycles : r.startCycles = 0
  stderr : r.stderr = ""
  runStart : r.controller.runStart = 0
  cycleLimit : r.controller.config.cycleLimit = o.maxCycles
  mode : r.controller.mode = .toCompletion
  idle : r.controller.working = false
  noStop : r.controller.stopPending = false
  noPause : r.controller.pausePending = false

/-- A traced run: its controller steps, and nothing but the trace has been printed on standard
error. -/
structure Stepped (o : RunOptions) (r : Run) : Prop where
  options : r.options = { o with trace := true }
  startCycles : r.startCycles = 0
  stderr : ∃ entries, r.stderr = traceText entries
  mode : r.controller.mode = .singleStep
  idle : r.controller.working = false
  noStop : r.controller.stopPending = false

variable {o : RunOptions}

namespace Untraced

variable {r : Run}

theorem limitReached (u : Untraced o r) :
    r.controller.limitReached =
      o.maxCycles.any fun limit => limit.toNat ≤ r.controller.machine.cycles.toNat := by
  unfold Controller.limitReached Controller.spent
  rw [u.cycleLimit, u.runStart]
  rfl

theorem withMachine (u : Untraced o r) (machine : Machine) :
    Untraced o (r.withMachine machine) :=
  { u with }

theorem printOutput (u : Untraced o r) : Untraced o r.printOutput := { u with }

theorem runTick (u : Untraced o r) :
    r.controller.runTick =
      if r.status ≠ .running then (false, r.controller)
      else if r.controller.limitReached then
        (false, { r.controller with machine := r.controller.machine.pause })
      else (true, r.controller.cycled) := by
  rw [Controller.runTick_eq]
  exact (if_neg (Bool.eq_false_iff.1 u.noStop)).trans (if_neg (Bool.eq_false_iff.1 u.noPause))

theorem looped_of_not_running (u : Untraced o r) (h : r.status ≠ .running) (n : Nat) :
    r.looped n = r := by
  cases n with
  | zero => rfl
  | succ n => rw [looped, Controller.runLoop, u.runTick, if_pos h]

theorem looped_of_limitReached (u : Untraced o r) (h : r.status = .running)
    (hlimit : r.controller.limitReached = true) (n : Nat) :
    r.looped (n + 1) = r.withMachine r.controller.machine.pause := by
  rw [looped, Controller.runLoop, u.runTick, if_neg (not_not_intro h), if_pos hlimit]
  rfl

theorem looped_of_going (u : Untraced o r) (h : r.status = .running)
    (hlimit : r.controller.limitReached = false) (n : Nat) :
    r.looped (n + 1) = r.cycled.looped n := by
  rw [looped, Controller.runLoop, u.runTick, if_neg (not_not_intro h),
    if_neg (Bool.eq_false_iff.1 hlimit)]
  rfl

theorem looped (u : Untraced o r) (n : Nat) : Untraced o (r.looped n) := by
  induction n generalizing r with
  | zero => exact u
  | succ n ih =>
    by_cases hrun : r.status = .running
    · cases hlimit : r.controller.limitReached with
      | true =>
        rw [u.looped_of_limitReached hrun hlimit]
        exact u.withMachine _
      | false =>
        rw [u.looped_of_going hrun hlimit]
        exact ih (u.withMachine r.controller.machine.cycle.2)
    · rw [u.looped_of_not_running hrun]
      exact u

theorem advance (u : Untraced o r) (fuel : Nat) : r.advance fuel = r.printOutput :=
  advance_of_not_going (fun h => by simp [u.options] at h) fuel

theorem answer (u : Untraced o r) (hwait : r.status = .awaitingInput) (fuel : Nat)
    (line? : Option InputLine) :
    r.answer fuel line? = (r.withMachine (answered r.controller.machine line?)).looped fuel := by
  rw [answer_eq hwait, answered]
  cases lineValue r.controller.machine.registers.input.mode line? with
  | error reason =>
    refine ((u.withMachine _).looped_of_not_running ?_ fuel).symm
    change (r.controller.machine.raise _).status ≠ _
    rw [Machine.status_raise]
    nofun
  | ok w =>
    have hgo : Control.exec (Control.supply fuel w.toInt) r.controller =
        (r.controller.supplied w.toInt).runLoop fuel := by
      rw [Control.exec_supply_of_ready hwait u.idle u.noStop]
      exact Controller.goOn_of_toCompletion (c := r.controller.supplied _) u.mode fuel
    dsimp only
    rw [hgo]
    rfl

end Untraced

namespace Untraced

variable {r : Run} {limit : UInt64}

end Untraced

namespace Stepped

variable {r : Run}

theorem limitReached (s : Stepped o r) :
    r.limitReached =
      o.maxCycles.any fun limit => limit.toNat ≤ r.controller.machine.cycles.toNat := by
  unfold Run.limitReached spent
  rw [s.options, s.startCycles]
  rfl

theorem withMachine (s : Stepped o r) (machine : Machine) : Stepped o (r.withMachine machine) :=
  { s with }

theorem printOutput (s : Stepped o r) : Stepped o r.printOutput := { s with }

theorem pause (s : Stepped o r) (hrun : r.status = .running) (hlimit : r.limitReached = true) :
    r.tracedStep = r.withMachine r.controller.machine.pause := by
  have hpause : r.controller.requestPause =
      { r.controller with machine := r.controller.machine.pause } :=
    (if_pos (decide_eq_true hrun)).trans (if_neg (Bool.eq_false_iff.1 s.idle))
  rw [tracedStep_of_limitReached hlimit, hpause]
  rfl

theorem step (s : Stepped o r) (hgo : r.controller.refusal? = none)
    (hlimit : r.limitReached = false) :
    Stepped o r.tracedStep ∧ r.tracedStep.stdout = r.stdout ∧ r.tracedStep.files = r.files ∧
      r.tracedStep.controller.machine = r.controller.machine.begin.cycle.2 := by
  obtain ⟨pc, word, ac, hstep⟩ := tracedStep_of_not_limitReached hlimit hgo
  obtain ⟨entries, hentries⟩ := s.stderr
  rw [hstep]
  refine ⟨?_, rfl, rfl, rfl⟩
  exact { s with
    stderr := ⟨entries ++ [(pc, word, ac)], by rw [traceText_append, ← hentries]⟩
    mode := rfl
    noStop := rfl }

theorem answer (s : Stepped o r) (hwait : r.status = .awaitingInput) (fuel : Nat)
    (line? : Option InputLine) :
    r.answer fuel line? = r.withMachine (answered r.controller.machine line?) := by
  rw [answer_eq hwait, answered]
  cases lineValue r.controller.machine.registers.input.mode line? with
  | error reason => rfl
  | ok w =>
    have hgo : Control.exec (Control.supply fuel w.toInt) r.controller =
        r.controller.supplied w.toInt := by
      rw [Control.exec_supply_of_ready hwait s.idle s.noStop]
      exact Controller.goOn_of_singleStep (c := r.controller.supplied _) s.mode fuel
    dsimp only
    rw [hgo]
    rfl

end Stepped

/-- The same program in a run that is not traced and in a traced run. The traced one has printed the
output `ahead`, which the other still has to print. -/
structure Tracks (o : RunOptions) (plain traced : Run) (ahead : Array OutputRecord) : Prop where
  untraced : Untraced o plain
  stepped : Stepped o traced
  machine : plain.controller.machine = traced.controller.machine.altered id ahead
  stdout : traced.stdout = shown o.linefeeds plain.stdout ahead
  files : traced.files = plain.files

namespace Tracks

variable {plain traced : Run} {ahead : Array OutputRecord}

theorem status (t : Tracks o plain traced ahead) : traced.status = plain.status :=
  (congrArg Machine.status t.machine).symm

theorem machine_eq (t : Tracks o plain traced #[]) :
    traced.controller.machine = plain.controller.machine := by
  rw [t.machine, Machine.altered, Array.empty_append]
  rfl

theorem limitReached (t : Tracks o plain traced ahead) :
    traced.limitReached = plain.controller.limitReached := by
  rw [t.untraced.limitReached, t.stepped.limitReached, t.machine]
  rfl

theorem print (t : Tracks o plain traced ahead) :
    Tracks o plain traced.printOutput (ahead ++ traced.controller.machine.output) where
  untraced := t.untraced
  stepped := t.stepped.printOutput
  machine := by
    rw [t.machine, printOutput_eq]
    unfold Machine.altered
    simp [Run.withMachine]
  stdout := by
    rw [shown_append, ← t.stdout, printOutput_eq, t.stepped.options]
  files := t.files

theorem printBoth (t : Tracks o plain traced ahead) :
    Tracks o plain.printOutput traced.printOutput #[] where
  untraced := t.untraced.printOutput
  stepped := t.stepped.printOutput
  machine := by
    rw [printOutput_eq, printOutput_eq, t.machine]
    rfl
  stdout := by
    have houtput : plain.controller.machine.output =
        ahead ++ traced.controller.machine.output := by
      rw [t.machine]
      rfl
    rw [printOutput_eq, printOutput_eq, t.stepped.options, t.untraced.options, houtput,
      shown_append, ← t.stdout]
    rfl
  files := t.files

theorem step (t : Tracks o plain traced ahead) (hrun : plain.status = .running)
    (hlimit : plain.controller.limitReached = false) :
    Tracks o plain.cycled traced.tracedStep ahead := by
  have hrun' : traced.status = .running := t.status.trans hrun
  have hgo : traced.controller.refusal? = none :=
    Controller.refusal?_eq_none_iff.2 ⟨t.stepped.idle, .inl hrun'⟩
  obtain ⟨hstepped, hstdout, hfiles, hmachine⟩ :=
    t.stepped.step hgo (t.limitReached.trans hlimit)
  refine ⟨t.untraced.withMachine plain.controller.machine.cycle.2, hstepped, ?_,
    hstdout.trans t.stdout, hfiles.trans t.files⟩
  change plain.controller.machine.cycle.2 = _
  rw [hmachine, Machine.begin_of_running hrun', t.machine,
    Machine.altered_cycle id (fun _ _ => rfl) hrun']

theorem pause (t : Tracks o plain traced ahead) (hrun : plain.status = .running)
    (hlimit : plain.controller.limitReached = true) :
    Tracks o (plain.withMachine plain.controller.machine.pause) traced.tracedStep ahead := by
  rw [t.stepped.pause (t.status.trans hrun) (t.limitReached.trans hlimit)]
  refine ⟨t.untraced.withMachine _, t.stepped.withMachine _, ?_, t.stdout, t.files⟩
  change plain.controller.machine.pause = traced.controller.machine.pause.altered id ahead
  rw [t.machine]
  rfl

/-- While the one runs in its controller, the other steps. If the first stops, so does the second,
and they agree when both have printed. -/
theorem advance {n fuel : Nat} (t : Tracks o plain traced ahead) (hle : n ≤ fuel)
    (hstop : (plain.looped n).status ≠ .running) :
    Tracks o ((plain.looped n).advance fuel) (traced.advance fuel) #[] := by
  have hstopped {plain traced : Run} {ahead : Array OutputRecord} (fuel : Nat)
      (t : Tracks o plain traced ahead) (hrun : plain.status ≠ .running) :
      Tracks o plain.printOutput (traced.advance fuel) #[] := by
    rw [advance_of_not_going (fun h => hrun (t.status ▸ h.2))]
    exact t.printBoth
  rw [(t.untraced.looped n).advance]
  induction n generalizing plain traced ahead fuel with
  | zero => exact hstopped fuel t hstop
  | succ n ih =>
    by_cases hrun : plain.status = .running
    · obtain ⟨fuel, rfl⟩ : ∃ k, fuel = k + 1 := ⟨fuel - 1, by omega⟩
      have hgoing : traced.options.trace = true ∧ traced.status = .running := by
        rw [t.stepped.options, t.status]
        exact ⟨rfl, hrun⟩
      rw [advance_of_going hgoing]
      cases hlimit : plain.controller.limitReached with
      | true =>
        rw [t.untraced.looped_of_limitReached hrun hlimit]
        exact hstopped fuel (t.print.pause hrun hlimit) nofun
      | false =>
        rw [t.untraced.looped_of_going hrun hlimit] at hstop ⊢
        exact ih (t.print.step hrun hlimit) (by omega) hstop
    · rw [t.untraced.looped_of_not_running hrun]
      exact hstopped fuel t hrun

theorem answer (t : Tracks o plain traced #[]) (line? : Option InputLine) :
    Tracks o (plain.withMachine (answered plain.controller.machine line?))
      (traced.withMachine (answered traced.controller.machine line?)) #[] := by
  refine ⟨t.untraced.withMachine _, t.stepped.withMachine _, ?_, t.stdout, t.files⟩
  change answered plain.controller.machine line? = _
  rw [t.machine, answered_altered]
  rfl

/-- A run that has stopped at its end has stopped before every line it took. -/
theorem advance_of_feed {lines : List InputLine} {n fuel : Nat} (t : Tracks o plain traced ahead)
    (hle : n ≤ fuel) (hstop : (feed fuel lines (plain.looped n)).status ≠ .running) :
    Tracks o ((plain.looped n).advance fuel) (traced.advance fuel) #[] := by
  apply t.advance hle
  intro hrun
  have hnotwait : ((plain.looped n).advance fuel).status ≠ .awaitingInput := by
    rw [(t.untraced.looped n).advance]
    intro hwait
    cases hrun.symm.trans hwait
  rw [feed_of_ne hnotwait, (t.untraced.looped n).advance] at hstop
  exact hstop hrun

/-- Both run through all the lines of input. -/
theorem feed {lines : List InputLine} {n fuel : Nat} (t : Tracks o plain traced ahead)
    (hle : n ≤ fuel) (hstop : (feed fuel lines (plain.looped n)).status ≠ .running) :
    Tracks o (feed fuel lines (plain.looped n)) (feed fuel lines traced) #[] := by
  induction lines generalizing plain traced ahead n with
  | nil =>
    have ht := t.advance_of_feed hle hstop
    by_cases hwait : ((plain.looped n).advance fuel).status = .awaitingInput
    · rw [feed_nil hwait, ht.untraced.answer hwait] at hstop ⊢
      rw [feed_nil (ht.status.trans hwait), ht.stepped.answer (ht.status.trans hwait)]
      apply (ht.answer none).advance (Nat.le_refl fuel)
      rw [((ht.answer none).untraced.looped fuel).advance] at hstop
      exact hstop
    · rw [feed_of_ne hwait, feed_of_ne (ht.status ▸ hwait)]
      exact ht
  | cons line lines ih =>
    have ht := t.advance_of_feed hle hstop
    by_cases hwait : ((plain.looped n).advance fuel).status = .awaitingInput
    · rw [feed_cons hwait, ht.untraced.answer hwait] at hstop ⊢
      rw [feed_cons (ht.status.trans hwait), ht.stepped.answer (ht.status.trans hwait)]
      exact ih (ht.answer (some line)) (Nat.le_refl fuel) hstop
    · rw [feed_of_ne hwait, feed_of_ne (ht.status ▸ hwait)]
      exact ht

end Tracks

end AccumulatorMachine.CommandLine.Run
