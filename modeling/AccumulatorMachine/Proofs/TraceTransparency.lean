import AccumulatorMachine.Proofs.TracedRuns

/-!
# Tracing does not change a run

A program is run by the same command with a trace and without. Unless it may execute no instruction
at all, the two commands end alike but for the trace on standard error.
-/

namespace AccumulatorMachine.CommandLine

/-- The report with more on standard error before it. -/
def Report.after (trace : String) (report : Report) : Report :=
  { report with stderr := trace ++ report.stderr }

namespace Run

variable {o : RunOptions}

def withTrace (r : Run) (trace : Bool) : Run := { r with options := { r.options with trace } }

/-- A whole run: it starts, and takes lines of input until it is done. -/
def complete (fuel : Nat) (lines : List InputLine) (r : Run) : Run := (r.start fuel).feed fuel lines

structure Loaded (o : RunOptions) (r : Run) : Prop where
  options : r.options = o
  startCycles : r.startCycles = 0
  stderr : r.stderr = ""
  halted : r.status = .haltedNormal
  cycles : r.controller.machine.cycles = 0
  cycleLimit : r.controller.config.cycleLimit = o.maxCycles
  mode : r.controller.mode = .singleStep
  idle : r.controller.working = false
  noStop : r.controller.stopPending = false

theorem loadOrReport_ok {config : Config} {files : Companions} {image : Except ImageError Image}
    {c : Controller} (h : loadOrReport config files image = .ok c) :
    ∃ i machine, image = .ok i ∧ (Machine.load i).run .new = .ok () machine ∧
      c = { Controller.new config with machine } := by
  unfold loadOrReport at h
  cases himage : image with
  | error e =>
    rw [himage] at h
    cases h
  | ok i =>
    rw [himage, Control.loadRead_ok] at h
    cases hrun : (Control.load i).run (.new config) with
    | error e c =>
      rw [hrun] at h
      cases h
    | ok _ c' =>
      rw [hrun] at h
      cases h
      obtain ⟨-, machine, hmachine, hc⟩ := Control.of_run_load hrun
      exact ⟨i, machine, rfl, hmachine, hc⟩

def configOf (o : RunOptions) : Config :=
  match o.maxCycles with
  | some limit => Config.default.withCycleLimit limit
  | none => Config.default

theorem cycleLimit_configOf (o : RunOptions) : (configOf o).cycleLimit = o.maxCycles := by
  unfold configOf
  cases o.maxCycles <;> rfl

/-- A machine that shows INPUT and OUTPUT in the modes of the options. -/
def withModes (o : RunOptions) (m : Machine) : Machine :=
  (m.setMode .input o.inputMode).setMode .output o.outputMode

section ofImage

variable {program : String} {image : Except ImageError Image} {r : Run}

theorem ofImage_eq (program : String) (o : RunOptions) (image : Except ImageError Image) :
    ofImage program o image =
      (loadOrReport (configOf o) (Companions.ofPath program) image).map fun c =>
        { controller := { c with machine := withModes o c.machine }
          options := o
          files := Companions.ofPath program
          startCycles := (withModes o c.machine).cycles
          stdout := ""
          stderr := "" } := by
  unfold ofImage
  change loadOrReport (configOf o) _ image >>= _ = _
  cases loadOrReport (configOf o) (Companions.ofPath program) image <;> rfl

theorem loaded_of_ofImage (h : ofImage program o image = .ok r) : Loaded o r := by
  rw [ofImage_eq] at h
  cases hload : loadOrReport (configOf o) (Companions.ofPath program) image with
  | error e =>
    rw [hload] at h
    cases h
  | ok c =>
    rw [hload] at h
    cases h
    obtain ⟨i, machine, -, hmachine, rfl⟩ := loadOrReport_ok hload
    obtain ⟨hhalted, hcycles⟩ := Machine.of_run_load hmachine
    exact {
      options := rfl
      startCycles := hcycles
      stderr := rfl
      halted := hhalted
      cycles := hcycles
      cycleLimit := cycleLimit_configOf o
      mode := rfl
      idle := rfl
      noStop := rfl }

theorem ofImage_withTrace (h : ofImage program o image = .ok r) (trace : Bool) :
    ofImage program { o with trace } image = .ok (r.withTrace trace) := by
  rw [ofImage_eq] at h ⊢
  change (loadOrReport (configOf o) _ image).map _ = _
  cases hload : loadOrReport (configOf o) (Companions.ofPath program) image with
  | error e =>
    rw [hload] at h
    cases h
  | ok c =>
    rw [hload] at h
    cases h
    rfl

end ofImage

namespace Loaded

variable {r : Run}

theorem refusal? (l : Loaded o r) : r.controller.refusal? = none := by
  refine Controller.refusal?_eq_none_iff.2 ⟨l.idle, .inr (.inr ?_)⟩
  exact congrArg Status.isHalted l.halted

def begun (r : Run) : Run :=
  { r.withTrace false with controller := r.controller.begin .toCompletion }

theorem start_untraced (l : Loaded o r) (fuel : Nat) :
    (r.withTrace false).start fuel = (begun r).looped fuel := by
  have hgo : (r.withTrace false).controller.refusal? = none := l.refusal?
  change (r.withTrace false).control (Control.runToCompletion fuel) = _
  rw [control_eq, Control.exec_runToCompletion, if_pos hgo]
  rfl

theorem untraced (l : Loaded o r) : Untraced o (begun r) where
  options := congrArg (fun o : RunOptions => { o with trace := false }) l.options
  startCycles := l.startCycles
  stderr := l.stderr
  runStart := (Machine.cycles_begin _).trans l.cycles
  cycleLimit := l.cycleLimit
  mode := rfl
  idle := l.idle
  noStop := rfl
  noPause := rfl

theorem stepped (l : Loaded o r) : Stepped o (r.withTrace true) where
  options := congrArg (fun o : RunOptions => { o with trace := true }) l.options
  startCycles := l.startCycles
  stderr := ⟨[], l.stderr⟩
  mode := l.mode
  idle := l.idle
  noStop := l.noStop

end Loaded

/-- The last step of a command: both runs write the same core dump and report the same, but for the
trace on standard error. -/
theorem Tracks.finishRun {plain traced : Run} (t : Tracks o plain traced #[]) :
    ∃ entries, ∀ tree, finishRun tree traced =
      ((finishRun tree plain).1.after (traceText entries), (finishRun tree plain).2) := by
  obtain ⟨entries, hentries⟩ := t.stepped.stderr
  have hdump : traced.dump? = plain.dump? := by
    unfold dump?
    rw [t.stepped.options, t.untraced.options, t.machine_eq, t.files]
  have hprinted : traced.printed = plain.printed := by
    unfold printed
    rw [t.stepped.options, t.untraced.options, t.stdout]
    rfl
  have hreport : traced.report = plain.report.after (traceText entries) := by
    unfold report
    rw [t.machine_eq, hprinted, hentries, t.untraced.stderr]
    dsimp only
    split <;> simp [Report.after, String.append_assoc]
  have hunwritten (reason : String) :
      traced.reportUnwritten reason = (plain.reportUnwritten reason).after (traceText entries) := by
    unfold reportUnwritten
    rw [hprinted, hentries, t.untraced.stderr, t.files]
    simp [Report.after, String.append_assoc]
  refine ⟨entries, fun tree => ?_⟩
  unfold CommandLine.finishRun
  rw [hdump]
  cases plain.dump? with
  | none => rw [hreport]
  | some dump =>
    dsimp only
    cases tree.write dump.1 (Json.utf8 dump.2) with
    | error e =>
      dsimp only
      rw [hunwritten]
    | ok tree =>
      dsimp only
      rw [hreport]

namespace Loaded

variable {r : Run} {fuel : Nat} {lines : List InputLine}

end Loaded

variable {program : String} {tree : FileTree} {r : Run}

theorem execute_run
    (hload : ofImage program o (tree.readImage (Companions.ofPath program).image) = .ok r)
    (fuel : Nat) (stdin : List UInt8) (trace : Bool) :
    execute fuel (.run program { o with trace }) stdin tree =
      CommandLine.finishRun tree ((r.withTrace trace).complete fuel (inputLines stdin)) := by
  unfold execute
  dsimp only
  rw [ofImage_withTrace hload trace]
  rfl

def echoTree : FileTree :=
  ⟨[(["echo.mex"], .file (Json.utf8 ("[" ++
    "\x7b\"address\": \"000\", \"word\": \"5000\"\x7d, " ++
    "\x7b\"address\": \"001\", \"word\": \"6000\"\x7d, " ++
    "\x7b\"address\": \"002\", \"word\": \"5000\"\x7d, " ++
    "\x7b\"address\": \"003\", \"word\": \"6000\"\x7d, " ++
    "\x7b\"address\": \"004\", \"word\": \"7000\"\x7d]")))]⟩

def echoOptions (maxCycles : Option UInt64) : RunOptions where
  inputMode := .hex
  outputMode := .hex
  linefeeds := true
  trace := false
  dump := true
  maxCycles := maxCycles

end Run

end AccumulatorMachine.CommandLine
