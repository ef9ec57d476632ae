import Mathlib.Data.Nat.Find
import AccumulatorMachine.Proofs.ProgramRuns
import AccumulatorMachine.Proofs.TraceTransparency

/-!
# What a command reports of its program

A command lets its controller run until the machine waits or is done, prints, takes a line of input
and goes on, however often that happens. What it prints is what the program outputs, its lines go to
the INPUT instructions in their order, and its exit status tells how the program has ended.
-/

namespace AccumulatorMachine

theorem FileTree.isOk_write (tree : FileTree) (path : String) (content content' : List UInt8) :
    (tree.write path content).isOk = (tree.write path content').isOk := by
  unfold FileTree.write
  simp only [bind, Except.bind, pure, Except.pure]
  split
  · rfl
  · split
    · rfl
    · split
      · rfl
      · split_ifs
        · rfl
        · rfl
        · split
          · rfl
          · split <;> rfl

namespace CommandLine

open Run

variable {o : RunOptions}

/-- The course of a program: it runs before each of `n` cycles, and after them it has stopped or has
reached the limit. -/
structure Course (o : RunOptions) (p : Nat → Progress) (n : Nat) : Prop where
  running : ∀ i < n, (p i).machine.status = .running
  within : ∀ limit, o.maxCycles = some limit → n ≤ limit.toNat
  ended : (p n).machine.status = .running → ∃ limit, o.maxCycles = some limit ∧ limit.toNat = n

/-- A program that stops, or that has a limit, has a course. -/
theorem exists_course {p : Nat → Progress} {fuel : Nat}
    (hstop : (∃ n < fuel, (p n).machine.status ≠ .running) ∨
      ∃ limit, o.maxCycles = some limit ∧ limit.toNat < fuel) :
    ∃ n < fuel, Course o p n := by
  let Ended (n : Nat) : Prop :=
    (p n).machine.status ≠ .running ∨ ∃ limit, o.maxCycles = some limit ∧ limit.toNat = n
  have hended : ∃ n, n < fuel ∧ Ended n := by
    rcases hstop with ⟨n, hn, hstop⟩ | ⟨limit, hmax, hlimit⟩
    · exact ⟨n, hn, .inl hstop⟩
    · exact ⟨limit.toNat, hlimit, .inr ⟨limit, hmax, rfl⟩⟩
  classical
  obtain ⟨hn, hend⟩ := Nat.find_spec hended
  have hbefore {i : Nat} (hi : i < Nat.find hended) : ¬Ended i :=
    fun h => Nat.find_min hended hi ⟨Nat.lt_trans hi hn, h⟩
  refine ⟨Nat.find hended, hn, ?_, ?_, ?_⟩
  · intro i hi
    exact Decidable.not_not.1 fun hstop => hbefore hi (.inl hstop)
  · intro limit hmax
    exact Nat.le_of_not_lt fun hlt => hbefore hlt (.inr ⟨limit, hmax, rfl⟩)
  · intro hrun
    exact hend.resolve_left (not_not_intro hrun)

/-- A run that is where a program is, and that has printed part of what the program has output. -/
structure Reaches (o : RunOptions) (files : Companions) (r : Run) (m : Machine) : Prop where
  untraced : Untraced o r
  files : r.files = files
  output : ∃ before, m = r.controller.machine.altered id before ∧
    r.stdout = shown o.linefeeds "" before

/-- A run that is done with a program: it has printed all of the output. -/
structure Finished (o : RunOptions) (files : Companions) (r : Run) (m : Machine) : Prop where
  untraced : Untraced o r
  files : r.files = files
  machine : r.controller.machine = { m with output := #[] }
  stdout : r.stdout = shown o.linefeeds "" m.output

namespace Reaches

variable {files : Companions} {r : Run} {m : Machine}

theorem status (h : Reaches o files r m) : r.status = m.status := by
  obtain ⟨before, rfl, -⟩ := h.output
  rfl

theorem cycles (h : Reaches o files r m) : r.controller.machine.cycles = m.cycles := by
  obtain ⟨before, rfl, -⟩ := h.output
  rfl

theorem print (h : Reaches o files r m) : Reaches o files r.printOutput m where
  untraced := h.untraced.printOutput
  files := h.files
  output := by
    obtain ⟨before, rfl, hstdout⟩ := h.output
    refine ⟨before ++ r.controller.machine.output, ?_, ?_⟩
    · rw [printOutput_eq]
      unfold Machine.altered
      simp [Run.withMachine]
    · rw [printOutput_eq, shown_append, ← hstdout, h.untraced.options]

theorem finish (h : Reaches o files r m) : Finished o files r.printOutput m where
  untraced := h.untraced.printOutput
  files := h.files
  machine := by
    obtain ⟨before, rfl, -⟩ := h.output
    rfl
  stdout := by
    obtain ⟨before, rfl, hstdout⟩ := h.output
    rw [printOutput_eq, h.untraced.options]
    exact (congrArg (shown o.linefeeds · _) hstdout).trans (shown_append ..).symm

theorem withMachine (h : Reaches o files r m) {f : Machine → Machine}
    (hf : ∀ m before, f (Machine.altered m id before) = (f m).altered id before) :
    Reaches o files (r.withMachine (f r.controller.machine)) (f m) where
  untraced := h.untraced.withMachine _
  files := h.files
  output := by
    obtain ⟨before, rfl, hstdout⟩ := h.output
    exact ⟨before, hf _ _, hstdout⟩

theorem cycled (h : Reaches o files r m) (hrun : m.status = .running) :
    Reaches o files r.cycled m.cycle.2 where
  untraced := h.untraced.withMachine r.controller.machine.cycle.2
  files := h.files
  output := by
    have hrun' : r.controller.machine.status = .running := h.status.trans hrun
    obtain ⟨before, rfl, hstdout⟩ := h.output
    exact ⟨before, Machine.altered_cycle id (fun _ _ => rfl) hrun' before, hstdout⟩

theorem pause (h : Reaches o files r m) :
    Reaches o files (r.withMachine r.controller.machine.pause) m.pause :=
  h.withMachine fun _ _ => rfl

theorem answered (h : Reaches o files r m) (line? : Option InputLine) :
    Reaches o files (r.withMachine (answered r.controller.machine line?)) (answered m line?) :=
  h.withMachine (f := (Run.answered · line?)) fun m before => answered_altered m before line?

theorem feed_of_ne (h : Reaches o files r m) (hwait : m.status ≠ .awaitingInput) (fuel : Nat)
    (lines : List InputLine) : Finished o files (feed fuel lines r) m := by
  have hadvance := h.untraced.advance fuel
  have hready : (r.advance fuel).status ≠ .awaitingInput := by
    rw [hadvance, h.print.status]
    exact hwait
  rw [Run.feed_of_ne hready, hadvance]
  exact h.finish

/-- A run that waits prints, takes the next line and goes on. Without a next line it goes on too,
but is halted. -/
theorem feed_of_awaitingInput (h : Reaches o files r m) (hwait : m.status = .awaitingInput)
    (fuel : Nat) (lines : List InputLine) (i : Nat) :
    ∃ r', Reaches o files r' (Run.answered m lines[i]?) ∧
      feed fuel (lines.drop i) r = feed fuel (lines.drop (i + 1)) (r'.looped fuel) := by
  have hadvance := h.untraced.advance fuel
  have hwait' : r.printOutput.status = .awaitingInput := h.print.status.trans hwait
  have hwaiting : (r.advance fuel).status = .awaitingInput := by rw [hadvance, hwait']
  have hnext := h.print.answered lines[i]?
  refine ⟨_, hnext, ?_⟩
  cases hline : lines[i]? with
  | some line =>
    obtain ⟨hlt, rfl⟩ := List.getElem?_eq_some_iff.1 hline
    rw [List.drop_eq_getElem_cons hlt, feed_cons hwaiting, hadvance,
      h.print.untraced.answer hwait']
  | none =>
    have hle := List.getElem?_eq_none_iff.1 hline
    have hhalted : Run.answered m none = m.raise (.invalidValue "end of input") := rfl
    rw [hline, hhalted] at hnext
    have hstatus := hnext.status.trans (Machine.status_raise _ _)
    have hstopped := hnext.untraced.looped_of_not_running (by simp [hstatus]) fuel
    have hready : (Run.advance fuel (r.printOutput.withMachine
        (Run.answered r.printOutput.controller.machine none))).status ≠ .awaitingInput := by
      rw [hnext.untraced.advance, hnext.print.status, Machine.status_raise]
      nofun
    rw [List.drop_eq_nil_of_le hle, List.drop_eq_nil_of_le (by omega), feed_nil hwaiting, hadvance,
      h.print.untraced.answer hwait', hstopped, Run.feed_of_ne hready]

end Reaches

theorem answered_cycle {m : Machine} (h : Undisturbed o m)
    (line? : Option InputLine) :
    answered m.cycle.2 line? = given m.cycle.2 (lineValue o.inputMode line?) := by
  have hmode : m.cycle.2.registers.input.mode = o.inputMode :=
    (Machine.cycleInvariant_mode .input o.inputMode).cycle h.inputMode
  rw [answered, hmode]
  cases lineValue o.inputMode line? <;> rfl

section course

variable {files : Companions} {lines : List InputLine} {start : Machine} {n fuel : Nat}
  (h : Undisturbed o start) (hcycles : start.cycles = 0)
  (course : Course o (progress o.inputMode lines start) n)
include h hcycles course

theorem limitReached_eq {i : Nat} {r : Run} (hi : i ≤ n)
    (hrun : (progress o.inputMode lines start i).machine.status = .running)
    (hr : Reaches o files r (progress o.inputMode lines start i).machine) :
    r.controller.limitReached = decide (i = n ∧ o.maxCycles.isSome) := by
  rw [hr.untraced.limitReached, hr.cycles]
  cases hmax : o.maxCycles with
  | none => simp
  | some limit =>
    have hle := course.within limit hmax
    have hlt := limit.toNat_lt
    have hcount := toNat_cycles_progress h lines hcycles (n := i) (by omega) fun j hj => by
      rcases Nat.lt_or_eq_of_le hj with hlt | rfl
      · exact course.running j (by omega)
      · exact hrun
    have hend : i = n → limit.toNat = n := by
      rintro rfl
      obtain ⟨limit', hmax', hlimit⟩ := course.ended hrun
      cases hmax.symm.trans hmax'
      exact hlimit
    rw [hcount]
    simp only [Option.any_some, Option.isSome_some, and_true, decide_eq_decide]
    omega

theorem feed_looped (hn : n < fuel) {d i k : Nat} {r : Run} (hd : i + d = n) (hk : d < k)
    (hr : Reaches o files r (progress o.inputMode lines start i).machine) :
    Finished o files
      (feed fuel (lines.drop (progress o.inputMode lines start i).consumed) (r.looped k))
      (progress o.inputMode lines start n).machine.atRest := by
  -- The induction is on the cycles up to the end of the course, not on the ticks: these are counted
  -- anew behind each line of input, and only have to be more than the cycles that are left.
  induction d generalizing i k r with
  | zero =>
    obtain rfl : i = n := hd
    obtain ⟨k, rfl⟩ : ∃ k', k = k' + 1 := ⟨k - 1, by omega⟩
    by_cases hrun : (progress o.inputMode lines start i).machine.status = .running
    · obtain ⟨limit, hmax, -⟩ := course.ended hrun
      have hlimit : r.controller.limitReached = true := by
        rw [limitReached_eq h hcycles course (Nat.le_refl i) hrun hr]
        simp [hmax]
      rw [hr.untraced.looped_of_limitReached (hr.status.trans hrun) hlimit,
        Machine.atRest_of_running hrun]
      exact hr.pause.feed_of_ne nofun fuel _
    · rw [hr.untraced.looped_of_not_running (by rwa [hr.status]), Machine.atRest_of_ne hrun]
      refine hr.feed_of_ne ?_ fuel _
      rcases (h.progress lines i).status with hs | hs | hs <;> simp [hs]
  | succ d ih =>
    obtain ⟨k, rfl⟩ : ∃ k', k = k' + 1 := ⟨k - 1, by omega⟩
    have hi := h.progress lines i
    have hrun := course.running i (by omega)
    have hlimit : r.controller.limitReached = false := by
      rw [limitReached_eq h hcycles course (by omega) hrun hr]
      exact decide_eq_false (by omega)
    rw [hr.untraced.looped_of_going (hr.status.trans hrun) hlimit]
    have hcycled := hr.cycled hrun
    by_cases hop : (progress o.inputMode lines start i).machine.cycle.1 = some .input
    · -- The controller stops for the line.
      have hnext : progress o.inputMode lines start (i + 1) = _ := Progress.next_of_input hop
      have hwait := (Machine.status_cycle_eq_awaitingInput_iff hi.wellFormed hrun
        (hi.fault_eq_none hrun)).2 hop
      have hstopped : r.cycled.looped k = r.cycled :=
        hcycled.untraced.looped_of_not_running (by simp [hcycled.status, hwait]) k
      obtain ⟨r', hr', hfeed⟩ := hcycled.feed_of_awaitingInput hwait fuel lines
        (progress o.inputMode lines start i).consumed
      rw [answered_cycle hi] at hr'
      have hend := ih (i := i + 1) (k := fuel) (by omega) (by omega) (by rwa [hnext])
      rw [hnext] at hend
      rw [hstopped, hfeed]
      exact hend
    · have hnext : progress o.inputMode lines start (i + 1) = _ := Progress.next_of_ne hop
      have hend := ih (i := i + 1) (by omega) (by omega : d < k) (by rwa [hnext])
      rwa [hnext] at hend

end course

section load

variable {program : String} {image : Except ImageError Image} {r : Run}

theorem machine_of_ofImage (h : ofImage program o image = .ok r) :
    r.stdout = "" ∧ r.files = Companions.ofPath program ∧
      ∃ i lines, image = .ok i ∧ i.lines = .ok lines ∧
        r.controller.machine = withModes o (Machine.new.loadedWith lines) := by
  rw [ofImage_eq] at h
  cases hload : loadOrReport (configOf o) (Companions.ofPath program) image with
  | error e =>
    rw [hload] at h
    cases h
  | ok c =>
    rw [hload] at h
    cases h
    obtain ⟨i, machine, himage, hmachine, rfl⟩ := loadOrReport_ok hload
    rw [Machine.run_load] at hmachine
    cases hlines : i.lines with
    | error e =>
      rw [hlines] at hmachine
      cases hmachine
    | ok lines =>
      rw [hlines] at hmachine
      cases hmachine
      exact ⟨rfl, rfl, i, lines, himage, hlines, rfl⟩

theorem undisturbed_restart (h : ofImage program o image = .ok r) :
    Undisturbed o r.controller.machine.restart ∧ r.controller.machine.restart.cycles = 0 ∧
      r.controller.machine.restart.output = #[] := by
  obtain ⟨-, -, i, lines, -, -, hmachine⟩ := machine_of_ofImage h
  have hmodes : (withModes o (Machine.new.loadedWith lines)).WellFormed :=
    ((Machine.wellFormed_new.loadedWith lines).setMode .input _).setMode .output _
  have hrestart : (withModes o (Machine.new.loadedWith lines)).restart.status = .running :=
    Machine.status_restart rfl
  rw [hmachine]
  refine ⟨⟨hmodes.restart, ?_, rfl, rfl, .inl hrestart⟩, rfl, rfl⟩
  exact Machine.Consistent.of_fault_eq_none rfl (by simp [hrestart]) (by simp [hrestart])
    (by simp [hrestart])

/-- A command gets to the end of the course of its program, and has printed all of its output. -/
theorem finished_complete (hload : ofImage program o image = .ok r) {lines : List InputLine}
    {n fuel : Nat} (course : Course o (progress o.inputMode lines r.controller.machine.restart) n)
    (hn : n < fuel) :
    Finished o (Companions.ofPath program) ((r.withTrace false).complete fuel lines)
      (progress o.inputMode lines r.controller.machine.restart n).machine.atRest := by
  have l := loaded_of_ofImage hload
  obtain ⟨hstdout, hfiles, -⟩ := machine_of_ofImage hload
  obtain ⟨hundisturbed, hcycles, houtput⟩ := undisturbed_restart hload
  have hbegin : (Loaded.begun r).controller.machine = r.controller.machine.restart :=
    Machine.begin_of_isHalted (congrArg Status.isHalted l.halted)
  have hreaches : Reaches o (Companions.ofPath program) (Loaded.begun r)
      r.controller.machine.restart := by
    refine ⟨l.untraced, hfiles, #[], ?_, hstdout⟩
    rw [hbegin, Machine.altered, Array.empty_append]
    rfl
  unfold complete
  rw [l.start_untraced]
  exact feed_looped hundisturbed hcycles course hn (i := 0) (Nat.zero_add n) hn hreaches

end load

/-- The values that OUTPUT instructions print, each in the output mode and, unless that is turned
off, on a line of its own. -/
def outputText (o : RunOptions) (entries : List Machine) : String :=
  String.join ((entries.filter Machine.prints).map fun m =>
    o.outputMode.render false (m.value .ac) ++ if o.linefeeds then "\n" else "")

/-- The output of a program as a command prints it, with a line end in any case. -/
def printedText (o : RunOptions) (entries : List Machine) : String :=
  outputText o entries ++ if o.linefeeds then "" else "\n"

/-- The exit status and the standard output by which a command tells how a machine has ended that
has printed some text. -/
inductive Tells (text : String) (m : Machine) : Nat → String → Prop
  | done (h : m.status = .haltedNormal) : Tells text m 0 text
  | faulted {f : Fault} (h : m.status = .haltedAbnormal) (hf : m.fault = some f) :
    Tells text m 2 (text ++ "Machine halted abnormally.  Error: " ++ f.code.message ++ "\n")
  | limited (h : m.status = .paused) : Tells text m 3 text

theorem shown_eq (linefeeds : Bool) (printed : String) (records : Array OutputRecord) :
    shown linefeeds printed records =
      printed ++ String.join (records.toList.map fun record =>
        record.text ++ if linefeeds then "\n" else "") := by
  rw [shown, ← Array.foldl_toList]
  induction records.toList generalizing printed with
  | nil => simp
  | cons record records ih =>
    rw [List.foldl_cons, ih, List.map_cons, String.join_cons]
    simp [String.append_assoc]

theorem shown_printed {entries : List Machine}
    (h : ∀ m ∈ entries, m.registers.output.mode = o.outputMode) :
    shown o.linefeeds "" (Machine.printed entries) = outputText o entries := by
  rw [shown_eq, String.empty_append, outputText, Machine.printed, List.map_map]
  congr 1
  apply List.map_congr_left
  intro m hm
  rw [Function.comp_apply, OutputRecord.text, Machine.shownRecord,
    h m (List.mem_of_mem_filter hm)]

namespace Finished

variable {files : Companions} {r : Run} {m : Machine}

/-- The report of a run tells how its program has ended. -/
theorem tells (h : Finished o files r m) {text : String} (hstdout : r.stdout = text)
    (hm : m.status = .haltedNormal ∨ m.status = .paused ∨
      ∃ f, m.status = .haltedAbnormal ∧ m.fault = some f) :
    Tells (text ++ if o.linefeeds then "" else "\n") m r.report.exit r.report.stdout := by
  have hprinted : r.printed = text ++ if o.linefeeds then "" else "\n" := by
    rw [Run.printed, h.untraced.options, hstdout]
    cases o.linefeeds <;> simp
  unfold report
  rw [h.machine, hprinted]
  rcases hm with hm | hm | ⟨f, hm, hf⟩
  · simp only [hm]
    exact .done hm
  · simp only [hm]
    exact .limited hm
  · simp only [hm, Machine.errorCode?, hf, Option.map_some, Option.getD_some]
    exact .faulted hm hf

theorem finishRun_eq {r' : Run} (h : Finished o files r m) (h' : Finished o files r' m)
    (tree : FileTree) : finishRun tree r = finishRun tree r' := by
  have hprinted : r.printed = r'.printed := by
    rw [Run.printed, Run.printed, h.untraced.options, h'.untraced.options, h.stdout, h'.stdout]
  have hdump : r.dump? = r'.dump? := by
    rw [dump?, dump?, h.untraced.options, h'.untraced.options, h.machine, h'.machine, h.files,
      h'.files]
  have hreport : r.report = r'.report := by
    rw [report, report, h.machine, h'.machine, hprinted, h.untraced.stderr, h'.untraced.stderr]
  have hunwritten (reason : String) : r.reportUnwritten reason = r'.reportUnwritten reason := by
    rw [reportUnwritten, reportUnwritten, hprinted, h.untraced.stderr, h'.untraced.stderr, h.files,
      h'.files]
  unfold finishRun
  rw [hdump, hreport]
  simp only [hunwritten]

theorem fst_finishRun (h : Finished o files r m) {tree : FileTree}
    (hdump : o.dump = true → (tree.write files.dump []).isOk = true) :
    (finishRun tree r).1 = r.report := by
  unfold finishRun dump?
  rw [h.untraced.options, h.files]
  cases hd : o.dump with
  | false => rfl
  | true =>
    have hok := (tree.isOk_write files.dump (Json.utf8 r.controller.machine.coreDump) []).trans
      (hdump hd)
    rw [if_pos rfl]
    dsimp only
    cases hwrite : tree.write files.dump (Json.utf8 r.controller.machine.coreDump) with
    | error e =>
      rw [hwrite] at hok
      cases hok
    | ok tree => rfl

end Finished

def Run.unattended (r : Run) (stdin : List UInt8) : Nat → Progress :=
  progress r.options.inputMode (inputLines stdin) r.controller.machine.restart

/-- A command reports the course of a program. It tells how the program has ended, behind what the
OUTPUT instructions print, in their order and once each. Each INPUT instruction consumes the next
line. The first that gives no value halts the program, and no line behind those consumed matters. -/
structure ReportsCourse (fuel : Nat) (program : String) (o : RunOptions) (stdin : List UInt8)
    (tree : FileTree) (p : Nat → Progress) (n : Nat) : Prop where
  course : Course o p n
  report : Tells (printedText o (entriesOf p n)) (p n).machine.atRest
    (execute fuel (.run program o) stdin tree).1.exit
    (execute fuel (.run program o) stdin tree).1.stdout
  input : ∀ i < n, (p i).machine.cycle.1 = some .input →
    (p i).consumed = ((entriesOf p i).countP fun m => m.cycle.1 = some .input) ∧
      (p (i + 1)).machine = given (p i).machine.cycle.2
        (lineValue o.inputMode (inputLines stdin)[(p i).consumed]?)
  refused : ∀ i < n, (p i).machine.cycle.1 = some .input →
    ∀ reason, lineValue o.inputMode (inputLines stdin)[(p i).consumed]? = .error reason →
      i + 1 = n ∧ (p n).machine.status = .haltedAbnormal ∧
        (p n).machine.fault = some (.invalidValue reason)
  unread : ∀ stdin', (∀ i < (p n).consumed, (inputLines stdin')[i]? = (inputLines stdin)[i]?) →
    execute fuel (.run program o) stdin' tree = execute fuel (.run program o) stdin tree

section command

variable {program : String} {tree : FileTree} {r : Run} {fuel : Nat} {stdin : List UInt8}

theorem Course.congr {p p' : Nat → Progress} {n : Nat} (course : Course o p n)
    (h : ∀ i ≤ n, p' i = p i) : Course o p' n where
  running i hi := by
    rw [h i (Nat.le_of_lt hi)]
    exact course.running i hi
  within := course.within
  ended := by
    rw [h n (Nat.le_refl n)]
    exact course.ended

theorem Undisturbed.atRest_cases {m : Machine} (h : Undisturbed o m) :
    m.atRest.status = .haltedNormal ∨ m.atRest.status = .paused ∨
      ∃ f, m.atRest.status = .haltedAbnormal ∧ m.atRest.fault = some f := by
  rcases h.status with hs | hs | hs
  · rw [Machine.atRest_of_running hs]
    exact .inr (.inl rfl)
  · rw [Machine.atRest_of_ne (by simp [hs])]
    exact .inl hs
  · rw [Machine.atRest_of_ne (by simp [hs])]
    obtain ⟨f, hf⟩ := Option.isSome_iff_exists.1 (h.consistent.fault_iff.2 hs)
    exact .inr (.inr ⟨f, hs, hf⟩)

/-- A command that is not traced reports exactly what its program does, if it stops or has a limit.
-/
theorem command_reports_program
    (hload : ofImage program o (tree.readImage (Companions.ofPath program).image) = .ok r)
    (htrace : o.trace = false)
    (hdump : o.dump = true → (tree.write (Companions.ofPath program).dump []).isOk = true)
    (hstop : (∃ n < fuel, (r.unattended stdin n).machine.status ≠ .running) ∨
      ∃ limit, o.maxCycles = some limit ∧ limit.toNat < fuel) :
    ∃ n, ReportsCourse fuel program o stdin tree (r.unattended stdin) n := by
  have l := loaded_of_ofImage hload
  obtain ⟨hundisturbed, -, houtput⟩ := undisturbed_restart hload
  have huntraced : { o with trace := false } = o := by rw [← htrace]
  have hexecute (stdin : List UInt8) : execute fuel (.run program o) stdin tree =
      finishRun tree ((r.withTrace false).complete fuel (inputLines stdin)) := by
    have h := execute_run hload fuel stdin false
    rwa [huntraced] at h
  rw [Run.unattended, l.options] at hstop ⊢
  obtain ⟨n, hn, course⟩ := exists_course hstop
  have finished := finished_complete hload course hn
  have hlast := hundisturbed.progress (inputLines stdin) n
  refine ⟨n, course, ?_, ?_, ?_, ?_⟩
  · rw [hexecute, finished.fst_finishRun hdump]
    refine finished.tells (finished.stdout.trans ?_) hlast.atRest_cases
    rw [Machine.output_atRest, output_progress hundisturbed, houtput, Array.empty_append]
    apply shown_printed
    intro m hm
    obtain ⟨i, -, rfl⟩ := List.mem_map.1 hm
    exact (hundisturbed.progress (inputLines stdin) i).outputMode
  · intro i hi hop
    have hnext : progress o.inputMode (inputLines stdin) r.controller.machine.restart (i + 1) = _ :=
      Progress.next_of_input hop
    exact ⟨consumed_progress .., congrArg Progress.machine hnext⟩
  · intro i hi hop reason hline
    have halted := (hundisturbed.progress (inputLines stdin) i).next_of_error hop hline
    have hend : i + 1 = n := by
      by_contra hne
      cases (course.running (i + 1) (by omega)).symm.trans halted.1
    subst hend
    exact ⟨rfl, halted⟩
  · intro stdin' hsame
    have hcongr := progress_congr hsame
    have finished' := finished_complete hload (course.congr hcongr) hn
    rw [hcongr n (Nat.le_refl n)] at finished'
    rw [hexecute, hexecute]
    exact finished'.finishRun_eq finished tree

/-- Three lines, of which the second is no number. -/
def brokenInput : List UInt8 := Json.utf8 "1\nzz\n2\n"

/-- The program prints the first line and halts at the second. -/
theorem command_reports_program_broken :
    ∃ r, ofImage "echo" (echoOptions none)
        (echoTree.readImage (Companions.ofPath "echo").image) = .ok r ∧
      (echoTree.write (Companions.ofPath "echo").dump []).isOk = true ∧
      (r.unattended brokenInput 3).machine.status = .haltedAbnormal ∧
      (∃ n, ReportsCourse 9 "echo" (echoOptions none) brokenInput echoTree
        (r.unattended brokenInput) n) ∧
      (execute 9 (.run "echo" (echoOptions none)) brokenInput echoTree).1.exit = 2 ∧
      (execute 9 (.run "echo" (echoOptions none)) brokenInput echoTree).1.stdout =
        "0001\nMachine halted abnormally.  Error: Illegal numeric value in register\n" := by
  have hhalted : (ofImage "echo" (echoOptions none)
      (echoTree.readImage (Companions.ofPath "echo").image)).toOption.map
        (fun r => (r.unattended brokenInput 3).machine.status) = some .haltedAbnormal := by
    decide +kernel
  have hdump : (echoTree.write (Companions.ofPath "echo").dump []).isOk = true := by
    decide +kernel
  cases hload : ofImage "echo" (echoOptions none)
      (echoTree.readImage (Companions.ofPath "echo").image) with
  | error e =>
    rw [hload] at hhalted
    cases hhalted
  | ok r =>
    rw [hload] at hhalted
    have hstatus : (r.unattended brokenInput 3).machine.status = .haltedAbnormal :=
      Option.some.inj hhalted
    have hstop : (r.unattended brokenInput 3).machine.status ≠ .running := by
      rw [hstatus]
      nofun
    exact ⟨r, rfl, hdump, hstatus,
      command_reports_program hload rfl (fun _ => hdump) (.inl ⟨3, by decide, hstop⟩),
      by decide +kernel, by decide +kernel⟩

end command

end CommandLine

end AccumulatorMachine
