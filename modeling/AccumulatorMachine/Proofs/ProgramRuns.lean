import AccumulatorMachine.Proofs.Consistency
import AccumulatorMachine.Proofs.OutputStream
import AccumulatorMachine.Proofs.TracedRuns

/-!
# What a program does with lines of input

A program on its own: its machine is cycled, and each INPUT instruction consumes the next line of
the input. Nothing is drained, nothing waits and nobody looks at a limit. What a command reports is
measured by this.
-/

namespace AccumulatorMachine

namespace Machine

section cycle

variable {m : Machine} (h : m.WellFormed) (hrun : m.status = .running) (hfault : m.fault = none)
include h hrun hfault

theorem status_cycle_eq :
    m.cycle.2.status =
      if m.dueFault.isSome then .haltedAbnormal
      else if m.cycle.1 = some .input then .awaitingInput
      else if m.cycle.1 = some .halt then .haltedNormal
      else .running := by
  cases hdue : m.dueFault with
  | some f => exact (cycle_of_dueFault h hrun hfault hdue).status
  | none =>
    obtain ⟨op, -, -, hop, -, -, hvisible⟩ := cycle_of_dueFault_eq_none h hrun hfault hdue
    have hstatus : m.cycle.2.status = _ := congrArg Visible.status hvisible
    rw [hstatus, Visible.status_perform, hop]
    simp [visible, hrun]

theorem status_cycle_eq_awaitingInput_iff :
    m.cycle.2.status = .awaitingInput ↔ m.cycle.1 = some .input := by
  rw [status_cycle_eq h hrun hfault]
  constructor
  · intro hwait
    split_ifs at hwait with _ hop
    exact hop
  · intro hop
    obtain ⟨-, -, hdecode, hroom⟩ := (cycle_fst_eq_some_iff h).1 hop
    have hdue := dueFault_eq_none_of_decode hdecode (by omega) (by decide) (by decide)
    simp [hdue, hop]

end cycle

theorem cycleInvariant_mode (d : Designation) (mode : DisplayMode) :
    CycleInvariant fun m => (m.registers.get d).mode = mode where
  assign h e k := (mode_assign _ e k d).trans h
  setMemory h _ := h
  noteLine h _ := h
  await h := h
  print h _ := h
  halt h := h
  raise h _ := h
  counted h _ := h

end Machine

namespace CommandLine

open Run

/-- The machine that has been given a value for its INPUT instruction, or the reason why there is
none. -/
def given (m : Machine) : Except String Word → Machine
  | .ok w => m.completeInput w.toInt
  | .error reason => m.raise (.invalidValue reason)

@[simp] theorem output_given (m : Machine) (answer : Except String Word) :
    (given m answer).output = m.output := by
  cases answer <;> rfl

@[simp] theorem cycles_given (m : Machine) (answer : Except String Word) :
    (given m answer).cycles = m.cycles := by
  cases answer <;> rfl

/-- A program on its way: how many lines of input it has consumed, and its machine. At the end of
the input the missing line counts as one. -/
structure Progress where
  consumed : Nat
  machine : Machine

/-- One more cycle. An INPUT instruction consumes the next line. -/
def Progress.next (mode : DisplayMode) (lines : List InputLine) (p : Progress) : Progress :=
  let m := p.machine.cycle.2
  if p.machine.cycle.1 = some .input then
    ⟨p.consumed + 1, given m (lineValue mode lines[p.consumed]?)⟩
  else ⟨p.consumed, m⟩

section next

variable {mode : DisplayMode} {lines : List InputLine} {p : Progress}

theorem Progress.next_of_input (hop : p.machine.cycle.1 = some .input) :
    p.next mode lines =
      ⟨p.consumed + 1, given p.machine.cycle.2 (lineValue mode lines[p.consumed]?)⟩ :=
  if_pos hop

theorem Progress.next_of_ne (hop : p.machine.cycle.1 ≠ some .input) :
    p.next mode lines = ⟨p.consumed, p.machine.cycle.2⟩ :=
  if_neg hop

theorem Progress.output_next : (p.next mode lines).machine.output = p.machine.cycle.2.output := by
  unfold next
  split <;> simp

theorem Progress.cycles_next : (p.next mode lines).machine.cycles = p.machine.cycle.2.cycles := by
  unfold next
  split <;> simp

theorem Progress.consumed_le_next : p.consumed ≤ (p.next mode lines).consumed := by
  unfold next
  split <;> simp

end next

def progress (mode : DisplayMode) (lines : List InputLine) (start : Machine) : Nat → Progress
  | 0 => ⟨0, start⟩
  | n + 1 => (progress mode lines start n).next mode lines

def entriesOf (p : Nat → Progress) (n : Nat) : List Machine :=
  (List.range n).map fun i => (p i).machine

theorem entriesOf_succ (p : Nat → Progress) (n : Nat) :
    entriesOf p (n + 1) = entriesOf p n ++ [(p n).machine] := by
  simp [entriesOf, List.range_succ]

variable {o : RunOptions}

/-- A machine that shows INPUT and OUTPUT in the modes of the options, and neither waits nor has
been stopped from outside. -/
structure Undisturbed (o : RunOptions) (m : Machine) : Prop where
  wellFormed : m.WellFormed
  consistent : m.Consistent
  inputMode : (m.registers.get .input).mode = o.inputMode
  outputMode : (m.registers.get .output).mode = o.outputMode
  status : m.status = .running ∨ m.status = .haltedNormal ∨ m.status = .haltedAbnormal

namespace Undisturbed

variable {p : Progress} {m : Machine}

theorem fault_eq_none (h : Undisturbed o m) (hrun : m.status = .running) : m.fault = none :=
  h.consistent.fault_eq_none (by simp [hrun])

theorem given (h : Undisturbed o m) (hrun : m.status = .running) (hop : m.cycle.1 = some .input)
    (answer : Except String Word) : Undisturbed o (given m.cycle.2 answer) := by
  have hwait := (Machine.status_cycle_eq_awaitingInput_iff h.wellFormed hrun
    (h.fault_eq_none hrun)).2 hop
  have hw := Machine.cycleInvariant_wellFormed.cycle h.wellFormed
  have hinput := (Machine.cycleInvariant_mode .input o.inputMode).cycle h.inputMode
  have houtput := (Machine.cycleInvariant_mode .output o.outputMode).cycle h.outputMode
  cases answer with
  | ok w =>
    exact {
      wellFormed := hw.completeInput _
      consistent := (h.consistent.cycle h.wellFormed).completeInput hwait _
      inputMode := (Machine.mode_assign ..).trans ((Machine.mode_assign ..).trans hinput)
      outputMode := (Machine.mode_assign ..).trans ((Machine.mode_assign ..).trans houtput)
      status := .inl rfl }
  | error reason =>
    exact {
      wellFormed := hw
      consistent := .raise _ _
      inputMode := hinput
      outputMode := houtput
      status := .inr (.inr (Machine.status_raise _ _)) }

theorem cycle (h : Undisturbed o m) (hrun : m.status = .running) (hop : m.cycle.1 ≠ some .input) :
    Undisturbed o m.cycle.2 where
  wellFormed := Machine.cycleInvariant_wellFormed.cycle h.wellFormed
  consistent := h.consistent.cycle h.wellFormed
  inputMode := (Machine.cycleInvariant_mode .input o.inputMode).cycle h.inputMode
  outputMode := (Machine.cycleInvariant_mode .output o.outputMode).cycle h.outputMode
  status := by
    rw [Machine.status_cycle_eq h.wellFormed hrun (h.fault_eq_none hrun), if_neg hop]
    split_ifs <;> simp

theorem next (h : Undisturbed o p.machine) (lines : List InputLine) :
    Undisturbed o (p.next o.inputMode lines).machine := by
  by_cases hrun : p.machine.status = .running
  · by_cases hop : p.machine.cycle.1 = some .input
    · rw [Progress.next_of_input hop]
      exact h.given hrun hop _
    · rw [Progress.next_of_ne hop]
      exact h.cycle hrun hop
  · have hidle := Machine.cycle_of_ne hrun
    rw [Progress.next_of_ne (by simp [hidle]), hidle]
    exact h

theorem next_of_error (h : Undisturbed o p.machine) {lines : List InputLine}
    (hop : p.machine.cycle.1 = some .input) {reason : String}
    (hline : lineValue o.inputMode lines[p.consumed]? = .error reason) :
    (p.next o.inputMode lines).machine.status = .haltedAbnormal ∧
      (p.next o.inputMode lines).machine.fault = some (.invalidValue reason) := by
  obtain ⟨hrun, hfault, -⟩ := (Machine.cycle_fst_eq_some_iff h.wellFormed).1 hop
  have hwait := (Machine.status_cycle_eq_awaitingInput_iff h.wellFormed hrun hfault).2 hop
  have hnone := (h.consistent.cycle h.wellFormed).fault_eq_none (by simp [hwait])
  rw [Progress.next_of_input hop, hline]
  exact ⟨Machine.status_raise _ _, by simp [CommandLine.given, Machine.raise, Machine.halt, hnone]⟩

theorem cycles_next (h : Undisturbed o p.machine) {lines : List InputLine}
    (hrun : p.machine.status = .running)
    (hgoes : (p.next o.inputMode lines).machine.status = .running) :
    (p.next o.inputMode lines).machine.cycles = p.machine.cycles + 1 := by
  rw [Progress.cycles_next]
  cases hdue : p.machine.dueFault with
  | none =>
    obtain ⟨-, -, -, -, -, hcount, -⟩ :=
      Machine.cycle_of_dueFault_eq_none h.wellFormed hrun (h.fault_eq_none hrun) hdue
    exact hcount
  | some f =>
    have halted := Machine.cycle_of_dueFault h.wellFormed hrun (h.fault_eq_none hrun) hdue
    have hop : p.machine.cycle.1 ≠ some .input := by
      intro hop
      have hwait := (Machine.status_cycle_eq_awaitingInput_iff h.wellFormed hrun
        (h.fault_eq_none hrun)).2 hop
      cases halted.status.symm.trans hwait
    rw [Progress.next_of_ne hop] at hgoes
    cases halted.status.symm.trans hgoes

end Undisturbed

section progress

variable {start : Machine} (h : Undisturbed o start) (lines : List InputLine)

/-- The lines that a program has consumed are as many as the INPUT instructions it has executed. -/
theorem consumed_progress (mode : DisplayMode) (start : Machine) (n : Nat) :
    (progress mode lines start n).consumed =
      (entriesOf (progress mode lines start) n).countP fun m => m.cycle.1 = some .input := by
  induction n with
  | zero => rfl
  | succ n ih =>
    rw [entriesOf_succ, List.countP_append, ← ih, progress, Progress.next, List.countP_singleton]
    simp only [decide_eq_true_eq]
    split <;> rfl

/-- A program depends on the lines that it consumes, and on no others. -/
theorem progress_congr {mode : DisplayMode} {start : Machine} {lines lines' : List InputLine}
    {n : Nat} (hsame : ∀ i < (progress mode lines start n).consumed, lines'[i]? = lines[i]?) :
    ∀ i ≤ n, progress mode lines' start i = progress mode lines start i := by
  induction n with
  | zero =>
    intro i hi
    rw [Nat.le_zero.1 hi]
    rfl
  | succ n ih =>
    rw [progress] at hsame
    have hbefore := ih fun i hi => hsame i (Nat.lt_of_lt_of_le hi Progress.consumed_le_next)
    intro i hi
    rcases Nat.le_succ_iff.1 hi with hle | rfl
    · exact hbefore i hle
    · rw [progress, progress, hbefore n (Nat.le_refl n)]
      by_cases hop : (progress mode lines start n).machine.cycle.1 = some .input
      · rw [Progress.next_of_input hop] at hsame ⊢
        rw [Progress.next_of_input hop, hsame _ (Nat.lt_succ_self _)]
      · rw [Progress.next_of_ne hop, Progress.next_of_ne hop]

include h

theorem Undisturbed.progress (n : Nat) :
    Undisturbed o (progress o.inputMode lines start n).machine := by
  induction n with
  | zero => exact h
  | succ n ih => exact ih.next lines

theorem output_progress (n : Nat) :
    (progress o.inputMode lines start n).machine.output =
      start.output ++ Machine.printed (entriesOf (progress o.inputMode lines start) n) := by
  induction n with
  | zero => exact Array.append_empty.symm
  | succ n ih =>
    rw [progress, Progress.output_next, Machine.output_cycle (h.progress lines n).wellFormed, ih,
      entriesOf_succ, Machine.printed_append, Array.append_assoc]

theorem toNat_cycles_progress (hcycles : start.cycles = 0) {n : Nat} (hn : n < 2 ^ 64)
    (hrun : ∀ i ≤ n, (progress o.inputMode lines start i).machine.status = .running) :
    (progress o.inputMode lines start n).machine.cycles.toNat = n := by
  induction n with
  | zero => rw [progress, hcycles]; rfl
  | succ n ih =>
    have hbefore := ih (by omega) fun i hi => hrun i (by omega)
    have hnext := (h.progress lines n).cycles_next (hrun n (by omega)) (hrun (n + 1) (by omega))
    rw [progress, hnext, UInt64.toNat_add, hbefore]
    exact Nat.mod_eq_of_lt hn

end progress

end CommandLine

end AccumulatorMachine
