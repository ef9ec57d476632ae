import AccumulatorMachine.Proofs.InstructionTable
import AccumulatorMachine.Proofs.Operations
import AccumulatorMachine.Proofs.Simulation

/-!
# Machines whose state and fault agree

A consistent machine has halted abnormally exactly if a fault is recorded, and waits for input only
behind an INPUT instruction. What is done to a machine keeps it consistent; a halt and a load make
it so.
-/

namespace AccumulatorMachine

theorem Visible.status_perform (v : Visible) (op : Opcode) (w : Word) (mode : DisplayMode) :
    (v.perform op w mode).status =
      if op = .input then .awaitingInput else if op = .halt then .haltedNormal else v.status := by
  cases op with
  | skipCond =>
    rw [perform]
    split <;> rfl
  | _ => rfl

namespace Machine

/-- State and fault agree, and so do the state and the last instruction. -/
structure Consistent (m : Machine) : Prop where
  fault_iff : m.fault.isSome = true ↔ m.status = .haltedAbnormal
  initialized : m.status ≠ .uninitialized
  awaiting : m.status = .awaitingInput → m.lastOpcode = some .input

namespace Consistent

variable {m : Machine}

theorem of_fault_eq_none (hfault : m.fault = none) (habnormal : m.status ≠ .haltedAbnormal)
    (hinit : m.status ≠ .uninitialized)
    (hwait : m.status = .awaitingInput → m.lastOpcode = some .input) : m.Consistent where
  fault_iff := by simp [hfault, habnormal]
  initialized := hinit
  awaiting := hwait

theorem fault_eq_none (h : m.Consistent) (habnormal : m.status ≠ .haltedAbnormal) :
    m.fault = none := by
  cases hfault : m.fault with
  | none => rfl
  | some f => exact (habnormal (h.fault_iff.1 (by simp [hfault]))).elim

theorem ne_haltedAbnormal (h : m.Consistent) (hfault : m.fault = none) :
    m.status ≠ .haltedAbnormal := by
  intro habnormal
  have hsome := h.fault_iff.2 habnormal
  rw [hfault] at hsome
  cases hsome

theorem withStatus (h : m.Consistent) (habnormal : m.status ≠ .haltedAbnormal) {s : Status}
    (hs : s = .running ∨ s = .paused ∨ s = .haltedByUser) :
    Consistent { m with status := s } := by
  have hfault := h.fault_eq_none habnormal
  rcases hs with rfl | rfl | rfl
  · exact of_fault_eq_none hfault nofun nofun nofun
  · exact of_fault_eq_none hfault nofun nofun nofun
  · exact of_fault_eq_none hfault nofun nofun nofun

theorem halt (m : Machine) : m.halt.Consistent := by
  cases hfault : m.fault <;> constructor <;> simp [Machine.halt, hfault]

theorem raise (m : Machine) (f : Fault) : (m.raise f).Consistent := halt _

theorem reset (m : Machine) : m.reset.Consistent := of_fault_eq_none rfl nofun nofun nofun

theorem restart (h : m.Consistent) : m.restart.Consistent := by
  unfold Machine.restart
  split
  · exact of_fault_eq_none rfl nofun nofun nofun
  · exact h

theorem completeInput (h : m.Consistent) (hwait : m.status = .awaitingInput) (n : Int) :
    (m.completeInput n).Consistent := by
  have hfault : m.fault = none := h.fault_eq_none (by simp [hwait])
  exact of_fault_eq_none hfault nofun nofun nofun

theorem begin (h : m.Consistent) : m.begin.Consistent := by
  unfold Machine.begin
  split
  · exact h.restart
  · exact h.restart
  · exact h.restart
  · exact h.withStatus (by simp [*]) (.inl rfl)
  · exact h

theorem pauseAtBreakpoint (h : m.Consistent) : m.pauseAtBreakpoint.Consistent := by
  unfold Machine.pauseAtBreakpoint
  split
  next hbreak =>
    exact h.withStatus (by simp [status_of_atBreakpoint hbreak]) (.inr (.inl rfl))
  next => exact h

theorem afterLoad (m : Machine) (image : Image) : (m.afterLoad image).Consistent := by
  unfold Machine.afterLoad
  rw [run_load]
  cases image.lines with
  | error e => exact reset m
  | ok lines => exact of_fault_eq_none rfl nofun nofun nofun

/-- The machine that an executed instruction leaves has raised its fault, or has none and is in the
state that the instruction table gives it. -/
theorem executed (hw : m.WellFormed) (hrun : m.status = .running) (hfault : m.fault = none)
    (hroom : (m.value .pc).toNat < 4095) (op : Opcode) :
    ((settle ((Action.execute op).run (m.fetched op))).counted op).Consistent := by
  have hready := ready_fetched hw op
  have hclear : (m.fetched op).fault = none := (fault_fetched m op).trans hfault
  cases hx : (Action.execute op).run (m.fetched op) with
  | error f m' =>
    have hraise := raise m' f
    exact ⟨hraise.fault_iff, hraise.initialized, fun hwait => by
      cases (status_raise m' f).symm.trans hwait⟩
  | ok _ m' =>
    obtain ⟨hvisible, hnone, -, -⟩ := hready.execute_visible hclear hx
    -- The table says which state the instruction leaves, and only INPUT leaves it waiting.
    have hstatus : m'.status =
        if op = .input then .awaitingInput else if op = .halt then .haltedNormal else .running := by
      have h := congrArg Visible.status hvisible
      rwa [Visible.status_perform, visible_fetched hw hroom,
        show m.visible.status = .running from hrun] at h
    refine of_fault_eq_none (m := m'.counted op) hnone ?_ ?_ ?_
    all_goals
      change m'.status = _ → _
      rw [hstatus]
    · split_ifs <;> nofun
    · split_ifs <;> nofun
    · split_ifs with hop
      · intro _
        rw [hop]
        rfl
      · nofun
      · nofun

theorem cycle (h : m.Consistent) (hw : m.WellFormed) : m.cycle.2.Consistent := by
  by_cases hrun : m.status = .running
  · have hfault : m.fault = none := h.fault_eq_none (by simp [hrun])
    rcases cycle_cases hrun hfault hw with
      ⟨e, -, hcycle⟩ | ⟨op, -, -, hcycle⟩ | ⟨op, -, hroom, hcycle⟩
    · rw [hcycle]
      exact raise _ _
    · rw [hcycle]
      exact raise _ _
    · rw [hcycle]
      exact executed hw hrun hfault hroom op
  · rw [cycle_of_ne hrun]
    exact h

end Consistent

variable {m : Machine}

theorem WellFormed.restart (h : m.WellFormed) : m.restart.WellFormed := by
  unfold Machine.restart
  split
  · exact h.assign .pc _
  · exact h

theorem WellFormed.begin (h : m.WellFormed) : m.begin.WellFormed := by
  unfold Machine.begin
  split
  · exact h.restart
  · exact h.restart
  · exact h.restart
  · exact h
  · exact h

theorem WellFormed.loadedWith (h : m.WellFormed) (lines : List Line) :
    (m.loadedWith lines).WellFormed := by
  have hplaced : (m.reset.placed lines).WellFormed := h.reset
  exact hplaced.assign .pc _

theorem WellFormed.afterLoad (h : m.WellFormed) (image : Image) :
    (m.afterLoad image).WellFormed := by
  unfold Machine.afterLoad
  rw [run_load]
  cases image.lines with
  | error e => exact h.reset
  | ok lines => exact h.loadedWith lines

theorem registers_pauseAtBreakpoint (m : Machine) :
    m.pauseAtBreakpoint.registers = m.registers := by
  unfold pauseAtBreakpoint
  split <;> rfl

end Machine

end AccumulatorMachine
