import AccumulatorMachine.Proofs.CycleFaults
import AccumulatorMachine.Proofs.FaultAgreement

/-!
# What follows an instruction

The address behind an instruction that is not a jump. A fetch faults if there is no cell behind the
one it reads. But a skip and a subroutine call add to an address once more, after that check, and
leave the sum to the twelve bits of PC: from the end of memory they go on at the first cell.
-/

namespace AccumulatorMachine

theorem Visible.pc_perform (v : Visible) {op : Opcode} (hjump : op ≠ .jump) (hjumpI : op ≠ .jumpI)
    (w : Word) (mode : DisplayMode) :
    (v.perform op w mode).pc =
      if op = .jns then (w.toNat % 4096 + 1) % 4096
      else if op = .skipCond ∧ skips (w.toNat / 1024 % 4) v.ac then (v.pc + 1) % 4096
      else v.pc := by
  cases op with
  | jump => exact (hjump rfl).elim
  | jumpI => exact (hjumpI rfl).elim
  | skipCond =>
    rw [perform]
    split <;> simp [*]
  | _ => rfl

namespace Machine

/-- The address behind an instruction: behind the skipped cell, behind the cell that takes the
return address, or behind the instruction itself. It may be one more than the last cell's. -/
def successor (m : Machine) : Nat :=
  let w := m.instruction
  if w.decode = .ok .jns then w.toNat % 4096 + 1
  else if w.decode = .ok .skipCond ∧ skips (w.toNat / 1024 % 4) (m.value .ac) then
    (m.value .pc).toNat + 2
  else (m.value .pc).toNat + 1

section cycle

variable {m : Machine} (h : m.WellFormed) (hrun : m.status = .running) (hfault : m.fault = none)
  {op : Opcode} (hdecode : m.instruction.decode = .ok op)
include h hrun hfault hdecode

theorem cycle_of_last (hlast : (m.value .pc).toNat = 4095) :
    m.cycle.2.fault = some .endOfMemory ∧ m.cycle.2.status = .haltedAbnormal := by
  have hdue : m.dueFault = some .endOfMemory := by
    rw [dueFault, if_neg (Word.opcodeNibble_ne_of_decode hdecode), if_pos hlast]
  have halted := cycle_of_dueFault h hrun hfault hdue
  exact ⟨halted.fault, halted.status⟩

/-- An instruction that is not a jump and does not fault goes on at its successor, in twelve bits.
-/
theorem cycle_of_next (hjump : op ≠ .jump) (hjumpI : op ≠ .jumpI) (hdue : m.dueFault = none) :
    (m.cycle.2.value .pc).toNat = m.successor % 4096 ∧ m.cycle.2.fault = none ∧
      (memorySize ≤ m.successor → m.cycle.2.status = .running) := by
  obtain ⟨op', hdecode', hroom, -, hnone, -, hvisible⟩ :=
    cycle_of_dueFault_eq_none h hrun hfault hdue
  cases hdecode.symm.trans hdecode'
  have hlt : m.instruction.toNat % 4096 < 4096 := Nat.mod_lt _ (by decide)
  have hpc := congrArg Visible.pc hvisible
  have hstatus := congrArg Visible.status hvisible
  rw [Visible.pc_perform _ hjump hjumpI] at hpc
  rw [Visible.status_perform] at hstatus
  simp only [visible, hrun] at hpc hstatus
  rw [hpc, hstatus, successor, hdecode]
  simp only [Except.ok.injEq, memorySize]
  refine ⟨?_, hnone, ?_⟩
  · split_ifs <;> omega
  · by_cases hjns : op = .jns
    · simp [hjns]
    · split_ifs <;> simp_all

omit hrun hfault hdecode in
theorem dueFault_eq_none_of_le_successor (hroom : (m.value .pc).toNat ≠ 4095)
    (hlast : memorySize ≤ m.successor) : m.dueFault = none := by
  have hlt := toNat_value_lt h (d := .pc) rfl
  rw [successor, memorySize] at hlast
  split_ifs at hlast with hjns hskip
  · exact dueFault_eq_none_of_decode hjns hroom (by decide) (by decide)
  · have hnibble := Word.decode_eq_ok_iff.1 hskip.1
    have hbits : m.instruction.toNat / 1024 % 4 ≠ 3 := by
      intro hbits
      rw [hbits] at hskip
      exact hskip.2
    simp [dueFault, hnibble, hroom, hbits, Opcode.nibble]
  · omega

omit hrun hfault hdecode in
theorem successor_le (hroom : (m.value .pc).toNat ≠ 4095) : m.successor ≤ memorySize := by
  have hlt := toNat_value_lt h (d := .pc) rfl
  have hoperand : m.instruction.toNat % 4096 < 4096 := Nat.mod_lt _ (by decide)
  rw [successor, memorySize]
  split_ifs <;> omega

/-- A cycle of an instruction that is not a jump halts abnormally or reaches the address behind it,
unless the instruction is before the last cell and the address behind it is not a cell: then the
machine goes on at the first cell, and no fault tells of it. -/
theorem successor_reached_iff (hjump : op ≠ .jump) (hjumpI : op ≠ .jumpI) :
    (m.cycle.2.status = .haltedAbnormal ∨ (m.cycle.2.value .pc).toNat = m.successor ↔
      m.successor < memorySize ∨ (m.value .pc).toNat = 4095) ∧
    ((m.value .pc).toNat = 4095 →
      m.cycle.2.fault = some .endOfMemory ∧ m.cycle.2.status = .haltedAbnormal) ∧
    (memorySize ≤ m.successor → (m.value .pc).toNat ≠ 4095 →
      m.cycle.2.status = .running ∧ m.cycle.2.fault = none ∧
        (m.cycle.2.value .pc).toNat = 0) := by
  by_cases hend : (m.value .pc).toNat = 4095
  · have halted := cycle_of_last h hrun hfault hdecode hend
    exact ⟨⟨fun _ => .inr hend, fun _ => .inl halted.2⟩, fun _ => halted,
      fun _ hn => (hn hend).elim⟩
  · rcases Nat.lt_or_ge m.successor memorySize with hcell | hlast
    · refine ⟨⟨fun _ => .inl hcell, fun _ => ?_⟩, fun he => (hend he).elim, ?_⟩
      · cases hdue : m.dueFault with
        | some f => exact .inl (cycle_of_dueFault h hrun hfault hdue).status
        | none =>
          obtain ⟨hpc, -⟩ := cycle_of_next h hrun hfault hdecode hjump hjumpI hdue
          exact .inr (hpc.trans (Nat.mod_eq_of_lt hcell))
      · intro hlast
        omega
    · have hdue := dueFault_eq_none_of_le_successor h hend hlast
      have hsuccessor : m.successor = memorySize := Nat.le_antisymm (successor_le h hend) hlast
      obtain ⟨hpc, hnone, hstatus⟩ := cycle_of_next h hrun hfault hdecode hjump hjumpI hdue
      rw [hsuccessor] at hpc ⊢
      refine ⟨⟨?_, ?_⟩, fun he => (hend he).elim, fun _ _ => ⟨hstatus hlast, hnone, hpc⟩⟩
      · rintro (habnormal | hreached)
        · cases (hstatus hlast).symm.trans habnormal
        · cases hpc.symm.trans hreached
      · rintro (hcell | he)
        · omega
        · exact (hend he).elim

end cycle

end Machine

namespace Controller

def skipping : Controller :=
  ((new .default).after 0 (.call (.load (.ok (.ofWords 4094 [0x8400, 0x7000]))))).after 0
    (.call .restart)

def calling : Controller :=
  ((new .default).after 0 (.call (.load (.ok (.ofWords 0 [0x0FFF]))))).after 0 (.call .restart)

/-- A skip over the last cell goes on at the first. -/
theorem successor_reached_iff_skipping :
    skipping.machine.WellFormed ∧ skipping.machine.status = .running ∧
      skipping.machine.fault = none ∧ skipping.machine.instruction.decode = .ok .skipCond ∧
      ¬(skipping.machine.cycle.2.status = .haltedAbnormal ∨
        (skipping.machine.cycle.2.value .pc).toNat = skipping.machine.successor) ∧
      (skipping.machine.cycle.2.value .pc).toNat = 0 := by
  have hw : skipping.machine.WellFormed :=
    (Reachable.after 0 (.after 0 (.new .default) rfl) rfl : Reachable skipping).sound.wellFormed
  have hrun : skipping.machine.status = .running := by decide +kernel
  have hfault : skipping.machine.fault = none := by decide +kernel
  have hdecode : skipping.machine.instruction.decode = .ok .skipCond := by decide +kernel
  have hlast : skipping.machine.successor = memorySize := by decide +kernel
  have hend : (skipping.machine.value .pc).toNat = 4094 := by decide +kernel
  obtain ⟨hiff, -, hwraps⟩ :=
    Machine.successor_reached_iff hw hrun hfault hdecode (by decide) (by decide)
  obtain ⟨-, -, hpc⟩ := hwraps (by omega) (by omega)
  exact ⟨hw, hrun, hfault, hdecode, by rw [hiff]; omega, hpc⟩

/-- A skip and a call, each reached from a new controller and each without a fault, go on at the
first cell and run. They have neither halted nor come to the address behind them. -/
theorem end_of_memory_passed :
    (Reachable skipping ∧
      (skipping.machine.status = .running ∧ skipping.machine.fault = none ∧
        skipping.machine.instruction.decode = .ok .skipCond ∧
        skipping.machine.successor = 4096) ∧
      ¬(skipping.machine.cycle.2.status = .haltedAbnormal ∨
        (skipping.machine.cycle.2.value .pc).toNat = skipping.machine.successor) ∧
      skipping.machine.cycle.2.status = .running ∧ skipping.machine.cycle.2.fault = none ∧
      skipping.machine.cycle.2.value .pc = 0) ∧
    (Reachable calling ∧
      (calling.machine.status = .running ∧ calling.machine.fault = none ∧
        calling.machine.instruction.decode = .ok .jns ∧ calling.machine.successor = 4096) ∧
      ¬(calling.machine.cycle.2.status = .haltedAbnormal ∨
        (calling.machine.cycle.2.value .pc).toNat = calling.machine.successor) ∧
      calling.machine.cycle.2.status = .running ∧ calling.machine.cycle.2.fault = none ∧
      calling.machine.cycle.2.value .pc = 0) := by
  refine ⟨⟨.after 0 (.after 0 (.new .default) rfl) rfl, ?start, ?notReached⟩,
    ⟨.after 0 (.after 0 (.new .default) rfl) rfl, ?startCall, ?notReachedCall⟩⟩
  all_goals decide +kernel

end Controller

end AccumulatorMachine
