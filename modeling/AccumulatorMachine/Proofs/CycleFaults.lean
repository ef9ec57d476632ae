import Mathlib.Algebra.Group.Nat.Defs
import AccumulatorMachine.Proofs.InstructionTable

/-!
# The faults of a cycle

Which fault a cycle raises can be read off the machine before it: of four possible ones the first
that applies is raised, and there are no others. A fault in a fetch leaves the instruction where it
is and does not count it. A fault in an execution comes after PC has gone on and is counted. Neither
reaches anything that the program computes with.
-/

namespace AccumulatorMachine

namespace Opcode

theorem ofNibble_eq_ok_iff {n : Byte} {op : Opcode} : ofNibble n = .ok op ↔ n = op.nibble := by
  have hall : ∀ i, ∀ h : i < all.length, all[i].nibble.toNat = i := by decide
  constructor
  · intro h
    unfold ofNibble at h
    split at h
    next op' hop =>
      cases h
      obtain ⟨hlt, rfl⟩ := List.getElem?_eq_some_iff.1 hop
      exact BitVec.eq_of_toNat_eq (hall _ hlt).symm
    next => cases h
  · rintro rfl
    exact ofNibble_nibble op

theorem ofNibble_eq_error_iff {n : Byte} {e : DecodeError} :
    ofNibble n = .error e ↔ 15 ≤ n.toNat ∧ e = .illegalOpcode n := by
  unfold ofNibble
  split
  next op hop =>
    obtain ⟨hlt, -⟩ := List.getElem?_eq_some_iff.1 hop
    have hlength : all.length = 15 := rfl
    simp only [reduceCtorEq, false_iff]
    omega
  next hnone =>
    have hge : 15 ≤ n.toNat := List.getElem?_eq_none_iff.1 hnone
    simp [hge, eq_comm]

end Opcode

namespace Word

theorem decode_eq_ok_iff {w : Word} {op : Opcode} :
    w.decode = .ok op ↔ w.opcodeNibble = op.nibble :=
  Opcode.ofNibble_eq_ok_iff

theorem decode_eq_error_iff {w : Word} {e : DecodeError} :
    w.decode = .error e ↔ w.opcodeNibble = 15 ∧ e = .illegalOpcode 15 := by
  have hlt := w.isLt
  have hnibble := w.toNat_opcodeNibble
  unfold decode
  rw [Opcode.ofNibble_eq_error_iff]
  constructor
  · rintro ⟨hge, rfl⟩
    have h : w.opcodeNibble = 15 := BitVec.eq_of_toNat_eq (by simp; omega)
    exact ⟨h, by rw [h]⟩
  · rintro ⟨h, rfl⟩
    rw [h]
    exact ⟨by decide, rfl⟩

theorem opcodeNibble_ne_of_decode {w : Word} {op : Opcode} (h : w.decode = .ok op) :
    w.opcodeNibble ≠ 15 := by
  intro hnibble
  cases h.symm.trans (decode_eq_error_iff.2 ⟨hnibble, rfl⟩)

theorem toLocation_lt_iff (w : Word) :
    w.toLocation.toNat < memorySize ↔ 0 ≤ w.toInt ∧ w.toInt ≤ 4095 := by
  have hint : w.toLocation.toInt = w.toInt := BitVec.toInt_signExtend_of_le (by decide)
  rw [toNat_lt_memorySize_iff (by decide), hint]

end Word

namespace Condition

theorem ofWord_eq_error_iff {w : Word} {e : DecodeError} :
    ofWord w = .error e ↔ w.toNat / 1024 % 4 = 3 ∧ e = .illegalCondition (bits w) := by
  have hbits : w.toNat / 1024 % 4 = 0 ∨ w.toNat / 1024 % 4 = 1 ∨ w.toNat / 1024 % 4 = 2 ∨
      w.toNat / 1024 % 4 = 3 := by
    omega
  unfold ofWord
  rw [toNat_bits]
  rcases hbits with h | h | h | h <;> simp [h, eq_comm]

end Condition

namespace Machine

/-- The fault that a cycle of a running machine raises, if it raises one. -/
def dueFault (m : Machine) : Option Fault :=
  let w := m.instruction
  let target := m.operand (m.operand w)
  if w.opcodeNibble = 15 then some (.illegalOpcode 15 (m.value .pc))
  else if (m.value .pc).toNat = 4095 then some .endOfMemory
  else if w.opcodeNibble = Opcode.skipCond.nibble ∧ w.toNat / 1024 % 4 = 3 then
    some (.illegalCondition (m.value .pc))
  else if w.opcodeNibble = Opcode.storeI.nibble ∧ ¬(0 ≤ target.toInt ∧ target.toInt ≤ 4095) then
    some (.addressOutOfRange target.toLocation)
  else none

/-- Whether an instruction word faults before it is executed. -/
def FaultsInFetch (m : Machine) : Prop :=
  m.instruction.opcodeNibble = 15 ∨ (m.value .pc).toNat = 4095

/-- Two machines between which nothing has changed that the program computes with. -/
structure Untouched (m n : Machine) : Prop where
  ac : n.registers.ac = m.registers.ac
  input : n.registers.input = m.registers.input
  output : n.registers.output = m.registers.output
  memory : n.memory = m.memory
  printed : n.output = m.output

namespace Untouched

variable {m n : Machine}

theorem assign (h : Untouched m n) {d : Designation} (hd : d ∈ [.ir, .mar, .mbr, .pc]) (k : Int) :
    Untouched m (n.assign d k) := by
  cases d with
  | ir | mar | mbr | pc => exact ⟨h.ac, h.input, h.output, h.memory, h.printed⟩
  | ac | input | output => simp at hd

theorem latch (m : Machine) : Untouched m m.latch := ⟨rfl, rfl, rfl, rfl, rfl⟩

theorem loadOperand (h : Untouched m n) (op : Opcode) (w : Word) :
    Untouched m (n.loadOperand op w) := by
  unfold Machine.loadOperand
  split
  · exact (h.assign (by simp) _).assign (by simp) _
  · exact h

theorem fetched (m : Machine) (op : Opcode) : Untouched m (m.fetched op) :=
  ((latch m).loadOperand op _).assign (by simp) _

theorem followed (h : Untouched m n) : Untouched m n.followed :=
  (h.assign (by simp) _).assign (by simp) _

end Untouched

/-- The machine that a fault leaves in a cycle of `m`: halted, with nothing changed that the program
computes with. -/
structure HaltedBy (f : Fault) (m n : Machine) : Prop extends Untouched m n where
  status : n.status = .haltedAbnormal
  fault : n.fault = some f

theorem Untouched.raise {m n : Machine} (h : Untouched m n) (hclear : n.fault = none) (f : Fault) :
    HaltedBy f m (n.raise f) where
  toUntouched := ⟨h.ac, h.input, h.output, h.memory, h.printed⟩
  status := status_raise n f
  fault := by simp [Machine.raise, halt, hclear]

theorem HaltedBy.counted {f : Fault} {m n : Machine} (h : HaltedBy f m n) (op : Opcode) :
    HaltedBy f m (n.counted op) where
  toUntouched := ⟨h.ac, h.input, h.output, h.memory, h.printed⟩
  status := h.status
  fault := h.fault

/-- Two instructions can fault: a conditional skip without a condition, and an indirect store to a
location without a cell. -/
theorem Ready.execute_eq_error_iff {m m' : Machine} {op : Opcode} {w : Word} {f : Fault}
    (r : m.Ready op w) :
    (Action.execute op).run m = .error f m' ↔
      (op = .skipCond ∧ w.toNat / 1024 % 4 = 3 ∧ f = .illegalCondition (m.value .mar) ∧ m' = m) ∨
      (op = .storeI ∧
        ¬(0 ≤ (m.operand (m.operand w)).toInt ∧ (m.operand (m.operand w)).toInt ≤ 4095) ∧
        f = .addressOutOfRange (m.operand (m.operand w)).toLocation ∧ m' = m.followed) := by
  have h := r.wellFormed
  cases op with
  | jns => simp [run_execute_jns h]
  | load => simp [run_execute_load]
  | store => simp [run_execute_store h]
  | add => simp [run_execute_add]
  | subt => simp [run_execute_subt]
  | input => simp [run_execute_input]
  | output => simp [run_execute_output]
  | halt => simp [run_execute_halt]
  | skipCond =>
    rw [run_execute_skipCond, r.ir]
    cases hc : Condition.ofWord w with
    | error e =>
      obtain ⟨hbits, rfl⟩ := Condition.ofWord_eq_error_iff.1 hc
      simp [hbits, Fault.ofDecodeError, eq_comm]
    | ok c =>
      have hbits : w.toNat / 1024 % 4 ≠ 3 := by
        intro hbits
        cases hc.symm.trans (Condition.ofWord_eq_error_iff.2 ⟨hbits, rfl⟩)
      simp [hbits]
  | jump => simp [run_execute_jump]
  | clear => simp [run_execute_clear]
  | addI => simp [run_execute_addI h]
  | jumpI => simp [run_execute_jumpI]
  | loadI => simp [run_execute_loadI h]
  | storeI =>
    have hmbr : m.followed.value .mbr = m.operand (m.operand w) := r.followed_mbr rfl
    rw [run_execute_storeI h, hmbr, ← Word.toLocation_lt_iff]
    split
    next hlt => simp [hlt]
    next hle => simp [hle, eq_comm]

section cycle

variable {m : Machine} (h : m.WellFormed) (hrun : m.status = .running) (hfault : m.fault = none)
include h hrun hfault

theorem cycle_of_faultsInFetch (hfetch : m.FaultsInFetch) :
    ∃ f, m.dueFault = some f ∧ HaltedBy f m m.cycle.2 ∧
      m.cycle.2.value .pc = m.value .pc ∧ m.cycle.2.cycles = m.cycles ∧
      m.cycle.2.lastOpcode = m.lastOpcode := by
  have hl := wellFormed_latch h
  rcases cycle_cases hrun hfault h with
    ⟨e, hdecode, hcycle⟩ | ⟨op, hdecode, hlast, hcycle⟩ | ⟨op, hdecode, hroom, -⟩
  · obtain ⟨hnibble, rfl⟩ := Word.decode_eq_error_iff.1 hdecode
    rw [hcycle]
    refine ⟨_, if_pos hnibble, (Untouched.latch m).raise hfault _, ?_, rfl, rfl⟩
    exact (value_latch h .pc).trans (by simp)
  · have hnibble : m.instruction.opcodeNibble ≠ 15 := Word.opcodeNibble_ne_of_decode hdecode
    have hclear : (m.latch.loadOperand op m.instruction).fault = none := by
      unfold loadOperand
      split <;> exact hfault
    rw [hcycle]
    refine ⟨.endOfMemory, ?_, ((Untouched.latch m).loadOperand op _).raise hclear _, ?_, ?_, ?_⟩
    · rw [dueFault, if_neg hnibble, if_pos hlast]
    · change (m.latch.loadOperand op m.instruction).value .pc = _
      rw [value_loadOperand hl, value_latch h]
      simp
    all_goals
      unfold loadOperand
      split <;> rfl
  · rcases hfetch with hnibble | hlast
    · exact (Word.opcodeNibble_ne_of_decode hdecode hnibble).elim
    · omega

theorem cycle_of_not_faultsInFetch (hfetch : ¬m.FaultsInFetch) :
    ∃ op, m.instruction.decode = .ok op ∧ (m.value .pc).toNat < 4095 ∧
      m.cycle = (some op, (settle ((Action.execute op).run (m.fetched op))).counted op) := by
  rcases cycle_cases hrun hfault h with ⟨e, hdecode, -⟩ | ⟨op, -, hlast, -⟩ | hexecutes
  · exact (hfetch (.inl (Word.decode_eq_error_iff.1 hdecode).1)).elim
  · exact (hfetch (.inr hlast)).elim
  · exact hexecutes

omit hrun hfault in
/-- Which instruction a cycle executes, if it executes one. -/
theorem cycle_fst_eq_some_iff {op : Opcode} :
    m.cycle.1 = some op ↔ m.status = .running ∧ m.fault = none ∧
      m.instruction.decode = .ok op ∧ (m.value .pc).toNat < 4095 := by
  by_cases hrun : m.status = .running
  · by_cases hfault : m.fault = none
    · rcases cycle_cases hrun hfault h with
        ⟨e, hdecode, hcycle⟩ | ⟨op', -, hlast, hcycle⟩ | ⟨op', hdecode, hroom, hcycle⟩
      · simp [hcycle, hdecode]
      · simp [hcycle, hlast]
      · simp [hcycle, hdecode, hrun, hfault, hroom]
    · simp [cycle_of_fault hrun hfault, hfault]
  · simp [cycle_of_ne hrun, hrun]

end cycle

theorem dueFault_eq_none_of_decode {m : Machine} {op : Opcode}
    (hdecode : m.instruction.decode = .ok op) (hroom : (m.value .pc).toNat ≠ 4095)
    (hskipCond : op ≠ .skipCond) (hstoreI : op ≠ .storeI) : m.dueFault = none := by
  rw [dueFault, Word.decode_eq_ok_iff.1 hdecode, if_neg, if_neg hroom, if_neg, if_neg]
  all_goals
    cases op <;> simp_all [Opcode.nibble]

section execution

variable {m : Machine} {op : Opcode} (h : m.WellFormed) (hdecode : m.instruction.decode = .ok op)
  (hroom : (m.value .pc).toNat < 4095)
include h hdecode hroom

theorem execute_fetched_eq_error_iff {m' : Machine} {f : Fault} :
    (Action.execute op).run (m.fetched op) = .error f m' ↔
      m.dueFault = some f ∧
        m' = if op = .storeI then (m.fetched op).followed else m.fetched op := by
  have hnibble := Word.decode_eq_ok_iff.1 hdecode
  have hpc : (m.value .pc).toNat ≠ 4095 := by omega
  have hmar (hop : op.needsOperand = false) : (m.fetched op).value .mar = m.value .pc := by
    rw [value_fetched h op (by decide), value_latch h]
    simp [hop]
  have hoperand (w : Word) : (m.fetched op).operand w = m.operand w := by
    rw [operand, operand, memory_fetched]
  rw [(ready_fetched h op).execute_eq_error_iff, dueFault, hoperand, hoperand]
  simp only [hnibble, hpc]
  cases op with
  | skipCond =>
    rw [hmar rfl]
    by_cases hbits : m.instruction.toNat / 1024 % 4 = 3 <;>
      simp [Opcode.nibble, hbits, eq_comm]
  | storeI =>
    by_cases hcell : 0 ≤ (m.operand (m.operand m.instruction)).toInt ∧
        (m.operand (m.operand m.instruction)).toInt ≤ 4095 <;>
      simp [Opcode.nibble, hcell, eq_comm]
  | _ => simp [Opcode.nibble]

end execution

section cycle

variable {m : Machine} (h : m.WellFormed) (hrun : m.status = .running) (hfault : m.fault = none)
include h hrun hfault

theorem cycle_of_not_faultsInFetch_of_dueFault {f : Fault} (hfetch : ¬m.FaultsInFetch)
    (hdue : m.dueFault = some f) :
    HaltedBy f m m.cycle.2 ∧ (m.cycle.2.value .pc).toNat = (m.value .pc).toNat + 1 ∧
      m.cycle.2.cycles = m.cycles + 1 := by
  obtain ⟨op, hdecode, hroom, hcycle⟩ := cycle_of_not_faultsInFetch h hrun hfault hfetch
  have hfetched := Untouched.fetched m op
  have hclear : (m.fetched op).fault = none := (fault_fetched m op).trans hfault
  have hpc : ((m.fetched op).value .pc).toNat = (m.value .pc).toNat + 1 :=
    congrArg Visible.pc (visible_fetched h hroom op)
  have hcycles : (m.fetched op).cycles + 1 = m.cycles + 1 := by rw [cycles_fetched]
  rw [hcycle, (execute_fetched_eq_error_iff h hdecode hroom).2 ⟨hdue, rfl⟩]
  split
  · have hfollowed : (m.fetched op).followed.value .pc = (m.fetched op).value .pc :=
      value_followed (wellFormed_fetched h op) (by decide) (by decide)
    rw [← hfollowed] at hpc
    exact ⟨(hfetched.followed.raise hclear f).counted op, hpc, hcycles⟩
  · exact ⟨(hfetched.raise hclear f).counted op, hpc, hcycles⟩

/-- Wherever the due fault comes up, it leaves what the program computes with. -/
theorem cycle_of_dueFault {f : Fault} (hdue : m.dueFault = some f) : HaltedBy f m m.cycle.2 := by
  by_cases hfetch : m.FaultsInFetch
  · obtain ⟨g, hg, halted, -⟩ := cycle_of_faultsInFetch h hrun hfault hfetch
    cases hdue.symm.trans hg
    exact halted
  · exact (cycle_of_not_faultsInFetch_of_dueFault h hrun hfault hfetch hdue).1

/-- If no fault is due, the instruction is executed and does what the table says. -/
theorem cycle_of_dueFault_eq_none (hdue : m.dueFault = none) :
    ∃ op, m.instruction.decode = .ok op ∧ (m.value .pc).toNat < 4095 ∧ m.cycle.1 = some op ∧
      m.cycle.2.fault = none ∧ m.cycle.2.cycles = m.cycles + 1 ∧
      m.cycle.2.visible = { m.visible with pc := (m.value .pc).toNat + 1 }.perform op
        m.instruction m.registers.output.mode := by
  have hfetch : ¬m.FaultsInFetch := by
    intro hfetch
    obtain ⟨f, hf, -⟩ := cycle_of_faultsInFetch h hrun hfault hfetch
    cases hdue.symm.trans hf
  obtain ⟨op, hdecode, hroom, hcycle⟩ := cycle_of_not_faultsInFetch h hrun hfault hfetch
  rw [hcycle]
  cases hx : (Action.execute op).run (m.fetched op) with
  | error f m' =>
    cases hdue.symm.trans ((execute_fetched_eq_error_iff h hdecode hroom).1 hx).1
  | ok _ m' =>
    have hclear : (m.fetched op).fault = none := (fault_fetched m op).trans hfault
    have hmode : (m.fetched op).registers.output.mode = m.registers.output.mode :=
      mode_fetched m op .output
    obtain ⟨hvisible, hnone, -, hcycles⟩ := (ready_fetched h op).execute_visible hclear hx
    rw [visible_fetched h hroom, hmode] at hvisible
    rw [cycles_fetched] at hcycles
    exact ⟨op, hdecode, hroom, rfl, hnone, congrArg (· + 1) hcycles, hvisible⟩

/-- A cycle raises the fault that is due, and no other. -/
theorem cycle_faults_exactly (hcount : m.cycles.toNat + 1 < 2 ^ 64) :
    m.cycle.2.fault = m.dueFault ∧
      ∀ f, m.dueFault = some f → HaltedBy f m m.cycle.2 ∧
        (m.FaultsInFetch → m.cycle.2.value .pc = m.value .pc ∧ m.cycle.2.cycles = m.cycles ∧
          m.cycle.2.lastOpcode = m.lastOpcode) ∧
        (¬m.FaultsInFetch → (m.cycle.2.value .pc).toNat = (m.value .pc).toNat + 1 ∧
          m.cycle.2.cycles.toNat = m.cycles.toNat + 1) := by
  constructor
  · cases hdue : m.dueFault with
    | none =>
      obtain ⟨op, -, -, -, hnone, -, -⟩ := cycle_of_dueFault_eq_none h hrun hfault hdue
      exact hnone
    | some f => exact (cycle_of_dueFault h hrun hfault hdue).fault
  · intro f hdue
    refine ⟨cycle_of_dueFault h hrun hfault hdue, fun hfetch => ?_, fun hfetch => ?_⟩
    · obtain ⟨-, -, -, hkept⟩ := cycle_of_faultsInFetch h hrun hfault hfetch
      exact hkept
    · obtain ⟨-, hpc, hcycles⟩ :=
        cycle_of_not_faultsInFetch_of_dueFault h hrun hfault hfetch hdue
      refine ⟨hpc, ?_⟩
      rw [hcycles, UInt64.toNat_add]
      exact Nat.mod_eq_of_lt hcount

end cycle

/-- A machine about to store through a pointer to the location -5. -/
def pointingBelow : Machine := ((blank.put 0 0xE001).put 1 2).put 2 0xFFFB

/-- An indirect store to a location below the first cell stops behind the instruction. -/
theorem cycle_faults_exactly_pointingBelow :
    pointingBelow.WellFormed ∧ pointingBelow.status = .running ∧ pointingBelow.fault = none ∧
      pointingBelow.cycles.toNat + 1 < 2 ^ 64 ∧
      HaltedBy (.addressOutOfRange (-5)) pointingBelow pointingBelow.cycle.2 ∧
      (pointingBelow.cycle.2.value .pc).toNat = 1 ∧ pointingBelow.cycle.2.cycles.toNat = 1 := by
  have hw : pointingBelow.WellFormed := by
    simp only [pointingBelow, wellFormed_put]
    exact wellFormed_new
  have hdue : pointingBelow.dueFault = some (.addressOutOfRange (-5)) := by decide +kernel
  have hfetch : ¬pointingBelow.FaultsInFetch := by
    unfold FaultsInFetch
    decide +kernel
  obtain ⟨halted, -, hexecuted⟩ := (cycle_faults_exactly hw rfl rfl (by decide)).2 _ hdue
  obtain ⟨hpc, hcycles⟩ := hexecuted hfetch
  exact ⟨hw, rfl, rfl, by decide, halted, hpc, hcycles⟩

end Machine

end AccumulatorMachine
