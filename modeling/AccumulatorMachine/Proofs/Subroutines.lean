import AccumulatorMachine.Proofs.Consistency
import AccumulatorMachine.Proofs.CycleFaults

/-!
# Subroutines

A call leaves the address behind it in a cell, and a jump through that cell goes back there. In
between, the subroutine may do anything but write that cell. Which cell an instruction writes can be
read off the machine before it, and no other cell changes.
-/

namespace AccumulatorMachine

namespace Word

theorem toNat_encode (op : Opcode) (operand : Word) :
    (encode op operand).toNat = op.nibble.toNat * 4096 + operand.toNat % 4096 := by
  have hnibble : op.nibble.toNat < 16 := by cases op <;> decide
  have hlow : operand.toNat % 4096 < 2 ^ 12 := Nat.mod_lt _ (by decide)
  have hhigh : (op.nibble.setWidth 16 <<< 12).toNat = op.nibble.toNat <<< 12 := by
    rw [BitVec.toNat_shiftLeft, BitVec.toNat_setWidth, Nat.shiftLeft_eq, Nat.shiftLeft_eq]
    omega
  rw [encode, BitVec.toNat_or, hhigh, toNat_low12, ← Nat.shiftLeft_add_eq_or_of_lt hlow,
    Nat.shiftLeft_eq]

theorem decode_encode (op : Opcode) (operand : Word) : (encode op operand).decode = .ok op := by
  rw [decode_eq_ok_iff]
  apply BitVec.eq_of_toNat_eq
  rw [toNat_opcodeNibble, toNat_encode]
  omega

theorem toNat_encode_mod (op : Opcode) (operand : Word) :
    (encode op operand).toNat % 4096 = operand.toNat % 4096 := by
  rw [toNat_encode]
  omega

end Word

namespace Machine

/-- The cell that the fetched instruction writes as an operation, if it writes one. -/
def target? (m : Machine) : Opcode → Option Nat
  | .jns | .store => some (m.instruction.toNat % 4096)
  | .storeI =>
    let place := (m.operand (m.operand m.instruction)).toNat
    if place < memorySize then some place else none
  | _ => none

def writes (m : Machine) (i : Nat) : Bool := m.cycle.1.any fun op => m.target? op = some i

/-- What an instruction leaves in the cell that it writes: a call the address behind itself, a store
the accumulator. -/
def written (m : Machine) : Word :=
  if m.cycle.1 = some .jns then BitVec.ofNat 16 ((m.value .pc).toNat + 1) else m.value .ac

theorem writes_iff {m : Machine} {i : Nat} :
    m.writes i = true ↔ ∃ op, m.cycle.1 = some op ∧ m.target? op = some i := by
  unfold writes
  cases m.cycle.1 <;> simp

theorem writes_of_cycle {m : Machine} {op : Opcode} (hop : m.cycle.1 = some op) (i : Nat) :
    m.writes i = decide (m.target? op = some i) := by
  rw [writes, hop]
  rfl

theorem writes_eq_false_of_cycle {m : Machine} {i : Nat} (h : m.cycle.1 = none) :
    m.writes i = false := by
  rw [writes, h]
  rfl

end Machine

theorem Visible.cell_perform (v : Visible) (op : Opcode) (w : Word) (mode : DisplayMode) :
    (v.perform op w mode).cell =
      match op with
      | .jns => Function.update v.cell (w.toNat % 4096) (BitVec.ofNat 16 v.pc)
      | .store => Function.update v.cell (w.toNat % 4096) v.ac
      | .storeI =>
        Function.update v.cell (v.cell ((v.cell (w.toNat % 4096)).toNat % 4096)).toNat v.ac
      | _ => v.cell := by
  cases op with
  | skipCond =>
    rw [perform]
    split <;> rfl
  | _ => rfl

namespace Machine

variable {m : Machine}

theorem dueFault_eq_none_iff_of_storeI (hdecode : m.instruction.decode = .ok .storeI)
    (hroom : (m.value .pc).toNat < 4095) :
    m.dueFault = none ↔ (m.operand (m.operand m.instruction)).toNat < memorySize := by
  have hnibble := Word.decode_eq_ok_iff.1 hdecode
  rw [toNat_lt_memorySize_iff (by decide), dueFault, hnibble, if_neg (by decide), if_neg (by omega),
    if_neg (by simp [Opcode.nibble])]
  simp

theorem writes_eq_false_of_dueFault (h : m.WellFormed) {f : Fault} (hdue : m.dueFault = some f)
    (i : Nat) : m.writes i = false := by
  rw [Bool.eq_false_iff, ne_eq, writes_iff]
  rintro ⟨op, hop, htarget⟩
  obtain ⟨-, -, hdecode, hroom⟩ := (cycle_fst_eq_some_iff h).1 hop
  have hnone : m.dueFault = none := by
    by_cases hstoreI : op = .storeI
    · subst hstoreI
      rw [dueFault_eq_none_iff_of_storeI hdecode hroom]
      by_contra hcell
      simp [target?, hcell] at htarget
    · apply dueFault_eq_none_of_decode hdecode (by omega) _ hstoreI
      rintro rfl
      cases htarget
  cases hdue.symm.trans hnone

/-- A cycle changes no cell but the one that its instruction writes. -/
theorem cell_cycle (h : m.WellFormed) (i : Nat) :
    m.cycle.2.memory.cell i = if m.writes i = true then m.written else m.memory.cell i := by
  by_cases hrun : m.status = .running
  · by_cases hfault : m.fault = none
    · cases hdue : m.dueFault with
      | some f =>
        rw [writes_eq_false_of_dueFault h hdue, (cycle_of_dueFault h hrun hfault hdue).memory]
        rfl
      | none =>
        obtain ⟨op, hdecode, hroom, hop, -, -, hvisible⟩ :=
          cycle_of_dueFault_eq_none h hrun hfault hdue
        have hcells : m.cycle.2.memory.cell = _ := congrArg Visible.cell hvisible
        rw [hcells, Visible.cell_perform, writes_of_cycle hop, written, hop]
        cases op with
        | jns | store => simp [target?, Function.update_apply, eq_comm, visible]
        | storeI =>
          have hcell := (dueFault_eq_none_iff_of_storeI hdecode hroom).1 hdue
          have htarget : m.target? .storeI = some (m.operand (m.operand m.instruction)).toNat :=
            if_pos hcell
          rw [htarget]
          simp [Function.update_apply, eq_comm, visible, operand]
        | _ => simp [target?, visible]
    · have hcycle := cycle_of_fault hrun hfault
      rw [writes_eq_false_of_cycle, hcycle]
      · rfl
      · rw [hcycle]
  · rw [writes_eq_false_of_cycle, cycle_of_ne hrun]
    · rfl
    · rw [cycle_of_ne hrun]

/-- A machine that some cycles lead to, with any values given to its INPUTs, none of which writes a
cell. -/
inductive Spares (i : Nat) (start : Machine) : Machine → Prop
  | refl : Spares i start start
  | cycle {m : Machine} (h : Spares i start m) (hkept : m.writes i = false) :
    Spares i start m.cycle.2
  | input {m : Machine} (h : Spares i start m) (hwait : m.status = .awaitingInput) (n : Int) :
    Spares i start (m.completeInput n)

namespace Spares

variable {i : Nat} {start : Machine} (h : start.Spares i m)
include h

theorem wellFormed (hw : start.WellFormed) : m.WellFormed := by
  induction h with
  | refl => exact hw
  | cycle h _ ih => exact cycleInvariant_wellFormed.cycle ih
  | input h _ n ih => exact ih.completeInput n

theorem consistent (hw : start.WellFormed) (hc : start.Consistent) : m.Consistent := by
  induction h with
  | refl => exact hc
  | cycle h _ ih => exact ih.cycle (h.wellFormed hw)
  | input h hwait n ih => exact ih.completeInput hwait n

/-- The cell keeps its word: the frame of a cycle, along the whole way. -/
theorem cell_eq (hw : start.WellFormed) : m.memory.cell i = start.memory.cell i := by
  induction h with
  | refl => rfl
  | cycle h hkept ih =>
    rw [cell_cycle (h.wellFormed hw), hkept]
    exact ih
  | input h _ n ih => exact ih

end Spares

theorem cell_cycle_of_jns (h : m.WellFormed) (hrun : m.status = .running) (hfault : m.fault = none)
    (hroom : (m.value .pc).toNat < 4095) {a : Word} (hcall : m.instruction = .encode .jns a) :
    m.cycle.2.memory.cell (a.toNat % 4096) = BitVec.ofNat 16 ((m.value .pc).toNat + 1) := by
  have hdecode : m.instruction.decode = .ok .jns := by rw [hcall, Word.decode_encode]
  have hop : m.cycle.1 = some .jns :=
    (cycle_fst_eq_some_iff h).2 ⟨hrun, hfault, hdecode, hroom⟩
  have hwrites : m.writes (a.toNat % 4096) = true := by
    rw [writes_iff]
    refine ⟨.jns, hop, ?_⟩
    rw [target?, hcall, Word.toNat_encode_mod]
  rw [cell_cycle h, if_pos hwrites, written, if_pos hop]

theorem cycle_of_jumpI (h : m.WellFormed) (hrun : m.status = .running) (hfault : m.fault = none)
    (hroom : (m.value .pc).toNat < 4095) {a : Word} (hjump : m.instruction = .encode .jumpI a) :
    m.cycle.2.status = .running ∧ m.cycle.2.fault = none ∧
      (m.cycle.2.value .pc).toNat = (m.memory.cell (a.toNat % 4096)).toNat % 4096 := by
  have hdecode : m.instruction.decode = .ok .jumpI := by rw [hjump, Word.decode_encode]
  have hdue : m.dueFault = none :=
    dueFault_eq_none_of_decode hdecode (by omega) (by decide) (by decide)
  obtain ⟨op, hop, -, -, hnone, -, hvisible⟩ := cycle_of_dueFault_eq_none h hrun hfault hdue
  cases hop.symm.trans hdecode
  refine ⟨?_, hnone, ?_⟩
  · have hstatus : m.cycle.2.status = _ := congrArg Visible.status hvisible
    rw [hstatus, Visible.status_perform]
    exact hrun
  · have hpc : (m.cycle.2.value .pc).toNat = _ := congrArg Visible.pc hvisible
    rw [hpc, hjump, Visible.perform, Word.toNat_encode_mod]
    rfl

/-- A subroutine returns to its caller: the jump through the cell of a call goes to the instruction
behind the call, whatever was executed in between, if only nothing wrote the cell. -/
theorem subroutine_returns {m n : Machine} {a : Word} (h : m.WellFormed)
    (hrun : m.status = .running) (hfault : m.fault = none) (hpc : (m.value .pc).toNat ≤ 4094)
    (hcall : m.instruction = .encode .jns a) (hbody : m.cycle.2.Spares (a.toNat % 4096) n)
    (hrunning : n.status = .running) (hroom : (n.value .pc).toNat ≤ 4094)
    (hreturn : n.instruction = .encode .jumpI a) :
    n.cycle.2.status = .running ∧ (n.cycle.2.value .pc).toNat = (m.value .pc).toNat + 1 := by
  have hw : m.cycle.2.WellFormed := cycleInvariant_wellFormed.cycle h
  have hc : m.Consistent :=
    .of_fault_eq_none hfault (by simp [hrun]) (by simp [hrun]) (by simp [hrun])
  have hclear : n.fault = none :=
    (hbody.consistent hw (hc.cycle h)).fault_eq_none (by simp [hrunning])
  obtain ⟨hstatus, -, hto⟩ :=
    cycle_of_jumpI (hbody.wellFormed hw) hrunning hclear (by omega) hreturn
  refine ⟨hstatus, ?_⟩
  rw [hto, hbody.cell_eq hw, cell_cycle_of_jns h hrun hfault (by omega) hcall,
    BitVec.toNat_ofNat]
  omega

/-- A machine that calls a subroutine, which calls another. The inner one reads the word of its own
return. -/
def nested : Machine :=
  (((((blank.put 0 0x0004).put 5 0x0008).put 6 0xC004).put 9 0x5000).put 10 0x200B).put 11 0x7000

def nestedReturn : Machine :=
  (nested.cycle.2.cycle.2.cycle.2.completeInput 0xC008).cycle.2.cycle.2

/-- The inner call, the value that is read and the cell that is rewritten leave the outer return. -/
theorem subroutine_returns_nested :
    nested.WellFormed ∧ nested.status = .running ∧ nested.fault = none ∧
      (nested.value .pc).toNat ≤ 4094 ∧ nested.instruction = .encode .jns 4 ∧
      nested.cycle.2.Spares 4 nestedReturn ∧ nestedReturn.status = .running ∧
      (nestedReturn.value .pc).toNat ≤ 4094 ∧ nestedReturn.instruction = .encode .jumpI 4 ∧
      nestedReturn.cycle.2.status = .running ∧ (nestedReturn.cycle.2.value .pc).toNat = 1 := by
  have hw : nested.WellFormed := by
    simp only [nested, wellFormed_put]
    exact wellFormed_new
  have hpc : (nested.value .pc).toNat ≤ 4094 := by decide
  have hcall : nested.instruction = .encode .jns 4 := by decide +kernel
  have hbody : nested.cycle.2.Spares 4 nestedReturn := by
    apply Spares.cycle _ (by decide +kernel)
    apply Spares.cycle _ (by decide +kernel)
    apply Spares.input _ (by decide +kernel)
    apply Spares.cycle _ (by decide +kernel)
    apply Spares.cycle _ (by decide +kernel)
    exact Spares.refl
  have hrunning : nestedReturn.status = .running := by decide +kernel
  have hroom : (nestedReturn.value .pc).toNat ≤ 4094 := by decide +kernel
  have hreturn : nestedReturn.instruction = .encode .jumpI 4 := by decide +kernel
  obtain ⟨hstatus, hto⟩ :=
    subroutine_returns hw rfl rfl hpc hcall hbody hrunning hroom hreturn
  exact ⟨hw, rfl, rfl, hpc, hcall, hbody, hrunning, hroom, hreturn, hstatus, hto⟩

end Machine

end AccumulatorMachine
