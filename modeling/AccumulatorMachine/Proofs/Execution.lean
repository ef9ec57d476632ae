import AccumulatorMachine.Proofs.Fetch

/-!
# What an instruction does

The exact machine that each instruction leaves once it has been fetched. Two instructions can fault:
a conditional skip without a condition, and an indirect store whose target is no cell.
-/

namespace AccumulatorMachine

namespace Action

open Machine

variable {m : Machine}

theorem run_write {place : Location} (m : Machine) (h : place.toNat < memorySize) (w : Word) :
    (write place w).run m = .ok () (m.put place.toNat w) := by
  rw [EStateM.run, write, Memory.write_eq_put _ h]
  rfl

theorem run_write_outside {place : Location} (m : Machine) (h : memorySize ≤ place.toNat)
    (w : Word) : (write place w).run m = .error (.addressOutOfRange place) m := by
  rw [EStateM.run, write, Memory.write_of_le _ _ h]
  rfl

theorem run_write_value (h : m.WellFormed) {d : Designation} (hd : d.isAddress = true) (w : Word) :
    (write (m.value d).toLocation w).run m = .ok () (m.put (m.value d).toNat w) := by
  have hnat := toNat_toLocation_value h hd
  rw [run_write m (hnat ▸ toNat_value_lt h hd), hnat]

theorem run_addMbr (m : Machine) :
    addMbr.run m = .ok () (m.assign .ac ((m.value .ac).toInt + (m.value .mbr).toInt)) := rfl

end Action

namespace Machine

def print (m : Machine) (r : OutputRecord) : Machine := { m with output := m.output.push r }

/-- The machine that has followed the pointer in MBR. -/
def followed (m : Machine) : Machine :=
  (m.assign .mar (m.value .mbr).toInt).assign .mbr (m.operand (m.value .mbr)).toInt

/-- The machine after a fetched subroutine call: the return address is in the cell that the operand
names, and PC behind that cell. -/
def linked (m : Machine) : Machine :=
  let m₁ := (m.assign .mbr (m.value .pc).toInt).assign .mar (m.value .ir).low12.toInt
  let m₂ := (m₁.put (m₁.value .mar).toNat (m₁.value .mbr)).assign .mbr (m₁.value .mar).toInt
  let m₃ := m₂.assign .ac ((m₂.value .mbr).toInt + 1)
  m₃.assign .pc (m₃.value .ac).toInt

variable {m : Machine}

theorem run_follow (h : m.WellFormed) : Action.follow.run m = .ok () m.followed := by
  have hmar : ((m.assign .mar (m.value .mbr).toInt).value .mar).toNat =
      (m.value .mbr).toNat % 4096 := by
    simp [value_assign h, Word.toNat_low12]
  have hload := Action.run_loadMbr ((wellFormed_assign m .mar (m.value .mbr).toInt).2 h)
  unfold Action.follow
  rw [run_bind_ok _ (Action.run_value ..), run_bind_ok _ (Action.run_assign ..),
    hload, hmar, memory_assign, followed, operand]

theorem wellFormed_followed (h : m.WellFormed) : m.followed.WellFormed := by
  simp only [followed, wellFormed_assign]
  exact h

theorem value_followed (h : m.WellFormed) {d : Designation} (hmar : d ≠ .mar) (hmbr : d ≠ .mbr) :
    m.followed.value d = m.value d := by
  have hw := (wellFormed_assign m .mar (m.value .mbr).toInt).2 h
  rw [followed, value_assign hw, value_assign h, if_neg hmbr, if_neg hmar]

section execute

open AccumulatorMachine.Action

theorem run_execute_jns (h : m.WellFormed) : (execute .jns).run m = .ok () m.linked := by
  have hw : ((m.assign .mbr (m.value .pc).toInt).assign .mar
      (m.value .ir).low12.toInt).WellFormed := by
    simp only [wellFormed_assign]
    exact h
  have hwrite := run_write_value hw (d := .mar) rfl
  unfold execute linked
  rw [run_bind_ok _ (run_value ..)]
  dsimp only
  rw [run_bind_ok _ (run_value ..), run_bind_ok _ (run_assign ..), run_bind_ok _ (run_assign ..),
    run_bind_ok _ (run_value ..), run_bind_ok _ (run_value ..), run_bind_ok _ (hwrite _),
    run_bind_ok _ (run_value ..), run_bind_ok _ (run_assign ..), run_bind_ok _ (run_value ..),
    run_bind_ok _ (run_assign ..), run_bind_ok _ (run_value ..), run_assign]
  rfl

theorem run_execute_load (m : Machine) :
    (execute .load).run m = .ok () (m.assign .ac (m.value .mbr).toInt) := rfl

theorem run_execute_store (h : m.WellFormed) :
    (execute .store).run m =
      .ok () ((m.assign .mbr (m.value .ac).toInt).put (m.value .mar).toNat (m.value .ac)) := by
  have hw := (wellFormed_assign m .mbr (m.value .ac).toInt).2 h
  have hwrite := run_write_value hw (d := .mar) rfl
  unfold execute
  rw [run_bind_ok _ (run_value ..)]
  dsimp only
  rw [run_bind_ok _ (run_value ..), run_bind_ok _ (run_assign ..), run_bind_ok _ (run_value ..),
    run_bind_ok _ (run_value ..), hwrite, value_assign h, value_assign h]
  simp

theorem run_execute_add (m : Machine) :
    (execute .add).run m =
      .ok () (m.assign .ac ((m.value .ac).toInt + (m.value .mbr).toInt)) := rfl

theorem run_execute_subt (m : Machine) :
    (execute .subt).run m =
      .ok () (m.assign .ac ((m.value .ac).toInt - (m.value .mbr).toInt)) := rfl

theorem run_execute_input (m : Machine) :
    (execute .input).run m = .ok () { m with status := .awaitingInput } := rfl

theorem run_execute_output (m : Machine) :
    (execute .output).run m =
      let m₁ := m.assign .output (m.value .ac).toInt
      .ok () (m₁.print ⟨m₁.value .output, (m₁.registers.get .output).mode⟩) :=
  rfl

theorem run_execute_halt (m : Machine) : (execute .halt).run m = .ok () m.halt := rfl

theorem run_execute_skipCond (m : Machine) :
    (execute .skipCond).run m =
      match Condition.ofWord (m.value .ir) with
      | .error e => .error (.ofDecodeError e (m.value .mar)) m
      | .ok c =>
        .ok () (if c.holds (m.value .ac) then m.assign .pc ((m.value .pc).toInt + 1) else m) := by
  unfold execute
  rw [run_bind_ok _ (run_value ..)]
  dsimp only
  cases Condition.ofWord (m.value .ir) with
  | error e => rfl
  | ok c =>
    dsimp only
    rw [run_bind_ok _ (run_value ..)]
    split <;> rfl

theorem run_execute_jump (m : Machine) :
    (execute .jump).run m = .ok () (m.assign .pc (m.value .ir).low12.toInt) := rfl

theorem run_execute_clear (m : Machine) :
    (execute .clear).run m = .ok () (m.assign .ac 0) := rfl

theorem run_execute_addI (h : m.WellFormed) :
    (execute .addI).run m =
      .ok () (m.followed.assign .ac
        ((m.followed.value .ac).toInt + (m.followed.value .mbr).toInt)) := by
  unfold execute
  rw [run_bind_ok _ (run_value ..)]
  dsimp only
  rw [run_bind_ok _ (run_follow h), run_addMbr]

theorem run_execute_jumpI (m : Machine) :
    (execute .jumpI).run m = .ok () (m.assign .pc (m.value .mbr).toInt) := rfl

theorem run_execute_loadI (h : m.WellFormed) :
    (execute .loadI).run m = .ok () (m.followed.assign .ac (m.followed.value .mbr).toInt) := by
  unfold execute
  rw [run_bind_ok _ (run_value ..)]
  dsimp only
  rw [run_bind_ok _ (run_follow h), run_bind_ok _ (run_value ..), run_assign]

theorem run_execute_storeI (h : m.WellFormed) :
    (execute .storeI).run m =
      if (m.followed.value .mbr).toLocation.toNat < memorySize then
        .ok () (m.followed.put (m.followed.value .mbr).toLocation.toNat (m.followed.value .ac))
      else .error (.addressOutOfRange (m.followed.value .mbr).toLocation) m.followed := by
  unfold execute
  rw [run_bind_ok _ (run_value ..)]
  dsimp only
  rw [run_bind_ok _ (run_follow h), run_bind_ok _ (run_value ..), run_bind_ok _ (run_value ..)]
  split
  next hlt => exact run_write _ hlt _
  next hle => exact run_write_outside _ (Nat.le_of_not_lt hle) _

end execute

def counted (m : Machine) (op : Opcode) : Machine :=
  { m with cycles := m.cycles + 1, lastOpcode := some op }

theorem cyclesFrom_succ (m : Machine) (k : Nat) :
    m.cyclesFrom (k + 1) = (m.cyclesFrom k).cycle.2 := by
  induction k generalizing m with
  | zero => rfl
  | succ k ih => exact ih m.cycle.2

theorem cycle_of_ne {m : Machine} (h : m.status ≠ .running) : m.cycle = (none, m) := if_pos h

theorem cycle_of_fault {m : Machine} (hrun : m.status = .running) (hfault : m.fault ≠ none) :
    m.cycle = (none, m.halt) := by
  rw [cycle, if_neg (by simp [hrun]), if_pos (Option.isSome_iff_ne_none.2 hfault)]

section cycle

variable {m m' : Machine} (hrun : m.status = .running) (hfault : m.fault = none)
include hrun hfault

theorem cycle_of_fetch_error {f : Fault} (h : Action.fetch.run m = .error f m') :
    m.cycle = (none, m'.raise f) := by
  rw [cycle, if_neg (by simp [hrun]), if_neg (by simp [hfault]), h]

theorem cycle_of_fetch_ok {op : Opcode} (h : Action.fetch.run m = .ok op m') :
    m.cycle = (some op, (settle ((Action.execute op).run m')).counted op) := by
  rw [cycle, if_neg (by simp [hrun]), if_neg (by simp [hfault]), h]
  rfl

/-- How a cycle can go: the fetched word is no instruction, or it is one in the last cell, or it is
executed. Only an executed instruction is counted, also if its execution faults. -/
theorem cycle_cases (h : m.WellFormed) :
    (∃ e, m.instruction.decode = .error e ∧
      m.cycle = (none, m.latch.raise (.ofDecodeError e (m.value .pc)))) ∨
    (∃ op, m.instruction.decode = .ok op ∧ (m.value .pc).toNat = 4095 ∧
      m.cycle = (none, (m.latch.loadOperand op m.instruction).raise .endOfMemory)) ∨
    ∃ op, m.instruction.decode = .ok op ∧ (m.value .pc).toNat < 4095 ∧
      m.cycle = (some op, (settle ((Action.execute op).run (m.fetched op))).counted op) := by
  have hlt := toNat_value_lt h (d := .pc) rfl
  have hfetch := run_fetch h
  cases hdecode : m.instruction.decode with
  | error e =>
    rw [hdecode] at hfetch
    exact .inl ⟨e, rfl, cycle_of_fetch_error hrun hfault hfetch⟩
  | ok op =>
    rw [hdecode] at hfetch
    dsimp only at hfetch
    split at hfetch
    next hlast => exact .inr (.inl ⟨op, rfl, hlast, cycle_of_fetch_error hrun hfault hfetch⟩)
    next hroom => exact .inr (.inr ⟨op, rfl, by omega, cycle_of_fetch_ok hrun hfault hfetch⟩)

end cycle

theorem fault_raise_ne_none (m : Machine) (f : Fault) : (m.raise f).fault ≠ none := by
  cases hf : m.fault <;> simp [raise, halt, hf]

theorem status_raise (m : Machine) (f : Fault) : (m.raise f).status = .haltedAbnormal := by
  cases hf : m.fault <;> simp [raise, halt, hf]

end Machine

end AccumulatorMachine
