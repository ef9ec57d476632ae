import AccumulatorMachine.Proofs.Values

/-!
# What a fetch does

The exact result of fetching in a well-formed machine, and what the execution of an instruction may
rely on afterwards. Nothing later opens the definition of a fetch.
-/

namespace AccumulatorMachine

theorem run_bind_ok {ε σ α β : Type} {x : EStateM ε σ α} {a : α} {s s' : σ}
    (f : α → EStateM ε σ β) (h : x.run s = .ok a s') : (x >>= f).run s = (f a).run s' := by
  rw [EStateM.run_bind, h]

namespace Machine

def instruction (m : Machine) : Word := m.memory.cell (m.value .pc).toNat

def operand (m : Machine) (w : Word) : Word := m.memory.cell (w.toNat % 4096)

/-- The machine that remembers the line at an address as the one fetched last. -/
def noteLine (m : Machine) (address : Word) : Machine :=
  { m with
    executedLine := m.listing.rowOf? address
    cursor := (m.listing.rowOf? address).or m.cursor }

section noteLine

variable (m : Machine) (address : Word)

@[simp] theorem registers_noteLine : (m.noteLine address).registers = m.registers := rfl

@[simp] theorem value_noteLine (d : Designation) : (m.noteLine address).value d = m.value d := rfl

@[simp] theorem wellFormed_noteLine : (m.noteLine address).WellFormed ↔ m.WellFormed := Iff.rfl

end noteLine

def latch (m : Machine) : Machine :=
  ((m.assign .mar (m.value .pc).toInt).assign .ir m.instruction.toInt).noteLine (m.value .pc)

/-- The machine with the operand's cell in MBR, if the operation asks for it. -/
def loadOperand (m : Machine) (op : Opcode) (w : Word) : Machine :=
  if op.needsOperand then (m.assign .mar w.low12.toInt).assign .mbr (m.operand w).toInt else m

def fetched (m : Machine) (op : Opcode) : Machine :=
  (m.latch.loadOperand op m.instruction).assign .pc ((m.value .pc).toNat + 1 : Nat)

end Machine

namespace Action

@[simp] theorem run_noteFetched (address : Word) (m : Machine) :
    (noteFetched address).run m = .ok () (m.noteLine address) := rfl

open Machine

variable {m : Machine}

theorem run_read_value (h : m.WellFormed) {d : Designation} (hd : d.isAddress = true) :
    (read (m.value d).toLocation).run m = .ok (m.memory.cell (m.value d).toNat) m := by
  have hnat := toNat_toLocation_value h hd
  rw [run_read_of_lt m (hnat ▸ toNat_value_lt h hd), hnat]

theorem run_loadMbr (h : m.WellFormed) :
    loadMbr.run m = .ok () (m.assign .mbr (m.memory.cell (m.value .mar).toNat).toInt) := by
  have hread := run_read_value h (d := .mar) rfl
  simp only [loadMbr, EStateM.run_bind, run_value, hread, run_assign]

theorem run_loadMbr_operand (h : m.WellFormed) (w : Word) :
    loadMbr.run (m.assign .mar w.low12.toInt) =
      .ok () ((m.assign .mar w.low12.toInt).assign .mbr (m.operand w).toInt) := by
  have hmar : ((m.assign .mar w.low12.toInt).value .mar).toNat = w.toNat % 4096 := by
    simp [value_assign h, Word.toNat_low12]
  rw [run_loadMbr ((wellFormed_assign ..).2 h), hmar, memory_assign, operand]

end Action

namespace Machine

variable {m : Machine}

theorem wellFormed_latch (h : m.WellFormed) : m.latch.WellFormed := by
  simp only [latch, wellFormed_noteLine, wellFormed_assign]
  exact h

theorem wellFormed_loadOperand (h : m.WellFormed) (op : Opcode) (w : Word) :
    (m.loadOperand op w).WellFormed := by
  unfold loadOperand
  split
  · simp only [wellFormed_assign]
    exact h
  · exact h

theorem value_latch (h : m.WellFormed) (d : Designation) :
    m.latch.value d =
      if d = .ir then m.instruction else if d = .mar then m.value .pc else m.value d := by
  have hmar := (wellFormed_assign m .mar (m.value .pc).toInt).2 h
  have hpc := low12_value h (d := .pc) rfl
  rw [latch, value_noteLine, value_assign hmar, value_assign h]
  simp [hpc]

theorem value_loadOperand (h : m.WellFormed) (op : Opcode) (w : Word) (d : Designation) :
    (m.loadOperand op w).value d =
      if op.needsOperand ∧ d = .mbr then m.operand w
      else if op.needsOperand ∧ d = .mar then w.low12
      else m.value d := by
  unfold loadOperand
  split
  next hop =>
    have hmar := (wellFormed_assign m .mar w.low12.toInt).2 h
    rw [value_assign hmar, value_assign h]
    simp [hop]
  next hop => simp [hop]

section fetched

variable (m) (op : Opcode)

@[simp] theorem memory_fetched : (m.fetched op).memory = m.memory := by
  unfold fetched loadOperand
  split <;> rfl

@[simp] theorem fault_fetched : (m.fetched op).fault = m.fault := by
  unfold fetched loadOperand
  split <;> rfl

@[simp] theorem listing_fetched : (m.fetched op).listing = m.listing := by
  unfold fetched loadOperand
  split <;> rfl

@[simp] theorem cycles_fetched : (m.fetched op).cycles = m.cycles := by
  unfold fetched loadOperand
  split <;> rfl

@[simp] theorem mode_fetched (d : Designation) :
    ((m.fetched op).registers.get d).mode = (m.registers.get d).mode := by
  unfold fetched loadOperand
  split <;> simp [mode_assign, latch]

end fetched

theorem wellFormed_fetched (h : m.WellFormed) (op : Opcode) : (m.fetched op).WellFormed :=
  (wellFormed_assign ..).2 (wellFormed_loadOperand (wellFormed_latch h) op _)

theorem value_fetched (h : m.WellFormed) (op : Opcode) {d : Designation} (hd : d ≠ .pc) :
    (m.fetched op).value d =
      if op.needsOperand ∧ d = .mbr then m.operand m.instruction
      else if op.needsOperand ∧ d = .mar then m.instruction.low12
      else m.latch.value d := by
  have hl := wellFormed_latch h
  rw [fetched, value_assign (wellFormed_loadOperand hl op _), if_neg hd, value_loadOperand hl]
  rfl

theorem run_advance (h : m.WellFormed) (op : Opcode) :
    (do let next := (← Action.value .pc).toInt + 1
        if 4095 < next then throw .endOfMemory
        Action.assign .pc next
        return op : Action Opcode).run m =
      if (m.value .pc).toNat = 4095 then .error .endOfMemory m
      else .ok op (m.assign .pc ((m.value .pc).toNat + 1 : Nat)) := by
  have hlt := toNat_value_lt h (d := .pc) rfl
  have hint : (m.value .pc).toInt = (m.value .pc).toNat := Word.toInt_of_lt (by omega)
  rw [run_bind_ok _ (Action.run_value ..), hint]
  split
  next hlast => rw [if_pos (by omega)]; rfl
  next hroom => rw [if_neg (by omega)]; rfl

/-- Fetching fails on a word that is no instruction, and then in the last cell. -/
theorem run_fetch (h : m.WellFormed) :
    Action.fetch.run m =
      match m.instruction.decode with
      | .error e => .error (.ofDecodeError e (m.value .pc)) m.latch
      | .ok op =>
        if (m.value .pc).toNat = 4095 then
          .error .endOfMemory (m.latch.loadOperand op m.instruction)
        else .ok op (m.fetched op) := by
  have hmar : (m.assign .mar (m.value .pc).toInt).value .mar = m.value .pc := by
    simp [value_assign h, low12_value h (d := .pc) rfl]
  have hread : (Action.read (m.value .pc).toLocationUnsigned).run
      (m.assign .mar (m.value .pc).toInt) =
        .ok m.instruction (m.assign .mar (m.value .pc).toInt) := by
    have hlt := toNat_value_lt h (d := .pc) rfl
    rw [Action.run_read_of_lt _ (by rw [Word.toNat_toLocationUnsigned]; exact hlt),
      Word.toNat_toLocationUnsigned, memory_assign, instruction]
  have hl := wellFormed_latch h
  unfold Action.fetch
  rw [run_bind_ok _ (Action.run_value ..), run_bind_ok _ (Action.run_assign ..),
    run_bind_ok _ (Action.run_value ..), hmar, run_bind_ok _ hread,
    run_bind_ok _ (Action.run_assign ..), run_bind_ok _ (Action.run_noteFetched ..),
    ← latch]
  cases m.instruction.decode with
  | error e => rfl
  | ok op =>
    have hadvance := run_advance (wellFormed_loadOperand hl op m.instruction) op
    rw [value_loadOperand hl, value_latch h] at hadvance
    simp only [reduceCtorEq, and_false, ↓reduceIte] at hadvance
    dsimp only
    rw [fetched, ← hadvance, loadOperand]
    split
    next hop =>
      rw [run_bind_ok _ (Action.run_assign ..),
        run_bind_ok _ (Action.run_loadMbr_operand hl m.instruction)]
    next hop => rfl

end Machine

end AccumulatorMachine
