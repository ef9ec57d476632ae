import Mathlib.Data.List.Nodup
import AccumulatorMachine.Proofs.CycleFaults
import AccumulatorMachine.Proofs.Numerals

/-!
# What the text of an instruction tells

Two words have the same disassembly only if they are one word, or differ in the operand field of an
operation that is shown without it. Such an operation does not look at its operand: a cycle does the
same with both words, except that IR takes up the word itself. So the text of an instruction
determines what it does.
-/

namespace AccumulatorMachine

namespace Opcode

theorem mnemonic_inj {op op' : Opcode} (h : op.mnemonic.toList = op'.mnemonic.toList) :
    op = op' := by
  have hdistinct : (all.map (·.mnemonic.toList)).Nodup := by decide +kernel
  exact List.inj_on_of_nodup_map hdistinct op.mem_all op'.mem_all h

theorem mnemonic_ne_data (op : Opcode) : op.mnemonic.toList ≠ "DATA".toList := by
  cases op <;> decide

theorem needsOperand_of_showsOperand {op : Opcode} (h : op.showsOperand = false) :
    op.needsOperand = false := by
  cases op with
  | input | output | halt | clear => rfl
  | jns | load | store | add | subt | skipCond | jump | addI | jumpI | loadI | storeI => cases h

end Opcode

namespace Word

/-- What stands in front of the operand in the text of a word. -/
def heading (w : Word) : List Char :=
  match w.decode with
  | .ok op => op.mnemonic.toList
  | .error _ => "DATA".toList

def field (w : Word) : List Char :=
  match w.decode with
  | .ok op => if op.showsOperand then ' ' :: Text.numeral 16 3 w.low12.toNat else []
  | .error _ => ' ' :: Text.numeral 16 4 w.toNat

theorem toList_disassemble (w : Word) : w.disassemble.toList = w.heading ++ w.field := by
  unfold disassemble heading field
  cases w.decode with
  | error e => simp [Text.hexText]
  | ok op =>
    dsimp only
    split <;> simp [Text.hexText]

theorem not_mem_heading (w : Word) : ' ' ∉ w.heading := by
  unfold heading
  cases w.decode with
  | error e => exact (by decide : ' ' ∉ "DATA".toList)
  | ok op => cases op <;> decide

theorem takeWhile_field (w : Word) : w.field.takeWhile (· ≠ ' ') = [] := by
  unfold field
  cases w.decode with
  | error e => rfl
  | ok op =>
    dsimp only
    split <;> rfl

theorem heading_eq_of_disassemble_eq {w₁ w₂ : Word} (h : w₁.disassemble = w₂.disassemble) :
    w₁.heading = w₂.heading ∧ w₁.field = w₂.field := by
  have htaken (w : Word) : w.disassemble.toList.takeWhile (· ≠ ' ') = w.heading := by
    have hheading : ∀ c ∈ w.heading, decide (c ≠ ' ') = true := fun c hc =>
      decide_eq_true fun hspace => w.not_mem_heading (hspace ▸ hc)
    rw [toList_disassemble, List.takeWhile_append_of_pos hheading, takeWhile_field, List.append_nil]
  have hheading : w₁.heading = w₂.heading := by
    rw [← htaken, ← htaken, h]
  refine ⟨hheading, ?_⟩
  have htext := congrArg String.toList h
  rw [toList_disassemble, toList_disassemble, hheading] at htext
  exact List.append_cancel_left htext

theorem eq_of_opcodeNibble_of_low12 {w₁ w₂ : Word} (hnibble : w₁.opcodeNibble = w₂.opcodeNibble)
    (hlow : w₁.low12 = w₂.low12) : w₁ = w₂ := by
  have hnibble := congrArg BitVec.toNat hnibble
  have hlow := congrArg BitVec.toNat hlow
  rw [toNat_opcodeNibble, toNat_opcodeNibble] at hnibble
  rw [toNat_low12, toNat_low12] at hlow
  apply BitVec.eq_of_toNat_eq
  omega

theorem numeral_field_inj {width m n : Nat}
    (h : ' ' :: Text.numeral 16 width m = ' ' :: Text.numeral 16 width n) : m = n :=
  Text.numeral_inj (by decide) (by decide) width (List.cons.inj h).2

/-- Two words look the same if they are the same, or are the same operation and it does not show its
operand. -/
theorem disassemble_eq_iff {w₁ w₂ : Word} :
    w₁.disassemble = w₂.disassemble ↔
      w₁ = w₂ ∨ ∃ op, w₁.decode = .ok op ∧ w₂.decode = .ok op ∧ op.showsOperand = false := by
  constructor
  · intro h
    obtain ⟨hheading, hfield⟩ := heading_eq_of_disassemble_eq h
    unfold heading at hheading
    unfold field at hfield
    cases h₁ : w₁.decode with
    | error e₁ =>
      cases h₂ : w₂.decode with
      | error e₂ =>
        rw [h₁, h₂] at hfield
        exact .inl (BitVec.eq_of_toNat_eq (numeral_field_inj hfield))
      | ok op₂ =>
        rw [h₁, h₂] at hheading
        exact (Opcode.mnemonic_ne_data op₂ hheading.symm).elim
    | ok op₁ =>
      cases h₂ : w₂.decode with
      | error e₂ =>
        rw [h₁, h₂] at hheading
        exact (Opcode.mnemonic_ne_data op₁ hheading).elim
      | ok op₂ =>
        rw [h₁, h₂] at hheading hfield
        obtain rfl := Opcode.mnemonic_inj hheading
        cases hshows : op₁.showsOperand with
        | false => exact .inr ⟨op₁, rfl, rfl, hshows⟩
        | true =>
          simp only [hshows, if_true] at hfield
          have hlow : w₁.low12 = w₂.low12 := BitVec.eq_of_toNat_eq (numeral_field_inj hfield)
          rw [decode_eq_ok_iff] at h₁ h₂
          exact .inl (eq_of_opcodeNibble_of_low12 (h₁.trans h₂.symm) hlow)
  · rintro (rfl | ⟨op, h₁, h₂, hshows⟩)
    · rfl
    · simp [disassemble, h₁, h₂, hshows]

end Word

theorem Memory.put_put (m : Memory) (i : Nat) (v w : Word) : (m.put i v).put i w = m.put i w := by
  simp only [put]
  congr 1
  ext j hj
  simp only [Vector.getElem_setIfInBounds]
  split <;> rfl

theorem Memory.put_cell (m : Memory) (i : Nat) : m.put i (m.cell i) = m := by
  simp only [put, cell]
  congr 1
  ext j hj
  rw [Vector.getElem_setIfInBounds]
  split
  next hij =>
    subst hij
    rw [Vector.getElem?_eq_getElem hj]
    rfl
  next => rfl

namespace Machine

/-- A machine that differs from another in IR and in one cell at most. -/
def SameBut (p : Nat) (m n : Machine) : Prop :=
  ∃ r w, n = { m with registers := m.registers.modify .ir fun _ => r, memory := m.memory.put p w }

namespace SameBut

theorem refl (p : Nat) (m : Machine) : m.SameBut p m :=
  ⟨m.registers.ir, m.memory.cell p, by rw [Memory.put_cell]; rfl⟩

theorem put (p : Nat) (m : Machine) (w₁ w₂ : Word) : (m.put p w₁).SameBut p (m.put p w₂) :=
  ⟨m.registers.ir, w₂, by rw [Machine.put, Machine.put, Memory.put_put]; rfl⟩

variable {p : Nat} {m n : Machine} (h : m.SameBut p n)
include h

theorem get_eq (d : Designation) (hd : d ≠ .ir) : n.registers.get d = m.registers.get d := by
  obtain ⟨r, w, rfl⟩ := h
  exact Registers.get_modify_ne _ _ hd

theorem value_eq (d : Designation) (hd : d ≠ .ir) : n.value d = m.value d := by
  rw [value, value, h.get_eq d hd]

theorem assign (d : Designation) (hd : d ≠ .ir) (k : Int) :
    (m.assign d k).SameBut p (n.assign d k) := by
  obtain ⟨r, w, rfl⟩ := h
  refine ⟨r, w, ?_⟩
  cases d with
  | ir => exact (hd rfl).elim
  | ac | mar | mbr | pc | input | output => rfl

theorem assignIr (k₁ k₂ : Int) : (m.assign .ir k₁).SameBut p (n.assign .ir k₂) := by
  obtain ⟨r, w, rfl⟩ := h
  exact ⟨r.setValue k₂, w, rfl⟩

theorem noteLine (address : Word) : (m.noteLine address).SameBut p (n.noteLine address) := by
  obtain ⟨r, w, rfl⟩ := h
  exact ⟨r, w, rfl⟩

theorem print (record : OutputRecord) : (m.print record).SameBut p (n.print record) := by
  obtain ⟨r, w, rfl⟩ := h
  exact ⟨r, w, rfl⟩

theorem await :
    SameBut p { m with status := .awaitingInput } { n with status := .awaitingInput } := by
  obtain ⟨r, w, rfl⟩ := h
  exact ⟨r, w, rfl⟩

theorem halt : m.halt.SameBut p n.halt := by
  obtain ⟨r, w, rfl⟩ := h
  exact ⟨r, w, rfl⟩

theorem raise (f : Fault) : (m.raise f).SameBut p (n.raise f) := by
  obtain ⟨r, w, rfl⟩ := h
  exact ⟨r, w, rfl⟩

theorem counted (op : Opcode) : (m.counted op).SameBut p (n.counted op) := by
  obtain ⟨r, w, rfl⟩ := h
  exact ⟨r, w, rfl⟩

theorem latch : m.latch.SameBut p n.latch := by
  have hpc : n.value .pc = m.value .pc := h.value_eq _ (by decide)
  rw [Machine.latch, Machine.latch, hpc]
  exact ((h.assign .mar (by decide) _).assignIr _ _).noteLine _

/-- An operation that does not show its operand looks neither at IR nor at memory. -/
theorem settle_execute {op : Opcode} (hop : op.showsOperand = false) :
    (settle ((Action.execute op).run m)).SameBut p (settle ((Action.execute op).run n)) := by
  cases op with
  | input => exact h.await
  | output =>
    have hac : n.value .ac = m.value .ac := h.value_eq _ (by decide)
    have hm := h.assign .output (by decide) (m.value .ac).toInt
    rw [run_execute_output, run_execute_output, hac]
    dsimp only [settle]
    rw [hm.value_eq .output (by decide), hm.get_eq .output (by decide)]
    exact hm.print _
  | halt => exact h.halt
  | clear => exact h.assign .ac (by decide) 0
  | jns | load | store | add | subt | skipCond | jump | addI | jumpI | loadI | storeI => cases hop

end SameBut

theorem cycle_of_needsOperand {m : Machine} (h : m.WellFormed) (hrun : m.status = .running)
    (hfault : m.fault = none) {op : Opcode} (hdecode : m.instruction.decode = .ok op)
    (hop : op.needsOperand = false) :
    m.cycle =
      if (m.value .pc).toNat = 4095 then (none, m.latch.raise .endOfMemory)
      else (some op, (settle ((Action.execute op).run
        (m.latch.assign .pc ((m.value .pc).toNat + 1 : Nat)))).counted op) := by
  have hload : m.latch.loadOperand op m.instruction = m.latch := by
    rw [loadOperand, if_neg (by simp [hop])]
  have hfetched : m.fetched op = m.latch.assign .pc ((m.value .pc).toNat + 1 : Nat) := by
    rw [fetched, hload]
  rcases cycle_cases hrun hfault h with ⟨e, he, -⟩ | ⟨op', hop', hlast, hcycle⟩ |
    ⟨op', hop', hroom, hcycle⟩
  · cases hdecode.symm.trans he
  · cases hdecode.symm.trans hop'
    rw [hcycle, hload, if_pos hlast]
  · cases hdecode.symm.trans hop'
    rw [hcycle, hfetched, if_neg (by omega)]

theorem value_put (m : Machine) (i : Nat) (w : Word) (d : Designation) :
    (m.put i w).value d = m.value d := rfl

theorem instruction_put {m : Machine} (h : m.WellFormed) (w : Word) :
    (m.put (m.value .pc).toNat w).instruction = w := by
  rw [instruction, value_put, put, Memory.cell_put _ (toNat_value_lt h rfl), if_pos rfl]

/-- Two words with the same disassembly do the same when they are executed: the cycle has the same
result, and leaves machines that differ at most in IR and in the cell of the instruction. -/
theorem cycle_congr_disassemble {w₁ w₂ : Word} (hlook : w₁.disassemble = w₂.disassemble)
    {m : Machine} (h : m.WellFormed) (hrun : m.status = .running) (hfault : m.fault = none) :
    let p := (m.value .pc).toNat
    (m.put p w₁).cycle.1 = (m.put p w₂).cycle.1 ∧
      (m.put p w₁).cycle.2.SameBut p (m.put p w₂).cycle.2 := by
  intro p
  rcases Word.disassemble_eq_iff.1 hlook with rfl | ⟨op, h₁, h₂, hshows⟩
  · exact ⟨rfl, .refl p _⟩
  have hop := Opcode.needsOperand_of_showsOperand hshows
  have hcycle {w : Word} (hdecode : w.decode = .ok op) :=
    cycle_of_needsOperand (m := m.put p w) h hrun hfault
      ((congrArg _ (instruction_put h w)).trans hdecode) hop
  have hlatch : (m.put p w₁).latch.SameBut p (m.put p w₂).latch := (SameBut.put p m w₁ w₂).latch
  rw [hcycle h₁, hcycle h₂, value_put, value_put]
  split
  next => exact ⟨rfl, hlatch.raise _⟩
  next => exact ⟨rfl, ((hlatch.assign .pc (by decide) _).settle_execute hshows).counted op⟩

/-- CLEAR does the same whatever its operand field holds. -/
theorem cycle_congr_disassemble_clear :
    Word.disassemble 0xA123 = Word.disassemble 0xA000 ∧ blank.WellFormed ∧
      (blank.put 0 0xA123).cycle.1 = (blank.put 0 0xA000).cycle.1 ∧
      (blank.put 0 0xA123).cycle.2.SameBut 0 (blank.put 0 0xA000).cycle.2 := by
  have hlook : Word.disassemble 0xA123 = Word.disassemble 0xA000 := by decide +kernel
  have hblank : blank.WellFormed := wellFormed_new
  have hpc : (blank.value .pc).toNat = 0 := by decide +kernel
  have hsame := cycle_congr_disassemble hlook hblank rfl rfl
  rw [hpc] at hsame
  exact ⟨hlook, hblank, hsame⟩

end Machine

end AccumulatorMachine
