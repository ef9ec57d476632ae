import Mathlib.Logic.Function.Basic
import AccumulatorMachine.Proofs.Execution

/-!
# The instruction table

What a program can see of a machine, what the instruction table says each instruction does to it,
and the refinement: a cycle without a fault goes through MAR, MBR and IR, but leaves what the table
says.
-/

namespace AccumulatorMachine

/-- What a program can see: addresses and cells as numbers and words, without the registers through
which a cycle moves them. -/
structure Visible where
  ac : Word
  pc : Nat
  input : Word
  output : Word
  cell : Nat → Word
  printed : Array OutputRecord
  status : Status

def skips (bits : Nat) (ac : Word) : Prop :=
  match bits with
  | 0 => ac.toInt < 0
  | 1 => ac.toInt = 0
  | 2 => 0 < ac.toInt
  | _ => False

instance (bits : Nat) (ac : Word) : Decidable (skips bits ac) :=
  match bits with
  | 0 => inferInstanceAs (Decidable (ac.toInt < 0))
  | 1 => inferInstanceAs (Decidable (ac.toInt = 0))
  | 2 => inferInstanceAs (Decidable (0 < ac.toInt))
  | _ + 3 => inferInstanceAs (Decidable False)

namespace Visible

/-- The instruction table: what an instruction word does once PC has gone on, where OUTPUT is shown
in a mode. -/
def perform (v : Visible) (op : Opcode) (w : Word) (mode : DisplayMode) : Visible :=
  let a := w.toNat % 4096
  let pointed := (v.cell a).toNat % 4096
  match op with
  | .jns =>
    { v with
      cell := Function.update v.cell a (BitVec.ofNat 16 v.pc)
      ac := BitVec.ofNat 16 (a + 1)
      pc := (a + 1) % 4096 }
  | .load => { v with ac := v.cell a }
  | .store => { v with cell := Function.update v.cell a v.ac }
  | .add => { v with ac := v.ac + v.cell a }
  | .subt => { v with ac := v.ac - v.cell a }
  | .input => { v with status := .awaitingInput }
  | .output => { v with output := v.ac, printed := v.printed.push ⟨v.ac, mode⟩ }
  | .halt => { v with status := .haltedNormal }
  | .skipCond => if skips (w.toNat / 1024 % 4) v.ac then { v with pc := (v.pc + 1) % 4096 } else v
  | .jump => { v with pc := a }
  | .clear => { v with ac := 0 }
  | .addI => { v with ac := v.ac + v.cell pointed }
  | .jumpI => { v with pc := pointed }
  | .loadI => { v with ac := v.cell pointed }
  | .storeI => { v with cell := Function.update v.cell (v.cell pointed).toNat v.ac }

end Visible

namespace Machine

def visible (m : Machine) : Visible where
  ac := m.value .ac
  pc := (m.value .pc).toNat
  input := m.value .input
  output := m.value .output
  cell := m.memory.cell
  printed := m.output
  status := m.status

variable {m : Machine}

theorem visible_assign (h : m.WellFormed) (d : Designation) (n : Int) :
    (m.assign d n).visible =
      match d with
      | .ac => { m.visible with ac := Word.ofInt n }
      | .pc => { m.visible with pc := (Word.ofInt n).toNat % 4096 }
      | .input => { m.visible with input := Word.ofInt n }
      | .output => { m.visible with output := Word.ofInt n }
      | .ir | .mar | .mbr => m.visible := by
  cases d <;>
    simp [visible, value_assign h, Word.toNat_low12]

theorem visible_put (m : Machine) {i : Nat} (hi : i < memorySize) (w : Word) :
    (m.put i w).visible = { m.visible with cell := Function.update m.visible.cell i w } := by
  have hcell : (m.memory.put i w).cell = Function.update m.memory.cell i w := by
    funext j
    rw [Memory.cell_put _ hi, Function.update_apply]
  change { m.visible with cell := (m.memory.put i w).cell } = _
  rw [hcell]
  rfl

theorem visible_print (m : Machine) (r : OutputRecord) :
    (m.print r).visible = { m.visible with printed := m.output.push r } := rfl

@[simp] theorem visible_noteLine (m : Machine) (address : Word) :
    (m.noteLine address).visible = m.visible := rfl

/-- What the execution of a fetched instruction word may rely on. -/
structure Ready (m : Machine) (op : Opcode) (w : Word) : Prop where
  wellFormed : m.WellFormed
  ir : m.value .ir = w
  mar : op.needsOperand = true → m.value .mar = w.low12
  mbr : op.needsOperand = true → m.value .mbr = m.operand w

namespace Ready

variable {op : Opcode} {w : Word}

theorem toNat_mar (r : m.Ready op w) (hop : op.needsOperand = true) :
    (m.value .mar).toNat = w.toNat % 4096 := by
  rw [r.mar hop, Word.toNat_low12]

theorem operand_lt (w : Word) : w.toNat % 4096 < memorySize := Nat.mod_lt _ (by decide)

theorem visible_linked (r : m.Ready .jns w) (mode : DisplayMode) :
    m.linked.visible = m.visible.perform .jns w mode := by
  let m₁ := (m.assign .mbr (m.value .pc).toInt).assign .mar (m.value .ir).low12.toInt
  let m₂ := (m₁.put (m₁.value .mar).toNat (m₁.value .mbr)).assign .mbr (m₁.value .mar).toInt
  let m₃ := m₂.assign .ac ((m₂.value .mbr).toInt + 1)
  have hmbr := (wellFormed_assign m .mbr (m.value .pc).toInt).2 r.wellFormed
  have h₁ : m₁.WellFormed := (wellFormed_assign ..).2 hmbr
  have hput := (wellFormed_put m₁ (m₁.value .mar).toNat (m₁.value .mbr)).2 h₁
  have h₂ : m₂.WellFormed := (wellFormed_assign ..).2 hput
  have h₃ : m₃.WellFormed := (wellFormed_assign ..).2 h₂
  have mar₁ : m₁.value .mar = w.low12 := by
    rw [value_assign hmbr, r.ir]
    simp
  have mbr₁ : m₁.value .mbr = m.value .pc := by
    rw [value_assign hmbr, value_assign r.wellFormed]
    simp
  have mbr₂ : m₂.value .mbr = w.low12 := by
    rw [value_assign hput, mar₁]
    simp
  have ac₃ : m₃.value .ac = BitVec.ofNat 16 (w.toNat % 4096 + 1) := by
    rw [value_assign h₂, mbr₂, ← Word.toNat_low12, ← Word.ofInt_succ]
    simp
  have cells : m₂.visible =
      { m.visible with cell := Function.update m.memory.cell (w.toNat % 4096) (m.value .pc) } := by
    rw [visible_assign hput, mar₁, mbr₁, Word.toNat_low12, visible_put m₁ (operand_lt w),
      visible_assign hmbr, visible_assign r.wellFormed]
    rfl
  have hpc : (w.toNat % 4096 + 1) % 65536 = w.toNat % 4096 + 1 := by omega
  calc
    m.linked.visible = (m₃.assign .pc (m₃.value .ac).toInt).visible := rfl
    _ = m.visible.perform .jns w mode := by
      rw [visible_assign h₃, visible_assign h₂, cells, ac₃, mbr₂, Word.ofInt_succ,
        Word.toNat_low12]
      simp [Visible.perform, visible, hpc]

theorem visible_followed (h : m.WellFormed) : m.followed.visible = m.visible := by
  have hmar := (wellFormed_assign m .mar (m.value .mbr).toInt).2 h
  rw [followed, visible_assign hmar, visible_assign h]

theorem followed_mbr (r : m.Ready op w) (hop : op.needsOperand = true) :
    m.followed.value .mbr = m.visible.cell ((m.visible.cell (w.toNat % 4096)).toNat % 4096) := by
  have hmar := (wellFormed_assign m .mar (m.value .mbr).toInt).2 r.wellFormed
  rw [followed, value_assign hmar, r.mbr hop]
  simp [operand, visible]

end Ready

end Machine

namespace Condition

theorem toNat_bits (w : Word) : (bits w).toNat = w.toNat / 1024 % 4 := by
  have hmask : w.toNat >>> 10 &&& 3 = w.toNat >>> 10 % 4 :=
    Nat.and_two_pow_sub_one_eq_mod (w.toNat >>> 10) 2
  have hand : (w.toNat &&& 0xC00) >>> 10 = w.toNat / 1024 % 4 := by
    rw [Nat.shiftRight_and_distrib]
    exact hmask.trans (by rw [Nat.shiftRight_eq_div_pow])
  have hbits : (bits w).toNat = (w.toNat &&& 0xC00) >>> 10 % 256 := by
    simp [bits]
  omega

theorem holds_iff_skips {w : Word} {c : Condition} (hc : ofWord w = .ok c) (ac : Word) :
    c.holds ac = true ↔ skips (w.toNat / 1024 % 4) ac := by
  rw [← toNat_bits]
  unfold ofWord at hc
  split at hc
  next hbits => cases hc; simp [hbits, holds, skips]
  next hbits => cases hc; simp [hbits, holds, skips]
  next hbits => cases hc; simp [hbits, holds, skips]
  next => cases hc

end Condition

namespace Machine

namespace Ready

variable {m m' : Machine} {op : Opcode} {w : Word}

/-- An instruction that does not fault does what the table says, and raises nothing. -/
theorem execute_visible (r : m.Ready op w) (hfault : m.fault = none)
    (hrun : (Action.execute op).run m = .ok () m') :
    m'.visible = m.visible.perform op w m.registers.output.mode ∧ m'.fault = none ∧
      m'.listing = m.listing ∧ m'.cycles = m.cycles := by
  have h := r.wellFormed
  cases op with
  | jns =>
    rw [run_execute_jns h] at hrun
    cases hrun
    exact ⟨r.visible_linked _, hfault, rfl, rfl⟩
  | load =>
    rw [run_execute_load] at hrun
    cases hrun
    rw [visible_assign h, r.mbr rfl]
    exact ⟨by simp [Visible.perform, operand, visible], hfault, rfl, rfl⟩
  | store =>
    rw [run_execute_store h] at hrun
    cases hrun
    rw [r.toNat_mar rfl, visible_put _ (operand_lt w), visible_assign h]
    exact ⟨rfl, hfault, rfl, rfl⟩
  | add =>
    rw [run_execute_add] at hrun
    cases hrun
    rw [visible_assign h, r.mbr rfl, Word.ofInt_add]
    exact ⟨rfl, hfault, rfl, rfl⟩
  | subt =>
    rw [run_execute_subt] at hrun
    cases hrun
    rw [visible_assign h, r.mbr rfl, Word.ofInt_sub]
    exact ⟨rfl, hfault, rfl, rfl⟩
  | input =>
    rw [run_execute_input] at hrun
    cases hrun
    exact ⟨rfl, hfault, rfl, rfl⟩
  | output =>
    rw [run_execute_output] at hrun
    cases hrun
    refine ⟨?_, hfault, rfl, rfl⟩
    have hvalue : (m.assign .output (m.value .ac).toInt).value .output = m.value .ac := by
      rw [value_assign h]
      simp
    rw [visible_print, visible_assign h, hvalue, mode_assign, Word.ofInt_toInt]
    rfl
  | halt =>
    rw [run_execute_halt] at hrun
    cases hrun
    refine ⟨?_, hfault, rfl, rfl⟩
    simp [halt, hfault, Visible.perform, visible, value]
  | skipCond =>
    rw [run_execute_skipCond, r.ir] at hrun
    cases hc : Condition.ofWord w with
    | error e => rw [hc] at hrun; cases hrun
    | ok c =>
      rw [hc] at hrun
      cases hrun
      have hskip := Condition.holds_iff_skips hc (m.value .ac)
      split
      next hholds =>
        have hpc : ((m.value .pc).toNat + 1) % 65536 % 4096 = ((m.value .pc).toNat + 1) % 4096 := by
          omega
        rw [visible_assign h, Word.ofInt_succ, BitVec.toNat_ofNat, hpc]
        refine ⟨?_, hfault, rfl, rfl⟩
        rw [Visible.perform]
        exact (if_pos (hskip.1 hholds)).symm
      next hholds =>
        rw [hskip] at hholds
        exact ⟨by rw [Visible.perform]; exact (if_neg hholds).symm, hfault, rfl, rfl⟩
  | jump =>
    rw [run_execute_jump] at hrun
    cases hrun
    rw [visible_assign h, r.ir]
    refine ⟨?_, hfault, rfl, rfl⟩
    simp [Visible.perform, Word.toNat_low12]
  | clear =>
    rw [run_execute_clear] at hrun
    cases hrun
    rw [visible_assign h]
    exact ⟨rfl, hfault, rfl, rfl⟩
  | addI =>
    rw [run_execute_addI h] at hrun
    cases hrun
    rw [visible_assign (wellFormed_followed h), visible_followed h, r.followed_mbr rfl,
      value_followed h (by decide) (by decide), Word.ofInt_add]
    exact ⟨rfl, hfault, rfl, rfl⟩
  | jumpI =>
    rw [run_execute_jumpI] at hrun
    cases hrun
    rw [visible_assign h, r.mbr rfl]
    refine ⟨?_, hfault, rfl, rfl⟩
    simp [Visible.perform, operand, visible]
  | loadI =>
    rw [run_execute_loadI h] at hrun
    cases hrun
    rw [visible_assign (wellFormed_followed h), visible_followed h, r.followed_mbr rfl,
      Word.ofInt_toInt]
    exact ⟨rfl, hfault, rfl, rfl⟩
  | storeI =>
    rw [run_execute_storeI h] at hrun
    split at hrun
    next hlt =>
      cases hrun
      rw [visible_put _ hlt, visible_followed h, Word.toNat_of_toLocation_lt hlt,
        r.followed_mbr rfl, value_followed h (by decide) (by decide)]
      exact ⟨rfl, hfault, rfl, rfl⟩
    next => cases hrun

end Ready

variable {m : Machine} {op : Opcode}

theorem ready_fetched (h : m.WellFormed) (op : Opcode) :
    (m.fetched op).Ready op m.instruction where
  wellFormed := wellFormed_fetched h op
  ir := by simp [value_fetched h, value_latch h]
  mar hop := by simp [value_fetched h, hop]
  mbr hop := by
    rw [value_fetched h op (by decide), if_pos ⟨hop, rfl⟩, operand, operand, memory_fetched]

theorem visible_latch (h : m.WellFormed) : m.latch.visible = m.visible := by
  have hmar := (wellFormed_assign m .mar (m.value .pc).toInt).2 h
  rw [latch, visible_noteLine, visible_assign hmar, visible_assign h]

theorem visible_loadOperand (h : m.WellFormed) (op : Opcode) (w : Word) :
    (m.loadOperand op w).visible = m.visible := by
  unfold loadOperand
  split
  · rw [visible_assign ((wellFormed_assign ..).2 h), visible_assign h]
  · rfl

theorem visible_fetched (h : m.WellFormed) (hroom : (m.value .pc).toNat < 4095) (op : Opcode) :
    (m.fetched op).visible = { m.visible with pc := (m.value .pc).toNat + 1 } := by
  have hl := wellFormed_latch h
  have hpc : ((m.value .pc).toNat + 1) % 65536 % 4096 = (m.value .pc).toNat + 1 := by omega
  rw [fetched, visible_assign (wellFormed_loadOperand hl op _), visible_loadOperand hl,
    visible_latch h]
  dsimp only
  rw [Word.toNat_ofInt_natCast, hpc]

/-- A cycle that raises no fault does what the instruction table says: PC goes on to the next cell,
then the instruction takes effect on what a program can see, and nothing else of it changes. The
cycle answers and counts the instruction. -/
theorem cycle_refines_table (h : m.WellFormed) (hrun : m.status = .running)
    (hfault : m.fault = none) (hok : m.cycle.2.fault = none) :
    ∃ op, m.instruction.decode = .ok op ∧ m.cycle.1 = some op ∧
      m.cycle.2.visible =
        { m.visible with pc := (m.value .pc).toNat + 1 }.perform op m.instruction
          m.registers.output.mode ∧
      m.cycle.2.listing = m.listing ∧ m.cycle.2.cycles = m.cycles + 1 ∧
      m.cycle.2.lastOpcode = some op := by
  rcases cycle_cases hrun hfault h with
    ⟨e, -, hcycle⟩ | ⟨op, -, -, hcycle⟩ | ⟨op, hdecode, hroom, hcycle⟩
  · rw [hcycle] at hok
    exact (fault_raise_ne_none _ _ hok).elim
  · rw [hcycle] at hok
    exact (fault_raise_ne_none _ _ hok).elim
  · have hready := ready_fetched h op
    have hclear : (m.fetched op).fault = none := (fault_fetched m op).trans hfault
    cases hx : (Action.execute op).run (m.fetched op) with
    | error f m' =>
      rw [hcycle, hx] at hok
      exact (fault_raise_ne_none m' f hok).elim
    | ok _ m' =>
      obtain ⟨hvisible, -, hlisting, hcycles⟩ := hready.execute_visible hclear hx
      have hmode : (m.fetched op).registers.output.mode = m.registers.output.mode :=
        mode_fetched m op .output
      rw [visible_fetched h hroom, hmode] at hvisible
      rw [hcycle, hx]
      refine ⟨op, hdecode, rfl, hvisible, ?_, ?_, rfl⟩
      · exact hlisting.trans (listing_fetched m op)
      · exact congrArg (· + 1) (hcycles.trans (cycles_fetched m op))

/-- A machine that runs on an empty memory, where every word is a call of the subroutine at 0. -/
def blank : Machine := { new with status := .running }

/-- The first instruction of an empty memory calls into its own cell: it replaces itself by the
return address. -/
theorem cycle_refines_table_call_into_itself :
    blank.WellFormed ∧ blank.status = .running ∧ blank.fault = none ∧
      blank.cycle.2.fault = none ∧ blank.cycle.1 = some .jns ∧ blank.cycle.2.visible.ac = 1 ∧
      blank.cycle.2.visible.pc = 1 ∧ blank.cycle.2.visible.cell 0 = 1 := by
  have hw : blank.WellFormed := wellFormed_new
  have hok : blank.cycle.2.fault = none := by rfl
  have hword : blank.instruction = 0 := by rfl
  obtain ⟨op, hop, hexecuted, hvisible, -⟩ := cycle_refines_table hw rfl rfl hok
  rw [hword] at hop hvisible
  have hjns : op = .jns := by
    cases hop
    rfl
  subst hjns
  exact ⟨hw, rfl, rfl, hok, hexecuted, by rw [hvisible]; rfl, by rw [hvisible]; rfl,
    by rw [hvisible]; rfl⟩

end Machine

end AccumulatorMachine
