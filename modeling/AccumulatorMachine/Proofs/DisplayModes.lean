import AccumulatorMachine.Proofs.Acts

/-!
# Display modes

A register keeps its display mode beside its value. Assignments and resets leave the mode there, and
an OUTPUT copies it into a record; nothing else looks at it. So a machine can be made plain, that is
shown in the modes of a new machine, before an act or after it. Two machines that differ in how they
are shown therefore do the same for ever, whatever is done to both of them and however each of them
is shown on the way.
-/

namespace AccumulatorMachine

/-- The record as it is made when OUTPUT is shown in its first mode. -/
def OutputRecord.plain (r : OutputRecord) : OutputRecord :=
  { r with mode := Designation.output.initialMode }

theorem Register.setMode_eq_setMode {r s : Register} (hname : r.designation = s.designation)
    (hstored : r.stored = s.stored) (mode : DisplayMode) : r.setMode mode = s.setMode mode := by
  simp only [setMode, rendered, freshRendering, hname, hstored]

namespace Registers

variable (rs : Registers)

/-- The registers shown in their first modes. -/
def plain : Registers :=
  Designation.all.foldl (fun rs d => rs.modify d (·.setMode d.initialMode)) rs

@[simp] theorem get_plain (d : Designation) :
    rs.plain.get d = (rs.get d).setMode d.initialMode := by
  cases d <;> rfl

theorem plain_modify_setValue (d : Designation) (n : Int) :
    (rs.modify d (·.setValue n)).plain = rs.plain.modify d (·.setValue n) := by
  ext1 e
  simp only [get_plain, get_modify]
  split <;> rfl

theorem plain_modify_setMode (d : Designation) (mode : DisplayMode) :
    (rs.modify d (·.setMode mode)).plain = rs.plain := by
  ext1 e
  simp only [get_plain, get_modify]
  split <;> rfl

theorem plain_reset : rs.reset.plain = rs.plain.reset := by
  ext1 d
  simp only [get_plain, get_reset]
  rfl

theorem plain_eq_plain_iff {rs rs' : Registers} :
    rs.plain = rs'.plain ↔
      ∀ d, (rs.get d).designation = (rs'.get d).designation ∧
        (rs.get d).stored = (rs'.get d).stored := by
  constructor
  · intro h d
    have hget : (rs.get d).setMode d.initialMode = (rs'.get d).setMode d.initialMode := by
      rw [← get_plain, ← get_plain, h]
    have hname := congrArg Register.designation hget
    have hstored := congrArg Register.stored hget
    simp only [Register.designation_setMode, Register.stored_setMode] at hname hstored
    exact ⟨hname, hstored⟩
  · intro h
    ext1 d
    rw [get_plain, get_plain]
    exact Register.setMode_eq_setMode (h d).1 (h d).2 _

end Registers

theorem map_plain_eq_map_plain_iff {records records' : Array OutputRecord} :
    records.map OutputRecord.plain = records'.map OutputRecord.plain ↔
      records.map (·.value) = records'.map (·.value) := by
  constructor
  · intro h
    have hvalues := congrArg (Array.map OutputRecord.value) h
    rw [Array.map_map, Array.map_map] at hvalues
    exact hvalues
  · intro h
    have hrecords := congrArg (Array.map (OutputRecord.mk · Designation.output.initialMode)) h
    rw [Array.map_map, Array.map_map] at hrecords
    exact hrecords

namespace Machine

/-- The machine as it would be if its registers had always been shown in their first modes. -/
def plain (m : Machine) : Machine :=
  { m with registers := m.registers.plain, output := m.output.map OutputRecord.plain }

section plain

variable (m : Machine)

@[simp] theorem value_plain (d : Designation) : m.plain.value d = m.value d := by
  rw [value, value, plain, Registers.get_plain, Register.value_setMode]

theorem plain_assign (d : Designation) (n : Int) : (m.assign d n).plain = m.plain.assign d n := by
  unfold plain assign
  rw [m.registers.plain_modify_setValue d n]

theorem plain_setMode (d : Designation) (mode : DisplayMode) :
    (m.setMode d mode).plain = m.plain := by
  unfold plain setMode
  rw [m.registers.plain_modify_setMode d mode]

theorem plain_drain : m.drain.2.plain = m.plain.drain.2 := by
  simp [drain, plain]

theorem plain_reset : m.reset.plain = m.plain.reset := by
  simp [plain, reset, new, Registers.plain_reset]

theorem plain_restart : m.restart.plain = m.plain.restart := by
  by_cases hprogram : m.status.hasProgram = true
  · have hplain : m.plain.status.hasProgram = true := hprogram
    rw [restart, restart, if_pos hprogram, if_pos hplain]
    exact congrArg (fun n : Machine =>
      { n with
        fault := none
        cursor := if m.listing.isEmpty then none else some 0
        executedLine := none
        status := .running }) (m.plain_assign .pc (m.listing.entry?.getD 0).toNat)
  · have hplain : ¬m.plain.status.hasProgram = true := hprogram
    rw [restart, restart, if_neg hprogram, if_neg hplain]

theorem plain_completeInput (n : Int) : (m.completeInput n).plain = m.plain.completeInput n := by
  have hinput := m.plain_assign .input n
  have hac := (m.assign .input n).plain_assign .ac ((m.assign .input n).value .input).toInt
  have hvalue : (m.plain.assign .input n).value .input = (m.assign .input n).value .input := by
    rw [← hinput, value_plain]
  unfold completeInput
  dsimp only
  rw [hvalue, ← hinput, ← hac]
  rfl

theorem plain_loadedWith (lines : List Line) :
    (m.loadedWith lines).plain = m.plain.loadedWith lines := by
  have hplaced : (m.reset.placed lines).plain = m.plain.reset.placed lines := by
    rw [← plain_reset]
    rfl
  have hpc := (m.reset.placed lines).plain_assign .pc
    ((m.reset.placed lines).listing.entry?.getD 0).toNat
  rw [hplaced] at hpc
  exact congrArg (fun n : Machine => { n with status := .haltedNormal }) hpc

theorem plain_afterLoad (image : Image) : (m.afterLoad image).plain = m.plain.afterLoad image := by
  rw [afterLoad, afterLoad, run_load, run_load]
  cases image.lines with
  | error e => exact m.plain_reset
  | ok lines => exact m.plain_loadedWith lines

theorem cycleRelation_plain : CycleRelation fun m n => n = m.plain where
  status := by
    rintro m n rfl
    rfl
  fault := by
    rintro m n rfl
    rfl
  memory := by
    rintro m n rfl
    rfl
  value := by
    rintro m n rfl d
    exact (m.value_plain d).symm
  assign := by
    rintro m n rfl d k
    exact (m.plain_assign d k).symm
  setMemory := by
    rintro m n rfl memory
    rfl
  noteLine := by
    rintro m n rfl address
    rfl
  await := by
    rintro m n rfl
    rfl
  print := by
    rintro m n rfl
    -- The one place that reads a mode: it goes into the record, where it is made plain as well.
    have hmode : m.plain.registers.output.mode = Designation.output.initialMode :=
      congrArg Register.mode (m.registers.get_plain .output)
    rw [hmode, value_plain]
    unfold print plain
    rw [Array.map_push]
    rfl
  raise := by
    rintro m n rfl f
    rfl
  halt := by
    rintro m n rfl
    rfl
  counted := by
    rintro m n rfl op
    rfl

/-- A plain machine executes the same instruction, and stays plain. -/
theorem plain_cycle : m.plain.cycle = (m.cycle.1, m.cycle.2.plain) := by
  have hcycle := cycleRelation_plain.cycle (m := m) rfl
  exact Prod.ext hcycle.1.symm hcycle.2

end plain

/-- Two machines that are the same, apart from the display modes of their registers, the texts that
show them and the modes in their output. -/
structure SameButModes (m n : Machine) : Prop where
  designation : ∀ d, (m.registers.get d).designation = (n.registers.get d).designation
  stored : ∀ d, (m.registers.get d).stored = (n.registers.get d).stored
  memory : m.memory = n.memory
  status : m.status = n.status
  fault : m.fault = n.fault
  listing : m.listing = n.listing
  cursor : m.cursor = n.cursor
  executedLine : m.executedLine = n.executedLine
  output : m.output.map (·.value) = n.output.map (·.value)
  cycles : m.cycles = n.cycles
  lastOpcode : m.lastOpcode = n.lastOpcode

theorem sameButModes_iff {m n : Machine} : m.SameButModes n ↔ m.plain = n.plain := by
  constructor
  · intro h
    have hregisters := Registers.plain_eq_plain_iff.2 fun d => ⟨h.designation d, h.stored d⟩
    have houtput := map_plain_eq_map_plain_iff.2 h.output
    unfold plain
    rw [hregisters, houtput, h.memory, h.status, h.fault, h.listing, h.cursor, h.executedLine,
      h.cycles, h.lastOpcode]
  · intro h
    rw [plain, plain, mk.injEq] at h
    obtain ⟨hregisters, hmemory, hstatus, hfault, hlisting, hcursor, hexecuted, houtput, hcycles,
      hopcode⟩ := h
    have hsame := Registers.plain_eq_plain_iff.1 hregisters
    exact {
      designation := fun d => (hsame d).1
      stored := fun d => (hsame d).2
      memory := hmemory
      status := hstatus
      fault := hfault
      listing := hlisting
      cursor := hcursor
      executedLine := hexecuted
      output := map_plain_eq_map_plain_iff.1 houtput
      cycles := hcycles
      lastOpcode := hopcode }

/-- Acts see no modes: what can be done to two machines leaves them the same if they were. -/
theorem plain_act_eq {m n : Machine} (h : m.plain = n.plain) (a : Act) :
    (m.act a).plain = (n.act a).plain := by
  cases a with
  | cycle =>
    have hcycle := congrArg cycle h
    rw [plain_cycle, plain_cycle] at hcycle
    exact (Prod.mk.inj hcycle).2
  | load source =>
    cases source with
    | error e =>
      change m.reset.plain = n.reset.plain
      rw [plain_reset, plain_reset, h]
    | ok image =>
      rw [act_load_ok, act_load_ok, plain_afterLoad, plain_afterLoad, h]
  | reset =>
    change m.reset.plain = n.reset.plain
    rw [plain_reset, plain_reset, h]
  | restart =>
    change m.restart.plain = n.restart.plain
    rw [plain_restart, plain_restart, h]
  | supply k =>
    change (m.completeInput k).plain = (n.completeInput k).plain
    rw [plain_completeInput, plain_completeInput, h]
  | halt => exact congrArg halt h
  | resume => exact congrArg (fun m : Machine => { m with status := .running }) h
  | pause => exact congrArg pause h
  | stop => exact congrArg stopByUser h
  | raise f => exact congrArg (·.raise f) h
  | breakpoint address f => exact congrArg (·.act (.breakpoint address f)) h
  | clearBreakpoints => exact congrArg (·.act .clearBreakpoints) h
  | drain =>
    change m.drain.2.plain = n.drain.2.plain
    rw [plain_drain, plain_drain, h]
  | edit registers memory =>
    exact congrArg (fun m : Machine => { m with registers := registers.plain, memory }) h

/-- A move in a game of two machines: something that is done to both, or a register of one of them
that is shown in another mode. -/
inductive Move
  | both (a : Act)
  | showLeft (d : Designation) (mode : DisplayMode)
  | showRight (d : Designation) (mode : DisplayMode)

def moved (p : Machine × Machine) : Move → Machine × Machine
  | .both a => (p.1.act a, p.2.act a)
  | .showLeft d mode => (p.1.setMode d mode, p.2)
  | .showRight d mode => (p.1, p.2.setMode d mode)

def movedAll (p : Machine × Machine) (moves : List Move) : Machine × Machine := moves.foldl moved p

theorem SameButModes.moved {m n : Machine} (h : m.SameButModes n) (move : Move) :
    (moved (m, n) move).1.SameButModes (moved (m, n) move).2 := by
  rw [sameButModes_iff] at h ⊢
  cases move with
  | both a => exact plain_act_eq h a
  | showLeft d mode => exact (m.plain_setMode d mode).trans h
  | showRight d mode => exact h.trans (n.plain_setMode d mode).symm

theorem SameButModes.movedAll {m n : Machine} (h : m.SameButModes n) (moves : List Move) :
    (movedAll (m, n) moves).1.SameButModes (movedAll (m, n) moves).2 := by
  induction moves generalizing m n with
  | nil => exact h
  | cons move moves ih => exact ih (h.moved move)

theorem SameButModes.value {m n : Machine} (h : m.SameButModes n) (d : Designation) :
    m.value d = n.value d := by
  rw [← value_plain, sameButModes_iff.1 h, value_plain]

theorem SameButModes.answer {m n : Machine} (h : m.SameButModes n) : m.cycle.1 = n.cycle.1 := by
  have hcycle := congrArg cycle (sameButModes_iff.1 h)
  rw [plain_cycle, plain_cycle] at hcycle
  exact (Prod.mk.inj hcycle).1

/-- Display modes never influence what is computed. Two machines that are the same but for their
modes stay so, whatever is done to both of them, and however the registers of each are shown on the
way: they agree on every register's value, and execute the same instruction next. -/
theorem modes_never_matter {m n : Machine} (h : m.SameButModes n) (moves : List Move) :
    (movedAll (m, n) moves).1.SameButModes (movedAll (m, n) moves).2 ∧
      (∀ d, (movedAll (m, n) moves).1.value d = (movedAll (m, n) moves).2.value d) ∧
      (movedAll (m, n) moves).1.cycle.1 = (movedAll (m, n) moves).2.cycle.1 := by
  have hmoved := h.movedAll moves
  exact ⟨hmoved, hmoved.value, hmoved.answer⟩

/-- Two machines are loaded and given a value, which each of them prints in a mode of its own. -/
def echoMoves : List Move :=
  [.both (.load (.ok (.ofWords 0 [0x5000, 0x6000, 0x7000]))), .both .restart,
    .showLeft .output .ascii, .both .cycle, .both (.supply 65), .showRight .ac .hex, .both .cycle]

/-- The two have printed the same value in two modes, and halt next. -/
theorem modes_never_matter_echo :
    new.SameButModes (new.setMode .ac .decimal) ∧
      (let p := movedAll (new, new.setMode .ac .decimal) echoMoves
       p.1.SameButModes p.2 ∧ p.1.value .output = p.2.value .output ∧
         p.1.cycle.1 = p.2.cycle.1 ∧ p.1.cycle.1 = some .halt ∧ p.1.output = #[⟨65, .ascii⟩] ∧
         p.2.output = #[⟨65, .decimal⟩]) := by
  have hsame : new.SameButModes (new.setMode .ac .decimal) :=
    sameButModes_iff.2 (new.plain_setMode .ac .decimal).symm
  obtain ⟨hmoved, hvalue, hanswer⟩ := modes_never_matter hsame echoMoves
  exact ⟨hsame, hmoved, hvalue .output, hanswer, by decide +kernel, by decide +kernel,
    by decide +kernel⟩

end Machine

end AccumulatorMachine
