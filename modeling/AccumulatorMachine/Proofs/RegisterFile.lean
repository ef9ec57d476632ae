import AccumulatorMachine.Proofs.Acts

/-!
# The register file

Each register stays in its own slot, stores no more than its width, and shows what it stores. A
cycle changes registers by assignments only, and so do a load, a reset, a restart and an input; an
edit from outside stores a number, changes a mode or enters a literal. All of them bring the text of
a register up to date, so that it is never out of step with the word, whatever was done before.
-/

namespace AccumulatorMachine

theorem Word.toInt_low12_ofInt (n : Int) : (ofInt n).low12.toInt = n % 4096 := by
  have hlow := toNat_low12 (ofInt n)
  have hword : (ofInt n).toNat = (n % 2 ^ 16).toNat := BitVec.toNat_ofInt ..
  rw [toInt_of_lt (by omega)]
  omega

namespace Register

/-- A register in the slot of a designation that stores no more than its width and shows what it
stores. -/
structure InStep (d : Designation) (r : Register) : Prop where
  designation : r.designation = d
  rendering : r.IsRendered
  stored : d.isAddress = true → r.stored.toNat < 4096

inductive Edit
  | setValue (n : Int)
  | setMode (mode : DisplayMode)
  | setLiteral (text : String)

/-- The register after an edit. A literal that cannot be read leaves it as it was. -/
def edit (r : Register) : Edit → Register
  | .setValue n => r.setValue n
  | .setMode mode => r.setMode mode
  | .setLiteral text =>
    match r.setLiteral text with
    | .ok entered => entered
    | .error _ => r

theorem stored_setValue (r : Register) (n : Int) :
    (r.setValue n).stored = r.designation.cut n := rfl

theorem inStep_new (d : Designation) : (new d).InStep d where
  designation := rfl
  rendering := rfl
  stored _ := by
    show (0 : Word).toNat < 4096
    decide

namespace InStep

variable {d : Designation} {r : Register} (h : r.InStep d)
include h

theorem setValue (n : Int) : (r.setValue n).InStep d where
  designation := h.designation
  rendering := r.isRendered_setValue n
  stored hd := by
    rw [stored_setValue, h.designation, Designation.cut, if_pos hd]
    exact Word.toNat_low12_lt _

theorem setMode (mode : DisplayMode) : (r.setMode mode).InStep d where
  designation := h.designation
  rendering := r.isRendered_setMode mode
  stored := h.stored

theorem setLiteral {text : String} {entered : Register}
    (hentered : r.setLiteral text = .ok entered) : entered.InStep d := by
  unfold Register.setLiteral at hentered
  cases hread : r.mode.literal text with
  | error e =>
    rw [hread] at hentered
    cases hentered
  | ok w =>
    rw [hread] at hentered
    cases hentered
    exact h.setValue w.toInt

theorem edit (e : Edit) : (r.edit e).InStep d := by
  cases e with
  | setValue n => exact h.setValue n
  | setMode mode => exact h.setMode mode
  | setLiteral text =>
    rw [Register.edit]
    split
    next hentered => exact h.setLiteral hentered
    next => exact h

theorem value_eq : r.value = r.stored := by
  rw [value, h.designation]
  split
  next hd =>
    apply BitVec.eq_of_toNat_eq
    rw [Word.toNat_low12, Nat.mod_eq_of_lt (h.stored hd)]
  next => rfl

end InStep

end Register

namespace Machine

/-- Each slot holds its own register, which shows what it stores. -/
def RegistersInStep (m : Machine) : Prop := ∀ d, (m.registers.get d).InStep d

/-- What can be done to a machine when its registers are edited one at a time: an act that does not
put the whole file to something else, an edit of a register, or any change of the memory. -/
inductive Deed
  | act (a : Act) (ha : ∀ registers memory, a ≠ .edit registers memory)
  | register (d : Designation) (e : Register.Edit)
  | memory (memory : Memory)

def deed (m : Machine) : Deed → Machine
  | .act a _ => m.act a
  | .register d e => { m with registers := m.registers.modify d (·.edit e) }
  | .memory memory => { m with memory }

def deeds (m : Machine) (ds : List Deed) : Machine := ds.foldl deed m

theorem deed_setValue (m : Machine) (d : Designation) (n : Int) :
    m.deed (.register d (.setValue n)) = m.assign d n := rfl

namespace RegistersInStep

variable {m : Machine}

theorem new : new.RegistersInStep := by
  intro d
  cases d <;> exact Register.inStep_new _

theorem modify (h : m.RegistersInStep) (d : Designation) {f : Register → Register}
    (hf : ∀ r : Register, r.InStep d → (f r).InStep d) :
    RegistersInStep { m with registers := m.registers.modify d f } := by
  intro e
  rw [Registers.get_modify]
  split
  next he =>
    subst he
    exact hf _ (h e)
  next => exact h e

theorem assign (h : m.RegistersInStep) (d : Designation) (n : Int) :
    (m.assign d n).RegistersInStep :=
  h.modify d fun _ hr => hr.setValue n

theorem cycleInvariant : CycleInvariant RegistersInStep where
  assign h d k := h.assign d k
  setMemory h _ := h
  noteLine h _ := h
  await h := h
  print h _ := h
  halt h := h
  raise h _ := h
  counted h _ := h

theorem reset (h : m.RegistersInStep) : m.reset.RegistersInStep := by
  intro d
  rw [Machine.reset, Registers.get_reset]
  exact (h d).setValue 0

theorem restart (h : m.RegistersInStep) : m.restart.RegistersInStep := by
  unfold Machine.restart
  split
  · exact h.assign .pc _
  · exact h

theorem loadedWith (h : m.RegistersInStep) (lines : List Line) :
    (m.loadedWith lines).RegistersInStep := by
  have hplaced : (m.reset.placed lines).RegistersInStep := h.reset
  exact hplaced.assign .pc _

theorem load (h : m.RegistersInStep) (source : Except ImageError Image) :
    (m.act (.load source)).RegistersInStep := by
  cases source with
  | error e => exact h.reset
  | ok image =>
    rw [act_load_ok]
    rcases m.afterLoad_cases image with heq | ⟨lines, -, heq⟩
    · rw [heq]
      exact h.reset
    · rw [heq]
      exact h.loadedWith lines

/-- One deed keeps every register in step: most of them are assignments, and the others leave the
registers alone. -/
theorem deed (h : m.RegistersInStep) (x : Deed) : (m.deed x).RegistersInStep := by
  cases x with
  | register d e => exact h.modify d fun _ hr => hr.edit e
  | memory memory => exact h
  | act a ha =>
    cases a with
    | cycle => exact cycleInvariant.cycle h
    | load source => exact h.load source
    | reset => exact h.reset
    | restart => exact h.restart
    | supply n => exact (h.assign .input n).assign .ac _
    | edit registers memory => exact (ha registers memory rfl).elim
    | halt | resume | pause | stop | raise | breakpoint | clearBreakpoints | drain => exact h

theorem deeds (h : m.RegistersInStep) (ds : List Deed) : (m.deeds ds).RegistersInStep := by
  induction ds generalizing m with
  | nil => exact h
  | cons x ds ih => exact ih (h.deed x)

end RegistersInStep

/-- Whatever was done to a new machine, each slot holds the register of its own name, whose text is
the rendering of its word in its mode; MAR and PC hold an address, as stored and as read; and a
number is cut to the width of the register it is stored in, and reaches no other. -/
theorem register_file_in_step (ds : List Deed) :
    let m := new.deeds ds
    (∀ d, (m.registers.get d).designation = d ∧
      (m.registers.get d).rendering =
        (m.registers.get d).mode.render d.isAddress (m.registers.get d).stored) ∧
    (∀ d, d = .mar ∨ d = .pc →
      (0 ≤ (m.registers.get d).stored.toInt ∧ (m.registers.get d).stored.toInt ≤ 4095) ∧
      0 ≤ (m.value d).toInt ∧ (m.value d).toInt ≤ 4095) ∧
    ∀ (d : Designation) (n : Int),
      ((m.deed (.register d (.setValue n))).registers.get d).stored.toInt =
        (if d = .mar ∨ d = .pc then n % 4096 else n.bmod (2 ^ 16)) ∧
      ∀ e ≠ d, (m.deed (.register d (.setValue n))).registers.get e = m.registers.get e := by
  intro m
  have hstep : m.RegistersInStep := RegistersInStep.new.deeds ds
  have hclass (d : Designation) : d.isAddress = true ↔ d = .mar ∨ d = .pc := by
    cases d <;> simp
  refine ⟨?shown, ?addresses, ?cut⟩
  case shown =>
    intro d
    obtain ⟨hname, hrendering, -⟩ := hstep d
    refine ⟨hname, hrendering.trans ?_⟩
    rw [Register.freshRendering, hname]
  case addresses =>
    intro d hd
    have hlt := (hstep d).stored ((hclass d).2 hd)
    have hint : (m.registers.get d).stored.toInt = (m.registers.get d).stored.toNat :=
      Word.toInt_of_lt (by omega)
    have hvalue : m.value d = (m.registers.get d).stored := (hstep d).value_eq
    rw [hvalue, hint]
    omega
  case cut =>
    intro d n
    rw [deed_setValue]
    refine ⟨?_, fun e he => Registers.get_modify_ne _ _ he⟩
    rw [Machine.assign, Registers.get_modify_self, Register.stored_setValue,
      (hstep d).designation, Designation.cut]
    by_cases hd : d = .mar ∨ d = .pc
    · rw [if_pos ((hclass d).2 hd), if_pos hd, Word.toInt_low12_ofInt]
    · rw [if_neg (mt (hclass d).1 hd), if_neg hd, Word.ofInt, BitVec.toInt_ofInt]

/-- A program at the end of memory that is run for a cycle, with MAR shown in decimal and a literal
that AC refuses. -/
def lastInstruction : List Deed :=
  [.act (.load (.ok (.ofWords 0xFFE [0xA000]))) (by simp), .register .mar (.setMode .decimal),
    .register .ac (.setLiteral "ten"), .act .restart (by simp), .act .cycle (by simp)]

/-- MAR shows the address of the fetch in its new mode, and numbers from outside wrap around. -/
theorem register_file_in_step_last :
    let m := new.deeds lastInstruction
    (m.registers.get .mar).rendering = "4094" ∧ (m.value .pc).toInt ≤ 4095 ∧
      ((m.deed (.register .pc (.setValue (-1)))).registers.get .pc).stored.toInt = 4095 ∧
      ((m.deed (.register .ac (.setValue 98304))).registers.get .ac).stored.toInt = -32768 := by
  obtain ⟨hshown, haddresses, hcut⟩ := register_file_in_step lastInstruction
  refine ⟨(hshown .mar).2.trans ?_, (haddresses .pc (.inr rfl)).2.2, ?_, ?_⟩
  · decide +kernel
  · exact (hcut .pc (-1)).1.trans (by decide)
  · exact (hcut .ac 98304).1.trans (by decide)

end Machine

end AccumulatorMachine
