import AccumulatorMachine.Proofs.Refusals

/-!
# Whether a program is present

A machine keeps no flag that says whether it has a program: its state says so, and its listing shows
it. The two are changed apart. A successful load gives the machine lines and a state, and a reset
takes both away; in between the listing keeps its lines. But a halt, and a request that a worker
finds, give a state to a machine whether or not it has lines, and from then on it can be run without
a program. The state and the listing agree exactly in the histories in which this has not happened
since the last reset.
-/

namespace AccumulatorMachine

namespace Listing

theorem isEmpty_eq_of_size {l l' : Listing} (h : l'.size = l.size) : l'.isEmpty = l.isEmpty := by
  have hiff : l'.isEmpty = true ↔ l.isEmpty = true := by
    rw [isEmpty, isEmpty, Array.isEmpty_iff_size_eq_zero, Array.isEmpty_iff_size_eq_zero]
    exact Eq.congr_left h
  exact Bool.eq_iff_iff.2 hiff

end Listing

namespace Machine

theorem isEmpty_listing_loadedWith (m : Machine) {image : Image} {lines : List Line}
    (h : image.lines = .ok lines) : (m.loadedWith lines).listing.isEmpty = false := by
  obtain ⟨-, hsome, -⟩ := Image.lines_eq_ok_iff.1 h
  have htoList : (m.loadedWith lines).listing.lines.toList = lines :=
    Listing.toList_lines_pushAll lines
  rw [Listing.isEmpty, ← Array.isEmpty_toList, htoList, List.isEmpty_eq_false_iff]
  exact hsome

theorem cycleInvariant_status_ne_noProgram : CycleInvariant fun m => m.status ≠ .noProgram :=
  cycleInvariant_status (S := fun s => s ≠ .noProgram) nofun nofun nofun

theorem Passage.status_ne_noProgram {start m : Machine} {entries : List Machine}
    (hstart : start.status ≠ .noProgram) (h : Passage start entries m) :
    m.status ≠ .noProgram := by
  induction h with
  | refl => exact hstart
  | cycle _ ih => exact cycleInvariant_status_ne_noProgram.cycle ih
  | @act _ m _ a ha ih =>
    cases a with
    | cycle | load | reset | breakpoint | clearBreakpoints | drain => exact ha.elim
    | restart =>
      change m.restart.status ≠ .noProgram
      unfold Machine.restart
      split
      · nofun
      · exact ih
    | halt => exact cycleInvariant_status_ne_noProgram.halt ih
    | raise f => exact cycleInvariant_status_ne_noProgram.raise ih f
    | edit => exact ih
    | resume | pause | stop | supply => nofun

end Machine

/-- The events that put another listing in place of the program's. -/
def Event.reloads : Event → Bool
  | .call op => op.reloads
  | .tick => false

def Operation.drives : Operation → Bool
  | .step | .run | .runToBreakpoint | .resume => true
  | .supply _ | .supplyLiteral _ | .abort _ => true
  | _ => false

namespace Controller

variable {c : Controller}

theorem machine_after_of_relists {e : Event} (he : e.reloads = false) (hrelists : e.relists = true)
    (fuel : Nat) : ∃ listing, (c.after fuel e).machine = { c.machine with listing } ∧
      listing.size = c.machine.listing.size := by
  cases e with
  | tick => cases hrelists
  | call op =>
    obtain ⟨listing, hperform, hsize⟩ := c.perform_of_relists fuel hrelists he
    exact ⟨listing, congrArg machine hperform, hsize⟩

/-- Between loads and resets the program keeps its lines, and a state other than the first stays
so. -/
theorem after_of_not_reloads (hw : c.machine.WellFormed) {e : Event} (he : e.reloads = false)
    (fuel : Nat) :
    (c.after fuel e).machine.WellFormed ∧
      (c.after fuel e).machine.listing.isEmpty = c.machine.listing.isEmpty ∧
      (c.machine.status ≠ .noProgram → (c.after fuel e).machine.status ≠ .noProgram) := by
  cases hrelists : e.relists with
  | false =>
    obtain ⟨output, -, hpassage⟩ := passage_after hw hrelists fuel
    have hw : Machine.WellFormed { c.machine with output } := hw
    have hkeeps (hstatus : Machine.status { c.machine with output } ≠ .noProgram) :
        (c.after fuel e).machine.status ≠ .noProgram :=
      hpassage.status_ne_noProgram hstatus
    exact ⟨hpassage.wellFormed hw, by rw [hpassage.listing_eq], hkeeps⟩
  | true =>
    obtain ⟨listing, hmachine, hsize⟩ := machine_after_of_relists he hrelists fuel
    rw [hmachine]
    exact ⟨hw, Listing.isEmpty_eq_of_size hsize, id⟩

/-- Whether an event gives a state to a machine that has none: it is halted, or its worker finds a
request. -/
def misleads (fuel : Nat) (c : Controller) : Event → Bool
  | .call .halt => true
  | .tick => c.working && (c.stopPending || c.pausePending)
  | .call .wait => 0 < fuel && (c.working && (c.stopPending || c.pausePending))
  | _ => false

section bare

variable (hbare : c.machine.status = .noProgram)
include hbare

theorem workTick_of_noProgram :
    c.workTick.working = false ∧
      (c.workTick.machine.status = .noProgram ↔ (c.stopPending || c.pausePending) = false) := by
  rw [workTick_eq]
  cases hstop : c.stopPending with
  | true => simp [Machine.stopByUser]
  | false =>
    cases hpause : c.pausePending with
    | true => simp [Machine.pause]
    | false => simp [hbare]

theorem status_workLoop_of_noProgram (fuel : Nat) :
    (c.workLoop fuel).machine.status = .noProgram ↔ c.misleads fuel (.call .wait) = false := by
  cases fuel with
  | zero => simp [workLoop, misleads, hbare]
  | succ fuel =>
    obtain ⟨hidle, hstatus⟩ := workTick_of_noProgram hbare
    cases hwork : c.working with
    | true =>
      rw [workLoop, hwork, if_pos rfl, workLoop_of_idle hidle, hstatus]
      simp [misleads, hwork]
    | false => simp [workLoop_of_idle hwork, misleads, hwork, hbare]

theorem refusal?_of_noProgram :
    c.refusal? = some (if c.working then .busy else .noProgram) := by
  rw [refusal?, hbare]
  cases c.working <;> rfl

theorem inputRefusal?_of_noProgram : c.inputRefusal? = some (.notAwaitingInput .noProgram) := by
  rw [inputRefusal?, hbare]
  rfl

theorem exists_guard?_of_noProgram {op : Operation} (hop : op.drives = true) :
    ∃ e, c.guard? op = some e := by
  cases op with
  | step | run | runToBreakpoint => exact ⟨_, refusal?_of_noProgram hbare⟩
  | resume => exact ⟨_, if_pos (by rw [hbare]; nofun)⟩
  | supply | abort => exact ⟨_, inputRefusal?_of_noProgram hbare⟩
  | supplyLiteral text =>
    rw [guard?]
    cases c.machine.registers.input.mode.literal text with
    | error e => exact ⟨_, rfl⟩
    | ok w => exact ⟨_, inputRefusal?_of_noProgram hbare⟩
  | _ => cases hop

theorem perform_of_noProgram (fuel : Nat) {op : Operation} (hop : op.drives = true) :
    (c.perform fuel op).2 = c := by
  obtain ⟨e, hguard⟩ := exists_guard?_of_noProgram hbare hop
  rw [perform_of_guard? fuel hguard]

/-- A machine without a program stays as it is, unless an event gives it a state. -/
theorem status_after_of_noProgram {e : Event} (he : e.reloads = false) (fuel : Nat) :
    (c.after fuel e).machine.status = .noProgram ↔ c.misleads fuel e = false := by
  have hstays (heq : (c.after fuel e).machine.status = c.machine.status)
      (hfalse : c.misleads fuel e = false) :
      (c.after fuel e).machine.status = .noProgram ↔ c.misleads fuel e = false := by
    rw [heq, hbare, hfalse]
    simp
  cases e with
  | tick =>
    rw [after, misleads]
    cases c.working with
    | true => simpa using (workTick_of_noProgram hbare).2
    | false => simp [hbare]
  | call op =>
    cases op with
    | load | reset => cases he
    | step | run | runToBreakpoint | resume | supply | supplyLiteral | abort =>
      refine hstays ?_ rfl
      rw [after, perform_of_noProgram hbare fuel]
      rfl
    | requestPause =>
      refine hstays ?_ rfl
      simp [after, perform, requestPause, Machine.isRunning, hbare]
    | requestStop =>
      refine hstays ?_ rfl
      simp [after, perform, requestStop, hbare]
    | wait => exact status_workLoop_of_noProgram hbare fuel
    | setBreakpoint | toggleBreakpoint | clearBreakpoints =>
      obtain ⟨listing, hmachine, -⟩ := machine_after_of_relists he rfl fuel
      exact hstays (by rw [hmachine]) rfl
    | cycle =>
      refine hstays ?_ rfl
      simp [after, perform, Machine.cycle, hbare]
    | restart =>
      refine hstays ?_ rfl
      simp [after, perform, onMachine, Machine.restart, hbare, Status.hasProgram]
    | halt =>
      simp only [after, perform, onMachine, Machine.halt, misleads]
      split <;> simp
    | write place w =>
      refine hstays ?_ rfl
      rw [after, perform]
      cases c.machine.memory.write place w <;> rfl
    | leavePause | leaveStop | drain | setDelay | assign | setMode => exact hstays rfl rfl

end bare

/-- What a load comes to: it finds a worker, it succeeds, or it leaves the machine reset. -/
theorem perform_load_cases (c : Controller) (source : Except ImageError Image) (fuel : Nat) :
    c.perform fuel (.load source) = (.refused .busy, c) ∨
      (∃ (image : Image) (lines : List Line), image.lines = .ok lines ∧
        c.perform fuel (.load source) =
          (.done, { c with machine := c.machine.loadedWith lines })) ∨
      ∃ e, c.perform fuel (.load source) =
        (.refused (.load e), { c with machine := c.machine.reset }) := by
  rw [perform, answer, Control.loadRead, Control.run_loading]
  cases c.working with
  | true => exact .inl rfl
  | false =>
    cases source with
    | error e => exact .inr (.inr ⟨.image e, rfl⟩)
    | ok image =>
      have hrun : (Machine.loadRead (.ok image)).run c.machine =
          (Machine.load image).run c.machine := rfl
      rw [if_neg Bool.false_ne_true, hrun, Machine.run_load]
      cases hlines : image.lines with
      | error e => exact .inr (.inr ⟨e, rfl⟩)
      | ok lines => exact .inr (.inl ⟨image, lines, hlines, rfl⟩)

end Controller

/-- What the events so far say of a machine: whether a program has been loaded since the last reset,
and whether the machine has been given a state without one. -/
structure Presence where
  held : Bool
  misled : Bool

namespace Controller

/-- What is known after an event. A load tells by its reply whether it has succeeded, has reset the
machine or has not touched it. -/
def note (fuel : Nat) (c : Controller) (p : Presence) : Event → Presence
  | .call .reset => ⟨false, false⟩
  | .call (.load source) =>
    match (c.perform fuel (.load source)).1 with
    | .done => ⟨true, false⟩
    | .refused .busy => p
    | _ => ⟨false, false⟩
  | e => { p with misled := p.misled || (!p.held && c.misleads fuel e) }

/-- The controllers to which any events lead from a new one, with what is known of their machines.
-/
inductive Noted : Presence → Controller → Prop
  | new (config : Config) : Noted ⟨false, false⟩ (.new config)
  | after {p : Presence} {c : Controller} (fuel : Nat) (e : Event) (h : Noted p c) :
    Noted (c.note fuel p e) (c.after fuel e)

/-- What is known is right. -/
structure Told (p : Presence) (c : Controller) : Prop where
  wellFormed : c.machine.WellFormed
  listing : c.machine.listing.isEmpty = !p.held
  status : c.machine.status = .noProgram ↔ p.held = false ∧ p.misled = false
  clean : p.held = true → p.misled = false

namespace Told

variable {p : Presence} {c : Controller}

theorem reset (hw : c.machine.WellFormed) :
    Told ⟨false, false⟩ { c with machine := c.machine.reset } where
  wellFormed := hw.reset
  listing := rfl
  status := ⟨fun _ => ⟨rfl, rfl⟩, fun _ => rfl⟩
  clean _ := rfl

theorem load (h : Told p c) (source : Except ImageError Image) (fuel : Nat) :
    Told (c.note fuel p (.call (.load source))) (c.after fuel (.call (.load source))) := by
  rw [note, after]
  obtain hbusy | ⟨image, lines, hlines, hdone⟩ | ⟨e, hrefused⟩ := c.perform_load_cases source fuel
  · rw [hbusy]
    exact h
  · rw [hdone]
    exact {
      wellFormed := h.wellFormed.loadedWith lines
      listing := c.machine.isEmpty_listing_loadedWith hlines
      status := by simp [Machine.loadedWith]
      clean := fun _ => rfl }
  · rw [hrefused]
    exact .reset h.wellFormed

theorem after (h : Told p c) (fuel : Nat) (e : Event) :
    Told (c.note fuel p e) (c.after fuel e) := by
  cases hreloads : e.reloads with
  | true =>
    cases e with
    | tick => cases hreloads
    | call op =>
      cases op with
      | load source => exact h.load source fuel
      | reset => exact .reset h.wellFormed
      | _ => cases hreloads
  | false =>
    have hnote : c.note fuel p e =
        { p with misled := p.misled || (!p.held && c.misleads fuel e) } := by
      cases e with
      | tick => rfl
      | call op =>
        cases op with
        | load | reset => cases hreloads
        | _ => rfl
    obtain ⟨hw, hlisting, hkeeps⟩ := after_of_not_reloads h.wellFormed hreloads fuel
    rw [hnote]
    refine ⟨hw, hlisting.trans h.listing, ?_, ?_⟩
    · -- Only an event that misleads leaves the first state, and only a reset brings it back.
      by_cases hbare : c.machine.status = .noProgram
      · obtain ⟨hheld, hmisled⟩ := h.status.1 hbare
        rw [status_after_of_noProgram hbare hreloads]
        simp [hheld, hmisled]
      · have hknown := mt h.status.2 hbare
        simp only [hkeeps hbare, false_iff]
        rintro ⟨hheld, hmisled⟩
        exact hknown ⟨hheld, (Bool.or_eq_false_iff.1 hmisled).1⟩
    · intro hheld
      have hheld : p.held = true := hheld
      simp [hheld, h.clean hheld]

end Told

theorem Noted.told {p : Presence} {c : Controller} (h : Noted p c) : Told p c := by
  induction h with
  | new config =>
    exact ⟨Machine.wellFormed_new, rfl, ⟨fun _ => ⟨rfl, rfl⟩, fun _ => rfl⟩, fun _ => rfl⟩
  | after fuel e _ ih => exact ih.after fuel e

/-- Whatever has been done to a machine, it has lines exactly if a load has succeeded since the last
reset. Its state says that no program is loaded exactly if it has no lines, unless it has been given
a state without a program since then. As long as the state says so, nothing runs. -/
theorem nothing_runs_without_program {p : Presence} {c : Controller} (h : Noted p c) :
    (p.held = true ↔ c.machine.listing.isEmpty = false) ∧
      ((c.machine.status = .noProgram ↔ c.machine.listing.isEmpty = true) ↔ p.misled = false) ∧
      (c.machine.status = .noProgram →
        c.machine.listing.isEmpty = true ∧ c.machine.restart = c.machine ∧
          c.machine.cycle = (none, c.machine) ∧
          ∀ fuel op, op.isStart = true → c.perform fuel op =
            (.refused (if c.working then .busy else .noProgram), c)) := by
  have htold := h.told
  refine ⟨?_, ?_, ?_⟩
  · rw [htold.listing]
    simp
  · have hclean := htold.clean
    rw [htold.status, htold.listing]
    cases hheld : p.held with
    | true => simp [hclean hheld]
    | false => simp
  · intro hbare
    refine ⟨?_, ?_, ?_, ?_⟩
    · rw [htold.listing, (htold.status.1 hbare).1]
      rfl
    · rw [Machine.restart, hbare]
      rfl
    · exact Machine.cycle_of_ne (by simp [hbare])
    · intro fuel op hop
      refine perform_of_guard? fuel ?_
      cases op with
      | step | run | runToBreakpoint => exact refusal?_of_noProgram hbare
      | _ => cases hop

def discarded : Controller :=
  (((new .default).after 0 (.call (.load (.ok (.ofWords 0 [0x9000]))))).after 0
    (.call .runToBreakpoint)).after 0 (.call .reset)

/-- The machine that has been reset has lost its program. A step is refused as long as its worker
has not ended, and a run is refused after that. -/
theorem nothing_runs_without_program_discarded :
    Noted ⟨false, false⟩ discarded ∧ discarded.machine.status = .noProgram ∧
      discarded.machine.restart = discarded.machine ∧
      discarded.perform 0 .step = (.refused .busy, discarded) ∧
      (discarded.after 0 .tick).machine.listing.isEmpty = true ∧
      (discarded.after 0 .tick).perform 9 .run =
        (.refused .noProgram, discarded.after 0 .tick) := by
  have hnoted : Noted ⟨false, false⟩ discarded :=
    .after 0 (.call .reset) (.after 0 (.call .runToBreakpoint)
      (.after 0 (.call (.load (.ok (.ofWords 0 [0x9000])))) (.new .default)))
  have hbare : discarded.machine.status = .noProgram := rfl
  have hended : (discarded.after 0 .tick).machine.status = .noProgram := by decide +kernel
  have hwork : discarded.working = true := by decide +kernel
  have hidle : (discarded.after 0 .tick).working = false := by decide +kernel
  obtain ⟨-, -, hnothing⟩ := nothing_runs_without_program hnoted
  obtain ⟨-, -, hnothing'⟩ := nothing_runs_without_program (hnoted.after 0 .tick)
  obtain ⟨-, hrestart, -, hstart⟩ := hnothing hbare
  obtain ⟨hempty, -, -, hstart'⟩ := hnothing' hended
  have hstep := hstart 0 .step rfl
  have hrun := hstart' 9 .run rfl
  rw [hwork] at hstep
  rw [hidle] at hrun
  exact ⟨hnoted, hbare, hrestart, hstep, hempty, hrun⟩

/-- A new machine that is halted, and one whose worker finds a pause after a reset, have no lines
and yet a state in which they can be run. A step executes the zero in their first cell. -/
theorem runs_without_program :
    (let c := (new .default).after 0 (.call .halt)
     c.machine.listing.isEmpty = true ∧ c.machine.status = .haltedNormal ∧
       c.machine.restart.status = .running ∧
       (c.perform 0 .step).2.machine.lastOpcode = some .jns ∧
       (c.perform 0 .step).2.machine.cycles = 1) ∧
      (let c := (discarded.after 0 (.call .leavePause)).after 0 .tick
       c.machine.listing.isEmpty = true ∧ c.machine.status = .paused ∧
         (c.perform 0 .step).2.machine.lastOpcode = some .jns ∧
         (c.perform 0 .step).2.machine.cycles = 1) := by
  decide +kernel

end Controller

end AccumulatorMachine
