import AccumulatorMachine.Proofs.Consistency
import AccumulatorMachine.Proofs.CycleEntries

/-!
# State and fault agree

Every operation on a controller keeps its machine consistent, as long as nobody but its worker calls
the cycle of a machine that has one. So a fault is recorded exactly in the state of an abnormal
halt, and no cycle begins on a running machine with a fault pending.
-/

namespace AccumulatorMachine

namespace Controller

/-- Nobody but its worker calls the cycle of a machine that has a worker. -/
def allows (c : Controller) : Event → Bool
  | .call .cycle => !c.working
  | _ => true

/-- The controllers to which the events lead from a new one. -/
inductive Reachable : Controller → Prop
  | new (config : Config) : Reachable (.new config)
  | after {c : Controller} {e : Event} (fuel : Nat) (h : Reachable c) (he : c.allows e = true) :
    Reachable (c.after fuel e)

/-- A controller whose machine is consistent, and whose worker, if there is one, has a machine that
has not faulted and does not wait. -/
structure Sound (c : Controller) : Prop where
  wellFormed : c.machine.WellFormed
  consistent : c.machine.Consistent
  working : c.working = true → c.machine.fault = none ∧ c.machine.status ≠ .awaitingInput

/-- What a part of a history leads to: a sound controller, by calls of the cycle on consistent
machines only. -/
structure SoundPassage (entries : List Machine) (c : Controller) : Prop where
  sound : c.Sound
  entries : ∀ m ∈ entries, m.Consistent

namespace SoundPassage

variable {c d : Controller} {front back : List Machine}

theorem quiet (h : c.Sound) : SoundPassage [] c where
  sound := h
  entries := by simp

theorem single {m : Machine} (h : c.Sound) (hm : m.Consistent) : SoundPassage [m] c where
  sound := h
  entries := by
    intro n hn
    rw [List.mem_singleton.1 hn]
    exact hm

theorem append (h : SoundPassage front c) (hback : SoundPassage back d) :
    SoundPassage (front ++ back) d where
  sound := hback.sound
  entries := by
    intro m hm
    rcases List.mem_append.1 hm with hfront | hlater
    · exact h.entries m hfront
    · exact hback.entries m hlater

end SoundPassage

namespace Sound

variable {c : Controller}

theorem new (config : Config) : (Controller.new config).Sound where
  wellFormed := Machine.wellFormed_new
  consistent := Machine.Consistent.reset .new
  working := nofun

theorem of_idle (hw : c.machine.WellFormed) (hc : c.machine.Consistent)
    (hidle : c.working = false) : c.Sound where
  wellFormed := hw
  consistent := hc
  working := by simp [hidle]

theorem of_running (hw : c.machine.WellFormed) (hc : c.machine.Consistent)
    (hrun : c.machine.status = .running) : c.Sound where
  wellFormed := hw
  consistent := hc
  working _ := ⟨hc.fault_eq_none (by simp [hrun]), by simp [hrun]⟩

theorem idle_of_awaitingInput (h : c.Sound) (hwait : c.machine.status = .awaitingInput) :
    c.working = false :=
  Bool.eq_false_iff.2 fun hwork => (h.working hwork).2 hwait

theorem withStatus (h : c.Sound) (habnormal : c.machine.status ≠ .haltedAbnormal) {s : Status}
    (hs : s = .running ∨ s = .paused ∨ s = .haltedByUser) :
    Sound { c with machine := { c.machine with status := s } } where
  wellFormed := h.wellFormed
  consistent := h.consistent.withStatus habnormal hs
  working hwork := by
    refine ⟨(h.working hwork).1, ?_⟩
    rcases hs with rfl | rfl | rfl <;> nofun

theorem cycled (h : c.Sound) (hidle : c.working = false) : c.cycled.Sound :=
  of_idle (Machine.cycleInvariant_wellFormed.cycle h.wellFormed)
    (h.consistent.cycle h.wellFormed) hidle

/-- A tick of a run to completion. A request left for it must find a machine without a fault. -/
theorem runTick (h : c.Sound) (hidle : c.working = false)
    (hrequest : c.stopPending = true ∨ c.pausePending = true →
      c.machine.status ≠ .haltedAbnormal) : c.runTick.2.Sound := by
  rw [runTick_eq]
  split
  next hstop =>
    have hstopped := h.withStatus (hrequest (.inl hstop)) (.inr (.inr rfl))
    exact ⟨hstopped.wellFormed, hstopped.consistent, hstopped.working⟩
  next =>
    split
    next hpause =>
      have hpaused := h.withStatus (hrequest (.inr hpause)) (.inr (.inl rfl))
      exact ⟨hpaused.wellFormed, hpaused.consistent, hpaused.working⟩
    next =>
      split
      next => exact h
      next hrun =>
        have hrun := Decidable.not_not.1 hrun
        split
        next => exact h.withStatus (by simp [hrun]) (.inr (.inl rfl))
        next => exact h.cycled hidle

theorem runLoop (fuel : Nat) {c : Controller} (h : c.Sound) (hidle : c.working = false)
    (hrequest : c.stopPending = true ∨ c.pausePending = true →
      c.machine.status ≠ .haltedAbnormal) :
    SoundPassage (runEntries fuel c) (c.runLoop fuel) := by
  induction fuel generalizing c with
  | zero => exact .quiet h
  | succ fuel ih =>
    have htick := h.runTick hidle hrequest
    unfold runEntries Controller.runLoop
    rcases hrun : c.runTick with ⟨going, next⟩
    rw [hrun] at htick
    cases going with
    | false => exact .quiet htick
    | true =>
      -- A tick with which the run goes on has found no request, and leaves none for the next.
      obtain ⟨hstop, hpause, -, rfl⟩ := runTick_eq_true hrun
      have hnone : c.cycled.stopPending = true ∨ c.cycled.pausePending = true →
          c.cycled.machine.status ≠ .haltedAbnormal := by
        rintro (hpending | hpending)
        · exact (Bool.eq_false_iff.1 hstop hpending).elim
        · exact (Bool.eq_false_iff.1 hpause hpending).elim
      exact (SoundPassage.single htick h.consistent).append (ih htick hidle hnone)

theorem workTick (h : c.Sound) (hwork : c.working = true) :
    SoundPassage c.tickEntries c.workTick := by
  have habnormal := h.consistent.ne_haltedAbnormal (h.working hwork).1
  constructor
  · rw [workTick_eq]
    split
    next =>
      exact of_idle h.wellFormed (h.consistent.withStatus habnormal (.inr (.inr rfl))) rfl
    next =>
      split
      next =>
        exact of_idle h.wellFormed (h.consistent.withStatus habnormal (.inr (.inl rfl))) rfl
      next =>
        split
        next => exact of_idle h.wellFormed h.consistent rfl
        next =>
          have hcycle := (h.consistent.cycle h.wellFormed).pauseAtBreakpoint
          have hw : c.machine.cycle.2.pauseAtBreakpoint.WellFormed := by
            rw [Machine.WellFormed, Machine.registers_pauseAtBreakpoint]
            exact Machine.cycleInvariant_wellFormed.cycle h.wellFormed
          refine ⟨hw, hcycle, fun hgoing => ?_⟩
          have hrun : c.machine.cycle.2.pauseAtBreakpoint.status = .running :=
            of_decide_eq_true hgoing
          exact ⟨hcycle.fault_eq_none (by simp [hrun]), by simp [hrun]⟩
  · intro m hm
    unfold tickEntries at hm
    split at hm
    · rw [List.mem_singleton.1 hm]
      exact h.consistent
    · cases hm

theorem workLoop (fuel : Nat) {c : Controller} (h : c.Sound) :
    SoundPassage (workEntries fuel c) (c.workLoop fuel) := by
  induction fuel generalizing c with
  | zero => exact .quiet h
  | succ fuel ih =>
    unfold workEntries Controller.workLoop
    split
    next hwork =>
      have htick := h.workTick hwork
      exact htick.append (ih htick.sound)
    next => exact .quiet h

theorem begin (h : c.Sound) (hgo : c.refusal? = none) (mode : RunMode) :
    (c.begin mode).Sound :=
  of_idle h.wellFormed.begin h.consistent.begin (refusal?_eq_none_iff.1 hgo).1

theorem step (h : c.Sound) : SoundPassage c.stepEntries (Control.exec Control.step c) := by
  rw [Control.exec_step, stepEntries]
  by_cases hgo : c.refusal? = none
  · rw [if_pos hgo, if_pos hgo]
    have hbegin := h.begin hgo .singleStep
    exact .single (hbegin.cycled (refusal?_eq_none_iff.1 hgo).1) hbegin.consistent
  · rw [if_neg hgo, if_neg hgo]
    exact .quiet h

theorem runToCompletion (h : c.Sound) (fuel : Nat) :
    SoundPassage (c.startEntries fuel) (Control.exec (Control.runToCompletion fuel) c) := by
  rw [Control.exec_runToCompletion, startEntries]
  by_cases hgo : c.refusal? = none
  · rw [if_pos hgo, if_pos hgo]
    have hidle := (refusal?_eq_none_iff.1 hgo).1
    exact (h.begin hgo .toCompletion).runLoop fuel hidle (by simp [Controller.begin])
  · rw [if_neg hgo, if_neg hgo]
    exact .quiet h

theorem runToBreakpoint (h : c.Sound) : (Control.exec Control.runToBreakpoint c).Sound := by
  rw [Control.exec_runToBreakpoint]
  split
  next hgo =>
    have hbegin := h.begin hgo .toBreakpoint
    exact of_running hbegin.wellFormed hbegin.consistent (status_begin hgo)
  next => exact h

theorem resume (h : c.Sound) (fuel : Nat) :
    SoundPassage (c.resumeEntries fuel) (Control.exec (Control.resume fuel) c) := by
  rw [Control.exec_resume, resumeEntries]
  by_cases hpaused : c.machine.status ≠ .paused
  · rw [if_pos hpaused, if_pos hpaused]
    exact .quiet h
  · rw [if_neg hpaused, if_neg hpaused]
    cases c.mode with
    | singleStep => exact h.step
    | toCompletion => exact h.runToCompletion fuel
    | toBreakpoint => exact .quiet h.runToBreakpoint

theorem goOn (h : c.Sound) (hidle : c.working = false) (hrun : c.machine.status = .running)
    (fuel : Nat) : SoundPassage (c.goOnEntries fuel) (c.goOn fuel) := by
  have habnormal : c.machine.status ≠ .haltedAbnormal := by simp [hrun]
  unfold goOnEntries Controller.goOn
  cases c.mode with
  | singleStep => exact .quiet h
  | toCompletion => exact h.runLoop fuel hidle fun _ => habnormal
  | toBreakpoint =>
    rw [if_neg nofun]
    dsimp only
    split
    next =>
      have hpaused := h.withStatus habnormal (.inr (.inl rfl))
      exact .quiet ⟨hpaused.wellFormed, hpaused.consistent, hpaused.working⟩
    next => exact .quiet (of_running h.wellFormed h.consistent hrun)

theorem supply (h : c.Sound) (fuel : Nat) (n : Int) :
    SoundPassage (c.supplyEntries fuel n) (Control.exec (Control.supply fuel n) c) := by
  rw [Control.exec_supply, supplyEntries]
  by_cases hwait : c.machine.status ≠ .awaitingInput
  · rw [if_pos hwait, if_pos hwait]
    exact .quiet h
  · rw [if_neg hwait, if_neg hwait]
    have hwait := Decidable.not_not.1 hwait
    have hidle := h.idle_of_awaitingInput hwait
    refine (h.workLoop fuel).append ?_
    -- There is no worker to wait for.
    rw [workLoop_of_idle hidle]
    dsimp only
    split
    next =>
      exact .quiet <| of_idle h.wellFormed
        (h.consistent.withStatus (by simp [hwait]) (.inr (.inr rfl))) hidle
    next =>
      have hsupplied : (c.supplied n).Sound :=
        of_idle (h.wellFormed.completeInput n) (h.consistent.completeInput hwait n) hidle
      exact hsupplied.goOn hidle rfl fuel

theorem abort (h : c.Sound) (f : Fault) : (Control.exec (Control.abort f) c).Sound := by
  rw [Control.exec_abort]
  split
  next => exact h
  next hwait =>
    have hwait := Decidable.not_not.1 hwait
    exact of_idle h.wellFormed (.raise _ f) (h.idle_of_awaitingInput hwait)

theorem loadRead (h : c.Sound) (source : Except ImageError Image) :
    (Control.exec (Control.loadRead source) c).Sound := by
  rw [Control.exec_loadRead]
  split
  next => exact h
  next hidle =>
    have hidle := Bool.eq_false_iff.2 hidle
    cases source with
    | error e => exact of_idle h.wellFormed.reset (.reset _) hidle
    | ok image => exact of_idle (h.wellFormed.afterLoad image) (.afterLoad _ image) hidle

theorem requestPause (h : c.Sound) : c.requestPause.Sound := by
  unfold Controller.requestPause
  split
  next hrun =>
    have hrun := of_decide_eq_true hrun
    split
    next => exact ⟨h.wellFormed, h.consistent, h.working⟩
    next => exact h.withStatus (by simp [hrun]) (.inr (.inl rfl))
  next => exact h

theorem requestStop (h : c.Sound) : c.requestStop.Sound := by
  unfold Controller.requestStop
  split
  next hrun =>
    split
    next => exact ⟨h.wellFormed, h.consistent, h.working⟩
    next => exact h.withStatus (by simp [hrun]) (.inr (.inr rfl))
  next hpaused => exact h.withStatus (by simp [hpaused]) (.inr (.inr rfl))
  next hwait => exact h.withStatus (by simp [hwait]) (.inr (.inr rfl))
  next => exact h

theorem edit (h : c.Sound) {m : Machine} (hw : m.WellFormed)
    (hstatus : m.status = c.machine.status) (hfault : m.fault = c.machine.fault)
    (hlast : m.lastOpcode = c.machine.lastOpcode) : Sound { c with machine := m } where
  wellFormed := hw
  consistent := by
    constructor
    · rw [hfault, hstatus]
      exact h.consistent.fault_iff
    · rw [hstatus]
      exact h.consistent.initialized
    · rw [hstatus, hlast]
      exact h.consistent.awaiting
  working := by
    rw [hstatus, hfault]
    exact h.working

theorem halt (h : c.Sound) : Sound { c with machine := c.machine.halt } where
  wellFormed := h.wellFormed
  consistent := .halt _
  working hwork := by
    have hfault := (h.working hwork).1
    exact ⟨hfault, by simp [Machine.halt, hfault]⟩

theorem restart (h : c.Sound) : Sound { c with machine := c.machine.restart } := by
  refine ⟨h.wellFormed.restart, h.consistent.restart, ?_⟩
  unfold Machine.restart
  split
  · exact fun _ => ⟨rfl, nofun⟩
  · exact h.working

theorem reset (h : c.Sound) : Sound { c with machine := c.machine.reset } where
  wellFormed := h.wellFormed.reset
  consistent := .reset _
  working _ := ⟨rfl, nofun⟩

theorem changeListing (h : c.Sound) (address : Word) (f : Listing → Option Listing) :
    (Control.exec (Control.changeListing address f) c).Sound := by
  rw [Control.exec_changeListing]
  exact h.edit h.wellFormed rfl rfl rfl

/-- Every event that is allowed keeps a controller sound, and calls the cycle on consistent machines
only. -/
theorem after (h : c.Sound) {e : Event} (he : c.allows e = true) (fuel : Nat) :
    SoundPassage (c.entries fuel e) (c.after fuel e) := by
  cases e with
  | tick =>
    rw [entries, Controller.after]
    split
    next hwork => exact h.workTick hwork
    next => exact .quiet h
  | call op =>
    rw [Controller.after]
    cases op with
    | load source =>
      rw [perform, Control.snd_answer]
      exact .quiet (h.loadRead source)
    | step =>
      rw [perform, Control.snd_answer]
      exact h.step
    | run =>
      rw [perform, Control.snd_answer]
      exact h.runToCompletion fuel
    | runToBreakpoint =>
      rw [perform, Control.snd_answer]
      exact .quiet h.runToBreakpoint
    | resume =>
      rw [perform, Control.snd_answer]
      exact h.resume fuel
    | supply n =>
      rw [perform, Control.snd_answer]
      exact h.supply fuel n
    | supplyLiteral text =>
      rw [perform, Control.snd_answer, Control.exec, Control.run_supplyLiteral, entries]
      cases c.machine.registers.input.mode.literal text with
      | error e => exact .quiet h
      | ok w => exact h.supply fuel w.toInt
    | abort f =>
      rw [perform, Control.snd_answer]
      exact .quiet (h.abort f)
    | requestPause => exact .quiet h.requestPause
    | requestStop => exact .quiet h.requestStop
    | leavePause => exact .quiet ⟨h.wellFormed, h.consistent, h.working⟩
    | leaveStop => exact .quiet ⟨h.wellFormed, h.consistent, h.working⟩
    | wait => exact h.workLoop fuel
    | setBreakpoint address on =>
      rw [perform, Control.snd_answer]
      exact .quiet (h.changeListing address _)
    | toggleBreakpoint address =>
      rw [perform, Control.snd_answer, Control.exec_toggleBreakpoint]
      exact .quiet (h.changeListing address _)
    | clearBreakpoints => exact .quiet (h.edit h.wellFormed rfl rfl rfl)
    | drain => exact .quiet (h.edit h.wellFormed rfl rfl rfl)
    | setDelay delay => exact .quiet ⟨h.wellFormed, h.consistent, h.working⟩
    | cycle =>
      have hidle : c.working = false := by simpa [allows] using he
      exact .single (h.cycled hidle) h.consistent
    | halt => exact .quiet h.halt
    | restart => exact .quiet h.restart
    | reset => exact .quiet h.reset
    | assign d n => exact .quiet (h.edit (h.wellFormed.assign d n) rfl rfl rfl)
    | setMode d mode => exact .quiet (h.edit (h.wellFormed.setMode d mode) rfl rfl rfl)
    | write place w =>
      rw [perform]
      cases c.machine.memory.write place w with
      | error e => exact .quiet h
      | ok memory => exact .quiet (h.edit h.wellFormed rfl rfl rfl)

end Sound

/-- What the events lead to is sound. -/
theorem Reachable.sound {c : Controller} (h : c.Reachable) : c.Sound := by
  induction h with
  | new config => exact .new config
  | after fuel _ he ih => exact (ih.after he fuel).sound

/-- Whatever is done with a new controller: a fault is recorded exactly if the machine has halted
abnormally, so that it has no error code in any other state; the machine is never uninitialized; it
waits for input only behind an INPUT instruction; and whatever is done next, none of the calls of
the cycle finds a running machine with a fault pending. -/
theorem fault_agrees_with_status {c : Controller} (h : c.Reachable) :
    (c.machine.fault.isSome = true ↔ c.machine.status = .haltedAbnormal) ∧
    (c.machine.status ≠ .haltedAbnormal → c.machine.errorCode? = none) ∧
    c.machine.status ≠ .uninitialized ∧
    (c.machine.status = .awaitingInput → c.machine.lastOpcode = some .input) ∧
    ∀ fuel e, c.allows e = true → (c.entries fuel e).length = c.calls fuel e ∧
      ∀ m ∈ c.entries fuel e, ¬(m.status = .running ∧ m.fault.isSome = true) := by
  have hsound := h.sound
  have hconsistent := hsound.consistent
  refine ⟨hconsistent.fault_iff, ?_, hconsistent.initialized, hconsistent.awaiting, ?_⟩
  · intro habnormal
    rw [Machine.errorCode?, hconsistent.fault_eq_none habnormal]
    rfl
  · intro fuel e he
    refine ⟨c.length_entries fuel e, ?_⟩
    rintro m hm ⟨hrun, hfault⟩
    have habnormal := (((hsound.after he fuel).entries m hm).fault_iff).1 hfault
    cases hrun.symm.trans habnormal

/-- A controller whose program waits for a value, before a word that is no instruction. -/
def awaiting : Controller :=
  ((new .default).after 0 (.call (.load (.ok (.ofWords 0 [0x5000, 0xF000]))))).after 9 (.call .run)

def crashed : Controller := awaiting.after 9 (.call (.supply 7))

/-- The program waits behind its INPUT without an error code, and halts abnormally behind its fault.
A second run of it calls the cycle once, on a machine without the fault. -/
theorem fault_agrees_with_status_crashed :
    awaiting.Reachable ∧ awaiting.machine.status = .awaitingInput ∧
      awaiting.machine.errorCode? = none ∧ awaiting.machine.lastOpcode = some .input ∧
      crashed.Reachable ∧ crashed.machine.fault = some (.illegalOpcode 15 1) ∧
      crashed.machine.status = .haltedAbnormal ∧ crashed.allows (.call .run) = true ∧
      (crashed.entries 9 (.call .run)).length = 1 ∧
      ∀ m ∈ crashed.entries 9 (.call .run), ¬(m.status = .running ∧ m.fault.isSome = true) := by
  have hawaiting : awaiting.Reachable := .after 9 (.after 0 (.new .default) rfl) rfl
  have hcrashed : crashed.Reachable := .after 9 hawaiting rfl
  have hwait : awaiting.machine.status = .awaitingInput := by decide +kernel
  have hfault : crashed.machine.fault = some (.illegalOpcode 15 1) := by decide +kernel
  obtain ⟨-, hcode, -, hinput, -⟩ := fault_agrees_with_status hawaiting
  obtain ⟨habnormal, -, -, -, hentries⟩ := fault_agrees_with_status hcrashed
  obtain ⟨hlength, hclear⟩ := hentries 9 (.call .run) rfl
  have hcalls : crashed.calls 9 (.call .run) = 1 := by decide +kernel
  exact ⟨hawaiting, hwait, hcode (by rw [hwait]; nofun), hinput hwait, hcrashed, hfault,
    habnormal.1 (by rw [hfault]; rfl), rfl, hlength.trans hcalls, hclear⟩

end Controller

end AccumulatorMachine
