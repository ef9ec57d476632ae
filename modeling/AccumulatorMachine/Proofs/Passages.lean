import AccumulatorMachine.Proofs.Acts
import AccumulatorMachine.Proofs.FaultAgreement

/-!
# Passages of a controlled machine

Whatever an event does to a controller, its machine goes on by acts: through the calls of the cycle,
and through what the controller does to it between them. Only a load, a reset and a change of a
breakpoint touch the listing.
-/

namespace AccumulatorMachine

namespace Machine

theorem cycleInvariant_listing (listing : Listing) :
    CycleInvariant fun m => m.listing = listing where
  assign h _ _ := h
  setMemory h _ := h
  noteLine h _ := h
  await h := h
  print h _ := h
  halt h := h
  raise h _ := h
  counted h _ := h

theorem listing_cycle (m : Machine) : m.cycle.2.listing = m.listing :=
  (cycleInvariant_listing m.listing).cycle rfl

/-- An act other than a cycle that keeps the listing, the output and the names of the registers. -/
def Act.Drives : Act → Prop
  | .cycle | .load _ | .reset | .breakpoint _ _ | .clearBreakpoints | .drain => False
  | .edit registers _ => registers.WellFormed
  | _ => True

/-- How a machine is driven from one state to another, and on which machines the cycle is called
on the way. -/
inductive Passage (start : Machine) : List Machine → Machine → Prop
  | refl : Passage start [] start
  | cycle {entries : List Machine} {m : Machine} (h : Passage start entries m) :
    Passage start (entries ++ [m]) m.cycle.2
  | act {entries : List Machine} {m : Machine} (h : Passage start entries m) (a : Act)
    (ha : a.Drives) : Passage start entries (m.act a)

namespace Passage

variable {start m n : Machine} {first second : List Machine}

theorem trans (h : Passage start first m) (hnext : Passage m second n) :
    Passage start (first ++ second) n := by
  induction hnext with
  | refl => rwa [List.append_nil]
  | cycle _ ih =>
    rw [← List.append_assoc]
    exact ih.cycle
  | act _ a ha ih => exact ih.act a ha

theorem of_act (a : Act) (ha : a.Drives) : Passage m [] (m.act a) := refl.act a ha

theorem of_cycle (m : Machine) : Passage m [m] m.cycle.2 := refl.cycle

theorem exists_acts (h : Passage start first m) : ∃ as, start.acts as = m := by
  induction h with
  | refl => exact ⟨[], rfl⟩
  | cycle _ ih =>
    obtain ⟨as, rfl⟩ := ih
    exact ⟨as ++ [.cycle], acts_append ..⟩
  | act _ a _ ih =>
    obtain ⟨as, rfl⟩ := ih
    exact ⟨as ++ [a], acts_append ..⟩

theorem wellFormed (hw : start.WellFormed) (h : Passage start first m) : m.WellFormed := by
  induction h with
  | refl => exact hw
  | cycle _ ih => exact cycleInvariant_wellFormed.cycle ih
  | act _ a ha ih =>
    cases a with
    | restart => exact ih.restart
    | supply n => exact ih.completeInput n
    | edit registers memory => exact ha
    | cycle | load | reset | breakpoint | clearBreakpoints | drain => exact ha.elim
    | _ => exact ih

theorem listing_eq (h : Passage start first m) : m.listing = start.listing := by
  induction h with
  | refl => rfl
  | cycle _ ih => rw [listing_cycle, ih]
  | @act _ m _ a ha ih =>
    cases a with
    | cycle | load | reset | breakpoint | clearBreakpoints | drain => exact ha.elim
    | restart =>
      have hrestart : m.restart.listing = m.listing := by
        unfold Machine.restart
        split <;> rfl
      exact hrestart.trans ih
    | _ => exact ih

theorem begin (m : Machine) : Passage m [] m.begin := by
  unfold Machine.begin
  split
  · exact of_act .restart trivial
  · exact of_act .restart trivial
  · exact of_act .restart trivial
  · exact of_act .resume trivial
  · exact refl

theorem pauseAtBreakpoint (m : Machine) : Passage m [] m.pauseAtBreakpoint := by
  unfold Machine.pauseAtBreakpoint
  split
  · exact of_act .pause trivial
  · exact refl

end Passage

end Machine

open Machine (Passage)

/-- The events that change the listing, if they are not refused. -/
def Event.relists : Event → Bool
  | .call (.load _) | .call .reset => true
  | .call (.setBreakpoint _ _) | .call (.toggleBreakpoint _) | .call .clearBreakpoints => true
  | _ => false

namespace Controller

section passage

variable (c : Controller)

theorem tickEntries_eq :
    c.tickEntries =
      if c.stopPending = true ∨ c.pausePending = true ∨ c.machine.status ≠ .running then []
      else [c.machine] := by
  unfold tickEntries observe
  cases c.stopPending <;> cases c.pausePending <;> simp [Machine.isRunning]

theorem passage_runLoop (fuel : Nat) (c : Controller) :
    Passage c.machine (runEntries fuel c) (c.runLoop fuel).machine := by
  induction fuel generalizing c with
  | zero => exact .refl
  | succ fuel ih =>
    unfold runEntries runLoop
    rw [runTick_eq]
    split_ifs
    · exact .of_act .stop trivial
    · exact .of_act .pause trivial
    · exact .refl
    · exact .of_act .pause trivial
    · exact (Passage.of_cycle c.machine).trans (ih c.cycled)

theorem passage_workTick : Passage c.machine c.tickEntries c.workTick.machine := by
  rw [tickEntries_eq, workTick_eq]
  cases hstop : c.stopPending with
  | true => exact .of_act .stop trivial
  | false =>
    cases hpause : c.pausePending with
    | true => exact .of_act .pause trivial
    | false =>
      by_cases hrun : c.machine.status = .running
      · simp only [hrun, Bool.false_eq_true, ne_eq, not_true_eq_false, or_self, if_false]
        exact (Passage.of_cycle c.machine).trans (.pauseAtBreakpoint _)
      · simp only [hrun, Bool.false_eq_true, ne_eq, not_false_eq_true, or_true, if_true, if_false]
        exact .refl

theorem passage_workLoop (fuel : Nat) (c : Controller) :
    Passage c.machine (workEntries fuel c) (c.workLoop fuel).machine := by
  induction fuel generalizing c with
  | zero => exact .refl
  | succ fuel ih =>
    unfold workEntries workLoop
    split
    · exact c.passage_workTick.trans (ih c.workTick)
    · exact .refl

theorem passage_step : Passage c.machine c.stepEntries (Control.exec Control.step c).machine := by
  rw [Control.exec_step, stepEntries]
  split
  · exact (Passage.begin c.machine).trans (.of_cycle _)
  · exact .refl

theorem passage_runToCompletion (fuel : Nat) :
    Passage c.machine (c.startEntries fuel)
      (Control.exec (Control.runToCompletion fuel) c).machine := by
  rw [Control.exec_runToCompletion, startEntries]
  split
  · exact (Passage.begin c.machine).trans (passage_runLoop fuel (c.begin .toCompletion))
  · exact .refl

theorem passage_runToBreakpoint :
    Passage c.machine [] (Control.exec Control.runToBreakpoint c).machine := by
  rw [Control.exec_runToBreakpoint]
  split
  · exact .begin c.machine
  · exact .refl

theorem passage_resume (fuel : Nat) :
    Passage c.machine (c.resumeEntries fuel) (Control.exec (Control.resume fuel) c).machine := by
  rw [Control.exec_resume, resumeEntries]
  split
  · exact .refl
  · cases c.mode with
    | singleStep => exact c.passage_step
    | toCompletion => exact c.passage_runToCompletion fuel
    | toBreakpoint => exact c.passage_runToBreakpoint

theorem passage_goOn (fuel : Nat) :
    Passage c.machine (c.goOnEntries fuel) (c.goOn fuel).machine := by
  unfold goOnEntries goOn
  cases c.mode with
  | singleStep => exact .refl
  | toCompletion => exact passage_runLoop fuel c
  | toBreakpoint =>
    rw [if_neg nofun]
    dsimp only
    split
    · exact .of_act .pause trivial
    · exact .refl

theorem passage_supply (fuel : Nat) (n : Int) :
    Passage c.machine (c.supplyEntries fuel n)
      (Control.exec (Control.supply fuel n) c).machine := by
  rw [Control.exec_supply, supplyEntries]
  split
  · exact .refl
  · refine (passage_workLoop fuel c).trans ?_
    dsimp only
    split
    · exact .of_act .stop trivial
    · have hsupplied : Passage (c.workLoop fuel).machine []
          ((c.workLoop fuel).supplied n).machine := .of_act (.supply n) trivial
      exact hsupplied.trans (passage_goOn _ fuel)

theorem passage_abort (f : Fault) :
    Passage c.machine [] (Control.exec (Control.abort f) c).machine := by
  rw [Control.exec_abort]
  split
  · exact .refl
  · exact .of_act (.raise f) trivial

theorem passage_requestPause : Passage c.machine [] c.requestPause.machine := by
  unfold requestPause
  split
  · split
    · exact .refl
    · exact .of_act .pause trivial
  · exact .refl

theorem passage_requestStop : Passage c.machine [] c.requestStop.machine := by
  unfold requestStop
  split
  · split
    · exact .refl
    · exact .of_act .stop trivial
  · exact .of_act .stop trivial
  · exact .of_act .stop trivial
  · exact .refl

theorem passage_after_of_ne {c : Controller} (h : c.machine.WellFormed) {e : Event}
    (he : e.relists = false) (hdrain : e ≠ .call .drain) (fuel : Nat) :
    Passage c.machine (c.entries fuel e) (c.after fuel e).machine := by
  cases e with
  | tick =>
    rw [entries, after]
    split
    · exact c.passage_workTick
    · exact .refl
  | call op =>
    rw [after]
    cases op with
    | load source => cases he
    | step =>
      rw [perform, Control.snd_answer]
      exact c.passage_step
    | run =>
      rw [perform, Control.snd_answer]
      exact c.passage_runToCompletion fuel
    | runToBreakpoint =>
      rw [perform, Control.snd_answer]
      exact c.passage_runToBreakpoint
    | resume =>
      rw [perform, Control.snd_answer]
      exact c.passage_resume fuel
    | supply n =>
      rw [perform, Control.snd_answer]
      exact c.passage_supply fuel n
    | supplyLiteral text =>
      rw [perform, Control.snd_answer, Control.exec, Control.run_supplyLiteral, entries]
      cases c.machine.registers.input.mode.literal text with
      | error e => exact .refl
      | ok w => exact c.passage_supply fuel w.toInt
    | abort f =>
      rw [perform, Control.snd_answer]
      exact c.passage_abort f
    | requestPause => exact c.passage_requestPause
    | requestStop => exact c.passage_requestStop
    | leavePause => exact .refl
    | leaveStop => exact .refl
    | wait => exact passage_workLoop fuel c
    | setBreakpoint address on => cases he
    | toggleBreakpoint address => cases he
    | clearBreakpoints => cases he
    | drain => exact (hdrain rfl).elim
    | setDelay delay => exact .refl
    | cycle => exact .of_cycle c.machine
    | halt => exact .of_act .halt trivial
    | restart => exact .of_act .restart trivial
    | reset => cases he
    | assign d n => exact .of_act (.edit _ c.machine.memory) (h.assign d n)
    | setMode d mode => exact .of_act (.edit _ c.machine.memory) (h.setMode d mode)
    | write place w =>
      rw [perform]
      cases c.machine.memory.write place w with
      | error e => exact .refl
      | ok memory => exact .of_act (.edit c.machine.registers memory) h

/-- An event that leaves the listing alone drives the machine that is left of its output. -/
theorem passage_after {c : Controller} (h : c.machine.WellFormed) {e : Event}
    (he : e.relists = false) (fuel : Nat) :
    ∃ output, c.taken fuel e ++ output = c.machine.output ∧
      Passage { c.machine with output } (c.entries fuel e) (c.after fuel e).machine := by
  by_cases hdrain : e = .call .drain
  · subst hdrain
    refine ⟨#[], ?_, .refl⟩
    rw [(c.taken_drain fuel).1, Array.append_empty]
  · exact ⟨c.machine.output, by rw [taken_of_ne fuel c hdrain, Array.empty_append],
      passage_after_of_ne h he hdrain fuel⟩

theorem relist_after {e : Event} (he : e.relists = true) (fuel : Nat) :
    c.entries fuel e = [] ∧ ((c.after fuel e).machine = c.machine ∨
      ∃ a, (c.after fuel e).machine = c.machine.act a ∧ a ≠ .cycle) := by
  cases e with
  | tick => cases he
  | call op =>
    cases op with
    | load source =>
      refine ⟨rfl, ?_⟩
      rw [after, perform, Control.snd_answer, Control.exec_loadRead]
      split
      · exact .inl rfl
      · refine .inr ⟨.load source, ?_, by simp⟩
        cases source <;> rfl
    | setBreakpoint address on =>
      refine ⟨rfl, .inr ⟨.breakpoint address fun _ => on, ?_, by simp⟩⟩
      rw [after, perform, Control.snd_answer, Control.setBreakpoint, Control.exec_changeListing]
      rfl
    | toggleBreakpoint address =>
      refine ⟨rfl, .inr ⟨.breakpoint address not, ?_, by simp⟩⟩
      rw [after, perform, Control.snd_answer, Control.exec_toggleBreakpoint,
        Control.exec_changeListing]
      rfl
    | clearBreakpoints => exact ⟨rfl, .inr ⟨.clearBreakpoints, rfl, by simp⟩⟩
    | reset => exact ⟨rfl, .inr ⟨.reset, rfl, by simp⟩⟩
    | _ => cases he

end passage

/-- The controllers to which the events lead from a new one, each with the machines on which the
cycle was called since then. -/
inductive Traced : List Machine → Controller → Prop
  | new (config : Config) : Traced [] (.new config)
  | after {past : List Machine} {c : Controller} {e : Event} (fuel : Nat) (h : Traced past c)
    (he : c.allows e = true) : Traced (past ++ c.entries fuel e) (c.after fuel e)

theorem Traced.reachable {past : List Machine} {c : Controller} (h : Traced past c) :
    c.Reachable := by
  induction h with
  | new config => exact .new config
  | after fuel _ he ih => exact .after fuel ih he

/-- Every controller that can be reached has a history of fetches. -/
theorem Reachable.exists_traced {c : Controller} (h : c.Reachable) : ∃ past, Traced past c := by
  induction h with
  | new config => exact ⟨[], .new config⟩
  | after fuel _ he ih =>
    obtain ⟨past, hpast⟩ := ih
    exact ⟨_, hpast.after fuel he⟩

/-- The machine of a controller has been made by acts on a new machine. -/
theorem Reachable.exists_acts {c : Controller} (h : c.Reachable) :
    ∃ as, c.machine = Machine.new.acts as := by
  induction h with
  | new config => exact ⟨[], rfl⟩
  | @after c e fuel h _ ih =>
    obtain ⟨as, has⟩ := ih
    cases hrelists : e.relists with
    | false =>
      by_cases hdrain : e = .call .drain
      · subst hdrain
        exact ⟨as ++ [.drain], by rw [Machine.acts_append, ← has]; rfl⟩
      · obtain ⟨bs, hbs⟩ :=
          (passage_after_of_ne h.sound.wellFormed hrelists hdrain fuel).exists_acts
        exact ⟨as ++ bs, by rw [Machine.acts_append, ← has, hbs]⟩
    | true =>
      rcases (c.relist_after hrelists fuel).2 with hsame | ⟨a, ha, -⟩
      · exact ⟨as, by rw [hsame, has]⟩
      · exact ⟨as ++ [a], by rw [Machine.acts_append, ← has, ha]; rfl⟩

/-- What no act can break holds of the machine of every controller. -/
theorem Reachable.invariant {P : Machine → Prop} (hP : Machine.Invariant P) {c : Controller}
    (h : c.Reachable) : P c.machine := by
  obtain ⟨as, has⟩ := h.exists_acts
  rw [has]
  exact hP.acts hP.new as

theorem Reachable.indexed {c : Controller} (h : c.Reachable) : c.machine.listing.Indexed :=
  (h.invariant Machine.invariant_indexed).listing

end Controller

end AccumulatorMachine
