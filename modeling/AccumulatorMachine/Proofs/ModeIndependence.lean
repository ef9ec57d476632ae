import AccumulatorMachine.Proofs.DirectCycles
import AccumulatorMachine.Proofs.Histories

/-!
# Mode independence

Stepping, running to completion, running to breakpoints, pausing and going on again: however a
loaded program is driven, it computes what the cycle alone computes when it is called as often and
given the same values.
-/

namespace AccumulatorMachine

theorem Controller.working_elim {c : Controller} (h : c.working = false) {p : Prop}
    (hwork : c.working = true) : p := by
  rw [h] at hwork
  cases hwork

theorem Controller.begin_of_not_halted (c : Controller) (hgo : c.refusal? = none)
    (hnothalted : c.machine.status.isHalted = false) (drained : Array OutputRecord) :
    c.working = false ∧ c.machine.begin.unmarked drained = c.machine.unmarked drained ∧
      c.machine.begin.status = .running := by
  rcases refusal?_eq_none_iff.1 hgo with ⟨hidle, hrun | hpaused | hhalted⟩
  · rw [Machine.begin_of_running hrun]
    exact ⟨hidle, rfl, hrun⟩
  · rw [Machine.begin_of_paused hpaused]
    refine ⟨hidle, ?_, rfl⟩
    unfold Machine.unmarked
    rw [hpaused]
    rfl
  · rw [hnothalted] at hhalted
    cases hhalted

theorem Machine.unmarked_pauseAtBreakpoint (m : Machine) (drained : Array OutputRecord) :
    m.pauseAtBreakpoint.unmarked drained = m.unmarked drained := by
  unfold pauseAtBreakpoint
  split
  next h => exact unmarked_pause (status_of_atBreakpoint h) drained
  next => rfl

namespace History

/-- The history of a machine that is where the cycle alone leads from `start`. No stop is pending,
and a worker has a machine that runs. -/
structure OnTrack (start : Machine) (h : History) : Prop where
  leads : start.Leads h.calls h.inputs (h.controller.machine.unmarked h.drained)
  stopPending : h.controller.stopPending = false
  working : h.controller.working = true → h.controller.machine.status = .running

namespace OnTrack

variable {start : Machine} {h : History}

theorem mark (t : OnTrack start h) {c : Controller}
    (hm : c.machine.unmarked h.drained = h.controller.machine.unmarked h.drained)
    (hstop : c.stopPending = false) (hwork : c.working = true → c.machine.status = .running) :
    OnTrack start (h.towards c 0) where
  leads := by
    change start.Leads h.calls h.inputs (c.machine.unmarked h.drained)
    rw [hm]
    exact t.leads
  stopPending := hstop
  working := hwork

theorem stay (t : OnTrack start h) : OnTrack start (h.towards h.controller 0) :=
  t.mark rfl t.stopPending t.working

theorem cycle (t : OnTrack start h) (hrun : h.controller.machine.status = .running)
    {c : Controller}
    (hm : c.machine.unmarked h.drained = h.controller.machine.cycle.2.unmarked h.drained)
    (hstop : c.stopPending = false) (hwork : c.working = true → c.machine.status = .running) :
    OnTrack start (h.towards c 1) where
  leads := by
    have hgoing : h.controller.machine.status ≠ .paused := by simp [hrun]
    have hrunning : (h.controller.machine.unmarked h.drained).status = .running := by
      simp [Machine.unmarked, hrun, Status.resumed]
    change start.Leads (h.calls + 1) h.inputs (c.machine.unmarked h.drained)
    rw [hm, (Machine.unmarked_cycle hgoing _).1]
    exact t.leads.cycle hrunning
  stopPending := hstop
  working := hwork

theorem pause (t : OnTrack start h) (hrun : h.controller.machine.status = .running)
    {c : Controller} (hm : c.machine = h.controller.machine.pause) (hstop : c.stopPending = false)
    (hidle : c.working = false) : OnTrack start (h.towards c 0) := by
  refine t.mark ?_ hstop (by simp [hidle])
  rw [hm, Machine.unmarked_pause hrun]

/-- A tick of a run to completion ends the run and leaves marks at most, or calls the cycle. -/
theorem runTick (t : OnTrack start h) (hidle : h.controller.working = false)
    (hpause : h.controller.pausePending = true → h.controller.machine.status = .running) :
    (∃ c, h.controller.runTick = (false, c) ∧ c.working = false ∧ OnTrack start (h.towards c 0)) ∨
    (h.controller.runTick = (true, h.controller.cycled) ∧ h.controller.pausePending = false ∧
      OnTrack start (h.towards h.controller.cycled 1)) := by
  have hnowork {c : Controller} (hc : c.working = false) :
      c.working = true → c.machine.status = .running := by simp [hc]
  rw [Controller.runTick_eq, t.stopPending, if_neg Bool.false_ne_true]
  split
  next hp => exact .inl ⟨_, rfl, hidle, t.pause (hpause hp) rfl rfl hidle⟩
  next hp =>
    split
    next => exact .inl ⟨_, rfl, hidle, t.stay⟩
    next hrun =>
      have hrun := Decidable.not_not.1 hrun
      split
      next => exact .inl ⟨_, rfl, hidle, t.pause hrun rfl rfl hidle⟩
      next =>
        refine .inr ⟨rfl, Bool.eq_false_iff.2 hp, ?_⟩
        exact t.cycle hrun rfl t.stopPending (hnowork hidle)

/-- A run to completion. A request left for it must find a machine that runs. -/
theorem runLoop (fuel : Nat) {h : History} (t : OnTrack start h)
    (hidle : h.controller.working = false)
    (hpause : h.controller.pausePending = true → h.controller.machine.status = .running) :
    OnTrack start (h.towards (h.controller.runLoop fuel) (h.controller.runCalls fuel)) := by
  induction fuel generalizing h with
  | zero => exact t.stay
  | succ fuel ih =>
    unfold Controller.runLoop Controller.runCalls
    rcases t.runTick hidle hpause with ⟨c, htick, -, ht⟩ | ⟨htick, hp, ht⟩
    · rw [htick]
      exact ht
    · have hnone : (h.towards h.controller.cycled 1).controller.pausePending = true →
          (h.towards h.controller.cycled 1).controller.machine.status = .running := by
        intro hpending
        exact (Bool.eq_false_iff.1 hp hpending).elim
      have hrest := ih ht hidle hnone
      rw [towards_towards, Nat.add_comm] at hrest
      rw [htick]
      exact hrest

theorem workTick (t : OnTrack start h) (hwork : h.controller.working = true) :
    OnTrack start (h.towards h.controller.workTick h.controller.tickCalls) := by
  have hrun := t.working hwork
  rw [Controller.workTick_eq, Controller.tickCalls, Controller.observe, t.stopPending,
    if_neg Bool.false_ne_true, if_neg Bool.false_ne_true]
  split
  next => exact t.pause hrun rfl rfl rfl
  next =>
    rw [if_neg (not_not_intro hrun), if_pos (by simp [Machine.isRunning, hrun])]
    apply t.cycle hrun (Machine.unmarked_pauseAtBreakpoint _ _) rfl
    intro hgoing
    exact of_decide_eq_true hgoing

theorem workLoop (fuel : Nat) {h : History} (t : OnTrack start h) :
    OnTrack start (h.towards (h.controller.workLoop fuel) (h.controller.workCalls fuel)) := by
  induction fuel generalizing h with
  | zero => exact t.stay
  | succ fuel ih =>
    unfold Controller.workLoop Controller.workCalls
    split
    next hwork =>
      have hrest := ih (t.workTick hwork)
      rw [towards_towards] at hrest
      exact hrest
    next => exact t.stay

theorem begin (t : OnTrack start h) (hgo : h.controller.refusal? = none)
    (hnothalted : h.controller.machine.status.isHalted = false) (mode : RunMode) :
    OnTrack start (h.towards (h.controller.begin mode) 0) ∧
      (h.controller.begin mode).working = false ∧
      (h.controller.begin mode).machine.status = .running := by
  obtain ⟨hidle, hm, hrun⟩ := h.controller.begin_of_not_halted hgo hnothalted h.drained
  exact ⟨t.mark hm rfl (fun _ => hrun), hidle, hrun⟩

theorem step (t : OnTrack start h)
    (hnothalted : h.controller.machine.status.isHalted = false) :
    OnTrack start (h.towards (Control.exec Control.step h.controller) h.controller.stepCalls) := by
  rw [Control.exec_step, Controller.stepCalls]
  split
  next hgo =>
    obtain ⟨ht, hidle, hrun⟩ := t.begin hgo hnothalted .singleStep
    have hnext := ht.cycle (c := (h.controller.begin .singleStep).cycled) hrun rfl rfl
      (Controller.working_elim hidle)
    rw [towards_towards, Nat.zero_add] at hnext
    exact hnext
  next => exact t.stay

theorem runToCompletion (t : OnTrack start h)
    (hnothalted : h.controller.machine.status.isHalted = false) (fuel : Nat) :
    OnTrack start (h.towards (Control.exec (Control.runToCompletion fuel) h.controller)
      (h.controller.startCalls fuel)) := by
  rw [Control.exec_runToCompletion, Controller.startCalls]
  split
  next hgo =>
    obtain ⟨ht, hidle, hrun⟩ := t.begin hgo hnothalted .toCompletion
    have hrest := ht.runLoop fuel hidle (fun _ => hrun)
    rw [towards_towards, Nat.zero_add] at hrest
    exact hrest
  next => exact t.stay

theorem runToBreakpoint (t : OnTrack start h)
    (hnothalted : h.controller.machine.status.isHalted = false) :
    OnTrack start (h.towards (Control.exec Control.runToBreakpoint h.controller) 0) := by
  rw [Control.exec_runToBreakpoint]
  split
  next hgo =>
    obtain ⟨hidle, hm, hrun⟩ := h.controller.begin_of_not_halted hgo hnothalted h.drained
    exact t.mark hm rfl (fun _ => hrun)
  next => exact t.stay

/-- A paused machine has not halted, so that going on is a start like the others. -/
theorem resume (t : OnTrack start h) (fuel : Nat) :
    OnTrack start (h.towards (Control.exec (Control.resume fuel) h.controller)
      (h.controller.resumeCalls fuel)) := by
  rw [Control.exec_resume, Controller.resumeCalls]
  by_cases hpaused : h.controller.machine.status = .paused
  · have hnothalted : h.controller.machine.status.isHalted = false := by
      rw [hpaused]
      rfl
    rw [if_neg (not_not_intro hpaused), if_neg (not_not_intro hpaused)]
    cases h.controller.mode with
    | singleStep => exact t.step hnothalted
    | toCompletion => exact t.runToCompletion hnothalted fuel
    | toBreakpoint => exact t.runToBreakpoint hnothalted
  · rw [if_pos hpaused, if_pos hpaused]
    exact t.stay

theorem supplied (t : OnTrack start h) (hwait : h.controller.machine.status = .awaitingInput)
    (n : Int) : OnTrack start { h with
      controller := h.controller.supplied n
      inputs := h.inputs ++ [n] } where
  leads := by
    have hwaiting : (h.controller.machine.unmarked h.drained).status = .awaitingInput := by
      simp [Machine.unmarked, hwait, Status.resumed]
    exact t.leads.complete hwaiting n
  stopPending := t.stopPending
  working _ := rfl

theorem goOn (t : OnTrack start h) (hidle : h.controller.working = false)
    (hrun : h.controller.machine.status = .running) (fuel : Nat) :
    OnTrack start (h.towards (h.controller.goOn fuel) (h.controller.goOnCalls fuel)) := by
  unfold Controller.goOn Controller.goOnCalls
  cases h.controller.mode with
  | singleStep => exact t.stay
  | toCompletion => exact t.runLoop fuel hidle fun _ => hrun
  | toBreakpoint =>
    dsimp only
    split
    next => exact t.pause hrun rfl t.stopPending hidle
    next => exact t.mark rfl t.stopPending fun _ => hrun

theorem supply (t : OnTrack start h) (hwait : h.controller.machine.status = .awaitingInput)
    (fuel : Nat) (n : Int) : OnTrack start (h.extend fuel (.call (.supply n))) := by
  have hidle : h.controller.working = false := by
    cases hwork : h.controller.working with
    | false => rfl
    | true =>
      have hrun := t.working hwork
      rw [hwait] at hrun
      cases hrun
  have hs := t.supplied hwait n
  have hextend : h.extend fuel (.call (.supply n)) =
      { h with controller := h.controller.supplied n, inputs := h.inputs ++ [n] : History }.towards
        (Control.exec (Control.supply fuel n) h.controller) (h.controller.supplyCalls fuel n) := by
    have htaken : h.controller.taken fuel (.call (.supply n)) = #[] :=
      Controller.taken_of_ne fuel h.controller (by simp)
    unfold extend towards
    rw [htaken, Array.append_empty, ← Control.snd_answer h.controller _ Reply.status]
    rfl
  rw [hextend, Control.exec_supply, Controller.supplyCalls, if_neg (not_not_intro hwait),
    if_neg (not_not_intro hwait), Controller.workLoop_of_idle hidle,
    Controller.workCalls_of_idle hidle]
  dsimp only
  rw [t.stopPending, if_neg Bool.false_ne_true, if_neg Bool.false_ne_true, Nat.zero_add]
  exact hs.goOn hidle rfl fuel

theorem drain (t : OnTrack start h) (fuel : Nat) :
    OnTrack start (h.extend fuel (.call .drain)) where
  leads := by
    have hm : h.controller.machine.drain.2.unmarked (h.drained ++ h.controller.machine.drain.1) =
        h.controller.machine.unmarked h.drained := by
      unfold Machine.unmarked Machine.drain
      rw [Array.append_empty]
    change start.Leads h.calls (h.inputs ++ []) (h.controller.machine.drain.2.unmarked
      (h.drained ++ h.controller.machine.drain.1))
    rw [List.append_nil, hm]
    exact t.leads
  stopPending := t.stopPending
  working := t.working

theorem changeListing (t : OnTrack start h) {address : Word} {f : Bool → Bool} :
    OnTrack start (h.towards (Control.exec
      (Control.changeListing address (·.modifyBreakpoint? address f)) h.controller) 0) := by
  rw [Control.exec_changeListing]
  refine t.mark ?_ t.stopPending t.working
  cases hl : h.controller.machine.listing.modifyBreakpoint? address f with
  | none => rfl
  | some l =>
    unfold Machine.unmarked
    rw [Option.getD_some, Listing.clearBreakpoints_of_modifyBreakpoint? hl]

theorem clearBreakpoints (t : OnTrack start h) :
    OnTrack start (h.towards h.controller.clearBreakpoints 0) := by
  refine t.mark ?_ t.stopPending t.working
  unfold Controller.clearBreakpoints Machine.unmarked
  dsimp only
  rw [Listing.clearBreakpoints_clearBreakpoints]

theorem requestPause (t : OnTrack start h) :
    OnTrack start (h.towards h.controller.requestPause 0) := by
  unfold Controller.requestPause
  split
  next hrun =>
    split
    next => exact t.mark rfl t.stopPending t.working
    next hidle =>
      exact t.pause (of_decide_eq_true hrun) rfl t.stopPending (Bool.eq_false_iff.2 hidle)
  next => exact t.stay

/-- Whatever is permitted stays on the track. -/
theorem extend (t : OnTrack start h) {e : Event} (he : h.controller.permits e = true) (fuel : Nat) :
    OnTrack start (h.extend fuel e) := by
  cases e with
  | tick =>
    rw [extend_eq_towards fuel h .tick rfl (by simp)]
    rw [Controller.after, Controller.calls]
    by_cases hwork : h.controller.working = true
    · rw [if_pos hwork, if_pos hwork]
      exact t.workTick hwork
    · rw [if_neg hwork, if_neg hwork]
      exact t.stay
  | call op =>
    cases op with
    | supply n => exact t.supply (of_decide_eq_true he) fuel n
    | drain => exact t.drain fuel
    | step =>
      rw [extend_call fuel h .step rfl rfl (by simp)]
      exact t.step (Controller.isHalted_of_permits rfl he)
    | run =>
      rw [extend_call fuel h .run rfl rfl (by simp)]
      exact t.runToCompletion (Controller.isHalted_of_permits rfl he) fuel
    | runToBreakpoint =>
      rw [extend_call fuel h .runToBreakpoint rfl rfl (by simp)]
      exact t.runToBreakpoint (Controller.isHalted_of_permits rfl he)
    | resume =>
      rw [extend_call fuel h .resume rfl rfl (by simp)]
      exact t.resume fuel
    | wait =>
      rw [extend_eq_towards fuel h (.call .wait) rfl (by simp), Controller.after,
        Controller.perform, Control.snd_answer]
      exact t.workLoop fuel
    | setBreakpoint address on =>
      rw [extend_call fuel h (.setBreakpoint address on) rfl rfl (by simp)]
      exact t.changeListing
    | toggleBreakpoint address =>
      rw [extend_call fuel h (.toggleBreakpoint address) rfl rfl (by simp),
        Control.exec_toggleBreakpoint]
      exact t.changeListing
    | clearBreakpoints =>
      rw [extend_eq_towards fuel h (.call .clearBreakpoints) rfl (by simp)]
      exact t.clearBreakpoints
    | requestPause =>
      rw [extend_eq_towards fuel h (.call .requestPause) rfl (by simp)]
      exact t.requestPause
    | leavePause =>
      rw [extend_eq_towards fuel h (.call .leavePause) rfl (by simp)]
      exact t.mark rfl t.stopPending t.working
    | _ => cases he

end OnTrack

/-- A start of a halted machine is a start of the machine that has been restarted before. -/
theorem extend_begin_restarted {c : Controller} (hidle : c.working = false)
    (hhalted : c.machine.status.isHalted = true) {op : Operation} (hop : op.isStart = true)
    (fuel : Nat) :
    (begin c).extend fuel (.call op) = (begin c.restarted).extend fuel (.call op) := by
  have hrun : c.restarted.machine.status = .running :=
    Machine.status_restart (Status.hasProgram_of_isHalted hhalted)
  have hgo : c.refusal? = none :=
    Controller.refusal?_eq_none_iff.2 ⟨hidle, .inr (.inr hhalted)⟩
  have hgo' : c.restarted.refusal? = none :=
    Controller.refusal?_eq_none_iff.2 ⟨hidle, .inl hrun⟩
  have hbegin (mode : RunMode) : c.begin mode = c.restarted.begin mode := by
    unfold Controller.begin
    rw [Machine.begin_of_running hrun, Machine.begin_of_isHalted hhalted]
    rfl
  cases op with
  | step =>
    rw [extend_call fuel _ .step rfl rfl (by simp), extend_call fuel _ .step rfl rfl (by simp)]
    simp only [begin, towards, Controller.calls, Control.exec_step, Controller.stepCalls, hgo, hgo',
      hbegin, if_true]
  | run =>
    rw [extend_call fuel _ .run rfl rfl (by simp), extend_call fuel _ .run rfl rfl (by simp)]
    simp only [begin, towards, Controller.calls, Control.exec_runToCompletion,
      Controller.startCalls, hgo, hgo', hbegin, if_true]
  | runToBreakpoint =>
    rw [extend_call fuel _ .runToBreakpoint rfl rfl (by simp),
      extend_call fuel _ .runToBreakpoint rfl rfl (by simp)]
    simp only [begin, towards, Controller.calls, Control.exec_runToBreakpoint, hgo, hgo', hbegin,
      if_true]
  | _ => cases hop

/-- Every history of a loaded controller stays on the track that begins with a restart. -/
theorem Driven.onTrack {c : Controller} (hidle : c.working = false)
    (hhalted : c.machine.status.isHalted = true) {h : History} (hd : h.Driven c) :
    OnTrack (c.machine.restart.unmarked #[]) h := by
  have hrun : c.restarted.machine.status = .running :=
    Machine.status_restart (Status.hasProgram_of_isHalted hhalted)
  induction hd with
  | @start op fuel hop =>
    have hready : (c.machine.restart.unmarked #[]).status ≠ .awaitingInput := by
      change c.restarted.machine.status.resumed ≠ _
      rw [hrun]
      nofun
    have t : OnTrack (c.machine.restart.unmarked #[]) (begin c.restarted) :=
      ⟨Machine.Leads.zero hready, rfl, fun _ => hrun⟩
    rw [extend_begin_restarted hidle hhalted hop]
    refine t.extend ?_ fuel
    cases op with
    | step | run | runToBreakpoint => exact congrArg (!Status.isHalted ·) hrun
    | _ => cases hop
  | next fuel _ he t => exact t.extend he fuel

end History

/-- Mode independence. However a loaded program is driven, its machine without marks is the one to
which the cycle alone leads from the restart, when it is called as often and given the same values,
all of which it takes. Once the rest of the output is drained, the drains have handed over what the
cycle alone has collected. Two histories that have come to a halt on the values of one sequence
agree. -/
theorem driven_agrees_with_cycles {image : Image} {c₀ c : Controller}
    (hload : (Control.load image).run c₀ = .ok () c) {h : History} (hd : h.Driven c) :
    (Machine.cyclesFed h.calls (h.inputs, c.machine.restart)).1 = [] ∧
    h.controller.machine.unmarked h.drained =
      (Machine.cyclesFed h.calls (h.inputs, c.machine.restart)).2.unmarked #[] ∧
    (∀ fuel, (h.extend fuel (.call .drain)).drained =
        (Machine.cyclesFed h.calls (h.inputs, c.machine.restart)).2.output ∧
      (h.extend fuel (.call .drain)).controller.machine.output = #[]) ∧
    ∀ {h' : History} {values : List Int}, h'.Driven c → h.inputs <+: values →
      h'.inputs <+: values → h.controller.machine.status.isHalted = true →
      h'.controller.machine.status.isHalted = true →
        h.controller.machine.unmarked h.drained = h'.controller.machine.unmarked h'.drained := by
  obtain ⟨hidle, hhalted, -⟩ := Control.loaded_of_run_load hload
  have hloaded : c.machine.status.isHalted = true := congrArg Status.isHalted hhalted
  have t := hd.onTrack hidle hloaded
  have hready : c.machine.restart.status ≠ .paused := by
    rw [Machine.status_restart (Status.hasProgram_of_isHalted hloaded)]
    nofun
  have hunmarked : Machine.Unmarked #[] (h.inputs, c.machine.restart)
      (h.inputs, c.machine.restart.unmarked #[]) := ⟨hready, rfl⟩
  obtain ⟨-, hfed⟩ := hunmarked.cyclesFed h.calls
  have hleads := t.leads []
  rw [List.append_nil, hfed] at hleads
  have hend := Prod.mk.inj hleads
  have houtput : h.drained ++ h.controller.machine.output =
      (Machine.cyclesFed h.calls (h.inputs, c.machine.restart)).2.output := by
    have hall := congrArg Machine.output hend.2.symm
    exact hall.trans Array.empty_append
  refine ⟨hend.1, hend.2.symm, ?_, ?_⟩
  · intro fuel
    obtain ⟨htaken, hleft⟩ := h.controller.taken_drain fuel
    refine ⟨?_, hleft⟩
    rw [← houtput, ← htaken]
    rfl
  · intro h' values hd' hvalues hvalues' hhalt hhalt'
    have t' := hd'.onTrack hidle hloaded
    have hstatus {m : Machine} (hm : m.status.isHalted = true) (drained : Array OutputRecord) :
        (m.unmarked drained).status.isHalted = true := by
      unfold Machine.unmarked
      cases hs : m.status <;> simp_all [Status.isHalted, Status.resumed]
    exact t.leads.eq_of_isHalted t'.leads (hstatus hhalt _) (hstatus hhalt' _) hvalues hvalues'

/-- A program that prints the value it is given. -/
def echo : Image := .ofWords 0 [0x5000, 0x6000, 0x7000]

def echoLoaded : Controller := Control.exec (Control.load echo) (.new .default)

def echoRun : History :=
  ((History.begin echoLoaded).extend 9 (.call .run)).extend 9 (.call (.supply 7))

/-- The program stepped, then driven by a worker that is paused once, with its output taken. -/
def echoPaused : History :=
  [.call (.supply 7), .call .runToBreakpoint, .call .leavePause, .tick, .call .resume, .tick,
    .call .drain, .call .wait].foldl (·.extend 9)
      ((History.begin echoLoaded).extend 9 (.call .step))

/-- The two ways of driving the program take three cycles each, and agree. A drain at the end of the
first hands over what the second has handed over before. -/
theorem driven_agrees_with_cycles_echo :
    (Control.load echo).run (.new .default) = .ok () echoLoaded ∧
      echoRun.Driven echoLoaded ∧ echoPaused.Driven echoLoaded ∧
      echoRun.calls = 3 ∧ echoPaused.calls = 3 ∧ echoPaused.drained.size = 1 ∧
      (Machine.cyclesFed 3 (echoRun.inputs, echoLoaded.machine.restart)).1 = [] ∧
      (echoRun.extend 0 (.call .drain)).drained = #[⟨7, .decimal⟩] ∧
      echoRun.controller.machine.unmarked #[] =
        echoPaused.controller.machine.unmarked echoPaused.drained := by
  have hload := Control.run_of_accepts (.new .default)
    (by decide +kernel : Control.accepts (Control.load echo) (.new .default) = true)
  have hrun : echoRun.Driven echoLoaded := by
    apply History.Driven.next 9 (.start 9 rfl)
    decide +kernel
  have hpaused : echoPaused.Driven echoLoaded := by
    refine .next 9 (.next 9 (.next 9 (.next 9 (.next 9 (.next 9 (.next 9 (.next 9
      (.start 9 rfl) ?_) ?_) ?_) ?_) ?_) ?_) ?_) ?_
    all_goals decide +kernel
  have hcalls : echoRun.calls = 3 := by decide +kernel
  have hinputs : echoRun.inputs <+: [7] := by decide +kernel
  have hinputs' : echoPaused.inputs <+: [7] := by decide +kernel
  have hdrained : echoRun.drained = #[] := by decide +kernel
  obtain ⟨hleft, -, hdrains, hagree⟩ := driven_agrees_with_cycles hload hrun
  have hends := hagree hpaused hinputs hinputs' (by decide +kernel) (by decide +kernel)
  rw [hdrained] at hends
  rw [hcalls] at hleft hdrains
  have hprinted : (echoRun.extend 0 (.call .drain)).drained = #[⟨7, .decimal⟩] := by
    rw [(hdrains 0).1]
    decide +kernel
  exact ⟨hload, hrun, hpaused, hcalls, by decide +kernel, by decide +kernel, hleft, hprinted, hends⟩

end AccumulatorMachine
