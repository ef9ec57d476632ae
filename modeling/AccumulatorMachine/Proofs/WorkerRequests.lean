import AccumulatorMachine.Proofs.BreakpointEdits
import AccumulatorMachine.Proofs.LateRequests

/-!
# Requests to a worker

A worker holds the machine for one tick at a time: it looks at the requests, and then executes an
instruction. Between two ticks others ask it to end, or change breakpoints. A request can also be
left in the middle of a tick; one that comes between the look at a stop and the look at a pause is
seen as if it came before both, or after both. Whatever the interleaving, the worker answers every
request before it executes a second instruction, and a worker that has ended has left the machine
stopped.
-/

namespace AccumulatorMachine

/-- The operations of others while a worker drives the machine: they ask for its end, or change
breakpoints. -/
def Operation.besideWorker : Operation → Bool
  | .requestPause | .requestStop | .leavePause | .leaveStop => true
  | .setBreakpoint _ _ | .toggleBreakpoint _ | .clearBreakpoints => true
  | _ => false

def Operation.asksStop : Operation → Bool
  | .requestStop | .leaveStop => true
  | _ => false

def Operation.asksPause : Operation → Bool
  | .requestPause | .leavePause => true
  | _ => false

/-- A turn in an interleaving: a tick of the worker, with the requests that are left behind its
look, or an operation of others. -/
inductive Turn
  | tick (amid : Requests)
  | call (op : Operation) (beside : op.besideWorker = true)

namespace Turn

def isTick : Turn → Bool
  | tick _ => true
  | call _ _ => false

def asksStop : Turn → Bool
  | tick _ => false
  | call op _ => op.asksStop

def stopsFirst (turns : List Turn) : Bool := (turns.takeWhile fun t => !t.isTick).any asksStop

end Turn

theorem Requests.stop_or_pause {r : Requests} (h : r ≠ .none) : (r.stop || r.pause) = true := by
  obtain ⟨pause, stop⟩ := r
  cases stop with
  | true => rfl
  | false =>
    cases pause with
    | true => rfl
    | false => exact (h rfl).elim

theorem Machine.status_pauseAtBreakpoint_eq_running_iff (m : Machine) :
    m.pauseAtBreakpoint.status = .running ↔ m.status = .running ∧ m.atBreakpoint = false := by
  unfold pauseAtBreakpoint
  cases hbreak : m.atBreakpoint with
  | true => simp [pause]
  | false => simp

namespace Controller

/-- The second half of a worker's tick: it executes one instruction, and pauses the machine if the
line carries a breakpoint. -/
def patrolled (c : Controller) : Controller :=
  let machine := c.machine.cycle.2.pauseAtBreakpoint
  { c with machine, working := machine.isRunning }

/-- A tick of a worker, with the requests that are left behind its look. -/
def workTickAmid (r : Requests) (c : Controller) : Controller :=
  match c.observe with
  | (false, c) => { c.receive r with working := false }
  | (true, c) => (c.receive r).patrolled

def turn (c : Controller) : Turn → Controller
  | .tick r => if c.working then c.workTickAmid r else c.receive r
  | .call op _ => (c.perform 0 op).2

def turnCalls (c : Controller) : Turn → Nat
  | .tick _ => if c.working then c.tickCalls else 0
  | .call _ _ => 0

def turns : Controller → List Turn → Controller
  | c, [] => c
  | c, t :: ts => (c.turn t).turns ts

def turnsCalls : Controller → List Turn → Nat
  | _, [] => 0
  | c, t :: ts => c.turnCalls t + (c.turn t).turnsCalls ts

/-- The controller as its worker leaves it, if the worker ends within some turns. -/
def ending? : Controller → List Turn → Option Controller
  | _, [] => none
  | c, t :: ts => if (c.turn t).working then (c.turn t).ending? ts else some (c.turn t)

theorem workTickAmid_eq (r : Requests) (c : Controller) :
    c.workTickAmid r = c.workTick.receive r := by
  unfold workTickAmid workTick receive
  cases c.observe with
  | mk going d =>
    cases going <;> cases r.pause <;> cases r.stop <;> rfl

structure Driving (c : Controller) : Prop where
  working : c.working = true
  running : c.machine.status = .running

/-- The worker, if there was one, has ended, and the machine does not run. -/
structure Ended (c : Controller) : Prop where
  idle : c.working = false
  stopped : c.machine.status ≠ .running

/-- The machine differs from another at most in its state and its breakpoints. -/
def Keeps (m n : Machine) : Prop := ∃ listing status, n = { m with listing, status }

theorem Keeps.refl (m : Machine) : Keeps m m := ⟨m.listing, m.status, rfl⟩

theorem Keeps.trans {m n k : Machine} (h : Keeps m n) (hnext : Keeps n k) : Keeps m k := by
  obtain ⟨listing, status, rfl⟩ := h
  obtain ⟨listing, status, rfl⟩ := hnext
  exact ⟨listing, status, rfl⟩

theorem perform_edit (c : Controller) {op : Operation} (beside : op.besideWorker = true)
    (hstop : op.asksStop = false) (hpause : op.asksPause = false) :
    ∃ listing, (c.perform 0 op).2 = { c with machine := { c.machine with listing } } := by
  cases op with
  | setBreakpoint | toggleBreakpoint | clearBreakpoints =>
    exact Exists.imp (fun _ h => h.1) (c.perform_of_relists 0 rfl rfl)
  | requestPause | leavePause => cases hpause
  | requestStop | leaveStop => cases hstop
  | _ => cases beside

namespace Ended

variable {c : Controller}

theorem receive (h : c.Ended) (r : Requests) : (c.receive r).Ended where
  idle := by rw [(mode_working_receive c r).2, h.idle]
  stopped := by
    rw [machine_receive]
    exact h.stopped

theorem requestPause_eq (h : c.Ended) : c.requestPause = c := by
  rw [requestPause, Machine.isRunning, decide_eq_false h.stopped]
  rfl

theorem requestStop_eq (h : c.Ended) :
    c.requestStop = c ∨ c.requestStop = { c with machine := c.machine.stopByUser } := by
  unfold requestStop
  split
  next hrun => exact (h.stopped hrun).elim
  · exact .inr rfl
  · exact .inr rfl
  · exact .inl rfl

theorem call (h : c.Ended) {op : Operation} (beside : op.besideWorker = true) :
    (c.perform 0 op).2.Ended ∧ Keeps c.machine (c.perform 0 op).2.machine := by
  cases op with
  | requestPause =>
    change c.requestPause.Ended ∧ Keeps c.machine c.requestPause.machine
    rw [h.requestPause_eq]
    exact ⟨h, Keeps.refl _⟩
  | requestStop =>
    change c.requestStop.Ended ∧ Keeps c.machine c.requestStop.machine
    obtain heq | heq := h.requestStop_eq
    · rw [heq]
      exact ⟨h, Keeps.refl _⟩
    · rw [heq]
      exact ⟨⟨h.idle, by nofun⟩, c.machine.listing, .haltedByUser, rfl⟩
  | leavePause => exact ⟨⟨h.idle, h.stopped⟩, Keeps.refl _⟩
  | leaveStop => exact ⟨⟨h.idle, h.stopped⟩, Keeps.refl _⟩
  | setBreakpoint | toggleBreakpoint | clearBreakpoints =>
    obtain ⟨listing, heq⟩ := c.perform_edit beside rfl rfl
    rw [heq]
    exact ⟨⟨h.idle, h.stopped⟩, listing, c.machine.status, rfl⟩
  | _ => cases beside

/-- A worker that has ended does not begin again, whoever has a turn. -/
theorem turn (h : c.Ended) (t : Turn) :
    (c.turn t).Ended ∧ c.turnCalls t = 0 ∧ Keeps c.machine (c.turn t).machine := by
  cases t with
  | tick r =>
    rw [Controller.turn, turnCalls, h.idle, if_neg Bool.false_ne_true, if_neg Bool.false_ne_true]
    exact ⟨h.receive r, rfl, by rw [machine_receive]; exact Keeps.refl _⟩
  | call op beside =>
    obtain ⟨hended, hkeeps⟩ := h.call beside
    exact ⟨hended, rfl, hkeeps⟩

theorem turns (h : c.Ended) (later : List Turn) :
    (c.turns later).Ended ∧ c.turnsCalls later = 0 ∧ Keeps c.machine (c.turns later).machine := by
  induction later generalizing c with
  | nil => exact ⟨h, rfl, Keeps.refl _⟩
  | cons t later ih =>
    obtain ⟨hended, hcalls, hkeeps⟩ := h.turn t
    obtain ⟨hlast, hrest, hlater⟩ := ih hended
    refine ⟨hlast, ?_, hkeeps.trans hlater⟩
    rw [turnsCalls, hcalls, hrest]

end Ended

namespace Driving

variable {c : Controller}

theorem receive (h : c.Driving) (r : Requests) : (c.receive r).Driving where
  working := by rw [(mode_working_receive c r).2, h.working]
  running := by
    rw [machine_receive]
    exact h.running

theorem requestPause_eq (h : c.Driving) : c.requestPause = c.leavePause := by
  rw [requestPause, Machine.isRunning, decide_eq_true h.running, if_pos rfl, if_pos h.working]
  rfl

theorem requestStop_eq (h : c.Driving) : c.requestStop = c.leaveStop := by
  rw [requestStop, h.running]
  dsimp only
  rw [if_pos h.working]
  rfl

theorem call (h : c.Driving) {op : Operation} (beside : op.besideWorker = true) :
    ∃ listing, (c.perform 0 op).2 =
      { c with
        machine := { c.machine with listing }
        pausePending := c.pausePending || op.asksPause
        stopPending := c.stopPending || op.asksStop } := by
  have hpause : c.leavePause =
      { c with pausePending := c.pausePending || true, stopPending := c.stopPending || false } := by
    rw [Bool.or_true, Bool.or_false]
    rfl
  have hstop : c.leaveStop =
      { c with pausePending := c.pausePending || false, stopPending := c.stopPending || true } := by
    rw [Bool.or_true, Bool.or_false]
    rfl
  cases op with
  | requestPause => exact ⟨c.machine.listing, h.requestPause_eq.trans hpause⟩
  | requestStop => exact ⟨c.machine.listing, h.requestStop_eq.trans hstop⟩
  | leavePause => exact ⟨c.machine.listing, hpause⟩
  | leaveStop => exact ⟨c.machine.listing, hstop⟩
  | setBreakpoint | toggleBreakpoint | clearBreakpoints =>
    obtain ⟨listing, heq⟩ := c.perform_edit beside rfl rfl
    refine ⟨listing, heq.trans ?_⟩
    simp only [Operation.asksPause, Operation.asksStop, Bool.or_false]
  | _ => cases beside

theorem tick_eq (h : c.Driving) (r : Requests) : c.turn (.tick r) = c.workTick.receive r := by
  rw [turn, h.working, if_pos rfl, workTickAmid_eq]

theorem tick_of_asked (h : c.Driving) (hasked : (c.stopPending || c.pausePending) = true)
    (r : Requests) :
    (c.turn (.tick r)).Ended ∧ c.turnCalls (.tick r) = 0 ∧
      (c.turn (.tick r)).machine =
        { c.machine with status := if c.stopPending then .haltedByUser else .paused } := by
  have hlook : c.observe.1 = false := by
    unfold observe
    cases hstop : c.stopPending with
    | true => rfl
    | false =>
      rw [hstop, Bool.false_or] at hasked
      rw [hasked]
      rfl
  have hcalls : c.turnCalls (.tick r) = 0 := by
    rw [turnCalls, h.working, tickCalls, hlook]
    rfl
  rw [h.tick_eq r, workTick_eq, machine_receive]
  cases hstop : c.stopPending with
  | true => exact ⟨Ended.receive ⟨rfl, by nofun⟩ r, hcalls, rfl⟩
  | false =>
    rw [hstop, Bool.false_or] at hasked
    rw [if_neg Bool.false_ne_true, if_pos hasked]
    exact ⟨Ended.receive ⟨rfl, by nofun⟩ r, hcalls, rfl⟩

/-- A tick that finds no request executes one instruction. The requests that are left behind its
look are found by the next. -/
theorem tick_of_unasked (h : c.Driving) (hstop : c.stopPending = false)
    (hpause : c.pausePending = false) (r : Requests) :
    c.turn (.tick r) = c.patrolled.receive r ∧ c.turnCalls (.tick r) = 1 := by
  have hlook : c.observe.1 = true := by
    rw [observe, hstop, hpause]
    exact decide_eq_true h.running
  have hcalls : c.turnCalls (.tick r) = 1 := by
    rw [turnCalls, h.working, tickCalls, hlook]
    rfl
  have hwork : c.workTick = c.patrolled := by
    rw [workTick_eq, if_neg (Bool.eq_false_iff.1 hstop), if_neg (Bool.eq_false_iff.1 hpause),
      if_neg (not_not_intro h.running)]
    rfl
  exact ⟨by rw [h.tick_eq r, hwork], hcalls⟩

end Driving

/-- What a worker comes to that finds a request, whatever others do later. It executes nothing more.
As soon as it has a turn it ends, and leaves the machine halted by the user if a stop is among the
requests, and paused otherwise. -/
structure Answers (c : Controller) (stop : Bool) (later : List Turn) : Prop where
  calls : c.turnsCalls later = 0
  keeps : Keeps c.machine (c.turns later).machine
  ending : (c.ending? later).map (·.machine.status) =
    if later.any Turn.isTick then
      some (if stop || Turn.stopsFirst later then .haltedByUser else .paused)
    else none

theorem Driving.answers {c : Controller} (h : c.Driving)
    (hasked : (c.stopPending || c.pausePending) = true) (later : List Turn) :
    c.Answers c.stopPending later := by
  -- Others can only add requests, so that the controller stays as the induction needs it, until the
  -- first tick ends the worker.
  induction later generalizing c with
  | nil => exact ⟨rfl, Keeps.refl _, rfl⟩
  | cons t later ih =>
    cases t with
    | tick r =>
      obtain ⟨hended, hcalls, hmachine⟩ := h.tick_of_asked hasked r
      obtain ⟨-, hrest, hkeeps⟩ := hended.turns later
      refine ⟨?_, ?_, ?_⟩
      · rw [turnsCalls, hcalls, hrest]
      · refine Keeps.trans ?_ hkeeps
        rw [hmachine]
        exact ⟨c.machine.listing, _, rfl⟩
      · rw [ending?, hended.idle, if_neg Bool.false_ne_true, Option.map_some, hmachine]
        simp [Turn.stopsFirst, Turn.isTick]
    | call op beside =>
      obtain ⟨listing, hcall⟩ := h.call beside
      have hturn : c.turn (.call op beside) = _ := hcall
      have hnext : (c.turn (.call op beside)).Driving := by
        rw [hturn]
        exact ⟨h.working, h.running⟩
      have hstill : ((c.turn (.call op beside)).stopPending ||
          (c.turn (.call op beside)).pausePending) = true := by
        rw [hturn]
        simp only [Bool.or_eq_true] at hasked ⊢
        exact hasked.imp .inl .inl
      have hanswers := ih hnext hstill
      refine ⟨?_, ?_, ?_⟩
      · rw [turnsCalls, hanswers.calls]
        rfl
      · refine Keeps.trans ?_ hanswers.keeps
        rw [hturn]
        exact ⟨listing, c.machine.status, rfl⟩
      · rw [ending?, hnext.working, if_pos rfl, hanswers.ending, hturn]
        simp [Turn.stopsFirst, Turn.isTick, Turn.asksStop, Bool.or_assoc]

theorem patrolled_driving_or_ended (c : Controller) : c.patrolled.Driving ∨ c.patrolled.Ended := by
  by_cases hrun : c.machine.cycle.2.pauseAtBreakpoint.status = .running
  · exact .inl ⟨decide_eq_true hrun, hrun⟩
  · exact .inr ⟨decide_eq_false hrun, hrun⟩

/-- Whoever has a turn, the machine runs exactly as long as the worker drives it. -/
theorem Driving.turn {c : Controller} (h : c.Driving) (t : Turn) :
    (c.turn t).Driving ∨ (c.turn t).Ended := by
  cases t with
  | tick r =>
    cases hasked : c.stopPending || c.pausePending with
    | true => exact .inr (h.tick_of_asked hasked r).1
    | false =>
      obtain ⟨hstop, hpause⟩ := Bool.or_eq_false_iff.1 hasked
      rw [(h.tick_of_unasked hstop hpause r).1]
      exact c.patrolled_driving_or_ended.imp (·.receive r) (·.receive r)
  | call op beside =>
    obtain ⟨listing, hcall⟩ := h.call beside
    have hturn : c.turn (.call op beside) = _ := hcall
    rw [hturn]
    exact .inl ⟨h.working, h.running⟩

theorem Driving.turns {c : Controller} (h : c.Driving) (before : List Turn) :
    (c.turns before).Driving ∨ (c.turns before).Ended := by
  induction before generalizing c with
  | nil => exact .inl h
  | cons t before ih =>
    obtain hdriving | hended := h.turn t
    · exact ih hdriving
    · exact .inr (hended.turns before).1

/-- What a worker comes to that has looked at no request before some are left, in the middle of its
tick. It executes the instruction of that tick and nothing more. Unless the instruction ends the
worker, the requests are answered after it. -/
structure AnswersAfterOne (c : Controller) (r : Requests) (later : List Turn) : Prop where
  calls : c.turnsCalls (.tick r :: later) = 1
  ended : c.machine.cycle.2.status ≠ .running ∨ c.machine.cycle.2.atBreakpoint = true →
    ∃ e, c.ending? (.tick r :: later) = some e ∧
      e.machine = c.machine.cycle.2.pauseAtBreakpoint
  answers : c.machine.cycle.2.status = .running → c.machine.cycle.2.atBreakpoint = false →
    (c.turn (.tick r)).machine = c.machine.cycle.2 ∧ (c.turn (.tick r)).Answers r.stop later

theorem Driving.answers_receive {c : Controller} (h : c.Driving) {r : Requests} (hr : r ≠ .none)
    (later : List Turn) : (c.receive r).Answers (c.stopPending || r.stop) later := by
  have hasked : ((c.receive r).stopPending || (c.receive r).pausePending) = true := by
    have hor := Requests.stop_or_pause hr
    rw [stopPending_receive, pausePending_receive]
    simp only [Bool.or_eq_true] at hor ⊢
    exact hor.elim (fun hstop => .inl (.inr hstop)) fun hpause => .inr (.inr hpause)
  have hanswers := (h.receive r).answers hasked later
  rwa [stopPending_receive] at hanswers

theorem Driving.answersAfterOne {c : Controller} (h : c.Driving) (hstop : c.stopPending = false)
    (hpause : c.pausePending = false) {r : Requests} (hr : r ≠ .none) (later : List Turn) :
    c.AnswersAfterOne r later := by
  obtain ⟨hturn, hcalls⟩ := h.tick_of_unasked hstop hpause r
  have hmachine : (c.turn (.tick r)).machine = c.machine.cycle.2.pauseAtBreakpoint := by
    rw [hturn, machine_receive]
    rfl
  have hgoes := c.machine.cycle.2.status_pauseAtBreakpoint_eq_running_iff
  rw [← hmachine] at hgoes
  -- The instruction of the tick decides whether the worker is still there to answer.
  obtain hdriving | hended := h.turn (.tick r)
  · obtain ⟨hrun, hbreak⟩ := hgoes.1 hdriving.running
    have hanswers : (c.turn (.tick r)).Answers r.stop later := by
      have hpatrolled : c.patrolled.Driving := by
        obtain hpatrolled | hended := c.patrolled_driving_or_ended
        · exact hpatrolled
        · exact ((hended.receive r).stopped (hturn ▸ hdriving.running)).elim
      have hlater := hpatrolled.answers_receive hr later
      rw [← hturn] at hlater
      have hnone : c.patrolled.stopPending = false := hstop
      rwa [hnone, Bool.false_or] at hlater
    refine ⟨?_, ?_, fun _ _ => ⟨?_, hanswers⟩⟩
    · rw [turnsCalls, hcalls, hanswers.calls]
    · rintro (hnot | hmet)
      · exact (hnot hrun).elim
      · rw [hbreak] at hmet
        cases hmet
    · rw [hmachine, Machine.pauseAtBreakpoint, hbreak]
      rfl
  · refine ⟨?_, fun _ => ?_, ?_⟩
    · rw [turnsCalls, hcalls, (hended.turns later).2.1]
    · exact ⟨_, by rw [ending?, hended.idle, if_neg Bool.false_ne_true], hmachine⟩
    · intro hrun hbreak
      exact (hended.stopped (hgoes.2 ⟨hrun, hbreak⟩)).elim

/-- A worker answers every request. Take any turns of a worker and of others: the machine runs
exactly as long as the worker drives it. If it still runs, then a stop or a pause that is requested
now keeps the worker from executing anything more, and so does one that is left for it between two
ticks; one that is left in the middle of a tick lets it execute that instruction at most. -/
theorem worker_answers_every_request {c : Controller} (h : c.Driving) (before : List Turn) :
    ((c.turns before).Driving ∨ (c.turns before).Ended) ∧
      ((c.turns before).machine.status = .running → ∀ later,
        (c.turns before).requestStop.Answers true later ∧
        (c.turns before).requestPause.Answers (c.turns before).stopPending later ∧
        ∀ r, r ≠ .none →
          ((c.turns before).receive r).Answers ((c.turns before).stopPending || r.stop) later ∧
          ((c.turns before).stopPending = false → (c.turns before).pausePending = false →
            (c.turns before).AnswersAfterOne r later)) := by
  have hnow := h.turns before
  generalize c.turns before = d at hnow
  refine ⟨hnow, fun hrun later => ?_⟩
  have hdriving := hnow.resolve_right fun hended => hended.stopped hrun
  have hleft {r : Requests} (hr : r ≠ .none) := hdriving.answers_receive hr later
  refine ⟨?_, ?_, fun r hr => ⟨hleft hr, fun hstop hpause =>
    hdriving.answersAfterOne hstop hpause hr later⟩⟩
  · have hstop := @hleft ⟨false, true⟩ (by nofun)
    rw [Bool.or_true] at hstop
    rw [hdriving.requestStop_eq]
    exact hstop
  · have hpause := @hleft ⟨true, false⟩ (by nofun)
    rw [Bool.or_false] at hpause
    rw [hdriving.requestPause_eq]
    exact hpause

/-- A worker that has just been started on a program of two instructions, a CLEAR and a jump back to
it. -/
def pacing : Controller :=
  ((new .default).performAll 0 [.load (.ok (.ofWords 0 [0xA000, 0x9000])), .runToBreakpoint]).2

/-- A tick, a breakpoint behind the worker, and another tick. -/
def paces : List Turn := [.tick .none, .call (.setBreakpoint 0 true) rfl, .tick .none]

/-- A pause that is left in the middle of a tick is overtaken by a stop that is requested before the
next. In its third tick the worker meets the breakpoint, in front of a pause that comes too late. -/
theorem worker_answers_every_request_pacing :
    pacing.Driving ∧ (pacing.turns [.tick .none]).machine.status = .running ∧
      (let later := [Turn.tick ⟨true, false⟩, .call .requestStop rfl, .tick .none, .tick .none]
       ((pacing.turns [.tick .none]).turns later).machine.status = .haltedByUser ∧
         (pacing.turns [.tick .none]).AnswersAfterOne ⟨true, false⟩ later.tail ∧
         (pacing.turns [.tick .none]).turnsCalls later = 1) ∧
      (pacing.turns paces).requestPause.Answers false [.tick .none] ∧
      ((pacing.turns paces).turns [.tick ⟨true, false⟩]).machine.status = .paused ∧
      ((pacing.turns paces).turns [.tick ⟨true, false⟩]).pausePending = true := by
  have hpacing : pacing.Driving := ⟨by decide +kernel, by decide +kernel⟩
  have hfirst : (pacing.turns [.tick .none]).machine.status = .running := by decide +kernel
  have hpaces : (pacing.turns paces).machine.status = .running := by decide +kernel
  obtain ⟨-, hlate⟩ := worker_answers_every_request hpacing [.tick .none]
  obtain ⟨-, -, hleft⟩ := hlate hfirst [.call .requestStop rfl, .tick .none, .tick .none]
  have hone := (hleft ⟨true, false⟩ (by nofun)).2 (by decide +kernel) (by decide +kernel)
  obtain ⟨-, hasked⟩ := worker_answers_every_request hpacing paces
  have hpause := (hasked hpaces [.tick .none]).2.1
  have hnone : (pacing.turns paces).stopPending = false := by decide +kernel
  rw [hnone] at hpause
  exact ⟨hpacing, hfirst, ⟨by decide +kernel, hone, hone.calls⟩, hpause, by decide +kernel,
    by decide +kernel⟩

end Controller

end AccumulatorMachine
