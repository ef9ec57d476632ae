import AccumulatorMachine.Proofs.BreakpointEdits
import AccumulatorMachine.Proofs.InputLines

/-!
# Runs to a breakpoint

A worker stops after the first cycle that leaves its machine stopped or has fetched from an address
with a breakpoint, and nowhere else. A breakpoint on an INPUT is met when the value is supplied.
-/

namespace AccumulatorMachine

namespace Machine

/-- A worker stops after its cycle number `k + 1`: the machine runs no longer, or it has fetched
from an address with a breakpoint. -/
def StopsAfter (m : Machine) (k : Nat) : Prop :=
  (m.cyclesFrom (k + 1)).status ≠ .running ∨ (m.cyclesFrom k).value .pc ∈ m.listing.breakpoints

theorem stopsAfter_cycle_iff (m : Machine) (k : Nat) :
    m.cycle.2.StopsAfter k ↔ m.StopsAfter (k + 1) := by
  unfold StopsAfter
  rw [listing_cycle]
  rfl

theorem goes_cycle {m : Machine} {k : Nat} (h : ∀ j < k + 1, ¬m.StopsAfter j) :
    ∀ j < k, ¬m.cycle.2.StopsAfter j := by
  intro j hj
  rw [stopsAfter_cycle_iff]
  exact h (j + 1) (Nat.succ_lt_succ hj)

theorem atBreakpoint_iff {m : Machine} (h : m.listing.Indexed) {address : Word}
    (hline : m.executedLine = m.listing.rowOf? address) :
    m.atBreakpoint = true ↔ m.status = .running ∧ address ∈ m.listing.breakpoints := by
  rw [Listing.mem_breakpoints_iff h, atBreakpoint, hline]
  simp [isRunning, Listing.hasBreakpointAt]

end Machine

namespace Controller

/-- A worker that can go on: its machine runs, and nobody has asked it to end. -/
structure AtWork (c : Controller) : Prop where
  working : c.working = true
  stop : c.stopPending = false
  pause : c.pausePending = false
  running : c.machine.status = .running
  wellFormed : c.machine.WellFormed
  consistent : c.machine.Consistent
  indexed : c.machine.listing.Indexed

namespace AtWork

variable {c : Controller}

theorem executedLine_cycle (h : c.AtWork) :
    c.machine.cycle.2.executedLine = c.machine.cycle.2.listing.rowOf? (c.machine.value .pc) := by
  rw [Machine.listing_cycle]
  exact Machine.executedLine_cycle h.wellFormed h.running
    (h.consistent.fault_eq_none (by simp [h.running]))

theorem atBreakpoint_cycle_iff (h : c.AtWork) :
    c.machine.cycle.2.atBreakpoint = true ↔
      c.machine.cycle.2.status = .running ∧
        c.machine.value .pc ∈ c.machine.listing.breakpoints := by
  have hindexed := h.indexed
  rw [← Machine.listing_cycle] at hindexed ⊢
  exact Machine.atBreakpoint_iff hindexed h.executedLine_cycle

theorem workTick_eq (h : c.AtWork) :
    c.workTick =
      let machine := c.machine.cycle.2.pauseAtBreakpoint
      { c with machine, working := machine.isRunning } := by
  rw [Controller.workTick_eq, h.stop, h.pause]
  simp [h.running]

theorem workTick_of_goes (h : c.AtWork) (hgoes : ¬c.machine.StopsAfter 0) :
    c.workTick = c.cycled ∧ c.cycled.AtWork := by
  obtain ⟨hrun, hnone⟩ := not_or.1 hgoes
  have hrun : c.machine.cycle.2.status = .running := Decidable.not_not.1 hrun
  have hbreak : c.machine.cycle.2.atBreakpoint = false :=
    Bool.eq_false_iff.2 fun hbreak => hnone (h.atBreakpoint_cycle_iff.1 hbreak).2
  constructor
  · rw [h.workTick_eq, Machine.pauseAtBreakpoint, hbreak]
    simp [cycled, Machine.isRunning, hrun, h.working]
  · exact {
      working := h.working
      stop := h.stop
      pause := h.pause
      running := hrun
      wellFormed := Machine.cycleInvariant_wellFormed.cycle h.wellFormed
      consistent := h.consistent.cycle h.wellFormed
      indexed := by
        change c.machine.cycle.2.listing.Indexed
        rw [Machine.listing_cycle]
        exact h.indexed }

theorem workTick_of_stops (h : c.AtWork) (hstops : c.machine.StopsAfter 0) :
    c.workTick = { c with machine := c.machine.cycle.2.atRest, working := false } := by
  rw [h.workTick_eq]
  by_cases hrun : c.machine.cycle.2.status = .running
  · have hmem := hstops.resolve_left (not_not_intro hrun)
    have hbreak := h.atBreakpoint_cycle_iff.2 ⟨hrun, hmem⟩
    simp [Machine.pauseAtBreakpoint, hbreak, Machine.atRest_of_running hrun, Machine.isRunning,
      Machine.pause]
  · have hbreak : c.machine.cycle.2.atBreakpoint = false :=
      Bool.eq_false_iff.2 fun hbreak => hrun (h.atBreakpoint_cycle_iff.1 hbreak).1
    simp [Machine.pauseAtBreakpoint, hbreak, Machine.atRest_of_ne hrun, Machine.isRunning, hrun]

theorem tickCalls_eq (h : c.AtWork) : c.tickCalls = 1 := by
  simp [tickCalls, observe, h.stop, h.pause, h.running, Machine.isRunning]

theorem workLoop_of_goes (h : c.AtWork) {k : Nat} (hgoes : ∀ j < k, ¬c.machine.StopsAfter j) :
    c.workLoop k = { c with machine := c.machine.cyclesFrom k } ∧ (c.workLoop k).AtWork ∧
      workCalls k c = k := by
  induction k generalizing c with
  | zero => exact ⟨rfl, h, rfl⟩
  | succ k ih =>
    obtain ⟨htick, hcycled⟩ := h.workTick_of_goes (hgoes 0 (Nat.succ_pos k))
    obtain ⟨hloop, hwork, hcalls⟩ := ih hcycled (Machine.goes_cycle hgoes)
    rw [workLoop, workCalls, if_pos h.working, if_pos h.working, htick, h.tickCalls_eq, hcalls]
    exact ⟨hloop, hwork, Nat.add_comm 1 k⟩

/-- With the first cycle that stops it, the worker ends. It has called the cycle until then. -/
theorem workLoop_of_stops (h : c.AtWork) {k : Nat} (hgoes : ∀ j < k, ¬c.machine.StopsAfter j)
    (hstops : c.machine.StopsAfter k) (more : Nat) :
    c.workLoop (more + k + 1) =
        { c with machine := (c.machine.cyclesFrom (k + 1)).atRest, working := false } ∧
      workCalls (more + k + 1) c = k + 1 := by
  induction k generalizing c with
  | zero =>
    rw [workLoop, workCalls, if_pos h.working, if_pos h.working, h.workTick_of_stops hstops,
      h.tickCalls_eq]
    refine ⟨workLoop_of_idle rfl more, ?_⟩
    cases more <;> rfl
  | succ k ih =>
    obtain ⟨htick, hcycled⟩ := h.workTick_of_goes (hgoes 0 (Nat.succ_pos k))
    obtain ⟨hloop, hcalls⟩ :=
      ih hcycled (Machine.goes_cycle hgoes) ((Machine.stopsAfter_cycle_iff _ k).2 hstops)
    rw [workLoop, workCalls, if_pos h.working, if_pos h.working, htick, h.tickCalls_eq]
    refine ⟨hloop, ?_⟩
    rw [← Nat.add_assoc, hcalls, Nat.add_comm]

end AtWork

/-- The operations that set a worker to drive the machine: the start of a run to a breakpoint, and
going on with a paused one. -/
def startsWorker (c : Controller) : Operation → Bool
  | .runToBreakpoint => true
  | .resume => c.machine.status = .paused && c.mode = .toBreakpoint
  | _ => false

/-- The controller whose worker has just been started. -/
def patrolling (c : Controller) : Controller := { c.begin .toBreakpoint with working := true }

theorem perform_of_startsWorker {c : Controller} {op : Operation} (hgo : c.refusal? = none)
    (hop : c.startsWorker op = true) (fuel : Nat) :
    c.perform fuel op = (.status .running, c.patrolling) := by
  have hrun : Control.runToBreakpoint.run c = .ok () c.patrolling := by
    rw [Control.run_runToBreakpoint, hgo]
    rfl
  cases op with
  | runToBreakpoint => rw [perform, answer, hrun]
  | resume =>
    obtain ⟨hpaused, hmode⟩ : c.machine.status = .paused ∧ c.mode = .toBreakpoint := by
      simpa [startsWorker] using hop
    rw [perform, answer, Control.run_resume, if_neg (not_not_intro hpaused), hmode]
    dsimp only
    rw [run_bind_ok _ hrun]
    rfl
  | _ => cases hop

theorem Reachable.atWork {c : Controller} (h : c.Reachable) (hgo : c.refusal? = none) :
    c.patrolling.AtWork where
  working := rfl
  stop := rfl
  pause := rfl
  running := status_begin hgo
  wellFormed := h.sound.wellFormed.begin
  consistent := h.sound.consistent.begin
  indexed := by
    change c.machine.begin.listing.Indexed
    rw [(Machine.Passage.begin c.machine).listing_eq]
    exact h.indexed

/-- How the run of a worker ends whose cycle number `k + 1` is the first after which it stops: on a
breakpoint the machine is paused at the line fetched last, otherwise it is left as it is. -/
structure EndsAfter (m : Machine) (k : Nat) (c : Controller) : Prop where
  idle : c.working = false
  stopped : (m.cyclesFrom (k + 1)).status ≠ .running →
    c.machine = m.cyclesFrom (k + 1) ∧ c.machine.status ≠ .paused
  paused : (m.cyclesFrom (k + 1)).status = .running →
    c.machine = (m.cyclesFrom (k + 1)).pause ∧
      ∃ row, c.machine.listing.rowOf? ((m.cyclesFrom k).value .pc) = some row ∧
        c.machine.executedLine = some row

/-- What a run to a breakpoint does, if nobody asks it to end: while no cycle stops it, the worker
goes on; with the first that does, it ends, however long it is waited for. -/
structure RunsToBreakpoint (c : Controller) : Prop where
  goes : ∀ k, (∀ j < k, ¬c.machine.StopsAfter j) →
    c.perform k .wait = (.status .running, { c with machine := c.machine.cyclesFrom k }) ∧
      c.calls k (.call .wait) = k
  ends : ∀ k, (∀ j < k, ¬c.machine.StopsAfter j) → c.machine.StopsAfter k →
    ∃ d, EndsAfter c.machine k d ∧ ∀ more,
      c.perform (more + k + 1) .wait = (.status d.machine.status, d) ∧
        c.calls (more + k + 1) (.call .wait) = k + 1

/-- What the last cycle of a worker leaves. -/
theorem AtWork.endsAfter {c : Controller} (h : c.AtWork) {k : Nat}
    (hgoes : ∀ j < k, ¬c.machine.StopsAfter j) (hstops : c.machine.StopsAfter k) :
    EndsAfter c.machine k
      { c with machine := (c.machine.cyclesFrom (k + 1)).atRest, working := false } := by
  obtain ⟨hloop, hwork, -⟩ := h.workLoop_of_goes hgoes
  rw [hloop] at hwork
  have hlisting : (c.machine.cyclesFrom k).listing = c.machine.listing := by
    have hpassage := passage_workLoop k c
    rw [hloop] at hpassage
    exact hpassage.listing_eq
  refine ⟨rfl, ?_, ?_⟩
  · intro hrun
    dsimp only
    rw [Machine.atRest_of_ne hrun, Machine.cyclesFrom_succ]
    exact ⟨rfl, (Machine.status_cycle hwork.running).1⟩
  · intro hrun
    have hmem := hstops.resolve_left (not_not_intro hrun)
    have hline := hwork.executedLine_cycle
    rw [Listing.mem_breakpoints_iff h.indexed, Listing.hasBreakpointAt, Option.any_eq_true] at hmem
    obtain ⟨row, hrow, -⟩ := hmem
    dsimp only at hline ⊢
    rw [Machine.listing_cycle, hlisting, hrow] at hline
    rw [Machine.atRest_of_running hrun, Machine.cyclesFrom_succ]
    refine ⟨rfl, row, ?_, hline⟩
    change (c.machine.cyclesFrom k).cycle.2.listing.rowOf? _ = _
    rw [Machine.listing_cycle, hlisting, hrow]

theorem AtWork.runsToBreakpoint {c : Controller} (h : c.AtWork) : c.RunsToBreakpoint where
  goes := by
    intro k hgoes
    obtain ⟨hloop, hwork, hcalls⟩ := h.workLoop_of_goes hgoes
    refine ⟨?_, hcalls⟩
    rw [perform_wait, hwork.running, hloop]
  ends := by
    intro k hgoes hstops
    refine ⟨_, h.endsAfter hgoes hstops, fun more => ?_⟩
    obtain ⟨hloop, hcalls⟩ := h.workLoop_of_stops hgoes hstops more
    refine ⟨?_, hcalls⟩
    rw [perform_wait, hloop]

/-- The controller whose worker goes on with a machine that was given its value. -/
def patrollingOn (c : Controller) (n : Int) : Controller := { c.supplied n with working := true }

theorem Reachable.atWork_patrollingOn {c : Controller} (h : c.Reachable)
    (hwait : c.machine.status = .awaitingInput) (hstop : c.stopPending = false)
    (hpause : c.pausePending = false) (n : Int) : (c.patrollingOn n).AtWork where
  working := rfl
  stop := hstop
  pause := hpause
  running := rfl
  wellFormed := h.sound.wellFormed.completeInput n
  consistent := h.sound.consistent.completeInput hwait n
  indexed := h.indexed

/-- A value for a machine that remembers the line at an address: with a breakpoint there it is
paused, and otherwise driven on. -/
theorem perform_supply_of_toBreakpoint {c : Controller} {address : Word}
    (hindexed : c.machine.listing.Indexed) (hwait : c.machine.status = .awaitingInput)
    (hidle : c.working = false) (hmode : c.mode = .toBreakpoint) (hstop : c.stopPending = false)
    (hline : c.machine.executedLine = c.machine.listing.rowOf? address) (fuel : Nat) (n : Int) :
    c.perform fuel (.supply n) =
      if address ∈ c.machine.listing.breakpoints then
        (.status .paused, { c.supplied n with machine := (c.machine.completeInput n).pause })
      else (.status .running, c.patrollingOn n) := by
  have hbreak : (c.supplied n).machine.atBreakpoint = true ↔
      address ∈ c.machine.listing.breakpoints := by
    have hiff := Machine.atBreakpoint_iff (m := c.machine.completeInput n) hindexed hline
    exact hiff.trans (and_iff_right rfl)
  have hmode : (c.supplied n).mode = .toBreakpoint := hmode
  rw [perform_supply_of_ready hwait hidle hstop, goOn_of_toBreakpoint hmode]
  by_cases hmem : address ∈ c.machine.listing.breakpoints
  · rw [if_pos (hbreak.2 hmem), if_pos hmem]
    rfl
  · rw [if_neg fun hat => hmem (hbreak.1 hat), if_neg hmem]
    rfl

/-- Breakpoints are where they were set, and stop a run exactly there. After a load, an address has
a breakpoint if its last accepted change turned it on. A run to a breakpoint that is not asked to
end goes on to the first cycle that stops the machine or has fetched from an address with a
breakpoint, and pauses in the second case only. A breakpoint at an INPUT pauses the machine once its
value is supplied. -/
theorem breakpoints_stop_exactly :
    (∀ {image : Image} {c₀ c : Controller}, c₀.Reachable →
      (Control.load image).run c₀ = .ok () c → ∃ lines, image.lines = .ok lines ∧
        ∀ fuel ops, (∀ op ∈ ops, op.reloads = false) →
          (c.performAll fuel ops).2.Edited lines (ops.zip (c.performAll fuel ops).1)) ∧
    (∀ {c : Controller} {op : Operation}, c.Reachable → c.refusal? = none →
      c.startsWorker op = true → ∀ fuel, c.perform fuel op = (.status .running, c.patrolling) ∧
        c.patrolling.machine.listing = c.machine.listing ∧ c.patrolling.RunsToBreakpoint) ∧
    ∀ {past : List Machine} {c : Controller}, Traced past c →
      c.machine.status = .awaitingInput → c.mode = .toBreakpoint → c.stopPending = false →
        ∀ fuel n, ∃ before, Machine.lastFetch past = some before ∧
          before.cycle.1 = some .input ∧
          (c.perform fuel (.supply n) =
            if before.value .pc ∈ c.machine.listing.breakpoints then
              (.status .paused, { c.supplied n with machine := (c.machine.completeInput n).pause })
            else (.status .running, c.patrollingOn n)) ∧
          (c.pausePending = false → (c.patrollingOn n).RunsToBreakpoint) := by
  refine ⟨?_, ?_, ?_⟩
  · intro image c₀ c hreach hload
    obtain ⟨lines, hlines⟩ := Control.exists_lines_of_run_load hload
    obtain ⟨hlisted, hnone⟩ := Listed.of_run_load hreach.sound.wellFormed hlines hload
    refine ⟨lines, hlines, fun fuel ops hops => ?_⟩
    obtain ⟨hdone, hmem⟩ := hlisted.performAll hnone fuel hops
    exact hdone.edited hmem
  · intro c op hreach hgo hop fuel
    refine ⟨perform_of_startsWorker hgo hop fuel, ?_, (hreach.atWork hgo).runsToBreakpoint⟩
    exact (Machine.Passage.begin c.machine).listing_eq
  · intro past c htraced hwait hmode hstop fuel n
    obtain ⟨before, hlast, hop, hline⟩ := htraced.onInput hwait
    have hreach := htraced.reachable
    refine ⟨before, hlast, hop, ?_, fun hpause => ?_⟩
    · exact perform_supply_of_toBreakpoint hreach.indexed hwait
        (hreach.sound.idle_of_awaitingInput hwait) hmode hstop hline fuel n
    · exact (hreach.atWork_patrollingOn hwait hstop hpause n).runsToBreakpoint

/-- Two lines for one address, of which the second asks for a value. -/
def doubled : Image := ⟨[.new 0 0xA000, .new 1 0xA000, .new 1 0x5000, .new 2 0x7000]⟩

def doubledLoaded : Controller := (new .default).after 0 (.call (.load (.ok doubled)))

def edits : List Operation := [.setBreakpoint 1 true, .toggleBreakpoint 0, .toggleBreakpoint 9]

def marked : Controller :=
  (doubledLoaded.after 0 (.call (.setBreakpoint 1 true))).after 0 (.call (.toggleBreakpoint 0))

def met : Controller := (marked.after 0 (.call .runToBreakpoint)).after 9 (.call .wait)

/-- The controller that has gone on to the INPUT. -/
def suspended : Controller := (met.after 0 (.call .resume)).after 9 (.call .wait)

/-- The run is paused at the first breakpoint and goes on to the INPUT, whose line owns the address
of the second. It is paused there once the value is supplied. -/
theorem breakpoints_stop_exactly_doubled :
    (∃ lines, doubled.lines = .ok lines ∧ (doubledLoaded.performAll 0 edits).2.Edited lines
      (edits.zip (doubledLoaded.performAll 0 edits).1)) ∧
    marked.machine.listing.breakpoints = [0, 1] ∧
    marked.patrolling.RunsToBreakpoint ∧ marked.patrolling.machine.StopsAfter 0 ∧
    met.machine.status = .paused ∧ met.machine.executedLine = some 0 ∧
    met.patrolling.RunsToBreakpoint ∧ suspended.machine.status = .awaitingInput ∧
    (suspended.perform 9 (.supply 7)).1 = .status .paused := by
  obtain ⟨hedits, hruns, hsupply⟩ := breakpoints_stop_exactly
  have hloaded : Traced _ doubledLoaded := .after 0 (.new .default) rfl
  have hload : (Control.load doubled).run (new .default) = .ok () doubledLoaded := by
    have haccepts : Control.accepts (Control.load doubled) (new .default) = true := by
      decide +kernel
    rw [Control.run_of_accepts _ haccepts, doubledLoaded, after, perform, Control.snd_answer,
      Control.loadRead_ok]
  have hmarked : Traced _ marked := .after 0 (.after 0 hloaded rfl) rfl
  have hmet : Traced _ met := .after 9 (.after 0 hmarked rfl) rfl
  have hsuspended : Traced _ suspended := .after 9 (.after 0 hmet rfl) rfl
  -- The last fetch was from address 1.
  obtain ⟨past, hpast, hpc⟩ : ∃ past, Traced past suspended ∧
      (Machine.lastFetch past).map (·.value .pc) = some 1 := ⟨_, hsuspended, by decide +kernel⟩
  have hpaused : met.machine.status = .paused := by decide +kernel
  have hwait : suspended.machine.status = .awaitingInput := by decide +kernel
  obtain ⟨lines, hlines, hedited⟩ := hedits (.new .default) hload
  obtain ⟨-, -, hfirst⟩ :=
    @hruns marked .runToBreakpoint hmarked.reachable (by decide +kernel) rfl 0
  obtain ⟨-, -, hsecond⟩ :=
    @hruns met .resume hmet.reachable (by decide +kernel) (by decide +kernel) 0
  obtain ⟨before, hlast, -, hanswer, -⟩ :=
    hsupply hpast hwait (by decide +kernel) (by decide +kernel) 9 7
  rw [hlast, Option.map_some, Option.some_inj] at hpc
  have hmem : before.value .pc ∈ suspended.machine.listing.breakpoints := by
    rw [hpc]
    decide +kernel
  rw [if_pos hmem] at hanswer
  refine ⟨⟨lines, hlines, hedited 0 edits (by simp [edits, Operation.reloads])⟩, by decide +kernel,
    hfirst, .inr (by decide +kernel), hpaused, by decide +kernel, hsecond, hwait, ?_⟩
  rw [hanswer]

end Controller

end AccumulatorMachine
