import AccumulatorMachine.Proofs.Simulation
import AccumulatorMachine.Proofs.CycleEntries

/-!
# The cycle limit of a run

A run to completion with a cycle limit ends: each of its cycles uses up one of the cycles that are
left, or stops the machine. The limit counts from the start of the run, through all the values that
are supplied to it, and pauses a machine only that still runs.
-/

namespace AccumulatorMachine

namespace Machine

variable {m : Machine}

theorem toNat_cycles_cycle (hroom : m.cycles.toNat + 1 < 2 ^ 64) :
    m.cycle.2.cycles.toNat = m.cycles.toNat + 1 ∨
      m.cycle.2.cycles.toNat = m.cycles.toNat ∧ m.cycle.2.status ≠ .running := by
  rcases m.cycles_cycle_cases with hcounted | ⟨hsame, hstopped⟩
  · rw [hcounted, UInt64.toNat_add]
    exact .inl (Nat.mod_eq_of_lt hroom)
  · exact .inr ⟨by rw [hsame], hstopped⟩

end Machine

namespace Controller

/-- A run to completion under a limit, that nobody has asked to end. It began at some count of
cycles, and has not gone beyond the limit since. -/
structure Budget (start limit : UInt64) (c : Controller) : Prop where
  limited : c.config.cycleLimit = some limit
  mode : c.mode = .toCompletion
  idle : c.working = false
  stop : c.stopPending = false
  pause : c.pausePending = false
  runStart : c.runStart = start
  le : start.toNat ≤ c.machine.cycles.toNat
  spent : c.machine.cycles.toNat ≤ start.toNat + limit.toNat

namespace Budget

variable {start limit : UInt64} {c : Controller}

theorem withMachine (h : c.Budget start limit) {machine : Machine}
    (hcycles : machine.cycles = c.machine.cycles) :
    Budget start limit { c with machine } where
  limited := h.limited
  mode := h.mode
  idle := h.idle
  stop := h.stop
  pause := h.pause
  runStart := h.runStart
  le := by
    rw [hcycles]
    exact h.le
  spent := by
    rw [hcycles]
    exact h.spent

theorem limitReached_iff (h : c.Budget start limit) :
    c.limitReached = true ↔ c.machine.cycles.toNat = start.toNat + limit.toNat := by
  have hle := h.le
  have hspent := h.spent
  rw [limitReached, Controller.spent, h.limited, h.runStart, Option.any_some, decide_eq_true_eq]
  omega

theorem runTick_eq (h : c.Budget start limit) :
    c.runTick =
      if c.machine.status ≠ .running then (false, c)
      else if c.machine.cycles.toNat = start.toNat + limit.toNat then
        (false, { c with machine := c.machine.pause })
      else (true, c.cycled) := by
  rw [Controller.runTick_eq, h.stop, h.pause]
  simp only [Bool.false_eq_true, if_false, h.limitReached_iff]

theorem runLoop_of_ne (h : c.Budget start limit) (hrun : c.machine.status ≠ .running)
    (fuel : Nat) : c.runLoop (fuel + 1) = c ∧ runCalls (fuel + 1) c = 0 := by
  rw [runLoop, runCalls, h.runTick_eq, if_pos hrun]
  exact ⟨rfl, rfl⟩

section room

variable (hroom : start.toNat + limit.toNat < 2 ^ 64)
include hroom

theorem cycled (h : c.Budget start limit)
    (hleft : c.machine.cycles.toNat < start.toNat + limit.toNat) :
    c.cycled.Budget start limit := by
  have hle := h.le
  have hcycles := Machine.toNat_cycles_cycle (m := c.machine) (by omega)
  exact {
    limited := h.limited
    mode := h.mode
    idle := h.idle
    stop := h.stop
    pause := h.pause
    runStart := h.runStart
    le := by
      dsimp only [Controller.cycled]
      omega
    spent := by
      dsimp only [Controller.cycled]
      omega }

/-- The run calls the cycle some number of times, and ends with the last of them: because the
machine runs no longer, or because no cycles are left. -/
theorem runLoop (h : c.Budget start limit) :
    ∃ k, (∀ j < k, (c.machine.cyclesFrom j).status = .running) ∧
      Budget start limit { c with machine := c.machine.cyclesFrom k } ∧
      ((c.machine.cyclesFrom k).status = .running →
        (c.machine.cyclesFrom k).cycles.toNat = start.toNat + limit.toNat) ∧
      (c.machine.status = .running → c.machine.cycles.toNat < start.toNat + limit.toNat → 1 ≤ k) ∧
      ∀ fuel, start.toNat + limit.toNat - c.machine.cycles.toNat < fuel →
        c.runLoop fuel = { c with machine := (c.machine.cyclesFrom k).atRest } ∧
          runCalls fuel c = k := by
  -- With each tick that executes an instruction there is one cycle less to the limit.
  induction hleft : start.toNat + limit.toNat - c.machine.cycles.toNat generalizing c with
  | zero =>
    have hspent : c.machine.cycles.toNat = start.toNat + limit.toNat := by
      have := h.spent
      omega
    refine ⟨0, nofun, h, fun _ => hspent, fun _ hless => by omega, fun fuel hfuel => ?_⟩
    obtain ⟨fuel, rfl⟩ := Nat.exists_eq_add_one.2 hfuel
    by_cases hrun : c.machine.status = .running
    · rw [Controller.runLoop, runCalls, h.runTick_eq, if_neg (not_not_intro hrun), if_pos hspent]
      exact ⟨by rw [Machine.cyclesFrom, Machine.atRest_of_running hrun], rfl⟩
    · rw [Machine.cyclesFrom, Machine.atRest_of_ne hrun]
      exact h.runLoop_of_ne hrun fuel
  | succ left ih =>
    have hless : c.machine.cycles.toNat < start.toNat + limit.toNat := by omega
    by_cases hrun : c.machine.status = .running
    · have htick : c.runTick = (true, c.cycled) := by
        rw [h.runTick_eq, if_neg (not_not_intro hrun), if_neg (by omega)]
      have hcycled := h.cycled hroom hless
      by_cases hgoes : c.machine.cycle.2.status = .running
      · have hone := (Machine.toNat_cycles_cycle (m := c.machine) (by omega)).resolve_right
          fun hs => hs.2 hgoes
        have hrest : start.toNat + limit.toNat - c.cycled.machine.cycles.toNat = left := by
          dsimp only [Controller.cycled]
          omega
        obtain ⟨k, hbefore, hbudget, hlast, -, hloop⟩ := ih hcycled hrest
        refine ⟨k + 1, ?_, hbudget, hlast, fun _ _ => Nat.succ_pos k, ?_⟩
        · intro j hj
          cases j with
          | zero => exact hrun
          | succ j => exact hbefore j (Nat.lt_of_succ_lt_succ hj)
        · intro fuel hfuel
          obtain ⟨fuel, rfl⟩ := Nat.exists_eq_add_one.2 (Nat.zero_lt_of_lt hfuel)
          obtain ⟨hrunLoop, hcalls⟩ := hloop fuel (by omega)
          rw [Controller.runLoop, runCalls, htick]
          exact ⟨hrunLoop, congrArg (· + 1) hcalls⟩
      · refine ⟨1, ?_, hcycled, fun hlast => (hgoes hlast).elim, fun _ _ => Nat.le_refl 1, ?_⟩
        · intro j hj
          rw [Nat.lt_one_iff.1 hj]
          exact hrun
        · -- One tick more finds the machine stopped.
          intro fuel hfuel
          obtain ⟨fuel, rfl⟩ : ∃ f, fuel = f + 2 := ⟨fuel - 2, by omega⟩
          obtain ⟨hrunLoop, hcalls⟩ := hcycled.runLoop_of_ne hgoes fuel
          have hrest : (c.machine.cyclesFrom 1).atRest = c.machine.cycle.2 :=
            Machine.atRest_of_ne hgoes
          rw [Controller.runLoop, runCalls, htick, hrest]
          exact ⟨hrunLoop, congrArg (· + 1) hcalls⟩
    · refine ⟨0, nofun, h, fun hgoes => (hrun hgoes).elim, fun hgoes => (hrun hgoes).elim, ?_⟩
      intro fuel hfuel
      obtain ⟨fuel, rfl⟩ := Nat.exists_eq_add_one.2 (Nat.zero_lt_of_lt hfuel)
      rw [Machine.cyclesFrom, Machine.atRest_of_ne hrun]
      exact h.runLoop_of_ne hrun fuel

end room

end Budget

/-- How a part of a limited run ends that began with a machine and called the cycle some number of
times: the machine ran before each of the calls, and is paused after the last of them only if it
still runs and the run has completed as many cycles as the limit allows. -/
structure EndsWithin (start limit : UInt64) (m : Machine) (calls : Nat) (c : Controller) :
    Prop where
  running : ∀ j < calls, (m.cyclesFrom j).status = .running
  machine : c.machine = (m.cyclesFrom calls).atRest
  ended : c.machine.status ≠ .running
  le : start.toNat ≤ c.machine.cycles.toNat
  spent : c.machine.cycles.toNat ≤ start.toNat + limit.toNat
  paused_iff : c.machine.status = .paused ↔ (m.cyclesFrom calls).status = .running ∧
    c.machine.cycles.toNat = start.toNat + limit.toNat

/-- An operation that begins a part of a limited run, or goes on with it, ends within the limit, and
every larger bound on the ticks gives the same. -/
structure RunsWithin (start limit : UInt64) (fuel : Nat) (m : Machine) (c : Controller)
    (op : Operation) : Prop where
  ends : EndsWithin start limit m (c.calls fuel (.call op)) (c.perform fuel op).2
  reply : (c.perform fuel op).1 = .status (c.perform fuel op).2.machine.status
  bound : ∀ more, limit.toNat < more → c.perform more op = c.perform fuel op

namespace Budget

variable {start limit : UInt64} {c : Controller}

theorem endsWithin (h : c.Budget start limit) (hroom : start.toNat + limit.toNat < 2 ^ 64)
    (hrun : c.machine.status = .running) {fuel : Nat} (hfuel : limit.toNat < fuel) :
    EndsWithin start limit c.machine (runCalls fuel c) (c.runLoop fuel) ∧
      Budget start limit (c.runLoop fuel) ∧
      (c.machine.cycles.toNat < start.toNat + limit.toNat → 1 ≤ runCalls fuel c) ∧
      ∀ more, limit.toNat < more → c.runLoop more = c.runLoop fuel := by
  obtain ⟨k, hbefore, hbudget, hlast, hone, hloop⟩ := h.runLoop hroom
  have hle := h.le
  have hbound {more : Nat} (hmore : limit.toNat < more) :
      start.toNat + limit.toNat - c.machine.cycles.toNat < more := by omega
  obtain ⟨hrunLoop, hcalls⟩ := hloop fuel (hbound hfuel)
  rw [hrunLoop, hcalls]
  refine ⟨⟨hbefore, rfl, Machine.status_atRest_ne _, ?_, ?_, ?_⟩,
    hbudget.withMachine (Machine.cycles_atRest _), hone hrun, fun more hmore =>
      (hloop more (hbound hmore)).1⟩
  · simpa using hbudget.le
  · simpa using hbudget.spent
  · by_cases hgoes : (c.machine.cyclesFrom k).status = .running
    · simp [Machine.atRest_of_running hgoes, Machine.pause, hgoes, hlast hgoes]
    · have hstopped : (c.machine.cyclesFrom k).status ≠ .paused := by
        cases k with
        | zero => exact (hgoes hrun).elim
        | succ k =>
          rw [Machine.cyclesFrom_succ]
          exact (Machine.status_cycle (hbefore k (Nat.lt_succ_self k))).1
      simp [Machine.atRest_of_ne hgoes, hgoes, hstopped]

theorem supply (h : c.Budget start limit) (hroom : start.toNat + limit.toNat < 2 ^ 64)
    (hwait : c.machine.status = .awaitingInput) {fuel : Nat} (hfuel : limit.toNat < fuel)
    (n : Int) :
    RunsWithin start limit fuel (c.machine.completeInput n) c (.supply n) ∧
      Budget start limit (c.perform fuel (.supply n)).2 := by
  have hsupplied : (c.supplied n).Budget start limit := h.withMachine rfl
  obtain ⟨hends, hbudget, -, hmore⟩ := hsupplied.endsWithin hroom rfl hfuel
  have hperform (more : Nat) : c.perform more (.supply n) =
      (.status ((c.supplied n).runLoop more).machine.status, (c.supplied n).runLoop more) := by
    rw [perform_supply_of_ready hwait h.idle h.stop, goOn_of_toCompletion hsupplied.mode]
  have hcalls : c.calls fuel (.call (.supply n)) = runCalls fuel (c.supplied n) := by
    rw [calls, supplyCalls_of_ready hwait h.idle h.stop, goOnCalls, if_pos hsupplied.mode]
  rw [hperform]
  refine ⟨⟨?_, ?_, ?_⟩, hbudget⟩
  · rw [hperform, hcalls]
    exact hends
  · rw [hperform]
  · intro more hfuel'
    rw [hperform, hperform, hmore more hfuel']

end Budget

end Controller

/-- The operations by which a run that waits for a value is watched and goes on. -/
def Operation.accompanies : Operation → Bool
  | .supply _ | .supplyLiteral _ | .wait | .drain | .setDelay _ => true
  | .setBreakpoint _ _ | .toggleBreakpoint _ | .clearBreakpoints => true
  | .assign _ _ | .setMode _ _ | .write _ _ => true
  | _ => false

namespace Controller

namespace Budget

variable {start limit : UInt64} {c : Controller}

theorem perform_supply (h : c.Budget start limit) (hroom : start.toNat + limit.toNat < 2 ^ 64)
    (hended : c.machine.status ≠ .running) {fuel : Nat} (hfuel : limit.toNat < fuel) (n : Int) :
    Budget start limit (Control.exec (Control.supply fuel n) c) ∧
      (Control.exec (Control.supply fuel n) c).machine.status ≠ .running := by
  by_cases hwait : c.machine.status = .awaitingInput
  · obtain ⟨hruns, hbudget⟩ := h.supply hroom hwait hfuel n
    have hends := hruns.ends.ended
    rw [perform, Control.snd_answer] at hbudget hends
    exact ⟨hbudget, hends⟩
  · rw [Control.exec_supply, if_pos hwait]
    exact ⟨h, hended⟩

/-- What accompanies a run that has ended, or waits for a value, keeps to the limit. -/
theorem perform (h : c.Budget start limit) (hroom : start.toNat + limit.toNat < 2 ^ 64)
    (hended : c.machine.status ≠ .running) {fuel : Nat} (hfuel : limit.toNat < fuel)
    {op : Operation} (hop : op.accompanies = true) :
    Budget start limit (c.perform fuel op).2 ∧
      (c.perform fuel op).2.machine.status ≠ .running := by
  cases op with
  | supply n =>
    rw [Controller.perform, Control.snd_answer]
    exact h.perform_supply hroom hended hfuel n
  | supplyLiteral text =>
    rw [Controller.perform, Control.snd_answer, Control.exec, Control.run_supplyLiteral]
    cases c.machine.registers.input.mode.literal text with
    | error e => exact ⟨h, hended⟩
    | ok w => exact h.perform_supply hroom hended hfuel w.toInt
  | wait =>
    rw [perform_wait, workLoop_of_idle h.idle]
    exact ⟨h, hended⟩
  | setBreakpoint address on =>
    rw [Controller.perform, Control.snd_answer, Control.setBreakpoint, Control.exec_changeListing]
    exact ⟨h.withMachine rfl, hended⟩
  | toggleBreakpoint address =>
    rw [Controller.perform, Control.snd_answer, Control.exec_toggleBreakpoint,
      Control.exec_changeListing]
    exact ⟨h.withMachine rfl, hended⟩
  | clearBreakpoints => exact ⟨h.withMachine rfl, hended⟩
  | drain => exact ⟨h.withMachine rfl, hended⟩
  | setDelay delay =>
    exact ⟨⟨h.limited, h.mode, h.idle, h.stop, h.pause, h.runStart, h.le, h.spent⟩, hended⟩
  | assign d n => exact ⟨h.withMachine rfl, hended⟩
  | setMode d mode => exact ⟨h.withMachine rfl, hended⟩
  | write place w =>
    rw [Controller.perform]
    cases c.machine.memory.write place w with
    | error e => exact ⟨h, hended⟩
    | ok memory => exact ⟨h.withMachine rfl, hended⟩
  | _ => cases hop

theorem performAll (h : c.Budget start limit) (hroom : start.toNat + limit.toNat < 2 ^ 64)
    (hended : c.machine.status ≠ .running) {fuel : Nat} (hfuel : limit.toNat < fuel)
    {ops : List Operation} (hops : ∀ op ∈ ops, op.accompanies = true) :
    Budget start limit (c.performAll fuel ops).2 ∧
      (c.performAll fuel ops).2.machine.status ≠ .running := by
  induction ops generalizing c with
  | nil => exact ⟨h, hended⟩
  | cons op ops ih =>
    obtain ⟨hbudget, hstep⟩ := h.perform hroom hended hfuel (hops op (List.mem_cons_self ..))
    exact ih hbudget hstep fun op hop => hops op (List.mem_cons_of_mem _ hop)

end Budget

/-- The operations that start a run to completion: the run itself, and going on with a paused one.
-/
def startsRun (c : Controller) : Operation → Bool
  | .run => true
  | .resume => c.machine.status = .paused && c.mode = .toCompletion
  | _ => false

theorem perform_of_startsRun {c : Controller} {op : Operation} (hgo : c.refusal? = none)
    (hop : c.startsRun op = true) (fuel : Nat) :
    c.perform fuel op = (.status ((c.begin .toCompletion).runLoop fuel).machine.status,
        (c.begin .toCompletion).runLoop fuel) ∧
      c.calls fuel (.call op) = runCalls fuel (c.begin .toCompletion) := by
  have hrun : (Control.runToCompletion fuel).run c =
      .ok ((c.begin .toCompletion).runLoop fuel).machine.status
        ((c.begin .toCompletion).runLoop fuel) := by
    rw [Control.run_runToCompletion, hgo]
  cases op with
  | run =>
    rw [perform, answer, hrun, calls, startCalls, if_pos hgo]
    exact ⟨rfl, rfl⟩
  | resume =>
    obtain ⟨hpaused, hmode⟩ : c.machine.status = .paused ∧ c.mode = .toCompletion := by
      simpa [startsRun] using hop
    rw [perform, answer, Control.run_resume, if_neg (not_not_intro hpaused), calls, resumeCalls,
      if_neg (not_not_intro hpaused), hmode]
    dsimp only
    rw [hrun, startCalls, if_pos hgo]
    exact ⟨rfl, rfl⟩
  | _ => cases hop

/-- The cycle limit is exact, and makes every run end. A run to completion never completes more
cycles than the limit allows, and is paused exactly if it has completed all of them and the machine
still runs. They are counted through all the values that are supplied to the run. Each new run, and
each that is resumed, begins to count anew, so that it calls the cycle unless the limit is zero. -/
theorem cycle_limit_exact {c : Controller} {op : Operation} {limit : UInt64}
    (hgo : c.refusal? = none) (hop : c.startsRun op = true)
    (hlimit : c.config.cycleLimit = some limit)
    (hroom : c.machine.cycles.toNat + limit.toNat < 2 ^ 64) {fuel : Nat}
    (hfuel : limit.toNat < fuel) :
    RunsWithin c.machine.cycles limit fuel c.machine.begin c op ∧
    (0 < limit.toNat → 1 ≤ c.calls fuel (.call op)) ∧
    ∀ ops : List Operation, (∀ op ∈ ops, op.accompanies = true) →
      let d := ((c.perform fuel op).2.performAll fuel ops).2
      d.machine.status ≠ .running ∧ c.machine.cycles.toNat ≤ d.machine.cycles.toNat ∧
        d.machine.cycles.toNat ≤ c.machine.cycles.toNat + limit.toNat ∧
        ∀ n, d.machine.status = .awaitingInput →
          RunsWithin c.machine.cycles limit fuel (d.machine.completeInput n) d (.supply n) := by
  have hcycles := c.machine.cycles_begin
  have hbegin : (c.begin .toCompletion).Budget c.machine.cycles limit := {
    limited := hlimit
    mode := rfl
    idle := (refusal?_eq_none_iff.1 hgo).1
    stop := rfl
    pause := rfl
    runStart := hcycles
    le := Nat.le_of_eq (congrArg UInt64.toNat hcycles).symm
    spent := Nat.le_trans (Nat.le_of_eq (congrArg UInt64.toNat hcycles)) (Nat.le_add_right ..) }
  obtain ⟨hends, hbudget, hone, hmore⟩ := hbegin.endsWithin hroom (status_begin hgo) hfuel
  have hperform (more : Nat) := perform_of_startsRun hgo hop more
  refine ⟨⟨?_, ?_, ?_⟩, ?_, ?_⟩
  · rw [(hperform fuel).1, (hperform fuel).2]
    exact hends
  · rw [(hperform fuel).1]
  · intro more hmore'
    rw [(hperform more).1, (hperform fuel).1, hmore more hmore']
  · intro hpos
    rw [(hperform fuel).2]
    apply hone
    change c.machine.begin.cycles.toNat < _
    rw [hcycles]
    exact Nat.lt_add_of_pos_right hpos
  · intro ops hops
    rw [(hperform fuel).1]
    obtain ⟨hdone, hended⟩ := hbudget.performAll hroom hends.ended hfuel hops
    exact ⟨hended, hdone.le, hdone.spent, fun n hwait => (hdone.supply hroom hwait hfuel n).1⟩

/-- A program that asks for one value after another, loaded to be run for three cycles at most. -/
def asking : Controller :=
  (new (Config.default.withCycleLimit 3)).after 0
    (.call (.load (.ok (.ofWords 0 [0x5000, 0x9000]))))

def asked : Controller := ((asking.perform 4 .run).2.performAll 4 [.supply 5]).2

def exhausted : Controller := ((asking.perform 4 .run).2.performAll 4 [.supply 5, .supply 6]).2

/-- The third cycle is an INPUT and is answered as such. The run is paused when the value is there,
and calls the cycle again when it is resumed. -/
theorem cycle_limit_exact_asking :
    RunsWithin asking.machine.cycles 3 4 asking.machine.begin asking .run ∧
    asked.machine.status = .awaitingInput ∧ asked.machine.cycles = 3 ∧
    RunsWithin asking.machine.cycles 3 4 (asked.machine.completeInput 6) asked (.supply 6) ∧
    exhausted.machine.status = .paused ∧
    exhausted.machine.cycles.toNat ≤ asking.machine.cycles.toNat + (3 : UInt64).toNat ∧
    RunsWithin exhausted.machine.cycles 3 4 exhausted.machine.begin exhausted .resume ∧
    1 ≤ exhausted.calls 4 (.call .resume) := by
  have hwait : asked.machine.status = .awaitingInput := by decide +kernel
  obtain ⟨hruns, -, hrest⟩ := @cycle_limit_exact asking .run 3 (by decide +kernel) rfl
    (by decide +kernel) (by decide +kernel) 4 (by decide)
  obtain ⟨-, -, -, hsupply⟩ := hrest [.supply 5] (by simp [Operation.accompanies])
  obtain ⟨-, -, hspent, -⟩ := hrest [.supply 5, .supply 6] (by simp [Operation.accompanies])
  obtain ⟨hresumes, hcalls, -⟩ := @cycle_limit_exact exhausted .resume 3 (by decide +kernel)
    (by decide +kernel) (by decide +kernel) (by decide +kernel) 4 (by decide)
  refine ⟨hruns, hwait, by decide +kernel, ?_, by decide +kernel, ?_, hresumes, ?_⟩
  · unfold asked at hwait ⊢
    exact hsupply 6 hwait
  · unfold exhausted
    exact hspent
  · exact hcalls (by decide)

end Controller

end AccumulatorMachine
