import AccumulatorMachine.Proofs.BreakpointRuns

/-!
# Suspension by INPUT

While a machine waits for a value, whatever its caller tries leaves the machine as it is: only
requests are remembered. The value then goes to INPUT and to AC, and the controller goes on in the
way it had been driving the machine.
-/

namespace AccumulatorMachine

namespace Machine

/-- What an operation answers that cannot bring a value to a machine that waits for it, if it is one
of these. A literal must be one that INPUT does not take. -/
def waitingReply? (m : Machine) : Operation → Option Reply
  | .step | .run | .runToBreakpoint => some (.refused .awaitingInput)
  | .resume => some (.refused (.notPaused .awaitingInput))
  | .requestPause | .leavePause | .leaveStop => some .done
  | .cycle => some (.executed none)
  | .supplyLiteral text =>
    match m.registers.input.mode.literal text with
    | .error e => some (.refused (.literal e))
    | .ok _ => none
  | _ => none

/-- The machine that has taken a value for its INPUT: INPUT holds it, AC what INPUT holds, and
nothing else has changed but the state. -/
structure Takes (m : Machine) (n : Int) (m' : Machine) : Prop where
  input : m'.value .input = Word.ofInt n
  ac : m'.value .ac = m'.value .input
  others : ∀ d, d ≠ .input → d ≠ .ac → m'.registers.get d = m.registers.get d
  rest : m' = { m with registers := m'.registers, status := .running }

theorem takes_completeInput {m : Machine} (h : m.WellFormed) (n : Int) :
    m.Takes n (m.completeInput n) := by
  have hinput := value_assign_self h .input n
  have hac := value_assign_self (h.assign .input n) .ac ((m.assign .input n).value .input).toInt
  have hkept : (m.completeInput n).value .input = (m.assign .input n).value .input :=
    value_assign_ne _ (d := .ac) (by decide) ((m.assign .input n).value .input).toInt
  constructor
  · exact hkept.trans hinput
  · rw [hkept]
    refine Eq.trans hac ?_
    simp [Designation.isAddress]
  · intro d hi ha
    exact (Registers.get_modify_ne _ _ ha).trans (Registers.get_modify_ne _ _ hi)
  · rfl

end Machine

def Operation.isLeavePause : Operation → Bool
  | .leavePause => true
  | _ => false

def Operation.isLeaveStop : Operation → Bool
  | .leaveStop => true
  | _ => false

namespace Controller

def requested (c : Controller) (ops : List Operation) : Controller :=
  { c with
    pausePending := c.pausePending || ops.any Operation.isLeavePause
    stopPending := c.stopPending || ops.any Operation.isLeaveStop }

theorem requested_nil (c : Controller) : c.requested [] = c := by
  simp [requested]

theorem requested_cons (c : Controller) (op : Operation) (ops : List Operation) :
    (c.requested [op]).requested ops = c.requested (op :: ops) := by
  simp [requested, Bool.or_assoc]

theorem perform_of_waitingReply {c : Controller} (hwait : c.machine.status = .awaitingInput)
    (hidle : c.working = false) (fuel : Nat) {op : Operation} {reply : Reply}
    (hop : c.machine.waitingReply? op = some reply) :
    c.perform fuel op = (reply, c.requested [op]) := by
  have hrefusal : c.refusal? = some .awaitingInput := by
    rw [refusal?, hidle, hwait]
    rfl
  have hsame (op : Operation) (hpause : op.isLeavePause = false) (hstop : op.isLeaveStop = false) :
      c.requested [op] = c := by
    simp [requested, hpause, hstop]
  cases op with
  | step =>
    cases hop
    rw [perform, answer, Control.run_step, hrefusal, hsame _ rfl rfl]
  | run =>
    cases hop
    rw [perform, answer, Control.run_runToCompletion, hrefusal, hsame _ rfl rfl]
  | runToBreakpoint =>
    cases hop
    rw [perform, answer, Control.run_runToBreakpoint, hrefusal, hsame _ rfl rfl]
  | resume =>
    cases hop
    rw [perform, answer, Control.run_resume, hwait, if_pos (by decide), hsame _ rfl rfl]
  | requestPause =>
    cases hop
    rw [perform, requestPause, Machine.isRunning, hwait, hsame _ rfl rfl]
    rfl
  | leavePause =>
    cases hop
    simp [perform, leavePause, requested, Operation.isLeavePause, Operation.isLeaveStop]
  | leaveStop =>
    cases hop
    simp [perform, leaveStop, requested, Operation.isLeavePause, Operation.isLeaveStop]
  | cycle =>
    cases hop
    rw [perform, Machine.cycle_of_ne (by simp [hwait]), hsame _ rfl rfl]
  | supplyLiteral text =>
    rw [Machine.waitingReply?] at hop
    rw [perform, answer, Control.run_supplyLiteral, hsame _ rfl rfl]
    cases hliteral : c.machine.registers.input.mode.literal text with
    | error e =>
      rw [hliteral] at hop
      cases hop
      rfl
    | ok w =>
      rw [hliteral] at hop
      cases hop
  | _ => cases hop

/-- Any number of operations, while the machine waits: each answers as it does alone, and the
machine is left as it is. -/
theorem performAll_of_waitingReply {c : Controller} (hwait : c.machine.status = .awaitingInput)
    (hidle : c.working = false) (fuel : Nat) {ops : List Operation}
    (hops : ∀ op ∈ ops, (c.machine.waitingReply? op).isSome = true) :
    (c.performAll fuel ops).1.map some = ops.map c.machine.waitingReply? ∧
      (c.performAll fuel ops).2 = c.requested ops := by
  induction ops generalizing c with
  | nil => exact ⟨rfl, c.requested_nil.symm⟩
  | cons op ops ih =>
    obtain ⟨reply, hreply⟩ := Option.isSome_iff_exists.1 (hops op (List.mem_cons_self ..))
    have hstep := perform_of_waitingReply hwait hidle fuel hreply
    have hrest := @ih (c.requested [op]) hwait hidle
      fun op hop => hops op (List.mem_cons_of_mem _ hop)
    rw [requested_cons] at hrest
    rw [performAll, hstep]
    exact ⟨by rw [List.map_cons, List.map_cons, hreply]; exact congrArg _ hrest.1, hrest.2⟩

/-- A stop that was left is honoured in place of the value. -/
theorem perform_supply_of_stopPending {c : Controller} (hwait : c.machine.status = .awaitingInput)
    (hidle : c.working = false) (hstop : c.stopPending = true) (fuel : Nat) (n : Int) :
    c.perform fuel (.supply n) =
      (.status .haltedByUser,
        { c with stopPending := false, machine := c.machine.stopByUser }) := by
  rw [perform, answer, Control.run_supply, if_neg (not_not_intro hwait), workLoop_of_idle hidle]
  dsimp only
  rw [if_pos hstop]

def suppliedAndPaused (c : Controller) (n : Int) : Controller :=
  { c.supplied n with pausePending := false, machine := (c.machine.completeInput n).pause }

/-- How a controller goes on with the value for its machine, in each of the ways to drive it. In the
two that run on, a pause that was left comes before the next call of the cycle. A run to completion
has spent as many cycles as before the wait. -/
structure GoesOn (past : List Machine) (fuel : Nat) (n : Int) (c : Controller) : Prop where
  singleStep : c.mode = .singleStep →
    c.perform fuel (.supply n) = (.status .running, c.supplied n)
  toCompletion : c.mode = .toCompletion →
    c.perform fuel (.supply n) = (.status ((c.supplied n).runLoop fuel).machine.status,
      (c.supplied n).runLoop fuel) ∧ (c.supplied n).spent = c.spent ∧
    (c.pausePending = true → 0 < fuel →
      c.perform fuel (.supply n) = (.status .paused, c.suppliedAndPaused n) ∧
        c.calls fuel (.call (.supply n)) = 0)
  toBreakpoint : c.mode = .toBreakpoint →
    ∃ before, Machine.lastFetch past = some before ∧ before.cycle.1 = some .input ∧
      c.perform fuel (.supply n) =
        (if before.value .pc ∈ c.machine.listing.breakpoints then
          (.status .paused, { c.supplied n with machine := (c.machine.completeInput n).pause })
        else (.status .running, c.patrollingOn n)) ∧
      (c.pausePending = true →
        (c.patrollingOn n).after fuel .tick = c.suppliedAndPaused n ∧
          (c.patrollingOn n).calls fuel .tick = 0)

theorem goesOn {past : List Machine} {c : Controller} (hindexed : c.machine.listing.Indexed)
    (honInput : Machine.OnInput past c.machine) (hwait : c.machine.status = .awaitingInput)
    (hidle : c.working = false) (hstop : c.stopPending = false) (fuel : Nat) (n : Int) :
    GoesOn past fuel n c where
  singleStep := by
    intro hmode
    have hsupplied : (c.supplied n).mode = .singleStep := hmode
    rw [perform_supply_of_ready hwait hidle hstop, goOn_of_singleStep hsupplied]
    rfl
  toCompletion := by
    intro hmode
    have hsupplied : (c.supplied n).mode = .toCompletion := hmode
    have hperform := perform_supply_of_ready hwait hidle hstop fuel n
    rw [goOn_of_toCompletion hsupplied] at hperform
    refine ⟨hperform, rfl, fun hpause hfuel => ?_⟩
    obtain ⟨fuel, rfl⟩ := Nat.exists_eq_add_one.2 hfuel
    have htick : (c.supplied n).runTick = (false, c.suppliedAndPaused n) :=
      runTick_of_pausePending hstop hpause
    constructor
    · rw [hperform, runLoop, htick]
      rfl
    · rw [calls, supplyCalls_of_ready hwait hidle hstop, goOnCalls, if_pos hsupplied, runCalls,
        htick]
  toBreakpoint := by
    intro hmode
    obtain ⟨before, hlast, hop, hline⟩ := honInput hwait
    refine ⟨before, hlast, hop, ?_, fun hpause => ?_⟩
    · exact perform_supply_of_toBreakpoint hindexed hwait hidle hmode hstop hline fuel n
    · have hworking : (c.patrollingOn n).working = true := rfl
      have htick : (c.patrollingOn n).workTick =
          { c.suppliedAndPaused n with working := false } := workTick_of_pausePending hstop hpause
      have hsame : { c.suppliedAndPaused n with working := false } = c.suppliedAndPaused n := by
        rw [← hidle]
        rfl
      have hentries : (c.patrollingOn n).tickEntries = [] := by
        rw [tickEntries_eq, if_pos (.inr (.inl hpause))]
      rw [after, calls, if_pos hworking, if_pos hworking, htick, hsame,
        ← length_tickEntries, hentries]
      exact ⟨rfl, rfl⟩

/-- A pending INPUT suspends everything. Whatever is tried meanwhile, the machine stays as it is,
and so does the way in which it is driven; only requests are remembered. A stop among them is
honoured in place of the next value. Otherwise the value goes to INPUT and AC, and the machine is
driven on as before. -/
theorem input_suspends {past : List Machine} {c : Controller} (h : Traced past c)
    (hwait : c.machine.status = .awaitingInput) (fuel : Nat) {ops : List Operation}
    (hops : ∀ op ∈ ops, (c.machine.waitingReply? op).isSome = true) :
    (c.performAll fuel ops).1.map some = ops.map c.machine.waitingReply? ∧
    (c.performAll fuel ops).2 = c.requested ops ∧
    ∀ n, c.machine.Takes n (c.machine.completeInput n) ∧
      ((c.requested ops).stopPending = true →
        (c.requested ops).perform fuel (.supply n) = (.status .haltedByUser,
          { c.requested ops with stopPending := false, machine := c.machine.stopByUser })) ∧
      ((c.requested ops).stopPending = false → GoesOn past fuel n (c.requested ops)) := by
  have hsound := h.reachable.sound
  have hidle := hsound.idle_of_awaitingInput hwait
  obtain ⟨hreplies, hleft⟩ := performAll_of_waitingReply hwait hidle fuel hops
  refine ⟨hreplies, hleft, fun n => ⟨Machine.takes_completeInput hsound.wellFormed n, ?_, ?_⟩⟩
  · intro hstop
    exact perform_supply_of_stopPending (c := c.requested ops) hwait hidle hstop fuel n
  · intro hstop
    exact goesOn (c := c.requested ops) h.reachable.indexed h.onInput hwait hidle hstop fuel n

/-- Everything that can be tried without a value, and a pause that is left for later. -/
def futile : List Operation :=
  [.step, .run, .runToBreakpoint, .resume, .requestPause, .supplyLiteral "seven", .cycle,
    .leavePause]

/-- A program that waits for a value is left as it is, and paused as soon as it has the value; a
stop halts it without. -/
theorem input_suspends_futile :
    awaiting.machine.status = .awaitingInput ∧
    (awaiting.performAll 9 futile).2 = awaiting.requested futile ∧
    awaiting.machine.Takes 70000 (awaiting.machine.completeInput 70000) ∧
    (awaiting.requested futile).perform 9 (.supply 70000) =
      (.status .paused, (awaiting.requested futile).suppliedAndPaused 70000) ∧
    ((awaiting.requested [.leaveStop]).perform 9 (.supply 7)).1 = .status .haltedByUser := by
  have htraced : Traced _ awaiting := .after 9 (.after 0 (.new .default) rfl) rfl
  have hwait : awaiting.machine.status = .awaitingInput := by decide +kernel
  have hfutile : ∀ op ∈ futile, (awaiting.machine.waitingReply? op).isSome = true := by
    simp only [futile, List.forall_mem_cons]
    decide +kernel
  have hstop : ∀ op ∈ [Operation.leaveStop],
      (awaiting.machine.waitingReply? op).isSome = true := by
    simp [Machine.waitingReply?]
  obtain ⟨-, hleft, hsupply⟩ := input_suspends htraced hwait 9 hfutile
  obtain ⟨-, -, hstopped⟩ := input_suspends htraced hwait 9 hstop
  obtain ⟨htakes, -, hgoes⟩ := hsupply 70000
  have hpaused := ((hgoes (by decide +kernel)).toCompletion (by decide +kernel)).2.2
    (by decide +kernel) (by decide)
  refine ⟨hwait, hleft, htakes, hpaused.1, ?_⟩
  rw [(hstopped 7).2.1 (by decide +kernel)]

end Controller

end AccumulatorMachine
