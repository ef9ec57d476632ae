import AccumulatorMachine.Proofs.Operations
import AccumulatorMachine.Proofs.Simulation

/-!
# Requests that come late

A run to completion looks at the requests before each instruction, and once more after the last.
Requests can be left at any time. Whatever their interleaving with a run, a run that has been left
halted or waiting by its last instruction keeps that outcome exactly if no request comes between
that instruction and the look that follows it.
-/

namespace AccumulatorMachine

/-- The requests that others leave between two looks at them. -/
structure Requests where
  pause : Bool
  stop : Bool
  deriving DecidableEq, Repr

def Requests.none : Requests := ⟨false, false⟩

namespace Machine

/-- The machine after a look at some requests: a stop comes first, then a pause. -/
def overtaken (m : Machine) (r : Requests) : Machine :=
  if r.stop then m.stopByUser else if r.pause then m.pause else m

section overtaken

variable {m : Machine}

theorem overtaken_eq_self_iff (hpaused : m.status ≠ .paused) (huser : m.status ≠ .haltedByUser)
    (r : Requests) : m.overtaken r = m ↔ r = .none := by
  obtain ⟨pause, stop⟩ := r
  constructor
  · intro h
    have hstatus := congrArg Machine.status h
    cases stop with
    | true => exact (huser hstatus.symm).elim
    | false =>
      cases pause with
      | true => exact (hpaused hstatus.symm).elim
      | false => rfl
  · intro h
    cases h
    rfl

theorem status_overtaken_eq_paused_iff (h : m.status ≠ .paused) (r : Requests) :
    (m.overtaken r).status = .paused ↔ r.pause = true ∧ r.stop = false := by
  obtain ⟨pause, stop⟩ := r
  cases stop <;> cases pause <;> simp [overtaken, stopByUser, Machine.pause, h]

theorem status_overtaken_eq_haltedByUser_iff (h : m.status ≠ .haltedByUser) (r : Requests) :
    (m.overtaken r).status = .haltedByUser ↔ r.stop = true := by
  obtain ⟨pause, stop⟩ := r
  cases stop <;> cases pause <;> simp [overtaken, stopByUser, Machine.pause, h]

end overtaken

theorem fault_overtaken (m : Machine) (r : Requests) : (m.overtaken r).fault = m.fault := by
  unfold overtaken
  cases r.stop <;> cases r.pause <;> rfl

end Machine

namespace Controller

/-- The controller with some more requests left for its next look. -/
def receive (c : Controller) (r : Requests) : Controller :=
  let c := if r.pause then c.leavePause else c
  if r.stop then c.leaveStop else c

/-- A run to completion amid requests, of which some are left before each tick. Says whether the run
still goes on. -/
def runAmid : List Requests → Controller → Bool × Controller
  | [], c => (true, c)
  | r :: rs, c =>
    match (c.receive r).runTick with
    | (true, c) => runAmid rs c
    | (false, c) => (false, c)

section receive

variable (c : Controller) (r : Requests)

theorem machine_receive : (c.receive r).machine = c.machine := by
  unfold receive
  cases r.pause <;> cases r.stop <;> rfl

theorem pausePending_receive : (c.receive r).pausePending = (c.pausePending || r.pause) := by
  unfold receive
  cases r.pause <;> cases r.stop <;> simp [leavePause, leaveStop]

theorem stopPending_receive : (c.receive r).stopPending = (c.stopPending || r.stop) := by
  unfold receive
  cases r.pause <;> cases r.stop <;> simp [leavePause, leaveStop]

theorem mode_working_receive : (c.receive r).mode = c.mode ∧ (c.receive r).working = c.working := by
  unfold receive
  cases r.pause <;> cases r.stop <;> exact ⟨rfl, rfl⟩

theorem receive_none : c.receive .none = c := rfl

end receive

/-- Without requests a run amid requests is a run. -/
theorem runAmid_replicate_none (fuel : Nat) (c : Controller) :
    (c.runAmid (List.replicate fuel .none)).2 = c.runLoop fuel := by
  induction fuel generalizing c with
  | zero => rfl
  | succ fuel ih =>
    rw [List.replicate_succ, runAmid, runLoop, receive_none]
    obtain ⟨going, next⟩ := c.runTick
    cases going with
    | true => exact ih next
    | false => rfl

theorem runAmid_append {c d : Controller} {rs : List Requests} (h : c.runAmid rs = (true, d))
    (rs' : List Requests) : c.runAmid (rs ++ rs') = d.runAmid rs' := by
  induction rs generalizing c with
  | nil =>
    cases h
    rfl
  | cons r rs ih =>
    unfold runAmid at h
    cases htick : (c.receive r).runTick with
    | mk going next =>
      rw [htick] at h
      rw [List.cons_append, runAmid, htick]
      cases going with
      | true => exact ih h
      | false => cases h

/-- A run that goes on has executed one instruction for each tick. The last of them was executed by
a running machine, and no request is left. -/
theorem of_runAmid_eq_true {c d : Controller} {rs : List Requests}
    (h : c.runAmid rs = (true, d)) :
    d.machine = c.machine.cyclesFrom rs.length ∧
      (rs ≠ [] → d.stopPending = false ∧ d.pausePending = false ∧
        d.machine.status ≠ .paused ∧ d.machine.status ≠ .haltedByUser) := by
  induction rs generalizing c with
  | nil =>
    cases h
    exact ⟨rfl, fun hne => (hne rfl).elim⟩
  | cons r rs ih =>
    unfold runAmid at h
    cases htick : (c.receive r).runTick with
    | mk going next =>
      rw [htick] at h
      cases going with
      | false => cases h
      | true =>
        obtain ⟨hstop, hpause, hrun, rfl⟩ := runTick_eq_true htick
        obtain ⟨hmachine, hlast⟩ := ih h
        constructor
        · rw [hmachine, cycled, machine_receive]
          rfl
        · intro _
          cases rs with
          | nil =>
            cases h
            exact ⟨hstop, hpause, Machine.status_cycle hrun⟩
          | cons r rs => exact hlast (List.cons_ne_nil r rs)

theorem runAmid_kept (rs : List Requests) (c : Controller) :
    (c.runAmid rs).2.mode = c.mode ∧ (c.runAmid rs).2.working = c.working := by
  have htick (c : Controller) : c.runTick.2.mode = c.mode ∧ c.runTick.2.working = c.working := by
    rw [runTick_eq]
    repeat' split
    all_goals exact ⟨rfl, rfl⟩
  induction rs generalizing c with
  | nil => exact ⟨rfl, rfl⟩
  | cons r rs ih =>
    have hnext := htick (c.receive r)
    rw [(mode_working_receive c r).1, (mode_working_receive c r).2] at hnext
    unfold runAmid
    cases hrun : (c.receive r).runTick with
    | mk going next =>
      rw [hrun] at hnext
      cases going with
      | true => exact ⟨(ih next).1.trans hnext.1, (ih next).2.trans hnext.2⟩
      | false => exact hnext

/-- Requests that come while an INPUT waits. A stop stands in for the value; a pause is looked at
when the value has been taken. -/
theorem machine_supply_receive {c : Controller} (hwait : c.machine.status = .awaitingInput)
    (hidle : c.working = false) (hmode : c.mode = .toCompletion) (hstop : c.stopPending = false)
    (r : Requests) (fuel : Nat) (n : Int) :
    (Control.exec (Control.supply (fuel + 1) n) (c.receive r)).machine =
      if r.stop then c.machine.stopByUser
      else if r.pause then (c.machine.completeInput n).pause
      else ((c.supplied n).runLoop (fuel + 1)).machine := by
  obtain ⟨hmode', hidle'⟩ := mode_working_receive c r
  rw [Control.exec_supply, machine_receive, if_neg (not_not_intro hwait),
    workLoop_of_idle (hidle'.trans hidle)]
  dsimp only
  rw [stopPending_receive, hstop, Bool.false_or]
  obtain ⟨pause, stop⟩ := r
  cases stop with
  | true => exact congrArg Machine.stopByUser (machine_receive c _)
  | false =>
    have hgo : ((c.receive ⟨pause, false⟩).supplied n).goOn (fuel + 1) =
        ((c.receive ⟨pause, false⟩).supplied n).runLoop (fuel + 1) :=
      goOn_of_toCompletion (c := (c.receive _).supplied n) (hmode'.trans hmode) _
    change (((c.receive ⟨pause, false⟩).supplied n).goOn (fuel + 1)).machine = _
    rw [hgo]
    cases pause with
    | true =>
      have htick : ((c.receive ⟨true, false⟩).supplied n).runTick =
          (false, { (c.receive ⟨true, false⟩).supplied n with
            pausePending := false
            machine := ((c.receive ⟨true, false⟩).supplied n).machine.pause }) := by
        rw [runTick_eq]
        exact (if_neg (Bool.eq_false_iff.1 hstop)).trans (if_pos rfl)
      rw [runLoop, htick]
      rfl
    | false => rfl

/-- What a run comes to whose last instruction has left the machine halted or waiting. It ends with
the next look, whatever requests come after that. If some came before it, the machine is overtaken
by them; otherwise it stays as the instruction left it. A machine that waits can still be overtaken
when it is given its value. -/
theorem late_request_overtakes {c d : Controller} {rs : List Requests} (hne : rs ≠ [])
    (hidle : c.working = false) (hmode : c.mode = .toCompletion)
    (hgoing : c.runAmid rs = (true, d)) (hdone : d.machine.status ≠ .running) (r : Requests)
    (later : List Requests) :
    d.machine = c.machine.cyclesFrom rs.length ∧
      ∃ e, c.runAmid (rs ++ r :: later) = (false, e) ∧
        e.machine = d.machine.overtaken r ∧
        (e.machine = d.machine ↔ r = .none) ∧
        (e.machine.status = .paused ↔ r.pause = true ∧ r.stop = false) ∧
        (e.machine.status = .haltedByUser ↔ r.stop = true) ∧
        e.machine.fault = d.machine.fault ∧
        (r = .none → d.machine.status = .awaitingInput → ∀ r' fuel n,
          (Control.exec (Control.supply (fuel + 1) n) (e.receive r')).machine =
            if r'.stop then d.machine.stopByUser
            else if r'.pause then (d.machine.completeInput n).pause
            else ((d.supplied n).runLoop (fuel + 1)).machine) := by
  obtain ⟨hmachine, hlast⟩ := of_runAmid_eq_true hgoing
  obtain ⟨hstop, hpause, hnotpaused, hnotuser⟩ := hlast hne
  have hkept := runAmid_kept rs c
  rw [hgoing, hidle, hmode] at hkept
  have hend : ∃ e, c.runAmid (rs ++ r :: later) = (false, e) ∧
      e.machine = d.machine.overtaken r ∧ (r = .none → e = d) := by
    rw [runAmid_append hgoing, runAmid, runTick_eq, stopPending_receive, pausePending_receive,
      machine_receive, hstop, hpause, Bool.false_or, Bool.false_or, if_pos hdone]
    unfold Machine.overtaken
    obtain ⟨pause, stop⟩ := r
    cases stop with
    | true => exact ⟨_, rfl, rfl, nofun⟩
    | false =>
      cases pause with
      | true => exact ⟨_, rfl, rfl, nofun⟩
      | false => exact ⟨_, rfl, machine_receive d _, fun _ => rfl⟩
  obtain ⟨e, hrun, he, hnone⟩ := hend
  refine ⟨hmachine, e, hrun, he, ?_⟩
  rw [he]
  refine ⟨Machine.overtaken_eq_self_iff hnotpaused hnotuser r,
    Machine.status_overtaken_eq_paused_iff hnotpaused r,
    Machine.status_overtaken_eq_haltedByUser_iff hnotuser r,
    Machine.fault_overtaken d.machine r, ?_⟩
  intro hr hwait r' fuel n
  rw [hnone hr]
  exact machine_supply_receive hwait hkept.2 hkept.1 hstop r' fuel n

/-- The run to completion of a program that places words from address 0 on. -/
def runOf (words : List Word) : Controller :=
  (Control.exec (Control.load (.ofWords 0 words)) (.new .default)).begin .toCompletion

/-- A pause that comes after an INPUT, and a stop that comes before its value. -/
theorem late_request_overtakes_input :
    ∃ d e e', (runOf [0x5000, 0x7000]).runAmid [.none] = (true, d) ∧
      d.machine.status = .awaitingInput ∧
      (runOf [0x5000, 0x7000]).runAmid [.none, ⟨true, false⟩] = (false, e) ∧
      e.machine = d.machine.pause ∧ e.machine ≠ d.machine ∧
      (runOf [0x5000, 0x7000]).runAmid [.none, .none] = (false, e') ∧
      e'.machine = d.machine ∧
      (Control.exec (Control.supply 9 7) (e'.receive ⟨false, true⟩)).machine =
        d.machine.stopByUser := by
  have hgoing : (runOf [0x5000, 0x7000]).runAmid [.none] =
      (true, ((runOf [0x5000, 0x7000]).runAmid [.none]).2) :=
    Prod.ext (by decide +kernel) rfl
  have hwait : ((runOf [0x5000, 0x7000]).runAmid [.none]).2.machine.status = .awaitingInput := by
    decide +kernel
  have hdone : ((runOf [0x5000, 0x7000]).runAmid [.none]).2.machine.status ≠ .running := by
    decide +kernel
  have hidle : (runOf [0x5000, 0x7000]).working = false := by decide +kernel
  obtain ⟨-, e, hrun, he, hsame, -⟩ :=
    late_request_overtakes (List.cons_ne_nil _ _) hidle rfl hgoing hdone ⟨true, false⟩ []
  obtain ⟨-, e', hrun', -, hsame', -, -, -, hsupply⟩ :=
    late_request_overtakes (List.cons_ne_nil _ _) hidle rfl hgoing hdone .none []
  refine ⟨_, e, e', hgoing, hwait, hrun, he, ?_, hrun', hsame'.2 rfl, ?_⟩
  · intro h
    cases hsame.1 h
  · exact hsupply rfl hwait ⟨false, true⟩ 8 7

/-- A request that comes after HALT, after an INPUT or after a word that is no instruction. The
first two runs are found paused, and go on behind the HALT and behind the unanswered INPUT. The
third is found stopped by a user, with its fault. -/
theorem late_requests_overtake_outcomes :
    ((runOf [0x7000, 0xA000, 0x7000]).runAmid [.none]).2.machine.status = .haltedNormal ∧
      (let late := ((runOf [0x7000, 0xA000, 0x7000]).runAmid [.none, ⟨true, false⟩]).2
       late.machine.status = .paused ∧
         (late.perform 9 .resume).2.machine.lastOpcode = some .halt ∧
         (late.perform 9 .resume).2.machine.cycles = 3) ∧
      ((runOf [0x5000, 0x7000]).runAmid [.none]).2.machine.status = .awaitingInput ∧
      (let late := ((runOf [0x5000, 0x7000]).runAmid [.none, ⟨true, false⟩]).2
       late.machine.status = .paused ∧
         (late.perform 9 .resume).2.machine.status = .haltedNormal) ∧
      ((runOf [0xF000]).runAmid [.none]).2.machine.status = .haltedAbnormal ∧
      (let late := ((runOf [0xF000]).runAmid [.none, ⟨false, true⟩]).2
       late.machine.status = .haltedByUser ∧ late.machine.fault = some (.illegalOpcode 15 0)) := by
  decide +kernel

end Controller

end AccumulatorMachine
