import AccumulatorMachine.Proofs.Simulation

/-!
# Driving a machine by hand

Those who drive a machine leave marks on it: they set breakpoints, pause it and take its output.
None of these makes a difference to a cycle. Beside this stands the plainest driver of all, which
calls the cycle some times and completes each INPUT as it comes.
-/

namespace AccumulatorMachine

theorem Listing.clearBreakpoints_of_modifyBreakpoint? {l l' : Listing} {address : Word}
    {f : Bool → Bool} (h : l.modifyBreakpoint? address f = some l') :
    l'.clearBreakpoints = l.clearBreakpoints := by
  unfold modifyBreakpoint? at h
  obtain ⟨row, -, rfl⟩ := Option.map_eq_some_iff.1 h
  unfold clearBreakpoints
  congr 1
  apply Array.ext
  · simp
  · intro i _ _
    simp only [Array.getElem_map, Array.getElem_modify]
    split <;> rfl

theorem Listing.clearBreakpoints_clearBreakpoints (l : Listing) :
    l.clearBreakpoints.clearBreakpoints = l.clearBreakpoints := by
  unfold clearBreakpoints
  rw [Array.map_map]
  rfl

/-- The state of a machine that goes on where it was paused. -/
def Status.resumed : Status → Status
  | .paused => .running
  | s => s

theorem Status.resumed_of_ne {s : Status} (h : s ≠ .paused) : s.resumed = s := by
  cases s <;> first | rfl | exact (h rfl).elim

namespace Machine

/-- The machine without the marks of its drivers: without breakpoints, going on where it was paused,
and with the output that was taken from it put back. -/
def unmarked (m : Machine) (drained : Array OutputRecord) : Machine :=
  { m with
    status := m.status.resumed
    listing := m.listing.clearBreakpoints
    output := drained ++ m.output }

theorem unmarked_of_ne {m : Machine} (h : m.status ≠ .paused) (drained : Array OutputRecord) :
    m.unmarked drained = m.altered Listing.clearBreakpoints drained := by
  unfold unmarked
  rw [Status.resumed_of_ne h]
  rfl

/-- The marks make no difference to a cycle. -/
theorem unmarked_cycle {m : Machine} (h : m.status ≠ .paused) (drained : Array OutputRecord) :
    m.cycle.2.unmarked drained = (m.unmarked drained).cycle.2 ∧ m.cycle.2.status ≠ .paused := by
  by_cases hrun : m.status = .running
  · have hnext := (status_cycle hrun).1
    rw [unmarked_of_ne h, unmarked_of_ne hnext,
      altered_cycle Listing.clearBreakpoints (fun _ _ => rfl) hrun]
    exact ⟨rfl, hnext⟩
  · have hrun' : (m.unmarked drained).status ≠ .running := by
      rw [unmarked_of_ne h]
      exact hrun
    rw [cycle_of_ne hrun, cycle_of_ne hrun']
    exact ⟨rfl, h⟩

theorem unmarked_pause {m : Machine} (h : m.status = .running) (drained : Array OutputRecord) :
    m.pause.unmarked drained = m.unmarked drained := by
  unfold unmarked pause
  rw [h]
  rfl

/-- Complete a pending INPUT instruction by the first of the values at hand, if there is one. -/
def completeNext : List Int × Machine → List Int × Machine
  | ([], m) => ([], m)
  | (n :: ns, m) => if m.status = .awaitingInput then (ns, m.completeInput n) else (n :: ns, m)

/-- Call the cycle some times, and complete each INPUT as it comes. The answer also has the values
that are left. -/
def cyclesFed : Nat → List Int × Machine → List Int × Machine
  | 0, given => given
  | k + 1, given =>
    let (ns, m) := cyclesFed k given
    completeNext (ns, m.cycle.2)

theorem completeNext_of_ne {m : Machine} (h : m.status ≠ .awaitingInput) (ns : List Int) :
    completeNext (ns, m) = (ns, m) := by
  cases ns with
  | nil => rfl
  | cons n ns => exact if_neg h

theorem cyclesFed_add (j k : Nat) (given : List Int × Machine) :
    cyclesFed (j + k) given = cyclesFed k (cyclesFed j given) := by
  induction k with
  | zero => rfl
  | succ k ih => rw [← Nat.add_assoc, cyclesFed, ih, cyclesFed]

theorem ne_awaitingInput_of_isHalted {m : Machine} (h : m.status.isHalted = true) :
    m.status ≠ .awaitingInput := by
  intro hwait
  rw [hwait] at h
  cases h

theorem cyclesFed_of_isHalted {m : Machine} (h : m.status.isHalted = true) (k : Nat)
    (ns : List Int) : cyclesFed k (ns, m) = (ns, m) := by
  have hrun : m.status ≠ .running := by
    intro hrun
    rw [hrun] at h
    cases h
  induction k with
  | zero => rfl
  | succ k ih =>
    rw [cyclesFed, ih]
    dsimp only
    rw [cycle_of_ne hrun, completeNext_of_ne (ne_awaitingInput_of_isHalted h)]

/-- The given values and machine, the machine without marks. -/
def Unmarked (drained : Array OutputRecord) (given given' : List Int × Machine) : Prop :=
  given.2.status ≠ .paused ∧ given' = (given.1, given.2.unmarked drained)

theorem Unmarked.completeNext {drained : Array OutputRecord} {given given' : List Int × Machine}
    (h : Unmarked drained given given') :
    Unmarked drained (completeNext given) (completeNext given') := by
  obtain ⟨ns, m⟩ := given
  obtain ⟨hm, rfl⟩ := h
  cases ns with
  | nil => exact ⟨hm, rfl⟩
  | cons n ns =>
    have hstatus : (m.unmarked drained).status = m.status := Status.resumed_of_ne hm
    unfold Machine.completeNext
    dsimp only
    rw [hstatus]
    split
    · exact ⟨nofun, rfl⟩
    · exact ⟨hm, rfl⟩

/-- The marks make no difference to the plainest driver. -/
theorem Unmarked.cyclesFed {drained : Array OutputRecord} {given given' : List Int × Machine}
    (h : Unmarked drained given given') (k : Nat) :
    Unmarked drained (cyclesFed k given) (cyclesFed k given') := by
  induction k with
  | zero => exact h
  | succ k ih =>
    unfold Machine.cyclesFed
    apply Unmarked.completeNext
    obtain ⟨hm, heq⟩ := ih
    obtain ⟨hcycle, hne⟩ := unmarked_cycle hm drained
    refine ⟨hne, ?_⟩
    rw [heq, hcycle]

/-- The machine `m` is where some calls and some values lead from `start`. -/
def Leads (start : Machine) (calls : Nat) (inputs : List Int) (m : Machine) : Prop :=
  ∀ later, cyclesFed calls (inputs ++ later, start) = completeNext (later, m)

namespace Leads

variable {start m : Machine} {calls : Nat} {inputs : List Int}

theorem zero (h : start.status ≠ .awaitingInput) : Leads start 0 [] start :=
  fun later => (completeNext_of_ne h later).symm

theorem cycle (h : Leads start calls inputs m) (hrun : m.status = .running) :
    Leads start (calls + 1) inputs m.cycle.2 := by
  intro later
  have hready : m.status ≠ .awaitingInput := by simp [hrun]
  rw [cyclesFed, h later, completeNext_of_ne hready]

theorem complete (h : Leads start calls inputs m) (hwait : m.status = .awaitingInput) (n : Int) :
    Leads start calls (inputs ++ [n]) (m.completeInput n) := by
  intro later
  have hready : (m.completeInput n).status ≠ .awaitingInput := nofun
  rw [List.append_assoc, h, completeNext_of_ne hready]
  exact if_pos hwait

/-- Halted machines that one sequence of values leads to are the same, whatever the number of calls:
the calls after a halt change nothing. -/
theorem eq_of_isHalted {m' : Machine} {calls' : Nat} {inputs' all : List Int}
    (h : Leads start calls inputs m) (h' : Leads start calls' inputs' m')
    (hm : m.status.isHalted = true) (hm' : m'.status.isHalted = true) (hall : inputs <+: all)
    (hall' : inputs' <+: all) : m = m' := by
  obtain ⟨later, hlater⟩ := hall
  obtain ⟨later', hlater'⟩ := hall'
  have hend := h later
  have hend' := h' later'
  rw [hlater, completeNext_of_ne (ne_awaitingInput_of_isHalted hm)] at hend
  rw [hlater', completeNext_of_ne (ne_awaitingInput_of_isHalted hm')] at hend'
  rcases Nat.le_total calls calls' with hle | hle
  · obtain ⟨k, rfl⟩ := Nat.exists_eq_add_of_le hle
    rw [cyclesFed_add, hend, cyclesFed_of_isHalted hm] at hend'
    exact congrArg Prod.snd hend'
  · obtain ⟨k, rfl⟩ := Nat.exists_eq_add_of_le hle
    rw [cyclesFed_add, hend', cyclesFed_of_isHalted hm'] at hend
    exact (congrArg Prod.snd hend).symm

end Leads

end Machine

end AccumulatorMachine
