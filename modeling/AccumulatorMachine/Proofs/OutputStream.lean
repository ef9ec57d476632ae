import AccumulatorMachine.Proofs.CycleFaults
import AccumulatorMachine.Proofs.ProgramPresence

/-!
# The output of a program

A machine collects output, and whoever drives it takes what it has collected from time to time. In
between loads and resets nothing of it gets lost and nothing comes twice: what has been taken, and
behind it what has not, are the records of the OUTPUT instructions in the order in which they were
executed. Each record keeps the mode in which OUTPUT was shown at that time.
-/

namespace AccumulatorMachine

theorem Visible.printed_perform (v : Visible) (op : Opcode) (w : Word) (mode : DisplayMode) :
    (v.perform op w mode).printed =
      if op = .output then v.printed.push ⟨v.ac, mode⟩ else v.printed := by
  cases op with
  | skipCond =>
    rw [perform]
    split <;> rfl
  | _ => rfl

namespace Machine

def prints (m : Machine) : Bool := m.cycle.1 = some .output

/-- The record that an OUTPUT instruction makes: AC, in the mode in which OUTPUT is shown. -/
def shownRecord (m : Machine) : OutputRecord := ⟨m.value .ac, m.registers.output.mode⟩

/-- The records of the OUTPUT instructions that the cycles on some machines execute. -/
def printed (entries : List Machine) : Array OutputRecord :=
  ((entries.filter prints).map shownRecord).toArray

theorem printed_append (front back : List Machine) :
    printed (front ++ back) = printed front ++ printed back := by
  simp [printed]

theorem printed_of_prints {m : Machine} (h : m.prints = true) : printed [m] = #[m.shownRecord] := by
  simp [printed, h]

theorem printed_of_not_prints {m : Machine} (h : m.prints = false) : printed [m] = #[] := by
  simp [printed, h]

section cycle

variable {m : Machine} (h : m.WellFormed)
include h

theorem dueFault_of_prints (hprints : m.prints = true) : m.dueFault = none := by
  obtain ⟨-, -, hdecode, hroom⟩ := (cycle_fst_eq_some_iff h).1 (of_decide_eq_true hprints)
  exact dueFault_eq_none_of_decode hdecode (by omega) (by decide) (by decide)

/-- A cycle adds to the output exactly what it prints. -/
theorem output_cycle : m.cycle.2.output = m.output ++ printed [m] := by
  by_cases hgoes : m.status = .running ∧ m.fault = none
  · obtain ⟨hrun, hfault⟩ := hgoes
    cases hdue : m.dueFault with
    | some f =>
      have hsilent : m.prints = false := by
        rw [Bool.eq_false_iff]
        intro hprints
        cases hdue.symm.trans (dueFault_of_prints h hprints)
      rw [printed_of_not_prints hsilent, Array.append_empty]
      exact (cycle_of_dueFault h hrun hfault hdue).printed
    | none =>
      obtain ⟨op, -, -, hop, -, -, hvisible⟩ := cycle_of_dueFault_eq_none h hrun hfault hdue
      have houtput : m.cycle.2.output = _ := congrArg Visible.printed hvisible
      rw [houtput, Visible.printed_perform]
      split
      next hprints =>
        rw [printed_of_prints (by rw [prints, hop, hprints]; rfl), Array.append_singleton]
        rfl
      next hsilent =>
        have hsilent : m.prints = false := by simp [prints, hop, hsilent]
        rw [printed_of_not_prints hsilent, Array.append_empty]
        rfl
  · have hsilent : m.prints = false := by
      rw [Bool.eq_false_iff]
      intro hprints
      obtain ⟨hrun, hfault, -⟩ := (cycle_fst_eq_some_iff h).1 (of_decide_eq_true hprints)
      exact hgoes ⟨hrun, hfault⟩
    rw [printed_of_not_prints hsilent, Array.append_empty]
    unfold cycle
    split_ifs with hrun hfault
    · rfl
    · rfl
    · exact (hgoes ⟨Decidable.not_not.1 hrun, Option.not_isSome_iff_eq_none.1 hfault⟩).elim

end cycle

theorem Passage.output_eq {start m : Machine} {entries : List Machine} (hw : start.WellFormed)
    (h : Passage start entries m) : m.output = start.output ++ printed entries := by
  induction h with
  | refl => exact Array.append_empty.symm
  | @cycle entries m h ih =>
    rw [output_cycle (h.wellFormed hw), ih, printed_append, Array.append_assoc]
  | @act _ m _ a ha ih =>
    cases a with
    | cycle | load | reset | breakpoint | clearBreakpoints | drain => exact ha.elim
    | restart =>
      have hrestart : m.restart.output = m.output := by
        unfold Machine.restart
        split <;> rfl
      exact hrestart.trans ih
    | _ => exact ih

end Machine

namespace Controller

variable {c : Controller}

theorem taken_append_output_after (hw : c.machine.WellFormed) {e : Event}
    (he : e.reloads = false) (fuel : Nat) :
    c.taken fuel e ++ (c.after fuel e).machine.output =
      c.machine.output ++ Machine.printed (c.entries fuel e) := by
  cases hrelists : e.relists with
  | false =>
    obtain ⟨output, htaken, hpassage⟩ := passage_after hw hrelists fuel
    have hstart : Machine.WellFormed { c.machine with output } := hw
    rw [hpassage.output_eq hstart, ← Array.append_assoc, htaken]
  | true =>
    obtain ⟨listing, hmachine, -⟩ := machine_after_of_relists he hrelists fuel
    obtain ⟨hentries, -⟩ := c.relist_after hrelists fuel
    have htaken : c.taken fuel e = #[] := by
      apply taken_of_ne
      intro hdrain
      rw [hdrain] at hrelists
      cases hrelists
    rw [hmachine, hentries, htaken]
    exact (Array.empty_append).trans (Array.append_empty).symm

/-- The output that the replies to some events hand over, each with a bound on the ticks of a run. -/
def takenAll : Controller → List (Nat × Event) → Array OutputRecord
  | _, [] => #[]
  | c, (fuel, e) :: events => c.taken fuel e ++ (c.after fuel e).takenAll events

/-- What a drain at the end hands over is the output that the events before it have left. -/
theorem takenAll_drain (events : List (Nat × Event)) (fuel : Nat) :
    c.takenAll (events ++ [(fuel, .call .drain)]) =
        c.takenAll events ++ (c.afterAll events).machine.output ∧
      (c.afterAll (events ++ [(fuel, .call .drain)])).machine.output = #[] := by
  induction events generalizing c with
  | nil =>
    obtain ⟨htaken, hleft⟩ := c.taken_drain fuel
    have hlast : c.takenAll [(fuel, .call .drain)] = c.taken fuel (.call .drain) :=
      Array.append_empty
    refine ⟨?_, hleft⟩
    rw [List.nil_append, hlast, htaken]
    exact Array.empty_append.symm
  | cons entry events ih =>
    obtain ⟨fuel', e⟩ := entry
    obtain ⟨hall, hleft⟩ := ih (c := c.after fuel' e)
    refine ⟨?_, hleft⟩
    rw [List.cons_append, takenAll, hall, takenAll, afterAll, Array.append_assoc]

/-- The machines on which some events call the cycle. -/
def entriesAll : Controller → List (Nat × Event) → List Machine
  | _, [] => []
  | c, (fuel, e) :: events => c.entries fuel e ++ (c.after fuel e).entriesAll events

/-- What some events take and what they leave is what was there and what their cycles print. -/
theorem takenAll_append_output (hw : c.machine.WellFormed) {events : List (Nat × Event)}
    (hevents : ∀ entry ∈ events, entry.2.reloads = false) :
    c.takenAll events ++ (c.afterAll events).machine.output =
      c.machine.output ++ Machine.printed (c.entriesAll events) := by
  induction events generalizing c with
  | nil => simp [takenAll, afterAll, entriesAll, Machine.printed]
  | cons entry events ih =>
    obtain ⟨fuel, e⟩ := entry
    have he : e.reloads = false := hevents (fuel, e) List.mem_cons_self
    have hnext := ih (after_of_not_reloads hw he fuel).1 fun entry hentry =>
      hevents entry (List.mem_cons_of_mem _ hentry)
    rw [takenAll, afterAll, entriesAll, Array.append_assoc, hnext, ← Array.append_assoc,
      taken_append_output_after hw he, Machine.printed_append, Array.append_assoc]

/-- From a successful load on, until something is loaded or reset: the output that has been taken,
and behind it the output that has not, are the records of the OUTPUT instructions in the order in
which they were executed. A record shows AC as it was then, in the mode that OUTPUT had then. With
one more drain all of them have been handed over, and none is left. -/
theorem output_stream_exact {c₀ : Controller} {source : Except ImageError Image} {fuel : Nat}
    (hw : c₀.machine.WellFormed) (hload : (c₀.perform fuel (.load source)).1 = .done)
    {events : List (Nat × Event)} (hevents : ∀ entry ∈ events, entry.2.reloads = false) :
    let c := c₀.after fuel (.call (.load source))
    let stream := c.takenAll events ++ (c.afterAll events).machine.output
    let printing := (c.entriesAll events).filter Machine.prints
    stream.toList = printing.map Machine.shownRecord ∧
      stream.toList.map OutputRecord.text =
        printing.map (fun m => m.registers.output.mode.render false (m.value .ac)) ∧
      ∀ fuel', c.takenAll (events ++ [(fuel', .call .drain)]) = stream ∧
        (c.afterAll (events ++ [(fuel', .call .drain)])).machine.output = #[] := by
  intro c
  have hloaded : c.machine.WellFormed ∧ c.machine.output = #[] := by
    change (c₀.perform fuel (.load source)).2.machine.WellFormed ∧
      (c₀.perform fuel (.load source)).2.machine.output = #[]
    obtain hbusy | ⟨image, lines, -, hdone⟩ | ⟨e, hrefused⟩ := c₀.perform_load_cases source fuel
    · rw [hbusy] at hload
      cases hload
    · rw [hdone]
      exact ⟨hw.loadedWith lines, rfl⟩
    · rw [hrefused] at hload
      cases hload
  have hstream := takenAll_append_output hloaded.1 hevents
  rw [hloaded.2, Array.empty_append] at hstream
  refine ⟨?_, ?_, fun fuel' => c.takenAll_drain events fuel'⟩
  · rw [hstream]
    rfl
  · rw [hstream]
    exact List.map_map

def repeating : Image := .ofWords 0 [0x1004, 0x6000, 0x6000, 0xF000, 0xFFF9]

/-- The program is stepped over its first OUTPUT, shown in another mode and run twice. The output is
taken before the first fault and after the second. -/
def showing : List (Nat × Event) :=
  [(0, .call .step), (0, .call .step), (0, .call (.setMode .output .hex)), (0, .call .drain),
    (9, .call .run), (9, .call .run), (0, .call .drain), (0, .call (.setMode .output .ascii))]

/-- The number is shown as it was at each of its OUTPUT instructions, whatever the mode is later. A
drain has nothing more to hand over. -/
theorem output_stream_exact_repeating :
    Machine.new.WellFormed ∧ ((new .default).perform 0 (.load (.ok repeating))).1 = .done ∧
      (∀ entry ∈ showing, entry.2.reloads = false) ∧
      let c := (new .default).after 0 (.call (.load (.ok repeating)))
      let stream := c.takenAll showing ++ (c.afterAll showing).machine.output
      stream.toList = [⟨-7, .decimal⟩, ⟨-7, .hex⟩, ⟨-7, .hex⟩, ⟨-7, .hex⟩] ∧
        stream.toList.map OutputRecord.text = ["-7", "FFF9", "FFF9", "FFF9"] ∧
        c.takenAll (showing ++ [(0, .call .drain)]) = stream := by
  have hevents : ∀ entry ∈ showing, entry.2.reloads = false := by decide
  have hload : ((new .default).perform 0 (.load (.ok repeating))).1 = .done := by
    -- A load that is refused leaves a machine without a program.
    have hstatus :
        ((new .default).perform 0 (.load (.ok repeating))).2.machine.status = .haltedNormal := by
      decide +kernel
    obtain hbusy | ⟨image, lines, -, hdone⟩ | ⟨e, hrefused⟩ :=
      (new .default).perform_load_cases (.ok repeating) 0
    · rw [hbusy] at hstatus
      cases hstatus
    · rw [hdone]
    · rw [hrefused] at hstatus
      cases hstatus
  obtain ⟨hrecords, htexts, hdrains⟩ := output_stream_exact Machine.wellFormed_new hload hevents
  refine ⟨Machine.wellFormed_new, hload, hevents, hrecords.trans ?_, htexts.trans ?_,
    (hdrains 0).1⟩
  · decide +kernel
  · decide +kernel

end Controller

end AccumulatorMachine
