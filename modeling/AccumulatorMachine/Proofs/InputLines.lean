import AccumulatorMachine.Proofs.FetchedLines
import AccumulatorMachine.Proofs.Passages

/-!
# The line of a pending INPUT

A cycle remembers the line it fetched, and no instruction changes that. So a machine that waits for
a value remembers the line of its INPUT instruction, whatever else was done to it since.
-/

namespace AccumulatorMachine

namespace Machine

variable {m : Machine}

/-- A cycle that leaves the machine waiting has executed INPUT. -/
theorem of_status_cycle_awaitingInput (h : m.WellFormed) (hrun : m.status = .running)
    (hwait : m.cycle.2.status = .awaitingInput) :
    m.cycle.1 = some .input ∧ m.cycle.2.executedLine = m.listing.rowOf? (m.value .pc) := by
  cases hfault : m.fault with
  | some f =>
    rw [cycle_of_fault hrun (by simp [hfault])] at hwait
    simp [halt, hfault] at hwait
  | none =>
    refine ⟨?_, executedLine_cycle h hrun hfault⟩
    rcases cycle_cases hrun hfault h with
      ⟨e, -, hcycle⟩ | ⟨op, -, -, hcycle⟩ | ⟨op, -, hroom, hcycle⟩
    · rw [hcycle] at hwait
      cases (status_raise _ _).symm.trans hwait
    · rw [hcycle] at hwait
      cases (status_raise _ _).symm.trans hwait
    · have hlast := (Consistent.executed h hrun hfault hroom op).awaiting
      rw [hcycle] at hwait ⊢
      exact hlast hwait

/-- The machine on which the last of the cycles was called that could fetch an instruction. -/
def lastFetch (past : List Machine) : Option Machine := (past.filter isRunning).getLast?

theorem lastFetch_concat (past : List Machine) (m : Machine) :
    lastFetch (past ++ [m]) = if m.isRunning then some m else lastFetch past := by
  unfold lastFetch
  rw [List.filter_append]
  split
  next hrun => simp [hrun]
  next hrun => simp [hrun]

/-- If the machine waits for a value, the last fetch was that of an INPUT instruction, whose line it
remembers. -/
def OnInput (past : List Machine) (m : Machine) : Prop :=
  m.status = .awaitingInput → ∃ before, lastFetch past = some before ∧
    before.cycle.1 = some .input ∧ m.executedLine = m.listing.rowOf? (before.value .pc)

theorem onInput_of_status {past : List Machine} {s : Status} (h : m.status = s)
    (hs : s ≠ .awaitingInput) : OnInput past m :=
  fun hwait => (hs (h.symm.trans hwait)).elim

namespace OnInput

variable {past : List Machine}

theorem cycle (h : OnInput past m) (hw : m.WellFormed) : OnInput (past ++ [m]) m.cycle.2 := by
  intro hwait
  rw [lastFetch_concat]
  by_cases hrun : m.status = .running
  · obtain ⟨hop, hline⟩ := of_status_cycle_awaitingInput hw hrun hwait
    exact ⟨m, by simp [isRunning, hrun], hop, by rw [hline, listing_cycle]⟩
  · rw [cycle_of_ne hrun] at hwait ⊢
    rw [if_neg (by simpa [isRunning] using hrun)]
    exact h hwait

/-- Between two cycles nothing makes a machine wait, or changes the line that it remembers while it
does. -/
theorem act (h : OnInput past m) {a : Act} (ha : a ≠ .cycle) : OnInput past (m.act a) := by
  cases a with
  | cycle => exact (ha rfl).elim
  | load source =>
    cases source with
    | error e => exact onInput_of_status (s := .noProgram) rfl (by decide)
    | ok image =>
      rw [act_load_ok]
      rcases m.afterLoad_cases image with heq | ⟨lines, -, heq⟩
      · rw [heq]
        exact onInput_of_status (s := .noProgram) rfl (by decide)
      · rw [heq]
        exact onInput_of_status (s := .haltedNormal) rfl (by decide)
  | reset => exact onInput_of_status (s := .noProgram) rfl (by decide)
  | restart =>
    rw [Machine.act, Machine.restart]
    split
    · exact onInput_of_status (s := .running) rfl (by decide)
    · exact h
  | halt =>
    rw [Machine.act]
    cases hf : m.fault with
    | none => exact onInput_of_status (s := .haltedNormal) (by simp [halt, hf]) (by decide)
    | some f => exact onInput_of_status (s := .haltedAbnormal) (by simp [halt, hf]) (by decide)
  | resume => exact onInput_of_status (s := .running) rfl (by decide)
  | pause => exact onInput_of_status (s := .paused) rfl (by decide)
  | stop => exact onInput_of_status (s := .haltedByUser) rfl (by decide)
  | supply n => exact onInput_of_status (s := .running) rfl (by decide)
  | raise f => exact onInput_of_status (m.status_raise f) (by decide)
  | breakpoint address f =>
    rw [Machine.act]
    cases hlisting : m.listing.modifyBreakpoint? address f with
    | none => exact h
    | some listing =>
      intro hwait
      obtain ⟨before, hlast, hop, hline⟩ := h hwait
      refine ⟨before, hlast, hop, ?_⟩
      exact hline.trans (Listing.rowOf?_modifyBreakpoint? hlisting _).symm
  | clearBreakpoints => exact h
  | drain => exact h
  | edit registers memory => exact h

end OnInput

theorem Passage.onInput {start : Machine} {past entries : List Machine} (hw : start.WellFormed)
    (hstart : OnInput past start) (h : Passage start entries m) : OnInput (past ++ entries) m := by
  induction h with
  | refl => rwa [List.append_nil]
  | cycle h ih =>
    rw [← List.append_assoc]
    exact ih.cycle (h.wellFormed hw)
  | act _ a ha ih => exact ih.act (by rintro rfl; exact ha)

end Machine

theorem Controller.Traced.onInput {past : List Machine} {c : Controller} (h : Traced past c) :
    Machine.OnInput past c.machine := by
  induction h with
  | new config => exact Machine.onInput_of_status (s := .noProgram) rfl (by decide)
  | @after past c e fuel h _ ih =>
    cases hrelists : e.relists with
    | false =>
      obtain ⟨output, -, hpassage⟩ := passage_after h.reachable.sound.wellFormed hrelists fuel
      have hw : Machine.WellFormed { c.machine with output } := h.reachable.sound.wellFormed
      have hstart : Machine.OnInput past { c.machine with output } := ih
      exact hpassage.onInput hw hstart
    | true =>
      obtain ⟨hentries, hmachine⟩ := c.relist_after hrelists fuel
      rw [hentries, List.append_nil]
      rcases hmachine with hsame | ⟨a, ha, hcycle⟩
      · rwa [hsame]
      · rw [ha]
        exact ih.act hcycle

end AccumulatorMachine
