import AccumulatorMachine.Proofs.FetchedLines
import AccumulatorMachine.Proofs.ProgramPresence

/-!
# The journal of a machine

What a machine keeps of its past: how many instructions it has executed and which was the last, and
the lines that it has fetched. A journal kept beside the machine lists all of it. What the machine
shows is the end of that journal, however it was restarted, paused and stopped on the way.
-/

namespace AccumulatorMachine

/-- What has been done with a loaded program: the instructions that were executed since the load,
the addresses from which words were fetched since the last restart, and whether there was one. -/
structure Journal where
  executed : List Opcode
  fetched : List Word
  restarted : Bool
  deriving DecidableEq

namespace Journal

def empty : Journal := ⟨[], [], false⟩

/-- The journal after an act on a machine. -/
def note (j : Journal) (m : Machine) : Machine.Act → Journal
  | .cycle =>
    { j with
      executed := j.executed ++ m.cycle.1.toList
      fetched := j.fetched ++ m.fetchAddress?.toList }
  | .restart => { j with fetched := [], restarted := true }
  | _ => j

def noteAll (j : Journal) (m : Machine) : List Machine.Act → Journal
  | [] => j
  | a :: as => (j.note m a).noteAll (m.act a) as

/-- The line from which a word was fetched last. -/
def executedLine (j : Journal) (l : Listing) : Option Nat := j.fetched.getLast?.bind l.rowOf?

/-- The last line from which a word was fetched; after a restart the first line, until then. -/
def cursor (j : Journal) (l : Listing) : Option Nat :=
  (j.fetched.filterMap l.rowOf?).getLast?.or (if j.restarted then some 0 else none)

variable (j : Journal) (m : Machine) (l : Listing)

theorem executedLine_note_cycle :
    (j.note m .cycle).executedLine l = m.fetchAddress?.elim (j.executedLine l) l.rowOf? := by
  cases h : m.fetchAddress? with
  | none => simp [note, executedLine, h]
  | some address => simp [note, executedLine, h]

theorem cursor_note_cycle :
    (j.note m .cycle).cursor l =
      m.fetchAddress?.elim (j.cursor l) fun address => (l.rowOf? address).or (j.cursor l) := by
  cases h : m.fetchAddress? with
  | none => simp [note, cursor, h]
  | some address =>
    cases hrow : l.rowOf? address <;> simp [note, cursor, h, hrow]

theorem cursor_of_executedLine {j : Journal} {row : Nat} (h : j.executedLine l = some row) :
    j.cursor l = some row := by
  obtain ⟨address, hlast, hrow⟩ := Option.bind_eq_some_iff.1 h
  obtain ⟨before, hfetched⟩ := List.getLast?_eq_some_iff.1 hlast
  simp [cursor, hfetched, hrow]

end Journal

namespace Machine

/-- Whether an act ends the program that is loaded. -/
def Act.reloads : Act → Bool
  | .load _ | .reset => true
  | _ => false

/-- A machine with a program shows the end of its journal, in the rows of a listing. -/
structure Shows (m : Machine) (l : Listing) (j : Journal) : Prop where
  hasProgram : m.status.hasProgram = true
  isEmpty : m.listing.isEmpty = false
  rows : m.listing.rowOf? = l.rowOf?
  cycles : m.cycles = UInt64.ofNat j.executed.length
  lastOpcode : m.lastOpcode = j.executed.getLast?
  executedLine : m.executedLine = j.executedLine l
  cursor : m.cursor = j.cursor l

theorem cycleInvariant_hasProgram : CycleInvariant fun m => m.status.hasProgram = true :=
  cycleInvariant_status (S := fun s => s.hasProgram = true) rfl rfl rfl

namespace Shows

variable {m : Machine} {l : Listing} {j : Journal} (h : m.Shows l j)
include h

/-- A cycle adds the instruction that it executes, and the address from which it fetches. -/
theorem cycle : m.cycle.2.Shows l (j.note m .cycle) := by
  obtain ⟨hcycles, hlast⟩ := m.counts_cycle
  have hlisting := m.listing_cycle
  have hprogram := cycleInvariant_hasProgram.cycle h.hasProgram
  have hnoted : m.cycle.2.notedRows =
      ((j.note m .cycle).executedLine l, (j.note m .cycle).cursor l) := by
    rw [m.notedRows_cycle, Journal.executedLine_note_cycle, Journal.cursor_note_cycle,
      ← h.executedLine, ← h.cursor, ← h.rows]
    cases m.fetchAddress? <;> rfl
  refine ⟨hprogram, by rw [hlisting, h.isEmpty], by rw [hlisting, h.rows], ?_, ?_,
    congrArg Prod.fst hnoted, congrArg Prod.snd hnoted⟩
  · rw [hcycles, h.cycles, Journal.note]
    cases m.cycle.1 <;> simp
  · rw [hlast, h.lastOpcode, Journal.note]
    cases m.cycle.1 <;> simp

theorem restart : m.restart.Shows l (j.note m .restart) := by
  rw [Machine.restart, if_pos h.hasProgram]
  refine ⟨rfl, h.isEmpty, h.rows, h.cycles, h.lastOpcode, rfl, ?_⟩
  dsimp only
  rw [h.isEmpty]
  rfl

theorem withListing {listing : Listing} (hsize : listing.size = m.listing.size)
    (hrows : ∀ a, listing.rowOf? a = m.listing.rowOf? a) : Shows { m with listing } l j :=
  { h with
    isEmpty := (Listing.isEmpty_eq_of_size hsize).trans h.isEmpty
    rows := (funext hrows).trans h.rows }

/-- What a machine shows is still the end of the journal after any act but a load or a reset. -/
theorem act {a : Act} (ha : a.reloads = false) : (m.act a).Shows l (j.note m a) := by
  cases a with
  | cycle => exact h.cycle
  | load source => cases ha
  | reset => cases ha
  | restart => exact h.restart
  | halt => exact { h with hasProgram := cycleInvariant_hasProgram.halt h.hasProgram }
  | resume => exact { h with hasProgram := rfl }
  | pause => exact { h with hasProgram := rfl }
  | stop => exact { h with hasProgram := rfl }
  | supply n => exact { h with hasProgram := rfl }
  | raise f => exact { h with hasProgram := cycleInvariant_hasProgram.raise h.hasProgram f }
  | breakpoint address f =>
    rw [Machine.act]
    cases hlisting : m.listing.modifyBreakpoint? address f with
    | none => exact h
    | some listing =>
      exact h.withListing (Listing.size_modifyBreakpoint? hlisting)
        (Listing.rowOf?_modifyBreakpoint? hlisting)
  | clearBreakpoints => exact h.withListing Array.size_map fun _ => rfl
  | drain => exact { h with }
  | edit registers memory => exact { h with }

omit h in
theorem acts (h : m.Shows l j) {as : List Act} (has : ∀ a ∈ as, a.reloads = false) :
    (m.acts as).Shows l (j.noteAll m as) := by
  induction as generalizing m j with
  | nil => exact h
  | cons a as ih =>
    obtain ⟨ha, has⟩ := List.forall_mem_cons.1 has
    exact ih (h.act ha) has

end Shows

theorem shows_loadedWith (m : Machine) {image : Image} {lines : List Line}
    (hlines : image.lines = .ok lines) :
    (m.loadedWith lines).Shows (m.loadedWith lines).listing .empty where
  hasProgram := rfl
  isEmpty := m.isEmpty_listing_loadedWith hlines
  rows := rfl
  cycles := rfl
  lastOpcode := rfl
  executedLine := rfl
  cursor := rfl

/-- What a machine shows of its past is what has happened since its program was loaded, whatever was
done to it but another load or a reset: the count and the last of the executed instructions, the
line of the last fetch, and the last line that was fetched. -/
theorem bookkeeping_exact {image : Image} {start loaded : Machine}
    (hload : (load image).run start = .ok () loaded) {as : List Act}
    (has : ∀ a ∈ as, a.reloads = false) :
    let m := loaded.acts as
    let j := Journal.empty.noteAll loaded as
    (j.executed.length < 2 ^ 64 → m.cycles.toNat = j.executed.length) ∧
      m.lastOpcode = j.executed.getLast? ∧
      m.executedLine = j.executedLine loaded.listing ∧
      m.cursor = j.cursor loaded.listing ∧
      (∀ row ∈ m.executedLine, row < m.listing.size) ∧
      (∀ row ∈ m.cursor, row < m.listing.size) ∧
      ∀ row, m.executedLine = some row → m.cursor = some row := by
  intro m j
  rw [run_load] at hload
  cases hlines : image.lines with
  | error e =>
    rw [hlines] at hload
    cases hload
  | ok lines =>
    rw [hlines] at hload
    cases hload
    have hshows : m.Shows _ j := (start.shows_loadedWith hlines).acts has
    have hindexed : m.Indexed := invariant_indexed.acts (start.indexed_loadedWith hlines) as
    refine ⟨?_, hshows.lastOpcode, hshows.executedLine, hshows.cursor, hindexed.executedLine,
      hindexed.cursor, ?_⟩
    · intro hcount
      rw [hshows.cycles]
      exact UInt64.toNat_ofNat_of_lt hcount
    · intro row hrow
      rw [hshows.executedLine] at hrow
      rw [hshows.cursor]
      exact Journal.cursor_of_executedLine _ hrow

/-- A program that jumps to the last cell, which is no line of it and has no successor. -/
def leaping : Image := .ofWords 0x10 [0xA000, 0x9FFF]

/-- A run of two cycles, and another with a pause, which goes on into the last cell. -/
def twoRuns : List Act :=
  [.restart, .cycle, .cycle, .restart, .cycle, .pause, .cycle, .resume, .cycle, .cycle]

/-- The fetch that faults is not counted and leaves no line behind, but the last line that was
fetched stays. -/
theorem bookkeeping_exact_leaping :
    ∃ loaded, (load leaping).run new = .ok () loaded ∧ (∀ a ∈ twoRuns, a.reloads = false) ∧
      (loaded.acts twoRuns).cycles.toNat = 4 ∧
      (loaded.acts twoRuns).lastOpcode = some .jump ∧
      (loaded.acts twoRuns).executedLine = none ∧ (loaded.acts twoRuns).cursor = some 1 := by
  have hexists : ∃ lines, leaping.lines = .ok lines :=
    exists_lines (by decide +kernel) (by decide +kernel) (by decide +kernel)
  obtain ⟨lines, hlines⟩ := hexists
  have hload : (load leaping).run new = .ok () (new.loadedWith lines) := by
    rw [run_load, hlines]
  have has : ∀ a ∈ twoRuns, a.reloads = false := by simp [twoRuns, Act.reloads]
  have hjournal : Journal.empty.noteAll (new.loadedWith lines) twoRuns =
      ⟨[.clear, .jump, .clear, .jump], [0x10, 0x11, 0xFFF], true⟩ := by
    rw [← afterLoad_of_run hload]
    decide +kernel
  obtain ⟨hcycles, hopcode, hline, hcursor, -⟩ := bookkeeping_exact hload has
  rw [hjournal] at hcycles hopcode hline hcursor
  refine ⟨_, hload, has, hcycles (by decide), hopcode, hline.trans ?_, hcursor.trans ?_⟩
  all_goals
    rw [← afterLoad_of_run hload]
    decide +kernel

end Machine

end AccumulatorMachine
