import AccumulatorMachine.Proofs.Breakpoints
import AccumulatorMachine.Proofs.Operations
import AccumulatorMachine.Proofs.Simulation

/-!
# What can be done to a machine

The acts on a machine are its cycles, and everything that its owner may do to it between them. A
sequence of acts leads from one machine to another; on its way it calls the cycle on some machines.
-/

namespace AccumulatorMachine

theorem Image.breakpoint_of_lines {image : Image} {lines : List Line} (h : image.lines = .ok lines)
    {line : Line} (hline : line ∈ lines) : line.breakpoint = false := by
  obtain ⟨-, -, hrecords⟩ := Image.lines_eq_ok_iff.1 h
  obtain ⟨row, hrow, rfl⟩ := List.mem_iff_getElem.1 hline
  exact (hrecords.get (by rwa [hrecords.length_eq]) hrow).breakpoint

namespace Machine

/-- What can be done to a machine. A breakpoint is set or cleared by a constant function, and
flipped by `not`. Registers and memory may be put to anything. -/
inductive Act
  | cycle
  | load (source : Except ImageError Image)
  | reset
  | restart
  | halt
  | resume
  | pause
  | stop
  | supply (n : Int)
  | raise (f : Fault)
  | breakpoint (address : Word) (f : Bool → Bool)
  | clearBreakpoints
  | drain
  | edit (registers : Registers) (memory : Memory)

/-- The machine after an act. A load may be refused, and so may the change of a breakpoint. -/
def act (m : Machine) : Act → Machine
  | .cycle => m.cycle.2
  | .load source =>
    match (loadRead source).run m with
    | .ok _ m => m
    | .error _ m => m
  | .reset => m.reset
  | .restart => m.restart
  | .halt => m.halt
  | .resume => { m with status := .running }
  | .pause => m.pause
  | .stop => m.stopByUser
  | .supply n => m.completeInput n
  | .raise f => m.raise f
  | .breakpoint address f =>
    { m with listing := (m.listing.modifyBreakpoint? address f).getD m.listing }
  | .clearBreakpoints => { m with listing := m.listing.clearBreakpoints }
  | .drain => m.drain.2
  | .edit registers memory => { m with registers, memory }

def acts (m : Machine) (as : List Act) : Machine := as.foldl act m

theorem acts_append (m : Machine) (first second : List Act) :
    m.acts (first ++ second) = (m.acts first).acts second :=
  List.foldl_append ..

theorem act_load_ok (m : Machine) (image : Image) : m.act (.load (.ok image)) = m.afterLoad image :=
  rfl

theorem afterLoad_cases (m : Machine) (image : Image) :
    m.afterLoad image = m.reset ∨
      ∃ lines, image.lines = .ok lines ∧ m.afterLoad image = m.loadedWith lines := by
  rw [afterLoad, run_load]
  cases image.lines with
  | error e => exact .inl rfl
  | ok lines => exact .inr ⟨lines, rfl, rfl⟩

/-- A property of machines that none of the acts can break, whatever they do to the registers. -/
structure Invariant (P : Machine → Prop) : Prop extends CycleInvariant P where
  reset : ∀ m : Machine, P m.reset
  loadedWith : ∀ (m : Machine) {image : Image} {lines : List Line}, image.lines = .ok lines →
    P (m.loadedWith lines)
  restart : ∀ {m : Machine}, P m → P m.restart
  status : ∀ {m : Machine}, P m → ∀ status, P { m with status }
  breakpoint : ∀ {m : Machine}, P m → ∀ {address f listing},
    m.listing.modifyBreakpoint? address f = some listing → P { m with listing }
  clearBreakpoints : ∀ {m : Machine}, P m → P { m with listing := m.listing.clearBreakpoints }
  drain : ∀ {m : Machine}, P m → P m.drain.2
  edit : ∀ {m : Machine}, P m → ∀ registers memory, P { m with registers, memory }

namespace Invariant

variable {P : Machine → Prop}

theorem new (h : Invariant P) : P .new := h.reset .new

theorem load (h : Invariant P) (m : Machine) (source : Except ImageError Image) :
    P (m.act (.load source)) := by
  cases source with
  | error e => exact h.reset m
  | ok image =>
    rw [act_load_ok]
    rcases m.afterLoad_cases image with heq | ⟨lines, hlines, heq⟩
    · rw [heq]
      exact h.reset m
    · rw [heq]
      exact h.loadedWith m hlines

theorem act (h : Invariant P) {m : Machine} (hm : P m) (a : Act) : P (m.act a) := by
  cases a with
  | cycle => exact h.cycle hm
  | load source => exact h.load m source
  | reset => exact h.reset m
  | restart => exact h.restart hm
  | halt => exact h.halt hm
  | resume => exact h.status hm .running
  | pause => exact h.status hm .paused
  | stop => exact h.status hm .haltedByUser
  | supply n => exact h.status (h.assign (h.assign hm .input n) .ac _) .running
  | raise f => exact h.raise hm f
  | breakpoint address f =>
    rw [Machine.act]
    cases hf : m.listing.modifyBreakpoint? address f with
    | none => exact hm
    | some listing => exact h.breakpoint hm hf
  | clearBreakpoints => exact h.clearBreakpoints hm
  | drain => exact h.drain hm
  | edit registers memory => exact h.edit hm registers memory

theorem acts (h : Invariant P) {m : Machine} (hm : P m) (as : List Act) : P (m.acts as) := by
  induction as generalizing m with
  | nil => exact hm
  | cons a as ih => exact ih (h.act hm a)

end Invariant

/-- A machine whose listing is indexed, and whose rows are rows of it. -/
structure Indexed (m : Machine) : Prop where
  listing : m.listing.Indexed
  cursor : ∀ row ∈ m.cursor, row < m.listing.size
  executedLine : ∀ row ∈ m.executedLine, row < m.listing.size

namespace Indexed

variable {m : Machine} (h : m.Indexed)
include h

theorem congr {n : Machine} (hlisting : n.listing = m.listing) (hcursor : n.cursor = m.cursor)
    (hexecuted : n.executedLine = m.executedLine) : n.Indexed where
  listing := hlisting ▸ h.listing
  cursor := by
    rw [hlisting, hcursor]
    exact h.cursor
  executedLine := by
    rw [hlisting, hexecuted]
    exact h.executedLine

theorem withListing {listing : Listing} (hlisting : listing.Indexed)
    (hsize : listing.size = m.listing.size) : Indexed { m with listing } where
  listing := hlisting
  cursor := by
    rw [hsize]
    exact h.cursor
  executedLine := by
    rw [hsize]
    exact h.executedLine

theorem noteLine (address : Word) : (m.noteLine address).Indexed where
  listing := h.listing
  cursor := by
    intro row hrow
    unfold Machine.noteLine at hrow
    cases howner : m.listing.rowOf? address with
    | none =>
      rw [howner] at hrow
      exact h.cursor row hrow
    | some owner =>
      rw [howner] at hrow
      cases hrow
      exact h.listing.row_lt howner
  executedLine := fun _ hrow => h.listing.row_lt hrow

theorem restart : m.restart.Indexed := by
  unfold Machine.restart
  split
  · refine ⟨h.listing, ?_, nofun⟩
    intro row hrow
    dsimp only at hrow
    split at hrow
    next => cases hrow
    next hsome =>
      cases hrow
      exact Array.size_pos_iff.2 fun hempty => hsome (Array.isEmpty_iff.2 hempty)
  · exact h

end Indexed

theorem indexed_loadedWith (m : Machine) {image : Image} {lines : List Line}
    (h : image.lines = .ok lines) : (m.loadedWith lines).Indexed := by
  obtain ⟨hfits, -, hrecords⟩ := Image.lines_eq_ok_iff.1 h
  have hlisting := Listing.indexed_pushAll (hrecords.length_eq ▸ hfits)
    fun _ hline => Image.breakpoint_of_lines h hline
  exact ⟨hlisting, nofun, nofun⟩

/-- The listing of a machine is indexed, and its rows are rows of the listing, whatever is done to
it. -/
theorem invariant_indexed : Invariant Indexed where
  assign h _ _ := h.congr rfl rfl rfl
  setMemory h _ := h.congr rfl rfl rfl
  noteLine h address := h.noteLine address
  await h := h.congr rfl rfl rfl
  print h _ := h.congr rfl rfl rfl
  halt h := h.congr rfl rfl rfl
  raise h _ := h.congr rfl rfl rfl
  counted h _ := h.congr rfl rfl rfl
  reset _ := ⟨Listing.indexed_empty, nofun, nofun⟩
  loadedWith m := indexed_loadedWith m
  restart h := h.restart
  status h _ := h.congr rfl rfl rfl
  breakpoint h _ _ _ hlisting := h.withListing (h.listing.modifyBreakpoint? hlisting)
    (Listing.size_modifyBreakpoint? hlisting)
  clearBreakpoints h := h.withListing h.listing.clearBreakpoints Array.size_map
  drain h := h.congr rfl rfl rfl
  edit h _ _ := h.congr rfl rfl rfl

end Machine

end AccumulatorMachine
