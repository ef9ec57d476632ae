import AccumulatorMachine.Proofs.Fetch
import AccumulatorMachine.Proofs.Listings
import AccumulatorMachine.Proofs.Records

/-!
# What a load leaves

A load resets the machine, and either refuses the image or places all of its lines: no write of a
checked line can fail. What a load leaves is determined by the image and the display modes of the
registers.
-/

namespace AccumulatorMachine

namespace Machine

variable {m : Machine} {image : Image} {lines : List Line}

def placed (m : Machine) (lines : List Line) : Machine :=
  { m with
    memory := lines.foldl (fun memory line => memory.put line.address.toNat line.word) m.memory
    listing := m.listing.pushAll lines }

/-- The machine that has been loaded with some lines, halted before the first of them. -/
def loadedWith (m : Machine) (lines : List Line) : Machine :=
  { (m.reset.placed lines).assign .pc ((m.reset.placed lines).listing.entry?.getD 0).toNat with
    status := .haltedNormal }

theorem memory_loadedWith (m : Machine) (lines : List Line) :
    (m.loadedWith lines).memory = (m.reset.placed lines).memory := rfl

theorem listing_loadedWith (m : Machine) (lines : List Line) :
    (m.loadedWith lines).listing = Listing.empty.pushAll lines := rfl

theorem value_loadedWith (m : Machine) (lines : List Line) (d : Designation) :
    (m.loadedWith lines).value d =
      ((m.reset.placed lines).assign .pc
        ((m.reset.placed lines).listing.entry?.getD 0).toNat).value d := rfl

theorem run_place (m : Machine) {line : Line} (h : line.address.toNat < memorySize) :
    (place line).run m = .ok () (m.placed [line]) := by
  have hcell : line.address.toLocationUnsigned.toNat < memorySize := by simpa using h
  have hwrite := Memory.write_eq_put m.memory hcell line.word
  rw [Word.toNat_toLocationUnsigned] at hwrite
  rw [EStateM.run, place, hwrite]
  rfl

theorem run_forM_place (m : Machine) (h : ∀ line ∈ lines, line.address.toNat < memorySize) :
    (lines.forM place).run m = .ok () (m.placed lines) := by
  induction lines generalizing m with
  | nil => rfl
  | cons line lines ih =>
    have hplace := m.run_place (h line (List.mem_cons_self ..))
    rw [List.forM, run_bind_ok _ hplace, ih _ fun l hl => h l (List.mem_cons_of_mem _ hl)]
    rfl

theorem address_lt_of_lines (h : image.lines = .ok lines) :
    ∀ line ∈ lines, line.address.toNat < memorySize := by
  obtain ⟨-, -, hlines⟩ := Image.lines_eq_ok_iff.1 h
  clear h
  generalize image.executable = records at hlines
  induction hlines with
  | nil => nofun
  | cons hline _ ih =>
    intro line hmem
    rcases List.mem_cons.1 hmem with rfl | hmem
    · exact Image.Record.toNat_address_lt hline.parse
    · exact ih line hmem

theorem run_load (m : Machine) (image : Image) :
    (load image).run m =
      match image.lines with
      | .error e => .error e m.reset
      | .ok lines => .ok () (m.loadedWith lines) := by
  unfold load
  rw [run_bind_ok _ (EStateM.run_modify ..)]
  cases h : image.lines with
  | error e => rfl
  | ok lines =>
    dsimp only
    rw [run_bind_ok _ (run_forM_place m.reset (address_lt_of_lines h))]
    rfl

/-- The machine that a load leaves, whether or not it succeeds. -/
def afterLoad (m : Machine) (image : Image) : Machine :=
  match (load image).run m with
  | .ok _ m => m
  | .error _ m => m

theorem afterLoad_of_run {m' : Machine} (h : (load image).run m = .ok () m') :
    m.afterLoad image = m' := by
  rw [afterLoad, h]

/-- A cell holds the word of the last line placed there. -/
theorem cell_placed (hzero : m.memory = .zero)
    (h : ∀ line ∈ lines, line.address.toNat < memorySize) :
    (∀ row line, lines[row]? = some line → IsLastRow lines line.address row →
      (m.placed lines).memory.cell line.address.toNat = line.word) ∧
    ∀ a, (∀ line ∈ lines, line.address.toNat ≠ a) → (m.placed lines).memory.cell a = 0 := by
  induction lines using List.reverseRecOn with
  | nil =>
    refine ⟨nofun, fun a _ => ?_⟩
    rw [placed, List.foldl_nil, hzero, Memory.cell_zero]
  | append_singleton lines last ih =>
    obtain ⟨ihlast, ihnone⟩ := ih fun line hline => h line (List.mem_append_left _ hline)
    have hcell (a : Nat) : (m.placed (lines ++ [last])).memory.cell a =
        if a = last.address.toNat then last.word else (m.placed lines).memory.cell a := by
      rw [placed, List.foldl_append]
      exact Memory.cell_put _ (h last (by simp)) last.word a
    constructor
    · intro row line hline hrow
      rw [hcell]
      rw [isLastRow_concat_iff] at hrow
      split at hrow
      next haddress =>
        rw [hrow] at hline
        simp only [List.getElem?_concat_length, Option.some.injEq] at hline
        rw [if_pos (by rw [haddress]), hline]
      next haddress =>
        rw [List.getElem?_append_left hrow.lt] at hline
        rw [if_neg fun heq => haddress (BitVec.eq_of_toNat_eq heq.symm)]
        exact ihlast row line hline hrow
    · intro a ha
      rw [hcell, if_neg fun heq => ha last (by simp) heq.symm]
      exact ihnone a fun line hline => ha line (List.mem_append_left _ hline)

theorem mode_reset (m : Machine) (d : Designation) :
    (m.reset.registers.get d).mode = (m.registers.get d).mode := by
  rw [reset, Registers.get_reset, Register.mode_setValue]

theorem value_reset (m : Machine) (d : Designation) : m.reset.value d = 0 := by
  rw [value, reset, Registers.get_reset, Register.value_setValue]
  split <;> rfl

/-- What a machine holds that has just been loaded: the lines of the image, and nothing of what was
there before. -/
structure Holds (m : Machine) (image : Image) (lines : List Line) : Prop where
  lines_eq : m.listing.lines.toList = lines
  records : List.Forall₂ (fun p line => p.2.Becomes p.1 line) image.executable lines
  rows : ∀ address row, m.listing.rowOf? address = some row ↔ IsLastRow lines address row
  cell_line : ∀ row line, lines[row]? = some line → IsLastRow lines line.address row →
    m.memory.cell line.address.toNat = line.word
  cell_other : ∀ a, (∀ line ∈ lines, line.address.toNat ≠ a) → m.memory.cell a = 0
  pc : lines.head?.map Line.address = some (m.value .pc)
  value : ∀ d, d ≠ .pc → m.value d = 0
  status : m.status = .haltedNormal
  fault : m.fault = none
  cursor : m.cursor = none
  executedLine : m.executedLine = none
  output : m.output = #[]
  cycles : m.cycles = 0
  lastOpcode : m.lastOpcode = none

theorem holds_loadedWith (h : m.WellFormed) (hlines : image.lines = .ok lines) :
    (m.loadedWith lines).Holds image lines := by
  obtain ⟨-, hsome, hrecords⟩ := Image.lines_eq_ok_iff.1 hlines
  have hlt := address_lt_of_lines hlines
  obtain ⟨first, rest, rfl⟩ := List.exists_cons_of_ne_nil hsome
  obtain ⟨hlast, hother⟩ := cell_placed (m := m.reset) rfl hlt
  have htoList : (m.reset.placed (first :: rest)).listing.lines.toList = first :: rest :=
    Listing.toList_lines_pushAll _
  have hentry : (m.reset.placed (first :: rest)).listing.entry? = some first.address := by
    rw [Listing.entry?, ← Array.getElem?_toList, htoList]
    rfl
  have hvalue (d : Designation) : (m.loadedWith (first :: rest)).value d =
      if d = .pc then first.address else 0 := by
    have hplaced : (m.reset.placed (first :: rest)).WellFormed := h.reset
    rw [value_loadedWith, value_assign hplaced, hentry]
    split
    next =>
      apply BitVec.eq_of_toNat_eq
      have hfirst := hlt first (List.mem_cons_self ..)
      unfold memorySize at hfirst
      simp only [Designation.cut, Designation.isAddress, ↓reduceIte, Option.getD_some,
        Word.toNat_low12, Word.toNat_ofInt_natCast]
      omega
    next => exact m.value_reset d
  exact {
    lines_eq := htoList
    records := hrecords
    rows := fun _ _ => by rw [listing_loadedWith, Listing.rowOf?_pushAll_iff]
    cell_line := by rw [memory_loadedWith]; exact hlast
    cell_other := by rw [memory_loadedWith]; exact hother
    pc := by rw [hvalue, if_pos rfl]; rfl
    value := fun d hd => by rw [hvalue, if_neg hd]
    status := rfl
    fault := rfl
    cursor := rfl
    executedLine := rfl
    output := rfl
    cycles := rfl
    lastOpcode := rfl }

theorem exists_lines (hsome : image.executable ≠ []) (hfits : image.executable.length ≤ memorySize)
    (hparse : ∀ p ∈ image.executable, (p.2.parse p.1).isOk = true) :
    ∃ lines, image.lines = .ok lines := by
  cases h : image.lines with
  | ok lines => exact ⟨lines, rfl⟩
  | error e =>
    cases Image.lines_eq_error_iff.1 h with
    | tooMany hmany => omega
    | malformed _ hfirst =>
      have hok := hparse _ (Image.mem_executable.2 ⟨hfirst.place, hfirst.executable⟩)
      rw [Image.Record.parse_eq_error_iff.2 hfirst.malformed] at hok
      cases hok
    | empty hempty => exact (hsome hempty).elim

def faulted : Machine :=
  (({ new with status := .running, cycles := 9 }).assign .ac 7).raise .endOfMemory

/-- A load fails exactly on an image that is refused, for that reason, or on a file that cannot be
read or holds no image. It never fails half-way: the machine is left as a reset leaves it. -/
theorem load_fails_iff (m : Machine) :
    (∀ (image : Image) (e : LoadError) (m' : Machine),
      (load image).run m = .error e m' ↔ image.Refused e ∧ m' = m.reset) ∧
    (∀ (image : Image) (location : Location) (m' : Machine),
      (load image).run m ≠ .error (.addressOutOfRange location) m') ∧
    (∀ (source : Except ImageError Image) (e : LoadError) (m' : Machine),
      (loadRead source).run m = .error e m' ↔
        ((∃ cause, source = .error cause ∧ e = .image cause) ∨
          ∃ image, source = .ok image ∧ image.Refused e) ∧ m' = m.reset) ∧
    m.reset.status = .noProgram ∧ m.reset.memory = .zero ∧ m.reset.listing = .empty ∧
    ∀ d, (m.reset.registers.get d).mode = (m.registers.get d).mode := by
  have hload (image : Image) (e : LoadError) (m' : Machine) :
      (load image).run m = .error e m' ↔ image.Refused e ∧ m' = m.reset := by
    rw [run_load, ← Image.lines_eq_error_iff]
    cases image.lines with
    | error e' =>
      simp only [EStateM.Result.error.injEq, Except.error.injEq]
      rw [eq_comm (a := m.reset)]
    | ok lines => simp
  refine ⟨hload, ?_, ?_, rfl, rfl, rfl, m.mode_reset⟩
  · intro image location m' h
    obtain ⟨hrefused, -⟩ := (hload ..).1 h
    cases hrefused
  · intro source e m'
    cases source with
    | error cause =>
      have hrun : (loadRead (.error cause)).run m = .error (.image cause) m.reset := rfl
      rw [hrun]
      simp [eq_comm]
    | ok image =>
      have hrun : (loadRead (.ok image)).run m = (load image).run m := rfl
      rw [hrun, hload]
      simp

end Machine

end AccumulatorMachine
