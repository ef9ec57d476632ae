import AccumulatorMachine.Proofs.Breakpoints

/-!
# Listings under edits

A listing is made from nothing by edits: lines are added at its end, and breakpoints are set,
flipped and cleared in any order between them. Its lines and its map of rows stay consistent all the
way. An address belongs to the last line that has it, the first line of all stays the entry, and
only the breakpoint of a line can change once the line is there.
-/

namespace AccumulatorMachine

/-- A line apart from its breakpoint: where it is, what it holds and where it came from. -/
def Line.unmarked (line : Line) : Line := { line with breakpoint := false }

theorem isLastRow_congr {lines lines' : List Line}
    (h : lines.map Line.unmarked = lines'.map Line.unmarked) (address : Word) (row : Nat) :
    IsLastRow lines address row ↔ IsLastRow lines' address row := by
  have haddress : ∀ i : Nat, lines[i]?.map Line.address = lines'[i]?.map Line.address := by
    intro i
    have hi := congrArg (fun ls : List Line => ls[i]?.map Line.address) h
    simpa [Function.comp_def, Line.unmarked] using hi
  simp only [IsLastRow, haddress]

namespace Listing

inductive Edit
  | push (line : Line)
  | set (address : Word) (on : Bool)
  | toggle (address : Word)
  | clear

/-- The line that an edit adds. -/
def Edit.pushed? : Edit → Option Line
  | .push line => some line
  | .set _ _ | .toggle _ | .clear => none

/-- The listing after an edit. The change of a breakpoint may be refused, and then does nothing. -/
def edit (l : Listing) : Edit → Listing
  | .push line => (l.push line).2
  | .set address on => (l.setBreakpoint? address on).getD l
  | .toggle address => (l.toggleBreakpoint? address).getD l
  | .clear => l.clearBreakpoints

def editAll (l : Listing) (es : List Edit) : Listing := es.foldl edit l

/-- The listing `l'` is `l` but for one line, the last one of an address: its breakpoint has been
changed by a function. -/
def Marks (l : Listing) (address : Word) (f : Bool → Bool) (l' : Listing) : Prop :=
  ∃ row, ∃ h : row < l.lines.size, IsLastRow l.lines.toList address row ∧
    l' = { l with
      lines := l.lines.set row { l.lines[row] with breakpoint := f l.lines[row].breakpoint } }

section edit

variable {l : Listing}

theorem unmarked_modifyBreakpoint? {address : Word} {f : Bool → Bool} {l' : Listing}
    (h : l.modifyBreakpoint? address f = some l') :
    l'.lines.toList.map Line.unmarked = l.lines.toList.map Line.unmarked := by
  apply List.ext_getElem?
  intro row
  have hline := line?_modifyBreakpoint? h row
  simp only [line?, ← Array.getElem?_toList] at hline
  rw [List.getElem?_map, List.getElem?_map, hline, Option.map_map]
  congr 1
  funext line
  rw [Function.comp_apply]
  split <;> rfl

theorem unmarked_edit (l : Listing) (e : Edit) :
    (l.edit e).lines.toList.map Line.unmarked =
      (l.lines.toList ++ e.pushed?.toList).map Line.unmarked := by
  have hmodify (address : Word) (f : Bool → Bool) :
      ((l.modifyBreakpoint? address f).getD l).lines.toList.map Line.unmarked =
        l.lines.toList.map Line.unmarked := by
    cases h : l.modifyBreakpoint? address f with
    | none => rfl
    | some l' => exact unmarked_modifyBreakpoint? h
  cases e with
  | push line => simp [edit, push, Edit.pushed?]
  | set address on =>
    rw [Edit.pushed?, Option.toList_none, List.append_nil]
    exact hmodify address fun _ => on
  | toggle address =>
    rw [Edit.pushed?, Option.toList_none, List.append_nil]
    exact hmodify address not
  | clear => simp [edit, clearBreakpoints, Edit.pushed?, Line.unmarked]

/-- Only a new line takes an address over. -/
theorem rowOf?_edit (l : Listing) (e : Edit) (address : Word) :
    (l.edit e).rowOf? address =
      match e.pushed? with
      | some line => if line.address = address then some l.size else l.rowOf? address
      | none => l.rowOf? address := by
  have hmodify (a : Word) (f : Bool → Bool) :
      ((l.modifyBreakpoint? a f).getD l).rowOf? address = l.rowOf? address := by
    cases h : l.modifyBreakpoint? a f with
    | none => rfl
    | some l' => exact rowOf?_modifyBreakpoint? h address
  cases e with
  | push line => exact rowOf?_push l line address
  | set a on => exact hmodify a fun _ => on
  | toggle a => exact hmodify a not
  | clear => exact rowOf?_clearBreakpoints l address

end edit

/-- A listing that has grown by some lines: apart from breakpoints it has these lines, and the row
of an address is the last that has it. -/
structure Grown (l : Listing) (pushed : List Line) : Prop where
  lines : l.lines.toList.map Line.unmarked = pushed.map Line.unmarked
  rows : ∀ address row, l.rowOf? address = some row ↔ IsLastRow l.lines.toList address row

namespace Grown

variable {l : Listing} {pushed : List Line}

theorem empty : Listing.empty.Grown [] where
  lines := rfl
  rows address row := by
    rw [rowOf?_empty]
    simp [Listing.empty, IsLastRow]

theorem edit (h : l.Grown pushed) (e : Edit) : (l.edit e).Grown (pushed ++ e.pushed?.toList) where
  lines := by
    rw [unmarked_edit, List.map_append, h.lines, List.map_append]
  rows address row := by
    rw [isLastRow_congr (unmarked_edit l e), rowOf?_edit]
    cases e.pushed? with
    | none =>
      rw [Option.toList_none, List.append_nil]
      exact h.rows address row
    | some line =>
      rw [Option.toList_some, isLastRow_concat_iff, size, ← Array.length_toList]
      dsimp only
      split
      · rw [Option.some_inj, eq_comm]
      · exact h.rows address row

theorem editAll (h : l.Grown pushed) (es : List Edit) :
    (l.editAll es).Grown (pushed ++ es.filterMap Edit.pushed?) := by
  induction es generalizing l pushed with
  | nil =>
    rw [List.filterMap_nil, List.append_nil]
    exact h
  | cons e es ih =>
    have hes := ih (h.edit e)
    rw [List.append_assoc] at hes
    cases hpushed : e.pushed? with
    | none =>
      rw [List.filterMap_cons_none hpushed]
      rwa [hpushed] at hes
    | some line =>
      rw [List.filterMap_cons_some hpushed]
      rwa [hpushed] at hes

theorem rowOf?_eq_none_iff (h : l.Grown pushed) (address : Word) :
    l.rowOf? address = none ↔ ∀ line ∈ l.lines, line.address ≠ address := by
  constructor
  · rintro hnone line hline rfl
    obtain ⟨row, hrow⟩ := exists_isLastRow (Array.mem_toList_iff.2 hline)
    rw [← h.rows, hnone] at hrow
    cases hrow
  · intro hnone
    cases hrow : l.rowOf? address with
    | none => rfl
    | some row =>
      obtain ⟨line, hline, haddress⟩ := Option.map_eq_some_iff.1 ((h.rows address row).1 hrow).1
      exact (hnone line (Array.mem_toList_iff.1 (List.mem_of_getElem? hline)) haddress).elim

theorem row_lt (h : l.Grown pushed) {address : Word} {row : Nat}
    (hrow : l.rowOf? address = some row) : row < l.size :=
  ((h.rows address row).1 hrow).lt

theorem entry?_eq (h : l.Grown pushed) : l.entry? = pushed.head?.map Line.address := by
  have hfirst := congrArg (fun ls : List Line => ls[0]?.map Line.address) h.lines
  simpa [Listing.entry?, Function.comp_def, Line.unmarked, List.head?_eq_getElem?] using hfirst

theorem modifyBreakpoint?_eq_some_iff (h : l.Grown pushed) (address : Word) (f : Bool → Bool)
    (l' : Listing) : l.modifyBreakpoint? address f = some l' ↔ l.Marks address f l' := by
  have hset : ∀ row, ∀ hlt : row < l.lines.size,
      (l.lines.modify row fun line => { line with breakpoint := f line.breakpoint }) =
        l.lines.set row { l.lines[row] with breakpoint := f l.lines[row].breakpoint } := by
    intro row hlt
    apply Array.ext
    · simp
    · intro i hi hi'
      rw [Array.getElem_modify, Array.getElem_set]
      split <;> simp_all
  rw [modifyBreakpoint?, Option.map_eq_some_iff]
  constructor
  · rintro ⟨row, hrow, rfl⟩
    have hlt := h.row_lt hrow
    exact ⟨row, hlt, (h.rows address row).1 hrow, by rw [hset row hlt]⟩
  · rintro ⟨row, hlt, hrow, rfl⟩
    exact ⟨row, (h.rows address row).2 hrow, by rw [hset row hlt]⟩

end Grown

/-- Whatever edits have made a listing, its lines and its rows belong together. Its lines are those
that were added, in their order and but for breakpoints, and the first of them is the entry. The row
of an address is the last one whose line has it, and there is none exactly if no line has it. All
rows in the map are rows of lines. A further line gets the row behind all others, which it leaves as
they are. A breakpoint is changed at one line, the last one of its address, and is refused exactly
if there is none, with nothing changed. No edit changes of a line anything else. -/
theorem editAll_exact (es : List Edit) :
    let l := empty.editAll es
    let pushed := es.filterMap Edit.pushed?
    l.lines.toList.map Line.unmarked = pushed.map Line.unmarked ∧
    l.entry? = pushed.head?.map Line.address ∧
    (∀ address row, l.rowOf? address = some row ↔ IsLastRow l.lines.toList address row) ∧
    (∀ address, l.rowOf? address = none ↔ ∀ line ∈ l.lines, line.address ≠ address) ∧
    (∀ entry ∈ l.owned, entry.2 < l.size) ∧
    (∀ line, (l.push line).1 = l.size ∧ (l.push line).2.lines = l.lines.push line) ∧
    (∀ address on l', l.setBreakpoint? address on = some l' ↔ l.Marks address (fun _ => on) l') ∧
    (∀ address l', l.toggleBreakpoint? address = some l' ↔ l.Marks address not l') ∧
    (∀ address, (∀ line ∈ l.lines, line.address ≠ address) →
      (∀ on, l.setBreakpoint? address on = none ∧ l.edit (.set address on) = l) ∧
        l.toggleBreakpoint? address = none ∧ l.edit (.toggle address) = l) ∧
    ∀ e, l.lines.toList.map Line.unmarked <+: (l.edit e).lines.toList.map Line.unmarked := by
  intro l pushed
  have h : l.Grown pushed := Grown.empty.editAll es
  refine ⟨h.lines, h.entry?_eq, h.rows, h.rowOf?_eq_none_iff, ?inMap, fun _ => ⟨rfl, rfl⟩,
    fun address on => h.modifyBreakpoint?_eq_some_iff address fun _ => on,
    fun address => h.modifyBreakpoint?_eq_some_iff address not, ?refused, ?kept⟩
  case inMap =>
    rintro ⟨address, row⟩ hentry
    exact h.row_lt (Std.ExtTreeMap.mem_toList_iff_getElem?_eq_some.1 hentry)
  case refused =>
    intro address hnone
    have hmodify (f : Bool → Bool) : l.modifyBreakpoint? address f = none := by
      rw [modifyBreakpoint?, (h.rowOf?_eq_none_iff address).2 hnone, Option.map_none]
    have hset (on : Bool) : l.setBreakpoint? address on = none := hmodify fun _ => on
    have htoggle : l.toggleBreakpoint? address = none := hmodify not
    refine ⟨fun on => ⟨hset on, ?_⟩, htoggle, ?_⟩
    · rw [edit, hset on, Option.getD_none]
    · rw [edit, htoggle, Option.getD_none]
  case kept =>
    intro e
    rw [unmarked_edit, List.map_append]
    exact List.prefix_append _ _

/-- Two lines for one address and one for another, and breakpoints at the first and where there is
no line. -/
def shadowing : List Edit :=
  [.push ⟨5, 0x1006, "A", "LOAD", "X", false⟩, .push ⟨6, 0x0007, "X", "DEC", "7", false⟩,
    .push ⟨5, 0x7000, "B", "HALT", "", false⟩, .toggle 5, .set 9 true]

def shadowed : Listing := empty.editAll shadowing

/-- The later of the two lines is the one whose breakpoint was flipped, the earlier one is still the
entry, and a breakpoint where no line is was refused. -/
theorem editAll_exact_shadowed :
    shadowed.rowOf? 5 = some 2 ∧ IsLastRow shadowed.lines.toList 5 2 ∧
      shadowed.entry? = some 5 ∧ shadowed.breakpoints = [5] ∧ shadowed.hasBreakpoint 2 = true ∧
      (∀ line ∈ shadowed.lines, line.address ≠ 9) ∧ shadowed.setBreakpoint? 9 true = none ∧
      shadowed.edit (.set 9 true) = shadowed := by
  obtain ⟨-, hentry, hrows, -, -, -, -, -, hrefused, -⟩ := editAll_exact shadowing
  have hrow : shadowed.rowOf? 5 = some 2 := by decide +kernel
  have hnone : ∀ line ∈ shadowed.lines, line.address ≠ 9 := by decide +kernel
  obtain ⟨hset, -, -⟩ := hrefused 9 hnone
  obtain ⟨hset, hsame⟩ := hset true
  exact ⟨hrow, (hrows 5 2).1 hrow, hentry, by decide +kernel, by decide +kernel, hnone, hset, hsame⟩

end Listing

end AccumulatorMachine
