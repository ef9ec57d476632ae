import AccumulatorMachine.Memory
import AccumulatorMachine.Proofs.Listings

/-!
# Breakpoints of a listing

In an indexed listing, addresses and the lines that own them belong together, and a line that is
shadowed by a later one has no breakpoint. So the addresses with a breakpoint are a set, and a
change at one address leaves the others alone.
-/

namespace AccumulatorMachine

theorem exists_isLastRow {lines : List Line} {line : Line} (h : line ∈ lines) :
    ∃ row, IsLastRow lines line.address row := by
  induction lines using List.reverseRecOn with
  | nil => cases h
  | append_singleton lines last ih =>
    simp only [isLastRow_concat_iff]
    by_cases haddress : last.address = line.address
    · exact ⟨lines.length, by rw [if_pos haddress]⟩
    · have hmem : line ∈ lines := by
        rcases List.mem_append.1 h with hmem | hlast
        · exact hmem
        · exact (haddress (by rw [List.mem_singleton.1 hlast])).elim
      obtain ⟨row, hrow⟩ := ih hmem
      exact ⟨row, by rwa [if_neg haddress]⟩

namespace Listing

/-- A listing that fits in memory, whose rows belong to its lines: the owner of an address has that
address, the address of every line has an owner, and only owners have breakpoints. -/
structure Indexed (l : Listing) : Prop where
  size_le : l.size ≤ memorySize
  owner : ∀ {address row}, l.rowOf? address = some row →
    ∃ line, l.line? row = some line ∧ line.address = address
  owned : ∀ {row line}, l.line? row = some line → ∃ owner, l.rowOf? line.address = some owner
  flagged : ∀ {row line}, l.line? row = some line → line.breakpoint = true →
    l.rowOf? line.address = some row

theorem Indexed.row_lt {l : Listing} (hl : l.Indexed) {address : Word} {row : Nat}
    (h : l.rowOf? address = some row) : row < l.size := by
  obtain ⟨line, hline, -⟩ := hl.owner h
  exact (Array.getElem?_eq_some_iff.1 hline).1

theorem indexed_empty : empty.Indexed where
  size_le := Nat.zero_le _
  owner h := by simp at h
  owned h := by simp [line?, empty] at h
  flagged h := by simp [line?, empty] at h

theorem line?_pushAll (lines : List Line) (row : Nat) :
    (empty.pushAll lines).line? row = lines[row]? := by
  rw [line?, ← Array.getElem?_toList, toList_lines_pushAll]

theorem indexed_pushAll {lines : List Line} (hfits : lines.length ≤ memorySize)
    (hclear : ∀ line ∈ lines, line.breakpoint = false) : (empty.pushAll lines).Indexed where
  size_le := by rwa [size, ← Array.length_toList, toList_lines_pushAll]
  owner h := by
    rw [rowOf?_pushAll_iff] at h
    rw [line?_pushAll]
    exact Option.map_eq_some_iff.1 h.1
  owned h := by
    rw [line?_pushAll] at h
    simp only [rowOf?_pushAll_iff]
    exact exists_isLastRow (List.mem_of_getElem? h)
  flagged h hflag := by
    rw [line?_pushAll] at h
    rw [hclear _ (List.mem_of_getElem? h)] at hflag
    cases hflag

theorem hasBreakpointAt_of_line? {l : Listing} {address : Word} {row : Nat} {line : Line}
    (hrow : l.rowOf? address = some row) (hline : l.line? row = some line) :
    l.hasBreakpointAt address = line.breakpoint := by
  simp [hasBreakpointAt, hasBreakpoint, hrow, hline]

theorem hasBreakpointAt_of_none {l : Listing} {address : Word} (hrow : l.rowOf? address = none) :
    l.hasBreakpointAt address = false := by
  simp [hasBreakpointAt, hrow]

section modify

variable {l l' : Listing} {address : Word} {f : Bool → Bool}

theorem rowOf?_modifyBreakpoint? (h : l.modifyBreakpoint? address f = some l') (a : Word) :
    l'.rowOf? a = l.rowOf? a := by
  obtain ⟨row, -, rfl⟩ := Option.map_eq_some_iff.1 h
  rfl

theorem size_modifyBreakpoint? (h : l.modifyBreakpoint? address f = some l') :
    l'.size = l.size := by
  obtain ⟨row, -, rfl⟩ := Option.map_eq_some_iff.1 h
  exact Array.size_modify

/-- A change of a breakpoint changes the owner's line, and no other. -/
theorem line?_modifyBreakpoint? (h : l.modifyBreakpoint? address f = some l') (row : Nat) :
    l'.line? row = (l.line? row).map fun line =>
      if l.rowOf? address = some row then { line with breakpoint := f line.breakpoint }
      else line := by
  obtain ⟨owner, howner, rfl⟩ := Option.map_eq_some_iff.1 h
  simp only [line?, howner, Array.getElem?_modify, Option.some_inj]
  split
  · rfl
  · simp

theorem hasBreakpointAt_modifyBreakpoint? (hl : l.Indexed)
    (h : l.modifyBreakpoint? address f = some l') (a : Word) :
    l'.hasBreakpointAt a =
      if a = address then f (l.hasBreakpointAt address) else l.hasBreakpointAt a := by
  have hrows := rowOf?_modifyBreakpoint? h a
  cases hrow : l.rowOf? a with
  | none =>
    rw [hasBreakpointAt_of_none (hrows.trans hrow), hasBreakpointAt_of_none hrow, if_neg]
    rintro rfl
    obtain ⟨row, hsome, -⟩ := Option.map_eq_some_iff.1 h
    cases hrow.symm.trans hsome
  | some row =>
    obtain ⟨line, hline, haddress⟩ := hl.owner hrow
    have hchanged := line?_modifyBreakpoint? h row
    rw [hline, Option.map_some] at hchanged
    rw [hasBreakpointAt_of_line? (hrows.trans hrow) hchanged, hasBreakpointAt_of_line? hrow hline]
    by_cases ha : a = address
    · subst ha
      rw [if_pos hrow, if_pos rfl, hasBreakpointAt_of_line? hrow hline]
    · have hother : l.rowOf? address ≠ some row := by
        intro howner
        obtain ⟨line', hline', haddress'⟩ := hl.owner howner
        cases hline.symm.trans hline'
        exact ha (haddress.symm.trans haddress')
      rw [if_neg hother, if_neg ha]

theorem Indexed.modifyBreakpoint? (hl : l.Indexed)
    (h : l.modifyBreakpoint? address f = some l') : l'.Indexed where
  size_le := by
    rw [size_modifyBreakpoint? h]
    exact hl.size_le
  owner := by
    intro a row hrow
    rw [rowOf?_modifyBreakpoint? h] at hrow
    obtain ⟨line, hline, haddress⟩ := hl.owner hrow
    rw [line?_modifyBreakpoint? h, hline]
    refine ⟨_, rfl, ?_⟩
    rw [← haddress]
    split <;> rfl
  owned := by
    intro row line hline
    rw [line?_modifyBreakpoint? h] at hline
    obtain ⟨line₀, hline₀, rfl⟩ := Option.map_eq_some_iff.1 hline
    obtain ⟨owner, howner⟩ := hl.owned hline₀
    refine ⟨owner, ?_⟩
    rw [rowOf?_modifyBreakpoint? h, ← howner]
    split <;> rfl
  flagged := by
    intro row line hline hflag
    rw [line?_modifyBreakpoint? h] at hline
    obtain ⟨line₀, hline₀, rfl⟩ := Option.map_eq_some_iff.1 hline
    rw [rowOf?_modifyBreakpoint? h]
    by_cases howner : l.rowOf? address = some row
    · -- The line that was changed is the owner of the address.
      obtain ⟨line₁, hline₁, haddress⟩ := hl.owner howner
      cases hline₀.symm.trans hline₁
      rw [if_pos howner]
      exact (congrArg l.rowOf? haddress).trans howner
    · rw [if_neg howner] at hflag ⊢
      exact hl.flagged hline₀ hflag

end modify

section clear

variable (l : Listing)

@[simp] theorem rowOf?_clearBreakpoints (address : Word) :
    l.clearBreakpoints.rowOf? address = l.rowOf? address := rfl

theorem line?_clearBreakpoints (row : Nat) :
    l.clearBreakpoints.line? row =
      (l.line? row).map fun line => { line with breakpoint := false } := by
  simp [line?, clearBreakpoints]

@[simp] theorem hasBreakpointAt_clearBreakpoints (address : Word) :
    l.clearBreakpoints.hasBreakpointAt address = false := by
  cases hrow : l.rowOf? address with
  | none => exact hasBreakpointAt_of_none hrow
  | some row =>
    cases hline : l.line? row <;>
      simp [hasBreakpointAt, hasBreakpoint, line?_clearBreakpoints, hrow, hline]

theorem Indexed.clearBreakpoints {l : Listing} (hl : l.Indexed) : l.clearBreakpoints.Indexed where
  size_le := by simpa [size, Listing.clearBreakpoints] using hl.size_le
  owner := by
    intro address row hrow
    obtain ⟨line, hline, rfl⟩ := hl.owner hrow
    rw [line?_clearBreakpoints, hline]
    exact ⟨_, rfl, rfl⟩
  owned := by
    intro row line hline
    rw [line?_clearBreakpoints] at hline
    obtain ⟨line₀, hline₀, rfl⟩ := Option.map_eq_some_iff.1 hline
    obtain ⟨owner, howner⟩ := hl.owned hline₀
    exact ⟨owner, howner⟩
  flagged := by
    intro row line hline hflag
    rw [line?_clearBreakpoints] at hline
    obtain ⟨line₀, hline₀, rfl⟩ := Option.map_eq_some_iff.1 hline
    cases hflag

end clear

section breakpoints

variable {l : Listing} (hl : l.Indexed)
include hl

theorem mem_breakpoints_iff (address : Word) :
    address ∈ l.breakpoints ↔ l.hasBreakpointAt address = true := by
  have hmem (line : Line) : line ∈ l.lines.toList ↔ ∃ row, l.line? row = some line := by
    simp only [line?, List.mem_iff_getElem?, Array.getElem?_toList]
  simp only [breakpoints, List.mem_map, List.mem_filter, hmem]
  constructor
  · rintro ⟨line, ⟨⟨row, hline⟩, hflag⟩, rfl⟩
    rw [hasBreakpointAt_of_line? (hl.flagged hline hflag) hline, hflag]
  · intro hat
    cases hrow : l.rowOf? address with
    | none => cases (hasBreakpointAt_of_none hrow).symm.trans hat
    | some row =>
      obtain ⟨line, hline, haddress⟩ := hl.owner hrow
      rw [hasBreakpointAt_of_line? hrow hline] at hat
      exact ⟨line, ⟨⟨row, hline⟩, hat⟩, haddress⟩

/-- No address is listed twice, even if several lines have it. -/
theorem nodup_breakpoints : l.breakpoints.Nodup := by
  unfold breakpoints List.Nodup
  rw [List.pairwise_map, List.pairwise_filter, List.pairwise_iff_getElem]
  intro i j hi hj hij hfirst hsecond haddress
  have hline (k : Nat) (hk : k < l.lines.toList.length) :
      l.line? k = some l.lines.toList[k] := by
    rw [line?, ← Array.getElem?_toList, List.getElem?_eq_getElem hk]
  have hrow := hl.flagged (hline i hi) hfirst
  rw [haddress, hl.flagged (hline j hj) hsecond] at hrow
  cases hrow
  exact Nat.lt_irrefl _ hij

end breakpoints

end Listing

end AccumulatorMachine
