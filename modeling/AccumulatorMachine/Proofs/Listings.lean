import Mathlib.Data.List.Induction
import AccumulatorMachine.Listing

/-!
# Listings made line by line

Lines may share an address. In the listing that they make, the last of them owns it.
-/

namespace AccumulatorMachine

/-- A row is the last one whose line has an address. -/
def IsLastRow (lines : List Line) (address : Word) (row : Nat) : Prop :=
  lines[row]?.map Line.address = some address ∧
    ∀ later, row < later → lines[later]?.map Line.address ≠ some address

theorem IsLastRow.lt {lines : List Line} {address : Word} {row : Nat}
    (h : IsLastRow lines address row) : row < lines.length := by
  obtain ⟨line, hline, -⟩ := Option.map_eq_some_iff.1 h.1
  exact (List.getElem?_eq_some_iff.1 hline).1

theorem isLastRow_concat_iff {lines : List Line} {line : Line} {address : Word} {row : Nat} :
    IsLastRow (lines ++ [line]) address row ↔
      if line.address = address then row = lines.length else IsLastRow lines address row := by
  unfold IsLastRow
  split
  next haddress =>
    constructor
    · intro h
      have hlt := IsLastRow.lt h
      rw [List.length_append, List.length_singleton] at hlt
      by_contra hne
      exact h.2 lines.length (by omega) (by simp [haddress])
    · rintro rfl
      refine ⟨by simp [haddress], ?_⟩
      intro later hlater
      simp [List.getElem?_eq_none (l := lines ++ [line]) (i := later) (by simp; omega)]
  next haddress =>
    have hget : ∀ i : Nat, (lines ++ [line])[i]?.map Line.address = some address ↔
        lines[i]?.map Line.address = some address := by
      intro i
      rcases Nat.lt_trichotomy i lines.length with hlt | rfl | hgt
      · rw [List.getElem?_append_left hlt]
      · simp [haddress]
      · rw [List.getElem?_eq_none (by simp; omega), List.getElem?_eq_none (by omega)]
    simp only [hget, ne_eq]

namespace Listing

/-- The listing to which lines are added one by one. -/
def pushAll (l : Listing) (lines : List Line) : Listing :=
  lines.foldl (fun l line => (l.push line).2) l

theorem pushAll_concat (l : Listing) (lines : List Line) (line : Line) :
    l.pushAll (lines ++ [line]) = ((l.pushAll lines).push line).2 := by
  simp [pushAll]

theorem toList_lines_pushAll (lines : List Line) : (empty.pushAll lines).lines.toList = lines := by
  induction lines using List.reverseRecOn with
  | nil => rfl
  | append_singleton lines line ih => simp [pushAll_concat, push, ih]

/-- An address is owned by the last of the lines that have it. -/
theorem rowOf?_pushAll_iff {lines : List Line} {address : Word} {row : Nat} :
    (empty.pushAll lines).rowOf? address = some row ↔ IsLastRow lines address row := by
  induction lines using List.reverseRecOn generalizing row with
  | nil => simp [pushAll, IsLastRow]
  | append_singleton lines line ih =>
    have hsize : (empty.pushAll lines).size = lines.length := by
      rw [size, ← Array.length_toList, toList_lines_pushAll]
    rw [pushAll_concat, rowOf?_push, isLastRow_concat_iff, hsize]
    split
    next => rw [Option.some_inj, eq_comm]
    next => exact ih

end Listing

end AccumulatorMachine
