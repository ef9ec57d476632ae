import Std.Data.ExtTreeMap
import AccumulatorMachine.Word

/-!
# Program listings

The lines of a loaded program in the order of its image, and for each address the row of the line
that is loaded there. Lines may share an address; the last of them owns it.
-/

namespace AccumulatorMachine

/-- One line of a loaded program: a word at an address, the source it came from, and whether a run
pauses after it. -/
structure Line where
  address : Word
  word : Word
  label : String
  mnemonic : String
  operandToken : String
  breakpoint : Bool
  deriving DecidableEq, Repr

structure Listing where
  lines : Array Line
  rows : Std.ExtTreeMap Word Nat

namespace Listing

def empty : Listing := ⟨#[], ∅⟩

def size (l : Listing) : Nat := l.lines.size

def isEmpty (l : Listing) : Bool := l.lines.isEmpty

/-- Add a line at the end and give its row. Its address now belongs to it. -/
def push (l : Listing) (line : Line) : Nat × Listing :=
  (l.size, ⟨l.lines.push line, l.rows.insert line.address l.size⟩)

/-- The row of the line that owns an address. -/
def rowOf? (l : Listing) (address : Word) : Option Nat := l.rows[address]?

def line? (l : Listing) (row : Nat) : Option Line := l.lines[row]?

/-- The addresses that lines own, in ascending order, with their rows. -/
def owned (l : Listing) : List (Word × Nat) := l.rows.toList

/-- The address of the first line, where execution starts. -/
def entry? (l : Listing) : Option Word := l.lines[0]?.map (·.address)

/-- Change the breakpoint of the line that owns an address. -/
def modifyBreakpoint? (l : Listing) (address : Word) (f : Bool → Bool) : Option Listing :=
  (l.rowOf? address).map fun row =>
    { l with lines := l.lines.modify row fun line => { line with breakpoint := f line.breakpoint } }

def setBreakpoint? (l : Listing) (address : Word) (on : Bool) : Option Listing :=
  l.modifyBreakpoint? address fun _ => on

def toggleBreakpoint? (l : Listing) (address : Word) : Option Listing :=
  l.modifyBreakpoint? address not

def hasBreakpoint (l : Listing) (row : Nat) : Bool := (l.line? row).any (·.breakpoint)

def hasBreakpointAt (l : Listing) (address : Word) : Bool := (l.rowOf? address).any l.hasBreakpoint

def breakpoints (l : Listing) : List Word :=
  (l.lines.toList.filter (·.breakpoint)).map (·.address)

def clearBreakpoints (l : Listing) : Listing :=
  { l with lines := l.lines.map fun line => { line with breakpoint := false } }

@[simp] theorem rowOf?_empty (address : Word) : empty.rowOf? address = none := by
  simp [empty, rowOf?]

theorem rowOf?_push (l : Listing) (line : Line) (address : Word) :
    (l.push line).2.rowOf? address =
      if line.address = address then some l.size else l.rowOf? address := by
  simp [push, rowOf?, Std.ExtTreeMap.getElem?_insert, Std.LawfulEqCmp.compare_eq_iff_eq]

end Listing

end AccumulatorMachine
