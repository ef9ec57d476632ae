import AccumulatorMachine.Image.Basic
import AccumulatorMachine.Machine.Basic

/-!
# Loading

A load begins with a reset and ends with the program in memory, its listing complete and PC at its
first line, or leaves the machine reset. All records are checked before the first word is placed.
-/

namespace AccumulatorMachine

/-- Why a program cannot be loaded. -/
inductive LoadError
  | image (e : ImageError)
  | tooManyRecords (count : Nat)
  | empty
  | addressOutOfRange (location : Location)
  deriving DecidableEq, Repr

namespace LoadError

def message : LoadError → String
  | image e => e.message
  | tooManyRecords count =>
    "image has " ++ Text.decimalText count ++ " records; at most " ++
      Text.decimalText memorySize ++ " fit in memory"
  | empty => "image has no executable records"
  | addressOutOfRange location =>
    "address " ++ Text.decimalText location.toInt ++ " out of range"

def code : LoadError → ErrorCode
  | image (.unreadable _ _) => .imageUnreadable
  | image _ | empty => .invalidImage
  | tooManyRecords _ => .programTooLong
  | addressOutOfRange _ => .addressOutOfRange

def ofMemoryError (e : MemoryError) : LoadError := addressOutOfRange e.location

end LoadError

/-- The program lines of an image. Too many records are refused before any is decoded; then the
first malformed one is reported; then a program without lines. -/
def Image.lines (image : Image) : Except LoadError (List Line) :=
  let records := image.executable
  if memorySize < records.length then .error (.tooManyRecords records.length)
  else
    match records.mapM fun (index, r) => r.line index with
    | .error e => .error (.image e)
    | .ok [] => .error .empty
    | .ok lines => .ok lines

namespace Machine

/-- A change of the machine that may be refused. -/
abbrev Loading := EStateM LoadError Machine

/-- Put a line's word in memory and add it to the listing. -/
def place (line : Line) : Loading Unit := fun m =>
  match m.memory.write line.address.toLocationUnsigned line.word with
  | .ok memory => .ok () { m with memory, listing := (m.listing.push line).2 }
  | .error e => .error (.ofMemoryError e) m

/-- Reset the machine and load an image into it. -/
def load (image : Image) : Loading Unit := do
  modify reset
  match image.lines with
  | .error e => throw e
  | .ok lines =>
    lines.forM place
    modify fun m =>
      { m.assign .pc (m.listing.entry?.getD 0).toNat with status := .haltedNormal }

/-- Reset the machine and load an image that may not have been readable. -/
def loadRead (image : Except ImageError Image) : Loading Unit := do
  match image with
  | .error e =>
    modify reset
    throw (.image e)
  | .ok image => load image

end Machine

end AccumulatorMachine
