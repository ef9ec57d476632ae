import AccumulatorMachine.Listing
import AccumulatorMachine.Text.Blank
import AccumulatorMachine.Text.Numeral
import AccumulatorMachine.Text.Quoted

/-!
# Program images

What an assembler hands over: one record for each source statement, its address and word still
text. Records with a blank address carry no word. The others are executable and must hold one to
three hexadecimal digits of address and exactly four of word.
-/

namespace AccumulatorMachine

namespace Image

structure Record where
  address : String
  label : String
  mnemonic : String
  operandToken : String
  word : String
  deriving DecidableEq, Repr

end Image

structure Image where
  records : List Image.Record
  deriving DecidableEq, Repr

/-- Why an image cannot be read or one of its records cannot be decoded. -/
inductive ImageError
  | unreadable (path reason : String)
  | corrupt
  | malformedAddress (record : Nat) (text : String)
  | malformedWord (record : Nat) (text : String)
  deriving DecidableEq, Repr

namespace ImageError

/-- Stands in messages where the reason would stand for which a text was refused. -/
def unstated : String := "<detail>"

def message : ImageError → String
  | unreadable path reason => "cannot read " ++ path ++ ": " ++ reason
  | corrupt => "invalid machine code format: " ++ unstated
  | malformedAddress record text =>
    "record " ++ Text.decimalText record ++ ": address " ++ Text.quoted text ++
      " is not 1-3 hex digits"
  | malformedWord record text =>
    "record " ++ Text.decimalText record ++ ": word " ++ Text.quoted text ++
      " is not 4 hex digits"

end ImageError

namespace Image

namespace Record

def blank : Record := ⟨"", "", "", "", ""⟩

/-- The record of a word at an address, of which twelve bits count, without its source. -/
def new (address word : Word) : Record :=
  { blank with
    address := Text.hexText 3 address.low12.toNat
    word := Text.hexText 4 word.toNat }

def withSource (r : Record) (label mnemonic operandToken : String) : Record :=
  { r with label, mnemonic, operandToken }

/-- Whether the record places a word in memory. -/
def isExecutable (r : Record) : Bool := !(Text.trimChars r.address.toList).isEmpty

/-- The number that a field's hexadecimal digits denote, if their count is allowed. -/
def field? (allowed : Nat → Bool) (text : String) : Option Nat :=
  let cs := Text.trimChars text.toList
  if allowed cs.length then Text.unsigned? 16 cs else none

/-- The address and the word of a record. The index is its place in the image, for messages. -/
def parse (r : Record) (index : Nat) : Except ImageError (Word × Word) :=
  match field? (fun n => 1 ≤ n && n ≤ 3) r.address with
  | none => .error (.malformedAddress index r.address)
  | some address =>
    match field? (· = 4) r.word with
    | none => .error (.malformedWord index r.word)
    | some word => .ok (BitVec.ofNat 16 address, BitVec.ofNat 16 word)

def line (r : Record) (index : Nat) : Except ImageError Line := do
  let (address, word) ← r.parse index
  return {
    address
    word
    label := Text.trim r.label
    mnemonic := Text.trim r.mnemonic
    operandToken := Text.trim r.operandToken
    breakpoint := false }

end Record

/-- The image that places words at consecutive addresses. -/
def ofWords (origin : Word) (words : List Word) : Image :=
  ⟨words.mapIdx fun i w => .new (origin + BitVec.ofNat 16 i) w⟩

/-- The records that place a word, with their places in the image. -/
def executable (image : Image) : List (Nat × Record) :=
  (image.records.mapIdx fun i r => (i, r)).filter (·.2.isExecutable)

def size (image : Image) : Nat := image.records.length

def isEmpty (image : Image) : Bool := image.records.isEmpty

end Image

end AccumulatorMachine
