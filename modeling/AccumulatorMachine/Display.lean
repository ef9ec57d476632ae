import AccumulatorMachine.Word
import AccumulatorMachine.Text.Blank
import AccumulatorMachine.Text.Numeral

/-!
# Display modes

How a word is shown to people and how a literal typed by one is read: in hexadecimal, in decimal or
as an ASCII character. A mode never changes a value.
-/

namespace AccumulatorMachine

inductive DisplayMode
  | hex
  | decimal
  | ascii
  deriving DecidableEq, Repr

namespace DisplayMode

def all : List DisplayMode := [hex, decimal, ascii]

/-- The mode's name on the command line and in messages. -/
def name : DisplayMode → String
  | hex => "hex"
  | decimal => "dec"
  | ascii => "ascii"

def tag : DisplayMode → String
  | hex => "Hex"
  | decimal => "Decimal"
  | ascii => "Ascii"

/-- A text that names no display mode, trimmed and in lower case. -/
structure Unknown where
  text : String
  deriving DecidableEq, Repr

def Unknown.message (e : Unknown) : String :=
  "unknown display mode '" ++ e.text ++ "' (expected hex, dec or ascii)"

def ofText (text : String) : Except Unknown DisplayMode :=
  let key := (Text.trim text).toLower
  if key = "hex" ∨ key = "h" then .ok hex
  else if key = "dec" ∨ key = "decimal" ∨ key = "d" then .ok decimal
  else if key = "ascii" ∨ key = "a" then .ok ascii
  else .error ⟨key⟩

/-- A word in a display mode. Hexadecimal has three digits for an address, four otherwise; ASCII is
the character with the word's low seven bits, and nothing for the word zero. -/
def render (mode : DisplayMode) (isAddress : Bool) (w : Word) : String :=
  match mode with
  | hex => if isAddress then Text.hexText 3 w.low12.toNat else Text.hexText 4 w.toNat
  | decimal => Text.decimalText w.toInt
  | ascii => if w = 0 then "" else String.ofList [Char.ofNat (w.toNat % 128)]

end DisplayMode

structure LiteralError where
  literal : String
  mode : DisplayMode
  deriving DecidableEq, Repr

def LiteralError.message (e : LiteralError) : String :=
  "invalid " ++ e.mode.name ++ " literal: '" ++ e.literal ++ "'"

/-- The numbers that a numeric literal may denote before it is cut to a word. -/
def literalRange (n : Int) : Bool := -2147483648 ≤ n && n ≤ 2147483647

namespace DisplayMode

def number? (mode : DisplayMode) (cs : List Char) : Option Int :=
  match mode with
  | hex => (Text.signed? 16 cs).filter literalRange
  | decimal => (Text.signed? 10 cs).filter literalRange
  | ascii => some (cs.head?.elim 0 fun c => ↑(c.toNat % 128))

/-- The word that a literal denotes. Blanks around it do not count; a number is cut to sixteen bits
after it has been read; an ASCII literal denotes the low seven bits of its first character. -/
def literal (mode : DisplayMode) (text : String) : Except LiteralError Word :=
  match mode.number? (Text.trimChars text.toList) with
  | some n => .ok (Word.ofInt n)
  | none => .error ⟨text, mode⟩

end DisplayMode

end AccumulatorMachine
