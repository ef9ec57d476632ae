import AccumulatorMachine.Json.Content
import AccumulatorMachine.Json.Number

/-!
# JSON tokens

A JSON text is cut into tokens byte by byte. Words and numerals are taken as the longest run of
bytes that can belong to one and judged as a whole; string literals are checked for the form of
their escapes and for raw control characters, not for their meaning.
-/

namespace AccumulatorMachine.Json

inductive Token
  | leftBrace
  | rightBrace
  | leftBracket
  | rightBracket
  | colon
  | comma
  | null
  | bool (b : Bool)
  | number (n : Number)
  | string (content : Content)
  deriving DecidableEq, Repr

namespace Token

def isSpace (b : UInt8) : Bool := b = 0x20 || b = 0x09 || b = 0x0A || b = 0x0D

/-- Whether a byte can belong to a word or a numeral: ASCII letters, digits, `+`, `-` and `.`. -/
def isBare (b : UInt8) : Bool :=
  (0x30 ≤ b && b ≤ 0x39) || (0x61 ≤ b && b ≤ 0x7A) || (0x41 ≤ b && b ≤ 0x5A) || b = 0x2B ||
    b = 0x2D || b = 0x2E

/-- The token that is a single byte of punctuation. -/
def ofPunctuation? (b : UInt8) : Option Token :=
  if b = 0x7B then some leftBrace
  else if b = 0x7D then some rightBrace
  else if b = 0x5B then some leftBracket
  else if b = 0x5D then some rightBracket
  else if b = 0x3A then some colon
  else if b = 0x2C then some comma
  else none

/-- The token that a word or numeral is. -/
def ofBare? (bs : List UInt8) : Option Token :=
  let cs := bs.map fun b => Char.ofNat b.toNat
  if cs = ['n', 'u', 'l', 'l'] then some null
  else if cs = ['t', 'r', 'u', 'e'] then some (bool true)
  else if cs = ['f', 'a', 'l', 's', 'e'] then some (bool false)
  else (Number.ofLexeme? cs).map number

/-- The byte that a short escape stands for. -/
def ofEscape? (b : UInt8) : Option UInt8 :=
  if b = 0x22 || b = 0x5C || b = 0x2F then some b
  else if b = 0x62 then some 0x08
  else if b = 0x66 then some 0x0C
  else if b = 0x6E then some 0x0A
  else if b = 0x72 then some 0x0D
  else if b = 0x74 then some 0x09
  else none

/-- Where in a text a scan stands. What has been read of an unfinished token is kept reversed. -/
inductive Place
  | gap
  | bare (read : List UInt8)
  | string (read : Content)
  | escape (read : Content)
  | unit (read : Content) (count value : Nat)
  deriving DecidableEq, Repr

/-- A scan: the tokens found, the last one first, and the place. -/
structure Scan where
  found : List Token
  place : Place
  deriving DecidableEq, Repr

namespace Scan

def start : Scan := ⟨[], .gap⟩

/-- A byte that begins something new. -/
def fromGap? (found : List Token) (b : UInt8) : Option Scan :=
  if isSpace b then some ⟨found, .gap⟩
  else if b = 0x22 then some ⟨found, .string []⟩
  else if isBare b then some ⟨found, .bare [b]⟩
  else (ofPunctuation? b).map fun t => ⟨t :: found, .gap⟩

def step? (s : Scan) (b : UInt8) : Option Scan :=
  match s.place with
  | .gap => fromGap? s.found b
  | .bare read =>
    if isBare b then some { s with place := .bare (b :: read) }
    else do
      let t ← ofBare? read.reverse
      fromGap? (t :: s.found) b
  | .string read =>
    if b = 0x22 then some ⟨.string read.reverse :: s.found, .gap⟩
    else if b = 0x5C then some { s with place := .escape read }
    else if b < 0x20 then none
    else some { s with place := .string (.byte b :: read) }
  | .escape read =>
    if b = 0x75 then some { s with place := .unit read 0 0 }
    else (ofEscape? b).map fun c => { s with place := .string (.byte c :: read) }
  | .unit read count value => do
    let d ← Text.digitValue? 16 (Char.ofNat b.toNat)
    let value := value * 16 + d
    if count = 3 then return { s with place := .string (.unit value :: read) }
    return { s with place := .unit read (count + 1) value }

/-- The tokens of a scan that has come to the end of its text. -/
def finish? (s : Scan) : Option (List Token) :=
  match s.place with
  | .gap => some s.found.reverse
  | .bare read => (ofBare? read.reverse).map fun t => (t :: s.found).reverse
  | _ => none

end Scan

def ofBytes? (bs : List UInt8) : Option (List Token) :=
  (bs.foldlM Scan.step? Scan.start).bind Scan.finish?

end Token

end AccumulatorMachine.Json
