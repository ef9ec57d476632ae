/-!
# The content of string literals

What stands between the quotes of a JSON string: bytes, and UTF-16 units given by escapes. It has a
meaning as text if surrogate units come in pairs and the bytes are UTF-8. A literal whose meaning
nobody asks for may be without one.
-/

namespace AccumulatorMachine.Json

/-- One step of a string literal: a byte, given plainly or by a short escape, or a UTF-16 unit
given by four hexadecimal digits. -/
inductive Piece
  | byte (b : UInt8)
  | unit (u : Nat)
  deriving DecidableEq, Repr

/-- The pieces between the quotes of a string literal. -/
abbrev Content := List Piece

namespace Content

def isHighSurrogate (u : Nat) : Bool := 0xD800 ≤ u && u < 0xDC00

def isLowSurrogate (u : Nat) : Bool := 0xDC00 ≤ u && u < 0xE000

def pairChar (high low : Nat) : Char :=
  Char.ofNat (0x10000 + (high - 0xD800) * 0x400 + (low - 0xDC00))

/-- The bytes that a literal denotes; refused if a surrogate is not one half of a pair. -/
def bytes? : Content → Option (List UInt8)
  | [] => some []
  | .byte b :: rest => (bytes? rest).map (b :: ·)
  | .unit u :: .unit v :: rest =>
    if isHighSurrogate u then
      if isLowSurrogate v then (bytes? rest).map (String.utf8EncodeChar (pairChar u v) ++ ·)
      else none
    else if isLowSurrogate u then none
    else (bytes? (.unit v :: rest)).map (String.utf8EncodeChar (Char.ofNat u) ++ ·)
  | .unit u :: rest =>
    if isHighSurrogate u || isLowSurrogate u then none
    else (bytes? rest).map (String.utf8EncodeChar (Char.ofNat u) ++ ·)

/-- The text that bytes encode in UTF-8. -/
def textOfBytes? (bs : List UInt8) : Option String := String.fromUTF8? (ByteArray.mk bs.toArray)

def text? (c : Content) : Option String := c.bytes?.bind textOfBytes?

end Content

end AccumulatorMachine.Json
