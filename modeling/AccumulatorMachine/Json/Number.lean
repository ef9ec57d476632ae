import AccumulatorMachine.Json.Basic

/-!
# JSON numerals

An optional minus sign, digits without a needless zero in front, an optional fraction and an
optional exponent.
-/

namespace AccumulatorMachine.Json.Number

/-- The digits at the front of a text and what follows them; refused if there are none. -/
def digits? (cs : List Char) : Option (List Char × List Char) :=
  let ds := cs.takeWhile Char.isDigit
  if ds.isEmpty then none else some (ds, cs.dropWhile Char.isDigit)

/-- What follows a fraction, and whether there was one. -/
def fraction? : List Char → Option (Bool × List Char)
  | '.' :: cs => (digits? cs).map fun (_, rest) => (true, rest)
  | cs => some (false, cs)

/-- What follows the digits of an exponent, which may carry a sign. -/
def exponentDigits? : List Char → Option (List Char)
  | '+' :: cs => (digits? cs).map Prod.snd
  | '-' :: cs => (digits? cs).map Prod.snd
  | cs => (digits? cs).map Prod.snd

/-- What follows an exponent, and whether there was one. -/
def exponent? : List Char → Option (Bool × List Char)
  | 'e' :: cs => (exponentDigits? cs).map (true, ·)
  | 'E' :: cs => (exponentDigits? cs).map (true, ·)
  | cs => some (false, cs)

/-- The number that a numeral without its sign denotes. -/
def ofMagnitude? (negative : Bool) (lexeme cs : List Char) : Option Number := do
  let (whole, rest) ← digits? cs
  if whole.head? = some '0' ∧ whole ≠ ['0'] then none
  let (fraction, rest) ← fraction? rest
  let (exponent, rest) ← exponent? rest
  if rest ≠ [] then none
  let n ← Text.unsigned? 10 whole
  if fraction || exponent || (negative && n = 0) then return .other lexeme
  return .integer (if negative then -n else n)

/-- The number that a numeral denotes; refused if the text is not exactly one numeral. -/
def ofLexeme? (lexeme : List Char) : Option Number :=
  match lexeme with
  | '-' :: cs => ofMagnitude? true lexeme cs
  | cs => ofMagnitude? false lexeme cs

def lexeme : Number → List Char
  | .integer n => Text.decimal n
  | .other cs => cs

end AccumulatorMachine.Json.Number
