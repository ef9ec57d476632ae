/-!
# Numerals

Numbers written in a base, and numerals read back. Letters stand for the digits from ten on; they
are written in upper case and read in either.
-/

namespace AccumulatorMachine.Text

/-- The digits of a number in a base, in upper case, with zeros in front up to a least length. -/
def numeral (base width n : Nat) : List Char :=
  let digits := (Nat.toDigits base n).map Char.toUpper
  List.replicate (width - digits.length) '0' ++ digits

/-- A number in decimal, with a minus sign if it is negative. -/
def decimal : Int → List Char
  | .ofNat n => Nat.toDigits 10 n
  | .negSucc n => '-' :: Nat.toDigits 10 (n + 1)

def hexText (width n : Nat) : String := String.ofList (numeral 16 width n)

def decimalText (n : Int) : String := String.ofList (decimal n)

/-- The value of a digit in a base of at most sixteen. -/
def digitValue? (base : Nat) (c : Char) : Option Nat :=
  let value? :=
    if '0' ≤ c ∧ c ≤ '9' then some (c.toNat - '0'.toNat)
    else if 'a' ≤ c ∧ c ≤ 'f' then some (c.toNat - 'a'.toNat + 10)
    else if 'A' ≤ c ∧ c ≤ 'F' then some (c.toNat - 'A'.toNat + 10)
    else none
  value?.filter (· < base)

/-- The number that one or more digits denote. -/
def unsigned? (base : Nat) : List Char → Option Nat
  | [] => none
  | cs => cs.foldlM (fun n c => (digitValue? base c).map (n * base + ·)) 0

/-- The number that one or more digits denote, after an optional sign. -/
def signed? (base : Nat) : List Char → Option Int
  | '-' :: cs => (unsigned? base cs).map (fun n => -(n : Int))
  | '+' :: cs => (unsigned? base cs).map (↑·)
  | cs => (unsigned? base cs).map (↑·)

def allHex (cs : List Char) : Bool := cs.all fun c => (digitValue? 16 c).isSome

/-- Text with spaces after it up to a least number of characters. -/
def padRight (width : Nat) (text : String) : String :=
  text ++ String.ofList (List.replicate (width - text.length) ' ')

end AccumulatorMachine.Text
