import AccumulatorMachine.Text.Numeral
import AccumulatorMachine.Text.Unprintable

/-!
# Quoted text

Text between double quotes, as diagnostics show it: every character that a reader could miss or
misread is written as an escape.
-/

namespace AccumulatorMachine.Text

/-- A character inside quotes. Tab, line ends, NUL, the quote and the backslash have short escapes;
other unprintable characters are given by their code point. -/
def quotedChar (c : Char) : List Char :=
  match c with
  | '\x00' => ['\\', '0']
  | '\t' => ['\\', 't']
  | '\r' => ['\\', 'r']
  | '\n' => ['\\', 'n']
  | '"' => ['\\', '"']
  | '\\' => ['\\', '\\']
  | c => if isUnprintable c then ['\\', 'u', '\x7b'] ++ Nat.toDigits 16 c.toNat ++ ['\x7d'] else [c]

def quoted (text : String) : String :=
  String.ofList ('"' :: (text.toList.flatMap quotedChar ++ ['"']))

end AccumulatorMachine.Text
