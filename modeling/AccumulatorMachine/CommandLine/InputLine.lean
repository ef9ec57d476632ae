import AccumulatorMachine.Json.Content

/-!
# Lines of standard input

A line ends at a line feed or at the end of the input; a carriage return before the line feed
belongs to the end. What is not UTF-8 is no text.
-/

namespace AccumulatorMachine.CommandLine

/-- The bytes of each line. What has been read of the current line is kept reversed. -/
def linesFrom (read : List UInt8) : List UInt8 → List (List UInt8)
  | [] => if read.isEmpty then [] else [read.reverse]
  | b :: rest =>
    if b = 0x0A then
      (if read.head? = some 0x0D then read.tail else read).reverse :: linesFrom [] rest
    else linesFrom (b :: read) rest

/-- A line as text, if its bytes are text. -/
abbrev InputLine := Option String

def inputLines (bs : List UInt8) : List InputLine :=
  (linesFrom [] bs).map Json.Content.textOfBytes?

end AccumulatorMachine.CommandLine
