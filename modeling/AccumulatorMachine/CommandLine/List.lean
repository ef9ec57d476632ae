import AccumulatorMachine.CommandLine.Report

/-!
# Listing a program from the command line

One line for each line of the program, and whether there is a symbol table beside its image.
-/

namespace AccumulatorMachine.CommandLine

/-- A program line as `list` prints it: address, word, source columns and disassembly. -/
def listLine (line : Line) : String :=
  Text.hexText 3 line.address.toNat ++ "  " ++ Text.hexText 4 line.word.toNat ++ "  " ++
    Text.padRight 10 line.label ++ " " ++ Text.padRight 9 line.mnemonic ++ " " ++
    Text.padRight 10 line.operandToken ++ " ; " ++ line.word.disassemble ++ "\n"

def listReport (program : String) (image : Except ImageError Image) (hasSymbolTable : Bool) :
    Report :=
  let files := Companions.ofPath program
  match loadOrReport .default files image with
  | .error report => report
  | .ok c =>
    let lines := c.machine.listing.lines.toList
    let symbols := if hasSymbolTable then files.symbolTable else "none"
    ⟨0, files.name ++ ": " ++ Text.decimalText lines.length ++ " lines\n\n" ++
      String.join (lines.map listLine) ++ "\nSymbol table: " ++ symbols ++ "\n", ""⟩

end AccumulatorMachine.CommandLine
