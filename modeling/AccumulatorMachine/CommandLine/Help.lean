import AccumulatorMachine.CommandLine.Arguments

/-!
# Help texts

What the command line says about itself.
-/

namespace AccumulatorMachine.CommandLine

def versionText : String := "marie-sim 0.1.0\n"

def helpLines : Topic → List String
  | .program =>
    ["A simulator for the MARIE accumulator machine",
      "",
      "Usage: marie-sim <COMMAND>",
      "",
      "Commands:",
      "  run   Run a program until it halts",
      "  list  Print the loaded program with its disassembly",
      "  help  Print this message or the help of the given subcommand(s)",
      "",
      "Options:",
      "  -h, --help     Print help",
      "  -V, --version  Print version"]
  | .run =>
    ["Run a program until it halts",
      "",
      "Usage: marie-sim run [OPTIONS] <PROGRAM>",
      "",
      "Arguments:",
      "  <PROGRAM>  Program image (`.mex`), with or without its extension",
      "",
      "Options:",
      "      --input-mode <INPUT_MODE>    " ++
        "How INPUT values read from stdin are parsed: hex, dec or ascii [default: dec]",
      "      --output-mode <OUTPUT_MODE>  " ++
        "How OUTPUT values are printed: hex, dec or ascii [default: dec]",
      "      --no-linefeeds               Print output values without a line break after each",
      "  -t, --trace                      Trace each instruction to stderr",
      "      --dump                       " ++
        "Write a core dump (`.dmp`) next to the program when it stops",
      "      --max-cycles <MAX_CYCLES>    Stop after this many instructions",
      "  -h, --help                       Print help"]
  | .list =>
    ["Print the loaded program with its disassembly",
      "",
      "Usage: marie-sim list <PROGRAM>",
      "",
      "Arguments:",
      "  <PROGRAM>  Program image (`.mex`), with or without its extension",
      "",
      "Options:",
      "  -h, --help  Print help"]
  | .help =>
    ["Print this message or the help of the given subcommand(s)",
      "",
      "Usage: marie-sim help [COMMAND]...",
      "",
      "Arguments:",
      "  [COMMAND]...  Print help for the subcommand(s)"]

def helpText (topic : Topic) : String := String.join ((helpLines topic).map (· ++ "\n"))

end AccumulatorMachine.CommandLine
