import AccumulatorMachine.CommandLine.Help
import AccumulatorMachine.CommandLine.List
import AccumulatorMachine.CommandLine.Run
import AccumulatorMachine.Files.Tree

/-!
# Commands on a file tree

A whole command as a function of its arguments, its standard input and the files it finds.
-/

namespace AccumulatorMachine.CommandLine

/-- Stands where the usage text would be printed for arguments that make no sense. -/
def usage : String := "<usage>"

/-- Write a run's core dump, if one is asked for, and report. -/
def finishRun (tree : FileTree) (r : Run) : Report × FileTree :=
  match r.dump? with
  | none => (r.report, tree)
  | some (path, text) =>
    match tree.write path (Json.utf8 text) with
    | .error e => (r.reportUnwritten e.message, tree)
    | .ok tree => (r.report, tree)

/-- Carry out a request. A run that has not stopped after `fuel` steps is cut short. -/
def execute (fuel : Nat) (request : Request) (stdin : List UInt8) (tree : FileTree) :
    Report × FileTree :=
  match request with
  | .refused => (⟨2, "", usage⟩, tree)
  | .version => (⟨0, versionText, ""⟩, tree)
  | .help topic => (⟨0, helpText topic, ""⟩, tree)
  | .list program =>
    let files := Companions.ofPath program
    (listReport program (tree.readImage files.image) (tree.isFile files.symbolTable), tree)
  | .run program options =>
    match Run.ofImage program options (tree.readImage (Companions.ofPath program).image) with
    | .error report => (report, tree)
    | .ok r => finishRun tree ((r.start fuel).feed fuel (inputLines stdin))

end AccumulatorMachine.CommandLine
