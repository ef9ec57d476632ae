import AccumulatorMachine.Control.Operations
import AccumulatorMachine.Files.Companions

/-!
# Reports of commands

What a command leaves for its caller, and the one way in which every command can fail: the program
cannot be loaded.
-/

namespace AccumulatorMachine.CommandLine

/-- What a command leaves: its exit status and what it printed. -/
structure Report where
  exit : Nat
  stdout : String
  stderr : String
  deriving DecidableEq, Repr

/-- The controller with an image loaded, or the report that it cannot be. -/
def loadOrReport (config : Config) (files : Companions) (image : Except ImageError Image) :
    Except Report Controller :=
  match (Control.loadRead image).run (.new config) with
  | .ok _ c => .ok c
  | .error e _ =>
    .error ⟨1, "", "Failed to load " ++ files.image ++ ": " ++ e.message ++ "\n"⟩

end AccumulatorMachine.CommandLine
