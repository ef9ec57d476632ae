import AccumulatorMachine.Files.Path

/-!
# The files of a program

A program is named by a path with or without an extension. Its image, its symbol table and its
core dump lie side by side and differ in their extensions.
-/

namespace AccumulatorMachine

structure Companions where
  /-- The path without an extension. -/
  stem : List Char
  deriving DecidableEq, Repr

namespace Companions

def ofPath (path : String) : Companions := ⟨Path.withExtension path.toList []⟩

def withExtension (c : Companions) (ext : List Char) : String :=
  String.ofList (Path.withExtension c.stem ext)

/-- The program's name, empty if the path has none. -/
def name (c : Companions) : String := String.ofList ((Path.fileName? c.stem).getD [])

def image (c : Companions) : String := c.withExtension ['m', 'e', 'x']

def symbolTable (c : Companions) : String := c.withExtension ['m', 'a', 'p']

def dump (c : Companions) : String := c.withExtension ['d', 'm', 'p']

end Companions

end AccumulatorMachine
