/-!
# Paths

The components of a path, its last name, the extension of a name, and the paths that differ in the
extension.
Separators and `.` components at the end of a path do not count; `.`, `..` and the root are
directories and no names.
-/

namespace AccumulatorMachine.Path

/-- What stands between the separators of a path. -/
def components : List Char → List (List Char)
  | [] => [[]]
  | c :: cs =>
    if c = '/' then [] :: components cs
    else
      match components cs with
      | [] => [[c]]
      | first :: rest => (c :: first) :: rest

/-- A reversed path without the separators and `.` components it begins with. -/
def dropTail : List Char → List Char
  | '/' :: rest => dropTail rest
  | '.' :: '/' :: rest => dropTail rest
  | cs => cs

/-- What precedes the last name of a path, and that name. -/
def split? (path : List Char) : Option (List Char × List Char) :=
  let reversed := dropTail path.reverse
  let name := (reversed.takeWhile (· ≠ '/')).reverse
  if name = [] ∨ name = ['.'] ∨ name = ['.', '.'] then none
  else some ((reversed.dropWhile (· ≠ '/')).reverse, name)

def fileName? (path : List Char) : Option (List Char) := (split? path).map Prod.snd

/-- A name up to its last dot, and its extension, which follows that dot. A dot in front makes no
extension. -/
def splitDot (name : List Char) : List Char × Option (List Char) :=
  match name.reverse.dropWhile (· ≠ '.') with
  | [] => (name, none)
  | _ :: [] => (name, none)
  | _ :: before => (before.reverse, some (name.reverse.takeWhile (· ≠ '.')).reverse)

def extension? (path : List Char) : Option (List Char) := (fileName? path).bind (splitDot · |>.2)

/-- Replace all that follows the stem of the last name by an extension, or by nothing. A path
without a name stays as it is. -/
def setExtension (path ext : List Char) : List Char :=
  match split? path with
  | none => path
  | some (front, name) =>
    front ++ (splitDot name).1 ++ if ext = [] then [] else '.' :: ext

/-- The path with another extension. As many characters as the old extension has are taken from
the end of the path, and then the extension of what is left is set. -/
def withExtension (path ext : List Char) : List Char :=
  let kept := match extension? path with
    | none => path
    | some old => path.take (path.length - old.length)
  setExtension kept ext

end AccumulatorMachine.Path
