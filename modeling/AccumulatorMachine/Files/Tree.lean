import AccumulatorMachine.Files.Path
import AccumulatorMachine.Image.Text

/-!
# File trees

Files and directories below a working directory, and how paths find them. What lies outside the
working directory is taken for an empty directory.
-/

namespace AccumulatorMachine

/-- Why a path does not lead to a file. -/
inductive FileError
  | notFound
  | notDirectory
  | isDirectory
  | nameTooLong
  | nulByte
  deriving DecidableEq, Repr

def FileError.message : FileError → String
  | notFound => "No such file or directory (os error 2)"
  | notDirectory => "Not a directory (os error 20)"
  | isDirectory => "Is a directory (os error 21)"
  | nameTooLong => "File name too long (os error 36)"
  | nulByte => "file name contained an unexpected NUL byte"

inductive FileNode
  | directory
  | file (content : List UInt8)
  deriving DecidableEq, Repr

/-- The nodes below the working directory, each under the names that lead to it. -/
structure FileTree where
  nodes : List (List String × FileNode)
  deriving DecidableEq, Repr

namespace FileTree

def empty : FileTree := ⟨[]⟩

/-- The node under some names; none of them is the working directory itself. -/
def node? (t : FileTree) (names : List String) : Option FileNode :=
  if names.isEmpty then some .directory
  else (t.nodes.find? (·.1 = names)).map Prod.snd

def put (t : FileTree) (names : List String) (node : FileNode) : FileTree :=
  ⟨(names, node) :: t.nodes.filter (·.1 ≠ names)⟩

/-- Make a directory, and those above it, where there is nothing. -/
def makeDirectory (t : FileTree) (names : List String) : FileTree :=
  ((List.range names.length).map fun i => names.take (i + 1)).foldl
    (fun t names => if (t.node? names).isSome then t else t.put names .directory) t

def components (path : String) : List String := (Path.components path.toList).map String.ofList

/-- The names in a path, separators and `.` left out. -/
def names (path : String) : List String := (components path).filter fun c => c ≠ "" ∧ c ≠ "."

/-- A directory that a path leads through. -/
inductive Spot
  | inside (names : List String)
  | outside
  deriving DecidableEq, Repr

namespace Spot

def parent : Spot → Spot
  | inside [] => outside
  | inside names => inside names.dropLast
  | outside => outside

end Spot

/-- What a path leads to. -/
inductive Found
  | directory (spot : Spot)
  | file (content : List UInt8)

def isLongName (component : String) : Bool := 255 < component.utf8ByteSize

/-- Follow components from a directory. Only the last of them may name a file. -/
def follow (t : FileTree) : Spot → List String → Except FileError Found
  | spot, [] => .ok (.directory spot)
  | spot, c :: rest =>
    if c = "" ∨ c = "." then follow t spot rest
    else if c = ".." then follow t spot.parent rest
    else if isLongName c then .error .nameTooLong
    else
      match spot with
      | .outside => .error .notFound
      | .inside names =>
        match t.node? (names ++ [c]) with
        | none => .error .notFound
        | some .directory => follow t (.inside (names ++ [c])) rest
        | some (.file content) =>
          if rest.isEmpty then .ok (.file content) else .error .notDirectory

/-- A path that can be followed at all: where it starts, and its components. -/
def route (path : String) : Except FileError (Spot × List String) :=
  if path.toList.contains '\x00' then .error .nulByte
  else if path = "" then .error .notFound
  else if 4096 ≤ path.utf8ByteSize then .error .nameTooLong
  else .ok (if path.startsWith "/" then .outside else .inside [], components path)

/-- The content of the file at a path, or nothing if a directory is there. -/
def openFile (t : FileTree) (path : String) : Except FileError (Option (List UInt8)) := do
  let (start, cs) ← route path
  match ← t.follow start cs with
  | .directory _ => return none
  | .file content => return some content

def isFile (t : FileTree) (path : String) : Bool :=
  match t.openFile path with
  | .ok (some _) => true
  | _ => false

/-- Write a file, in place of the one there. Nothing is kept of a file outside the tree. -/
def write (t : FileTree) (path : String) (content : List UInt8) : Except FileError FileTree := do
  let (start, cs) ← route path
  let last := (cs.reverse.dropWhile (· = "")).head?.getD ""
  let above := ((cs.reverse.dropWhile (· = "")).drop 1).reverse
  match ← t.follow start above with
  | .file _ => .error .notDirectory
  | .directory spot =>
    if path.endsWith "/" ∨ last = "." ∨ last = ".." then .error .isDirectory
    else if isLongName last then .error .nameTooLong
    else
      match spot with
      | .outside => return t
      | .inside names =>
        match t.node? (names ++ [last]) with
        | some .directory => .error .isDirectory
        | _ => return t.put (names ++ [last]) (.file content)

/-- The image in the file at a path. What is in a directory's place can be opened, but holds no
image. -/
def readImage (t : FileTree) (path : String) : Except ImageError Image :=
  match t.openFile path with
  | .error e => .error (.unreadable path e.message)
  | .ok none => .error .corrupt
  | .ok (some content) => Image.ofBytes content

def saveImage (t : FileTree) (path : String) (image : Image) : Except ImageError FileTree :=
  match t.write path (Json.utf8 image.fileText) with
  | .error e => .error (.unreadable path e.message)
  | .ok t => .ok t

end FileTree

end AccumulatorMachine
