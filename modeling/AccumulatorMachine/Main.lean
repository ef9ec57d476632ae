import AccumulatorMachine.CommandLine.Execute

/-!
# The program

The outer layer of the command line: it reads files and standard input, and prints. What is read
and printed is decided elsewhere.
-/

namespace AccumulatorMachine.CommandLine

/-- Ticks after which a run is given up. -/
def patience : Nat := 1 <<< 62

def accessMessage (e : IO.Error) : String :=
  match e with
  | .noFileOrDirectory _ code details | .permissionDenied _ code details
  | .inappropriateType _ code details | .resourceExhausted _ code details
  | .invalidArgument _ code details | .otherError code details =>
    details ++ " (os error " ++ Text.decimalText code.toNat ++ ")"
  | other => toString other

/-- Read an image from disk. What can be opened but not read holds no image. -/
def readImageFile (path : String) : IO (Except ImageError Image) := do
  match ← (IO.FS.Handle.mk path .read).toBaseIO with
  | .error e => return .error (.unreadable path (accessMessage e))
  | .ok handle =>
    match ← handle.readBinToEnd.toBaseIO with
    | .error _ => return .error .corrupt
    | .ok content => return Image.ofBytes content.data.toList

def isReadableFile (path : String) : IO Bool := do
  match ← (IO.FS.readBinFile path).toBaseIO with
  | .ok _ => return true
  | .error _ => return false

/-- The bytes up to and with the next line feed. What has been read is kept reversed. -/
partial def lineBytes (stdin : IO.FS.Stream) (read : List UInt8) : IO (List UInt8) := do
  match (← stdin.read 1).data.toList with
  | [] => return read.reverse
  | b :: _ => if b = 0x0A then return (b :: read).reverse else lineBytes stdin (b :: read)

def nextLine (stdin : IO.FS.Stream) : IO (Option InputLine) := do
  return (inputLines (← lineBytes stdin [])).head?

def flushRun (r : Run) : IO Run := do
  IO.print r.stdout
  IO.eprint r.stderr
  (← IO.getStdout).flush
  return { r with stdout := "", stderr := "" }

partial def driveRun (stdin : IO.FS.Stream) (r : Run) : IO Run := do
  let r ← flushRun (r.advance patience)
  if r.status = .awaitingInput then
    driveRun stdin (r.answer patience (← nextLine stdin))
  else
    return r

def printReport (report : Report) : IO UInt32 := do
  IO.print report.stdout
  IO.eprint report.stderr
  return UInt32.ofNat report.exit

def runProgram (program : String) (options : RunOptions) : IO UInt32 := do
  let image ← readImageFile (Companions.ofPath program).image
  match Run.ofImage program options image with
  | .error report => printReport report
  | .ok r =>
    let r ← driveRun (← IO.getStdin) (r.start patience)
    match r.dump? with
    | none => printReport r.report
    | some (path, text) =>
      match ← (IO.FS.writeFile path text).toBaseIO with
      | .ok _ => printReport r.report
      | .error e => printReport (r.reportUnwritten (accessMessage e))

def runRequest : Request → IO UInt32
  | .run program options => runProgram program options
  | .list program => do
    let files := Companions.ofPath program
    printReport
      (listReport program (← readImageFile files.image) (← isReadableFile files.symbolTable))
  | request => printReport (execute patience request [] .empty).1

end AccumulatorMachine.CommandLine

def main (args : List String) : IO UInt32 :=
  AccumulatorMachine.CommandLine.runRequest (AccumulatorMachine.CommandLine.parse args)
