import AccumulatorMachine.Display

/-!
# Command-line arguments

`run` and `list` each take one program. Options may stand before or after it, a value may follow
its option or an equals sign, and nothing may be given twice. Arguments after `--` are programs.
-/

namespace AccumulatorMachine.CommandLine

structure RunOptions where
  inputMode : DisplayMode
  outputMode : DisplayMode
  linefeeds : Bool
  trace : Bool
  dump : Bool
  maxCycles : Option UInt64
  deriving DecidableEq, Repr

inductive Topic
  | program
  | run
  | list
  | help
  deriving DecidableEq, Repr

/-- What the arguments ask for. -/
inductive Request
  | run (program : String) (options : RunOptions)
  | list (program : String)
  | help (topic : Topic)
  | version
  /-- The arguments make no sense. -/
  | refused
  deriving DecidableEq, Repr

structure RunDraft where
  program : Option String
  inputMode : Option DisplayMode
  outputMode : Option DisplayMode
  noLinefeeds : Bool
  trace : Bool
  dump : Bool
  maxCycles : Option UInt64

/-- What one argument, or an option with its value, makes of what was read before. -/
inductive Step (α : Type)
  | next (draft : α)
  | help
  | refused

/-- An argument that cannot be a value or a program: it begins with a hyphen and has more. -/
def isOption (arg : String) : Bool := arg.startsWith "-" && arg ≠ "-"

/-- The name of a long option, and the value after its equals sign. -/
def splitLong (arg : String) : String × Option String :=
  let cs := arg.toList.drop 2
  let name := String.ofList (cs.takeWhile (· ≠ '='))
  match cs.dropWhile (· ≠ '=') with
  | [] => (name, none)
  | _ :: value => (name, some (String.ofList value))

namespace RunDraft

def empty : RunDraft := ⟨none, none, none, false, false, false, none⟩

def finish (d : RunDraft) : Request :=
  match d.program with
  | none => .refused
  | some program =>
    .run program {
      inputMode := d.inputMode.getD .decimal
      outputMode := d.outputMode.getD .decimal
      linefeeds := !d.noLinefeeds
      trace := d.trace
      dump := d.dump
      maxCycles := d.maxCycles }

def positional (d : RunDraft) (arg : String) : Step RunDraft :=
  if d.program.isSome then .refused else .next { d with program := some arg }

def flagTrace (d : RunDraft) : Step RunDraft :=
  if d.trace then .refused else .next { d with trace := true }

def flag (d : RunDraft) (name : String) : Step RunDraft :=
  if name = "help" then .help
  else if name = "trace" then d.flagTrace
  else if name = "dump" then if d.dump then .refused else .next { d with dump := true }
  else if name = "no-linefeeds" then
    if d.noLinefeeds then .refused else .next { d with noLinefeeds := true }
  else .refused

def takesValue (name : String) : Bool :=
  name = "input-mode" || name = "output-mode" || name = "max-cycles"

/-- A cycle limit: digits after an optional plus sign, below 2^64. -/
def limit? (text : String) : Option UInt64 :=
  let digits := match text.toList with
    | '+' :: cs => cs
    | cs => cs
  ((Text.unsigned? 10 digits).filter (· < UInt64.size)).map UInt64.ofNat

def value (d : RunDraft) (name text : String) : Step RunDraft :=
  if name = "max-cycles" then
    match d.maxCycles, limit? text with
    | none, some n => .next { d with maxCycles := some n }
    | _, _ => .refused
  else
    match DisplayMode.ofText text with
    | .error _ => .refused
    | .ok mode =>
      if name = "input-mode" then
        if d.inputMode.isSome then .refused else .next { d with inputMode := some mode }
      else if d.outputMode.isSome then .refused
      else .next { d with outputMode := some mode }

/-- The letters of a short option, one after the other. -/
def shorts (d : RunDraft) : List Char → Step RunDraft
  | [] => .next d
  | 't' :: cs =>
    match d.flagTrace with
    | .next d => shorts d cs
    | other => other
  | 'h' :: _ => .help
  | _ => .refused

end RunDraft

structure ListDraft where
  program : Option String

namespace ListDraft

def finish (d : ListDraft) : Request :=
  match d.program with
  | none => .refused
  | some program => .list program

def positional (d : ListDraft) (arg : String) : Step ListDraft :=
  if d.program.isSome then .refused else .next ⟨some arg⟩

end ListDraft

/-- Go on with what a step left. -/
def Step.andThen {α : Type} (s : Step α) (topic : Topic) (k : α → Request) : Request :=
  match s with
  | .next draft => k draft
  | .help => .help topic
  | .refused => .refused

/-- The arguments of `run`. The second list holds those after `--`. -/
def parseRun : RunDraft → List String → Request
  | d, [] => d.finish
  | d, arg :: rest =>
    if arg = "--" then onlyPrograms d rest
    else if arg.startsWith "--" then
      match splitLong arg with
      | (name, some text) =>
        if RunDraft.takesValue name then (d.value name text).andThen .run (parseRun · rest)
        else .refused
      | (name, none) =>
        if RunDraft.takesValue name then
          match rest with
          | [] => .refused
          | text :: rest =>
            if isOption text then .refused else (d.value name text).andThen .run (parseRun · rest)
        else (d.flag name).andThen .run (parseRun · rest)
    else if isOption arg then (d.shorts (arg.toList.drop 1)).andThen .run (parseRun · rest)
    else (d.positional arg).andThen .run (parseRun · rest)
where
  onlyPrograms : RunDraft → List String → Request
    | d, [] => d.finish
    | d, arg :: rest => (d.positional arg).andThen .run (onlyPrograms · rest)

def parseList : ListDraft → List String → Request
  | d, [] => d.finish
  | d, arg :: rest =>
    if arg = "--" then onlyPrograms d rest
    else if arg = "--help" || arg.startsWith "-h" then .help .list
    else if isOption arg then .refused
    else (d.positional arg).andThen .list (parseList · rest)
where
  onlyPrograms : ListDraft → List String → Request
    | d, [] => d.finish
    | d, arg :: rest => (d.positional arg).andThen .list (onlyPrograms · rest)

/-- The arguments of `help`: the commands it is asked about. -/
def parseHelp : List String → Request
  | [] => .help .program
  | ["run"] => .help .run
  | ["list"] => .help .list
  | ["help"] => .help .help
  | _ => .refused

def parse : List String → Request
  | [] => .refused
  | arg :: rest =>
    if arg = "run" then parseRun .empty rest
    else if arg = "list" then parseList ⟨none⟩ rest
    else if arg = "help" then parseHelp rest
    else if arg = "--help" || arg.startsWith "-h" then .help .program
    else if arg = "--version" || arg.startsWith "-V" then .version
    else .refused

end AccumulatorMachine.CommandLine
