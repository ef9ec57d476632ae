import AccumulatorMachine.Json.Basic

/-!
# Configuration of a controller

The pause between the instructions of a worker, which has a least length, and the cycle limit of a
run to completion.
-/

namespace AccumulatorMachine

/-- The shortest pause between two instructions of a worker, in milliseconds. -/
def minimumDelay : Nat := 10

/-- How a controller runs: how long a worker pauses between instructions, and after how many cycles
a run to completion is paused. -/
structure Config where
  delay : Nat
  cycleLimit : Option UInt64
  minimumDelay_le : minimumDelay ≤ delay

namespace Config

def new (delay : Nat) : Config := ⟨max delay minimumDelay, none, Nat.le_max_right ..⟩

def default : Config := new minimumDelay

def withCycleLimit (c : Config) (limit : UInt64) : Config := { c with cycleLimit := some limit }

def setDelay (c : Config) (delay : Nat) : Config :=
  { c with delay := max delay minimumDelay, minimumDelay_le := Nat.le_max_right .. }

def nanosPerMilli : Nat := 1000000

/-- A delay is written as whole seconds and the nanoseconds beyond them. -/
def toJson (c : Config) : Json String :=
  .object [("delay", .object [("secs", Json.int (c.delay / 1000 : Nat)),
      ("nanos", Json.int (c.delay % 1000 * nanosPerMilli : Nat))]),
    ("cycle_limit", .ofOption (c.cycleLimit.map fun limit => Json.int limit.toNat))]

end Config

end AccumulatorMachine
