import AccumulatorMachine.Json.Number

/-!
# Taking JSON values apart

How records, tagged alternatives and bounded numbers are found in a JSON value. A record is an
object, in which unknown fields do not matter and a known one must not occur twice, or an array of
its fields in order. An alternative without data is its tag, or an object that maps its tag to
`null`; one with data is an object that maps its tag to the data.
-/

namespace AccumulatorMachine.Json

/-- The value under a name: `some none` if there is none, refused if there are several. -/
def field? {α : Type} (fields : List (String × α)) (name : String) : Option (Option α) :=
  match fields.filter (·.1 = name) with
  | [] => some none
  | [(_, value)] => some (some value)
  | _ => none

/-- The fields of a record in the order of `names`, absent ones as `none`. -/
def record? (names : List String) : Json String → Option (List (Option (Json String)))
  | .array items => if items.length = names.length then some (items.map some) else none
  | .object fields => names.mapM (field? fields)
  | _ => none

/-- The tag of an alternative and its data. -/
def alternative? : Json String → Option (String × Option (Json String))
  | .string tag => some (tag, none)
  | .object [(tag, data)] => some (tag, some data)
  | _ => none

/-- The tag of an alternative without data. -/
def tag? (j : Json String) : Option String :=
  match alternative? j with
  | some (tag, none) => some tag
  | some (tag, some .null) => some tag
  | _ => none

/-- The alternative without data that a value names, among those that there are. -/
def ofTag? {α : Type} (all : List α) (tag : α → String) (j : Json String) : Option α :=
  (tag? j).bind fun t => all.find? (tag · = t)

def intBetween? (low high : Int) : Json String → Option Int
  | .number (.integer n) => if low ≤ n ∧ n ≤ high then some n else none
  | _ => none

def natBelow? (bound : Nat) (j : Json String) : Option Nat :=
  (intBetween? 0 (bound - 1) j).map Int.toNat

def bool? : Json String → Option Bool
  | .bool b => some b
  | _ => none

def string? : Json String → Option String
  | .string s => some s
  | _ => none

/-- A value that may be absent: nothing for `null` and for a field that is not there. -/
def optional? {α : Type} (read : Json String → Option α) : Option (Json String) → Option (Option α)
  | none => some none
  | some .null => some none
  | some j => (read j).map some

/-- The items of an array, each read alike. -/
def items? {α : Type} (read : Json String → Option α) : Json String → Option (List α)
  | .array items => items.mapM read
  | _ => none

/-- The natural number below a bound that a key denotes. -/
def natKey? (bound : Nat) (key : String) : Option Nat :=
  match Number.ofLexeme? key.toList with
  | some n => natBelow? bound (.number n)
  | none => none

end AccumulatorMachine.Json
