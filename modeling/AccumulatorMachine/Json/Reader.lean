import AccumulatorMachine.Json.Token

/-!
# Reading JSON

Tokens become a tree by a machine with a stack, one frame for each container that is still open, so
that values may nest to any depth. `Json.ofBytes?` reads a whole text and refuses anything that
follows its value.
-/

namespace AccumulatorMachine.Json

variable {σ : Type}

/-- A container that is still open, its finished entries reversed. -/
inductive Frame (σ : Type)
  | items (read : List (Json σ))
  | fields (read : List (σ × Json σ)) (key : σ)

/-- What has been read of a text, by what may come next. -/
inductive Reading (σ : Type)
  /-- A value. -/
  | value (stack : List (Frame σ))
  /-- The first item of an array, or its end. -/
  | firstItem (stack : List (Frame σ))
  /-- A comma, or the end of an array. -/
  | afterItem (read : List (Json σ)) (stack : List (Frame σ))
  /-- The first key of an object, or its end. -/
  | firstKey (stack : List (Frame σ))
  /-- A key. -/
  | key (read : List (σ × Json σ)) (stack : List (Frame σ))
  /-- The colon after a key. -/
  | colon (read : List (σ × Json σ)) (key : σ) (stack : List (Frame σ))
  /-- A comma, or the end of an object. -/
  | afterField (read : List (σ × Json σ)) (stack : List (Frame σ))
  /-- Nothing. -/
  | done (value : Json σ)

namespace Reading

/-- A finished value takes its place in the innermost open container. -/
def deliver (j : Json σ) : List (Frame σ) → Reading σ
  | [] => .done j
  | .items read :: stack => .afterItem (j :: read) stack
  | .fields read k :: stack => .afterField ((k, j) :: read) stack

/-- A token where a value has to come. -/
def startValue? (stack : List (Frame Content)) : Token → Option (Reading Content)
  | .null => some (deliver .null stack)
  | .bool b => some (deliver (.bool b) stack)
  | .number n => some (deliver (.number n) stack)
  | .string c => some (deliver (.string c) stack)
  | .leftBracket => some (.firstItem stack)
  | .leftBrace => some (.firstKey stack)
  | _ => none

def step? : Reading Content → Token → Option (Reading Content)
  | .value stack, t => startValue? stack t
  | .firstItem stack, .rightBracket => some (deliver (.array []) stack)
  | .firstItem stack, t => startValue? (.items [] :: stack) t
  | .afterItem read stack, .comma => some (.value (.items read :: stack))
  | .afterItem read stack, .rightBracket => some (deliver (.array read.reverse) stack)
  | .firstKey stack, .rightBrace => some (deliver (.object []) stack)
  | .firstKey stack, .string k => some (.colon [] k stack)
  | .key read stack, .string k => some (.colon read k stack)
  | .colon read k stack, .colon => some (.value (.fields read k :: stack))
  | .afterField read stack, .comma => some (.key read stack)
  | .afterField read stack, .rightBrace => some (deliver (.object read.reverse) stack)
  | _, _ => none

def finish? : Reading σ → Option (Json σ)
  | .done j => some j
  | _ => none

end Reading

def ofTokens? (ts : List Token) : Option (Json Content) :=
  (ts.foldlM Reading.step? (.value [])).bind Reading.finish?

/-- The tree of a text, its strings and keys as they stand between the quotes. -/
def ofBytes? (bs : List UInt8) : Option (Json Content) := (Token.ofBytes? bs).bind ofTokens?

/-- The value of a text all of whose strings and keys have a meaning. -/
def valueOfBytes? (bs : List UInt8) : Option (Json String) :=
  (ofBytes? bs).bind (mapStrings? Content.text?)

def utf8 (text : String) : List UInt8 := text.toByteArray.data.toList

end AccumulatorMachine.Json
