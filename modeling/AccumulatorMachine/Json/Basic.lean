import AccumulatorMachine.Text.Numeral

/-!
# JSON values

The tree that a JSON text denotes. It is generic in its strings: a text that has only been checked
for syntax holds string literals as they stand between the quotes, a value that means something
holds text.
-/

namespace AccumulatorMachine

namespace Json

/-- A number: an integer, or a numeral that is not one because it has a fraction or an exponent or
is a negative zero. -/
inductive Number
  | integer (n : Int)
  | other (lexeme : List Char)
  deriving DecidableEq, Repr

end Json

inductive Json (σ : Type)
  | null
  | bool (b : Bool)
  | number (n : Json.Number)
  | string (s : σ)
  | array (items : List (Json σ))
  | object (fields : List (σ × Json σ))

namespace Json

variable {σ τ : Type}

def int (n : Int) : Json σ := .number (.integer n)

/-- A value that may be absent: `null` stands for nothing. -/
def ofOption : Option (Json σ) → Json σ
  | some j => j
  | none => .null

mutual

/-- Give every string and key its meaning; refused if one of them has none. -/
def mapStrings? (f : σ → Option τ) : Json σ → Option (Json τ)
  | .null => some .null
  | .bool b => some (.bool b)
  | .number n => some (.number n)
  | .string s => (f s).map .string
  | .array items => (mapItems? f items).map .array
  | .object fields => (mapFields? f fields).map .object

def mapItems? (f : σ → Option τ) : List (Json σ) → Option (List (Json τ))
  | [] => some []
  | j :: rest => do
    let j ← mapStrings? f j
    let rest ← mapItems? f rest
    return j :: rest

def mapFields? (f : σ → Option τ) : List (σ × Json σ) → Option (List (τ × Json τ))
  | [] => some []
  | (key, j) :: rest => do
    let key ← f key
    let j ← mapStrings? f j
    let rest ← mapFields? f rest
    return (key, j) :: rest

end

end Json

end AccumulatorMachine
