import AccumulatorMachine.Text.Numeral
import AccumulatorMachine.Text.Quoted

/-!
# Descriptions

The one-line form in which values are described: a name, then the fields in braces.
-/

namespace AccumulatorMachine.Text

/-- A name and its fields, each with its own name. -/
def describeRecord (name : String) (fields : List (String × String)) : String :=
  name ++ " \x7b " ++ String.intercalate ", " (fields.map fun (key, value) => key ++ ": " ++ value)
    ++ " \x7d"

end AccumulatorMachine.Text
