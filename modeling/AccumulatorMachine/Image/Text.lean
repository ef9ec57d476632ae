import AccumulatorMachine.Image.Basic
import AccumulatorMachine.Json.Fields
import AccumulatorMachine.Json.Reader
import AccumulatorMachine.Json.Writer

/-!
# Images as text

An image is a JSON array of records. A record is an object of text fields, of which any may be
missing, or an array of at most five texts in the order of the fields. Strings that are not kept
need no meaning as text.
-/

namespace AccumulatorMachine.Image

namespace Record

def fieldNames : List String := ["address", "label", "mnemonic", "operand_token", "word"]

def toJson (r : Record) : Json String :=
  .object [("address", .string r.address), ("label", .string r.label),
    ("mnemonic", .string r.mnemonic), ("operand_token", .string r.operandToken),
    ("word", .string r.word)]

def text? : Json Json.Content → Option String
  | .string c => c.text?
  | _ => none

/-- A record whose fields are given in order, missing ones empty. -/
def ofTexts (texts : List String) : Record where
  address := texts.getD 0 ""
  label := texts.getD 1 ""
  mnemonic := texts.getD 2 ""
  operandToken := texts.getD 3 ""
  word := texts.getD 4 ""

/-- The text of a field of an object, empty if the field is missing. -/
def namedText? (fields : List (String × Json Json.Content)) (name : String) : Option String :=
  match Json.field? fields name with
  | none => none
  | some none => some ""
  | some (some j) => text? j

def ofJson? : Json Json.Content → Option Record
  | .array items =>
    if items.length ≤ fieldNames.length then (items.mapM text?).map ofTexts else none
  | .object fields => do
    let fields ← fields.mapM fun (key, j) => return (← key.text?, j)
    let texts ← fieldNames.mapM (namedText? fields)
    return ofTexts texts
  | _ => none

end Record

def toJson (image : Image) : Json String := .array (image.records.map Record.toJson)

def ofJson? : Json Json.Content → Option Image
  | .array items => (items.mapM Record.ofJson?).map Image.mk
  | _ => none

/-- The image that a text denotes. -/
def ofBytes (bs : List UInt8) : Except ImageError Image :=
  match (Json.ofBytes? bs).bind ofJson? with
  | some image => .ok image
  | none => .error .corrupt

def ofText (text : String) : Except ImageError Image := ofBytes (Json.utf8 text)

def compactText (image : Image) : String := Json.compact image.toJson

/-- The text that image files hold. -/
def fileText (image : Image) : String := Json.indented image.toJson

end AccumulatorMachine.Image
