import AccumulatorMachine.Json.Number

/-!
# Writing JSON

Two layouts: compact, with no space at all, and indented, with two spaces for each open container
and each entry on a line of its own. Only the quote, the backslash and the control characters of
ASCII below the space are escaped.
-/

namespace AccumulatorMachine.Json

/-- A character inside a string literal. -/
def escapedChar (c : Char) : List Char :=
  match c with
  | '"' => ['\\', '"']
  | '\\' => ['\\', '\\']
  | '\x08' => ['\\', 'b']
  | '\t' => ['\\', 't']
  | '\n' => ['\\', 'n']
  | '\x0c' => ['\\', 'f']
  | '\r' => ['\\', 'r']
  | c =>
    if c.toNat < 0x20 then
      ['\\', 'u', '0', '0', Nat.digitChar (c.toNat / 16), Nat.digitChar (c.toNat % 16)]
    else [c]

def literal (s : String) : List Char := '"' :: (s.toList.flatMap escapedChar ++ ['"'])

mutual

def compactChars : Json String → List Char
  | .null => ['n', 'u', 'l', 'l']
  | .bool true => ['t', 'r', 'u', 'e']
  | .bool false => ['f', 'a', 'l', 's', 'e']
  | .number n => n.lexeme
  | .string s => literal s
  | .array [] => ['[', ']']
  | .array (j :: rest) => '[' :: (compactChars j ++ compactItems rest)
  | .object [] => ['\x7b', '\x7d']
  | .object ((key, j) :: rest) =>
    '\x7b' :: (literal key ++ ':' :: (compactChars j ++ compactFields rest))

/-- The items after the first, and the end of the array. -/
def compactItems : List (Json String) → List Char
  | [] => [']']
  | j :: rest => ',' :: (compactChars j ++ compactItems rest)

/-- The fields after the first, and the end of the object. -/
def compactFields : List (String × Json String) → List Char
  | [] => ['\x7d']
  | (key, j) :: rest => ',' :: (literal key ++ ':' :: (compactChars j ++ compactFields rest))

end

def newline (depth : Nat) : List Char := '\n' :: List.replicate (2 * depth) ' '

mutual

def indentedChars (depth : Nat) : Json String → List Char
  | .null => ['n', 'u', 'l', 'l']
  | .bool true => ['t', 'r', 'u', 'e']
  | .bool false => ['f', 'a', 'l', 's', 'e']
  | .number n => n.lexeme
  | .string s => literal s
  | .array [] => ['[', ']']
  | .array (j :: rest) =>
    '[' :: (newline (depth + 1) ++ (indentedChars (depth + 1) j ++ indentedItems depth rest))
  | .object [] => ['\x7b', '\x7d']
  | .object ((key, j) :: rest) =>
    '\x7b' :: (newline (depth + 1) ++ (literal key ++ ':' :: ' ' ::
      (indentedChars (depth + 1) j ++ indentedFields depth rest)))

def indentedItems (depth : Nat) : List (Json String) → List Char
  | [] => newline depth ++ [']']
  | j :: rest =>
    ',' :: (newline (depth + 1) ++ (indentedChars (depth + 1) j ++ indentedItems depth rest))

def indentedFields (depth : Nat) : List (String × Json String) → List Char
  | [] => newline depth ++ ['\x7d']
  | (key, j) :: rest =>
    ',' :: (newline (depth + 1) ++ (literal key ++ ':' :: ' ' ::
      (indentedChars (depth + 1) j ++ indentedFields depth rest)))

end

def compact (j : Json String) : String := String.ofList (compactChars j)

def indented (j : Json String) : String := String.ofList (indentedChars 0 j)

end AccumulatorMachine.Json
