import AccumulatorMachine.Json.Reader

/-!
# Trees and their tokens

The tokens of a tree, and the machine that makes the tree out of them again: started where a value
may come, it ends where the tree has been delivered.
-/

namespace AccumulatorMachine.Json

mutual

def tokens : Json Content → List Token
  | .null => [.null]
  | .bool b => [.bool b]
  | .number n => [.number n]
  | .string c => [.string c]
  | .array [] => [.leftBracket, .rightBracket]
  | .array (j :: rest) => .leftBracket :: (tokens j ++ itemTokens rest)
  | .object [] => [.leftBrace, .rightBrace]
  | .object ((key, j) :: rest) =>
    .leftBrace :: .string key :: .colon :: (tokens j ++ fieldTokens rest)

/-- The tokens of the items after the first, and of the end of the array. -/
def itemTokens : List (Json Content) → List Token
  | [] => [.rightBracket]
  | j :: rest => .comma :: (tokens j ++ itemTokens rest)

/-- The tokens of the fields after the first, and of the end of the object. -/
def fieldTokens : List (Content × Json Content) → List Token
  | [] => [.rightBrace]
  | (key, j) :: rest => .comma :: .string key :: .colon :: (tokens j ++ fieldTokens rest)

end

namespace Reading

theorem foldlM_firstItem (j : Json Content) (stack : List (Frame Content)) (rest : List Token) :
    (tokens j ++ rest).foldlM step? (.firstItem stack) =
      (tokens j ++ rest).foldlM step? (.value (.items [] :: stack)) := by
  unfold tokens
  split <;> rfl

mutual

/-- The tokens of a tree deliver it. -/
theorem foldlM_tokens (j : Json Content) (stack : List (Frame Content)) (rest : List Token) :
    (tokens j ++ rest).foldlM step? (.value stack) = rest.foldlM step? (deliver j stack) := by
  cases j with
  | null | bool | number | string => rfl
  | array items =>
    cases items with
    | nil => rfl
    | cons j items =>
      calc
        _ = (tokens j ++ (itemTokens items ++ rest)).foldlM step? (.firstItem stack) := by
          rw [tokens, List.cons_append, List.append_assoc]
          rfl
        _ = (itemTokens items ++ rest).foldlM step? (.afterItem [j] stack) := by
          rw [foldlM_firstItem, foldlM_tokens]
          rfl
        _ = _ := foldlM_itemTokens items [j] stack rest
  | object fields =>
    cases fields with
    | nil => rfl
    | cons field fields =>
      obtain ⟨key, j⟩ := field
      calc
        _ = (tokens j ++ (fieldTokens fields ++ rest)).foldlM step?
            (.value (.fields [] key :: stack)) := by
          rw [tokens, List.cons_append, List.cons_append, List.cons_append, List.append_assoc]
          rfl
        _ = (fieldTokens fields ++ rest).foldlM step? (.afterField [(key, j)] stack) :=
          foldlM_tokens ..
        _ = _ := foldlM_fieldTokens fields [(key, j)] stack rest

theorem foldlM_itemTokens (items read : List (Json Content)) (stack : List (Frame Content))
    (rest : List Token) :
    (itemTokens items ++ rest).foldlM step? (.afterItem read stack) =
      rest.foldlM step? (deliver (.array (read.reverse ++ items)) stack) := by
  cases items with
  | nil =>
    rw [List.append_nil]
    rfl
  | cons j items =>
    calc
      _ = (tokens j ++ (itemTokens items ++ rest)).foldlM step?
          (.value (.items read :: stack)) := by
        rw [itemTokens, List.cons_append, List.append_assoc]
        rfl
      _ = (itemTokens items ++ rest).foldlM step? (.afterItem (j :: read) stack) :=
        foldlM_tokens ..
      _ = _ := by
        rw [foldlM_itemTokens, List.reverse_cons, List.append_assoc, List.singleton_append]

theorem foldlM_fieldTokens (fields read : List (Content × Json Content))
    (stack : List (Frame Content)) (rest : List Token) :
    (fieldTokens fields ++ rest).foldlM step? (.afterField read stack) =
      rest.foldlM step? (deliver (.object (read.reverse ++ fields)) stack) := by
  cases fields with
  | nil =>
    rw [List.append_nil]
    rfl
  | cons field fields =>
    obtain ⟨key, j⟩ := field
    calc
      _ = (tokens j ++ (fieldTokens fields ++ rest)).foldlM step?
          (.value (.fields read key :: stack)) := by
        rw [fieldTokens, List.cons_append, List.cons_append, List.cons_append, List.append_assoc]
        rfl
      _ = (fieldTokens fields ++ rest).foldlM step? (.afterField ((key, j) :: read) stack) :=
        foldlM_tokens ..
      _ = _ := by
        rw [foldlM_fieldTokens, List.reverse_cons, List.append_assoc, List.singleton_append]

end

end Reading

theorem ofTokens?_tokens (j : Json Content) : ofTokens? (tokens j) = some j := by
  have hread := Reading.foldlM_tokens j [] []
  rw [List.append_nil] at hread
  rw [ofTokens?, hread]
  rfl

end AccumulatorMachine.Json
