import AccumulatorMachine.Proofs.JsonSpelling
import AccumulatorMachine.Proofs.JsonTree

/-!
# Written values are read back

The two layouts differ in the blanks they put around the entries of a container. Whatever these
blanks are, the text of a value spells the tokens of the value, and is read as the tree whose
strings are the contents of the literals.
-/

namespace AccumulatorMachine.Json

section trees

variable {σ τ : Type} (f : σ → τ)

mutual

def mapStrings : Json σ → Json τ
  | .null => .null
  | .bool b => .bool b
  | .number n => .number n
  | .string s => .string (f s)
  | .array items => .array (mapItems items)
  | .object fields => .object (mapFields fields)

def mapItems : List (Json σ) → List (Json τ)
  | [] => []
  | j :: rest => mapStrings j :: mapItems rest

def mapFields : List (σ × Json σ) → List (τ × Json τ)
  | [] => []
  | (key, j) :: rest => (f key, mapStrings j) :: mapFields rest

end

mutual

def numbers : Json σ → List Number
  | .number n => [n]
  | .array items => itemNumbers items
  | .object fields => fieldNumbers fields
  | _ => []

def itemNumbers : List (Json σ) → List Number
  | [] => []
  | j :: rest => numbers j ++ itemNumbers rest

def fieldNumbers : List (σ × Json σ) → List Number
  | [] => []
  | (_, j) :: rest => numbers j ++ fieldNumbers rest

end

end trees

/-- A number whose numeral is read as the number. -/
structure Number.ReadsBack (n : Number) : Prop where
  bare : (encode n.lexeme).all Token.isBare = true
  token : Token.ofBare? (encode n.lexeme) = some (.number n)

/-- A way of writing values, which may depend on their depth. Blanks may stand in front of an entry
and of the end of a container, and behind a colon. -/
structure Layout where
  lineBreak : Nat → List Char
  afterColon : List Char
  isBlank_lineBreak : ∀ depth, ∀ c ∈ lineBreak depth, IsBlank c
  isBlank_afterColon : ∀ c ∈ afterColon, IsBlank c
  value : Nat → Json String → List Char
  /-- The items after the first, and the end of the array. -/
  items : Nat → List (Json String) → List Char
  /-- The fields after the first, and the end of the object. -/
  fields : Nat → List (String × Json String) → List Char
  value_null : ∀ depth, value depth .null = ['n', 'u', 'l', 'l']
  value_true : ∀ depth, value depth (.bool true) = ['t', 'r', 'u', 'e']
  value_false : ∀ depth, value depth (.bool false) = ['f', 'a', 'l', 's', 'e']
  value_number : ∀ depth n, value depth (.number n) = n.lexeme
  value_string : ∀ depth s, value depth (.string s) = literal s
  value_array_nil : ∀ depth, value depth (.array []) = ['[', ']']
  value_array_cons : ∀ depth j rest, value depth (.array (j :: rest)) =
    '[' :: (lineBreak (depth + 1) ++ (value (depth + 1) j ++ items depth rest))
  value_object_nil : ∀ depth, value depth (.object []) = ['\x7b', '\x7d']
  value_object_cons : ∀ depth key j rest, value depth (.object ((key, j) :: rest)) =
    '\x7b' :: (lineBreak (depth + 1) ++ (literal key ++ ':' :: (afterColon ++
      (value (depth + 1) j ++ fields depth rest))))
  items_nil : ∀ depth, items depth [] = lineBreak depth ++ [']']
  items_cons : ∀ depth j rest, items depth (j :: rest) =
    ',' :: (lineBreak (depth + 1) ++ (value (depth + 1) j ++ items depth rest))
  fields_nil : ∀ depth, fields depth [] = lineBreak depth ++ ['\x7d']
  fields_cons : ∀ depth key j rest, fields depth ((key, j) :: rest) =
    ',' :: (lineBreak (depth + 1) ++ (literal key ++ ':' :: (afterColon ++
      (value (depth + 1) j ++ fields depth rest))))

namespace Layout

def compact : Layout where
  lineBreak _ := []
  afterColon := []
  isBlank_lineBreak := by simp
  isBlank_afterColon := by simp
  value _ := compactChars
  items _ := compactItems
  fields _ := compactFields
  value_null _ := rfl
  value_true _ := rfl
  value_false _ := rfl
  value_number _ _ := rfl
  value_string _ _ := rfl
  value_array_nil _ := rfl
  value_array_cons _ _ _ := rfl
  value_object_nil _ := rfl
  value_object_cons _ _ _ _ := rfl
  items_nil _ := rfl
  items_cons _ _ _ := rfl
  fields_nil _ := rfl
  fields_cons _ _ _ _ := rfl

def indented : Layout where
  lineBreak := newline
  afterColon := [' ']
  isBlank_lineBreak := by
    intro depth c hc
    rcases List.mem_cons.1 hc with rfl | hc
    · rfl
    · rw [List.eq_of_mem_replicate hc]
      rfl
  isBlank_afterColon := by
    intro c hc
    rw [List.mem_singleton.1 hc]
    rfl
  value := indentedChars
  items := indentedItems
  fields := indentedFields
  value_null _ := rfl
  value_true _ := rfl
  value_false _ := rfl
  value_number _ _ := rfl
  value_string _ _ := rfl
  value_array_nil _ := rfl
  value_array_cons _ _ _ := rfl
  value_object_nil _ := rfl
  value_object_cons _ _ _ _ := rfl
  items_nil _ := rfl
  items_cons _ _ _ := rfl
  fields_nil _ := rfl
  fields_cons _ _ _ _ := rfl

variable (L : Layout)

theorem stops_items (items : List (Json String)) (depth : Nat) (cs : List Char) :
    Stops (L.items depth items ++ cs) := by
  cases items with
  | nil =>
    have hmark : IsMark ']' .rightBracket := rfl
    rw [L.items_nil, List.append_assoc]
    exact .blanks (L.isBlank_lineBreak depth) (hmark.stops cs)
  | cons j items =>
    have hmark : IsMark ',' .comma := rfl
    rw [L.items_cons]
    exact hmark.stops _

theorem stops_fields (fields : List (String × Json String)) (depth : Nat) (cs : List Char) :
    Stops (L.fields depth fields ++ cs) := by
  cases fields with
  | nil =>
    have hmark : IsMark '\x7d' .rightBrace := rfl
    rw [L.fields_nil, List.append_assoc]
    exact .blanks (L.isBlank_lineBreak depth) (hmark.stops cs)
  | cons field fields =>
    have hmark : IsMark ',' .comma := rfl
    rw [L.fields_cons]
    exact hmark.stops _

mutual

theorem spells_value (j : Json String) (hj : ∀ n ∈ numbers j, n.ReadsBack) (depth : Nat)
    {ts : List Token} {cs : List Char} (hstop : Stops cs) (hcs : Spells ts cs) :
    Spells (tokens (mapStrings contentOf j) ++ ts) (L.value depth j ++ cs) := by
  cases j with
  | null =>
    rw [L.value_null]
    exact .word rfl rfl hstop hcs
  | bool b =>
    cases b with
    | true =>
      rw [L.value_true]
      exact .word rfl rfl hstop hcs
    | false =>
      rw [L.value_false]
      exact .word rfl rfl hstop hcs
  | number n =>
    have hn := hj n (List.mem_singleton_self n)
    rw [L.value_number]
    exact .word hn.bare hn.token hstop hcs
  | string s =>
    rw [L.value_string]
    exact .string s hcs
  | array items =>
    cases items with
    | nil =>
      rw [L.value_array_nil]
      exact .mark rfl (.mark rfl hcs)
    | cons j items =>
      rw [mapStrings, mapItems, tokens, L.value_array_cons]
      simp only [List.cons_append, List.append_assoc]
      refine .mark rfl (.blanks (L.isBlank_lineBreak _) ?_)
      -- A word or numeral in front of the other items, or of the end, does not run on into them.
      exact spells_value j (fun n hn => hj n (List.mem_append_left _ hn)) _
        (L.stops_items items depth cs)
        (spells_items items (fun n hn => hj n (List.mem_append_right _ hn)) depth hcs)
  | object fields =>
    cases fields with
    | nil =>
      rw [L.value_object_nil]
      exact .mark rfl (.mark rfl hcs)
    | cons field fields =>
      obtain ⟨key, j⟩ := field
      rw [mapStrings, mapFields, tokens, L.value_object_cons]
      simp only [List.cons_append, List.append_assoc]
      refine .mark rfl (.blanks (L.isBlank_lineBreak _) (.string key (.mark rfl
        (.blanks L.isBlank_afterColon ?_))))
      exact spells_value j (fun n hn => hj n (List.mem_append_left _ hn)) _
        (L.stops_fields fields depth cs)
        (spells_fields fields (fun n hn => hj n (List.mem_append_right _ hn)) depth hcs)

theorem spells_items (items : List (Json String))
    (hitems : ∀ n ∈ itemNumbers items, n.ReadsBack) (depth : Nat) {ts : List Token}
    {cs : List Char} (hcs : Spells ts cs) :
    Spells (itemTokens (mapItems contentOf items) ++ ts) (L.items depth items ++ cs) := by
  cases items with
  | nil =>
    rw [L.items_nil, List.append_assoc]
    exact .blanks (L.isBlank_lineBreak depth) (.mark rfl hcs)
  | cons j items =>
    rw [mapItems, itemTokens, L.items_cons]
    simp only [List.cons_append, List.append_assoc]
    refine .mark rfl (.blanks (L.isBlank_lineBreak _) ?_)
    exact spells_value j (fun n hn => hitems n (List.mem_append_left _ hn)) _
      (L.stops_items items depth cs)
      (spells_items items (fun n hn => hitems n (List.mem_append_right _ hn)) depth hcs)

theorem spells_fields (fields : List (String × Json String))
    (hfields : ∀ n ∈ fieldNumbers fields, n.ReadsBack) (depth : Nat) {ts : List Token}
    {cs : List Char} (hcs : Spells ts cs) :
    Spells (fieldTokens (mapFields contentOf fields) ++ ts) (L.fields depth fields ++ cs) := by
  cases fields with
  | nil =>
    rw [L.fields_nil, List.append_assoc]
    exact .blanks (L.isBlank_lineBreak depth) (.mark rfl hcs)
  | cons field fields =>
    obtain ⟨key, j⟩ := field
    rw [mapFields, fieldTokens, L.fields_cons]
    simp only [List.cons_append, List.append_assoc]
    refine .mark rfl (.blanks (L.isBlank_lineBreak _) (.string key (.mark rfl
      (.blanks L.isBlank_afterColon ?_))))
    exact spells_value j (fun n hn => hfields n (List.mem_append_left _ hn)) _
      (L.stops_fields fields depth cs)
      (spells_fields fields (fun n hn => hfields n (List.mem_append_right _ hn)) depth hcs)

end

theorem ofBytes?_value {j : Json String} (hj : ∀ n ∈ numbers j, n.ReadsBack) (depth : Nat) :
    ofBytes? (encode (L.value depth j)) = some (mapStrings contentOf j) := by
  have hstop : Stops [] := by simp [Stops, encode]
  have hspells := L.spells_value j hj depth hstop .nil
  rw [List.append_nil, List.append_nil] at hspells
  rw [ofBytes?, hspells.ofBytes?, Option.bind_some, ofTokens?_tokens]

end Layout

/-- Both texts of a value are read as the tree of the value. -/
theorem ofBytes?_compact {j : Json String} (hj : ∀ n ∈ numbers j, n.ReadsBack) :
    ofBytes? (utf8 (compact j)) = some (mapStrings contentOf j) := by
  rw [compact, utf8_ofList]
  exact Layout.compact.ofBytes?_value hj 0

theorem ofBytes?_indented {j : Json String} (hj : ∀ n ∈ numbers j, n.ReadsBack) :
    ofBytes? (utf8 (indented j)) = some (mapStrings contentOf j) := by
  rw [indented, utf8_ofList]
  exact Layout.indented.ofBytes?_value hj 0

end AccumulatorMachine.Json
