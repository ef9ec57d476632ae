import AccumulatorMachine.Image.Text
import AccumulatorMachine.Proofs.JsonGrammar
import AccumulatorMachine.Proofs.JsonValues

/-!
# Images in any layout

An image is read from any text that lists its records: each as an object that holds the known fields
in any order, without some of those that are empty, among any unknown fields, whatever the spelling
of the names and texts and whatever the white space. A known field that occurs twice or holds no
text spoils the whole image.
-/

namespace AccumulatorMachine.Image

open Json (Content mapM_eq_some_of_forall₂)

section mapM

variable {α β : Type} {f : α → Option β} {xs : List α}

theorem mapM_eq_none_of_mem {x : α} (hx : x ∈ xs) (h : f x = none) : xs.mapM f = none := by
  induction xs with
  | nil => cases hx
  | cons y xs ih =>
    rw [List.mapM_cons]
    rcases List.mem_cons.1 hx with rfl | hx
    · rw [h]
      rfl
    · rw [ih hx]
      cases f y <;> rfl

theorem filterMap_of_mapM_eq_some {ys : List β} (h : xs.mapM f = some ys) :
    xs.filterMap f = ys := by
  induction xs generalizing ys with
  | nil =>
    cases h
    rfl
  | cons x xs ih =>
    rw [List.mapM_cons] at h
    obtain ⟨y, hy, h⟩ := Option.bind_eq_some_iff.1 h
    obtain ⟨ys', hys', h⟩ := Option.bind_eq_some_iff.1 h
    cases h
    rw [List.filterMap_cons_some hy, ih hys']

end mapM

namespace Record

/-- The fields of an object, under the names that their keys denote. -/
def Named (fields : List (Content × Json Content)) (named : List (String × Json Content)) : Prop :=
  List.Forall₂ (fun field entry => field.1.Denotes entry.1.toList ∧ field.2 = entry.2) fields named

/-- Among the fields there is one of a name, and it is a literal of a text; an empty text may also
be left out. -/
inductive Holds (named : List (String × Json Content)) (name text : String) : Prop
  | present {content : Content} (h : named.filter (·.1 = name) = [(name, .string content)])
    (htext : content.Denotes text.toList)
  | absent (h : named.filter (·.1 = name) = []) (htext : text = "")

/-- A value that lists a record: an object that holds its fields, whatever else it holds. -/
inductive Listed (r : Record) : Json Content → Prop
  | object {fields : List (Content × Json Content)} {named : List (String × Json Content)}
    (hnamed : Named fields named) (address : Holds named "address" r.address)
    (label : Holds named "label" r.label) (mnemonic : Holds named "mnemonic" r.mnemonic)
    (operandToken : Holds named "operand_token" r.operandToken) (word : Holds named "word" r.word) :
    Listed r (.object fields)

/-- An object with a known field that occurs twice, or with one that is no text. -/
inductive Unfit : Json Content → Prop
  | twice {fields : List (Content × Json Content)} {key₁ key₂ : Content} {j₁ j₂ : Json Content}
    {name : String} (hname : name ∈ fieldNames)
    (hfields : [(key₁, j₁), (key₂, j₂)].Sublist fields) (h₁ : key₁.Denotes name.toList)
    (h₂ : key₂.Denotes name.toList) : Unfit (.object fields)
  | noText {fields : List (Content × Json Content)} {key : Content} {j : Json Content}
    {name : String} (hname : name ∈ fieldNames) (hfield : (key, j) ∈ fields)
    (hkey : key.Denotes name.toList) (hj : ∀ content, j ≠ .string content) : Unfit (.object fields)

def named? (field : Content × Json Content) : Option (String × Json Content) := do
  return (← field.1.text?, field.2)

theorem named?_of_denotes {key : Content} {name : String} (h : key.Denotes name.toList)
    (j : Json Content) : named? (key, j) = some (name, j) := by
  rw [named?, h.text?]
  rfl

theorem ofJson?_object (fields : List (Content × Json Content)) :
    ofJson? (.object fields) = (fields.mapM named?).bind fun named =>
      (fieldNames.mapM (namedText? named)).map ofTexts := by
  simp only [Option.map_eq_bind]
  rfl

theorem Named.mapM_named? {fields : List (Content × Json Content)}
    {named : List (String × Json Content)} (h : Named fields named) :
    fields.mapM named? = some named := by
  apply mapM_eq_some_of_forall₂
  refine h.imp ?_
  rintro ⟨key, j⟩ ⟨name, _⟩ ⟨hkey, rfl⟩
  exact named?_of_denotes hkey j

section namedText

variable {named : List (String × Json Content)} {name : String}

theorem Holds.namedText? {text : String} (h : Holds named name text) :
    namedText? named name = some text := by
  unfold Record.namedText? Json.field?
  cases h with
  | present h htext =>
    rw [h]
    exact htext.text?
  | absent h htext =>
    rw [h, htext]

theorem namedText?_of_twice {j₁ j₂ : Json Content}
    (h : [(name, j₁), (name, j₂)].Sublist named) : namedText? named name = none := by
  have hfilter := h.filter (·.1 = name)
  rw [List.filter_cons_of_pos (by simp), List.filter_cons_of_pos (by simp), List.filter_nil]
    at hfilter
  have hlength := hfilter.length_le
  unfold namedText? Json.field?
  cases hfound : named.filter (·.1 = name) with
  | nil => simp [hfound] at hlength
  | cons first rest =>
    cases rest with
    | nil => simp [hfound] at hlength
    | cons second rest => rfl

theorem namedText?_of_noText {j : Json Content} (hmem : (name, j) ∈ named)
    (hj : ∀ content, j ≠ .string content) : namedText? named name = none := by
  have hfilter : (name, j) ∈ named.filter (·.1 = name) := List.mem_filter.2 ⟨hmem, by simp⟩
  unfold namedText? Json.field?
  cases hfound : named.filter (·.1 = name) with
  | nil => simp [hfound] at hfilter
  | cons first rest =>
    cases rest with
    | nil =>
      rw [hfound, List.mem_singleton] at hfilter
      subst hfilter
      cases j with
      | string content => exact (hj content rfl).elim
      | null | bool | number | array | object => rfl
    | cons second rest => rfl

end namedText

/-- A record is read from what lists it. -/
theorem Listed.ofJson? {r : Record} {j : Json Content} (h : r.Listed j) : ofJson? j = some r := by
  cases h with
  | object hnamed address label mnemonic operandToken word =>
    rw [ofJson?_object, hnamed.mapM_named?, Option.bind_some]
    have htexts := mapM_eq_some_of_forall₂ (.cons address.namedText? (.cons label.namedText?
      (.cons mnemonic.namedText? (.cons operandToken.namedText? (.cons word.namedText? .nil)))))
    rw [fieldNames, htexts]
    rfl

theorem Unfit.ofJson? {j : Json Content} (h : Unfit j) : ofJson? j = none := by
  -- If the names can be read, the text of the field in question still cannot.
  cases h with
  | @twice fields key₁ key₂ j₁ j₂ name hname hfields h₁ h₂ =>
    rw [ofJson?_object]
    cases hnamed : fields.mapM named? with
    | none => rfl
    | some named =>
      have hsub := hfields.filterMap named?
      rw [List.filterMap_cons_some (named?_of_denotes h₁ j₁),
        List.filterMap_cons_some (named?_of_denotes h₂ j₂), List.filterMap_nil,
        filterMap_of_mapM_eq_some hnamed] at hsub
      rw [Option.bind_some, mapM_eq_none_of_mem hname (namedText?_of_twice hsub), Option.map_none]
  | @noText fields key j name hname hfield hkey hj =>
    rw [ofJson?_object]
    cases hnamed : fields.mapM named? with
    | none => rfl
    | some named =>
      have hmem : (name, j) ∈ named := by
        rw [← filterMap_of_mapM_eq_some hnamed]
        exact List.mem_filterMap.2 ⟨_, hfield, named?_of_denotes hkey j⟩
      rw [Option.bind_some, mapM_eq_none_of_mem hname (namedText?_of_noText hmem hj),
        Option.map_none]

end Record

/-- A text that is an array of records is read whatever its layout, as the image whose records its
items list; and it is refused if one of them is unfit. -/
theorem ofText_of_isTypeset {items : List (Json Content)} {text : String}
    (h : (Json.array items).IsTypeset text) :
    (∀ image : Image, List.Forall₂ Record.Listed image.records items →
      ofText text = .ok image) ∧
    ((∃ item ∈ items, Record.Unfit item) → ofText text = .error .corrupt) := by
  constructor
  · intro image himage
    have hrecords : items.mapM Record.ofJson? = some image.records :=
      mapM_eq_some_of_forall₂ (himage.flip.imp fun _ _ hlisted => hlisted.ofJson?)
    rw [ofText, ofBytes, h.ofBytes?, Option.bind_some, ofJson?, hrecords]
    rfl
  · rintro ⟨item, hitem, hunfit⟩
    rw [ofText, ofBytes, h.ofBytes?, Option.bind_some, ofJson?,
      mapM_eq_none_of_mem hitem hunfit.ofJson?]
    rfl

section annotated

open Json

/-- A text with an escaped name, a line break, a field that is not known, and a record of which
nothing is written. -/
def annotated : String :=
  "[\x7b\"\\u0077ord\":\"7000\",\n\"note\":[-1e9,\"\\ud800\"]\x7d ,\x7b\x7d]"

def annotatedItems : List (Json Content) :=
  [.object [(.unit 0x77 :: plain ['o', 'r', 'd'], .string (plain ['7', '0', '0', '0'])),
    (plain ['n', 'o', 't', 'e'],
      .array [.number (.other ['-', '1', 'e', '9']), .string [.unit 0xD800]])],
    .object []]

/-- A text in which a word is a number. -/
def numbered : String := "[\x7b\"word\":0\x7d]"

def numberedItems : List (Json Content) :=
  [.object [(plain ['w', 'o', 'r', 'd'], .number (.integer 0))]]

theorem quoted_word : Quoted (.unit 0x77 :: plain ['o', 'r', 'd'])
    ['\\', 'u', '0', '0', '7', '7', 'o', 'r', 'd'] := by
  have hunit : Text.Digits 16 ['0', '0', '7', '7'] 0x77 :=
    (Text.unsigned?_eq_some_iff (by decide)).1 rfl
  exact .unit rfl hunit (quoted_plain ['o', 'r', 'd'] (by decide))

theorem quoted_lone : Quoted [.unit 0xD800] ['\\', 'u', 'd', '8', '0', '0'] := by
  have hunit : Text.Digits 16 ['d', '8', '0', '0'] 0xD800 :=
    (Text.unsigned?_eq_some_iff (by decide)).1 rfl
  exact .unit rfl hunit .nil

theorem isTypeset_annotated : (Json.array annotatedItems).IsTypeset annotated := by
  have hnumber : Number.Written (.other ['-', '1', 'e', '9']) ['-', '1', 'e', '9'] :=
    .real (.inr rfl) (Number.isWhole_toDigits 1) .none
      (.some (.inl rfl) (.inl rfl) (Number.isWhole_toDigits 9).digits) (.inr (by simp))
  -- The text is put together from its end.
  have hblank := Typeset.empty
    |>.mark .rightBracket ']' (by decide)
    |>.mark .rightBrace '\x7d' (by decide)
    |>.mark .leftBrace '\x7b' (by decide)
    |>.mark .comma ',' (by decide)
    |>.blank (by decide : ' ' ∈ whiteSpace)
  have hnote := hblank
    |>.mark .rightBrace '\x7d' (by decide)
    |>.mark .rightBracket ']' (by decide)
    |>.string quoted_lone
    |>.mark .comma ',' (by decide)
    |>.token (.number hnumber)
    |>.mark .leftBracket '[' (by decide)
    |>.mark .colon ':' (by decide)
    |>.string (quoted_plain ['n', 'o', 't', 'e'] (by decide))
    |>.blank (by decide : '\n' ∈ whiteSpace)
  exact hnote
    |>.mark .comma ',' (by decide)
    |>.string (quoted_plain ['7', '0', '0', '0'] (by decide))
    |>.mark .colon ':' (by decide)
    |>.string quoted_word
    |>.mark .leftBrace '\x7b' (by decide)
    |>.mark .leftBracket '[' (by decide)

theorem isTypeset_numbered : (Json.array numberedItems).IsTypeset numbered :=
  Typeset.empty
    |>.mark .rightBracket ']' (by decide)
    |>.mark .rightBrace '\x7d' (by decide)
    |>.token (.number (.natural (Number.isWhole_toDigits 0)))
    |>.mark .colon ':' (by decide)
    |>.string (quoted_plain ['w', 'o', 'r', 'd'] (by decide))
    |>.mark .leftBrace '\x7b' (by decide)
    |>.mark .leftBracket '[' (by decide)

theorem listed_noted (note : Json Content) :
    Record.Listed { Record.blank with word := "7000" }
      (.object [(.unit 0x77 :: plain ['o', 'r', 'd'], .string (plain ['7', '0', '0', '0'])),
        (plain ['n', 'o', 't', 'e'], note)]) := by
  have hword : Content.Denotes (.unit 0x77 :: plain ['o', 'r', 'd']) "word".toList :=
    Content.Denotes.unit (by decide : 'w'.toNat < 0x10000) (denotes_plain ['o', 'r', 'd'])
  have hnote : Content.Denotes (plain ['n', 'o', 't', 'e']) "note".toList := denotes_plain _
  have hnamed : Record.Named
      [(.unit 0x77 :: plain ['o', 'r', 'd'], .string (plain ['7', '0', '0', '0'])),
        (plain ['n', 'o', 't', 'e'], note)]
      [("word", .string (plain ['7', '0', '0', '0'])), ("note", note)] :=
    .cons ⟨hword, rfl⟩ (.cons ⟨hnote, rfl⟩ .nil)
  exact .object hnamed (.absent rfl rfl) (.absent rfl rfl) (.absent rfl rfl) (.absent rfl rfl)
    (.present rfl (denotes_plain ['7', '0', '0', '0']))

theorem listed_empty : Record.Listed Record.blank (.object []) :=
  .object .nil (.absent rfl rfl) (.absent rfl rfl) (.absent rfl rfl) (.absent rfl rfl)
    (.absent rfl rfl)

theorem unfit_numbered : ∃ item ∈ numberedItems, Record.Unfit item := by
  have hword : Content.Denotes (plain ['w', 'o', 'r', 'd']) "word".toList := denotes_plain _
  refine ⟨_, List.mem_singleton_self _, ?_⟩
  exact .noText (by decide) (List.mem_singleton_self _) hword nofun

/-- The annotated text is read as its two records, and the one with a number is refused. -/
theorem ofText_of_isTypeset_annotated :
    (Json.array annotatedItems).IsTypeset annotated ∧
      ofText annotated = .ok ⟨[{ Record.blank with word := "7000" }, .blank]⟩ ∧
      (Json.array numberedItems).IsTypeset numbered ∧ ofText numbered = .error .corrupt := by
  have hlisted : List.Forall₂ Record.Listed [{ Record.blank with word := "7000" }, Record.blank]
      annotatedItems := .cons (listed_noted _) (.cons listed_empty .nil)
  exact ⟨isTypeset_annotated, (ofText_of_isTypeset isTypeset_annotated).1 ⟨_⟩ hlisted,
    isTypeset_numbered, (ofText_of_isTypeset isTypeset_numbered).2 unfit_numbered⟩

end annotated

end AccumulatorMachine.Image
