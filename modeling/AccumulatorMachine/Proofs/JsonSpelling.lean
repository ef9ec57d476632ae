import Mathlib.Tactic.SplitIfs
import AccumulatorMachine.Proofs.JsonStrings

/-!
# Texts that spell tokens

Blanks may stand between the tokens of a text, and must where two words would run together. A text
that spells a list of tokens is cut into exactly these tokens.
-/

namespace AccumulatorMachine.Json

def IsBlank (c : Char) : Prop := (String.utf8EncodeChar c).map Token.isSpace = [true]

def IsMark (c : Char) (t : Token) : Prop :=
  (String.utf8EncodeChar c).map Token.ofPunctuation? = [some t]

/-- No word or numeral goes on at the front of a text. -/
def Stops (cs : List Char) : Prop := ∀ b ∈ (encode cs).head?, Token.isBare b = false

/-- A text of tokens, with blanks between them. -/
inductive Spells : List Token → List Char → Prop
  | nil : Spells [] []
  | blank {c : Char} {ts : List Token} {cs : List Char}
    (hc : IsBlank c) (h : Spells ts cs) : Spells ts (c :: cs)
  | mark {c : Char} {t : Token} {ts : List Token} {cs : List Char}
    (hc : IsMark c t) (h : Spells ts cs) : Spells (t :: ts) (c :: cs)
  | string (s : String) {ts : List Token} {cs : List Char} (h : Spells ts cs) :
    Spells (.string (contentOf s) :: ts) (literal s ++ cs)
  | word {word : List Char} {t : Token} {ts : List Token} {cs : List Char}
    (hword : (encode word).all Token.isBare = true) (ht : Token.ofBare? (encode word) = some t)
    (hstop : Stops cs) (h : Spells ts cs) : Spells (t :: ts) (word ++ cs)

namespace Token

variable {b : UInt8}

theorem isBare_of_isSpace (h : isSpace b = true) : isBare b = false := by
  simp only [isSpace, Bool.or_eq_true, decide_eq_true_eq] at h
  rcases h with ((rfl | rfl) | rfl) | rfl <;> decide

theorem of_ofPunctuation? {t : Token} (h : ofPunctuation? b = some t) :
    isSpace b = false ∧ b ≠ 0x22 ∧ isBare b = false := by
  unfold ofPunctuation? at h
  split_ifs at h with hb hb hb hb hb hb
  all_goals
    subst hb
    decide

end Token

theorem IsBlank.stops {c : Char} (h : IsBlank c) (cs : List Char) : Stops (c :: cs) := by
  obtain ⟨b, hb, hspace⟩ := List.map_eq_singleton_iff.1 h
  intro b' hb'
  rw [encode_cons, hb, List.singleton_append, List.head?_cons, Option.mem_some_iff] at hb'
  rw [← hb', Token.isBare_of_isSpace hspace]

theorem IsMark.stops {c : Char} {t : Token} (h : IsMark c t) (cs : List Char) :
    Stops (c :: cs) := by
  obtain ⟨b, hb, hmark⟩ := List.map_eq_singleton_iff.1 h
  intro b' hb'
  rw [encode_cons, hb, List.singleton_append, List.head?_cons, Option.mem_some_iff] at hb'
  rw [← hb', (Token.of_ofPunctuation? hmark).2.2]

theorem Stops.blanks {front : List Char} (h : ∀ c ∈ front, IsBlank c) {cs : List Char}
    (hcs : Stops cs) : Stops (front ++ cs) := by
  cases front with
  | nil => exact hcs
  | cons c front => exact (h c (List.mem_cons_self ..)).stops _

theorem Spells.blanks {front : List Char} (h : ∀ c ∈ front, IsBlank c) {ts : List Token}
    {cs : List Char} (hcs : Spells ts cs) : Spells ts (front ++ cs) := by
  induction front with
  | nil => exact hcs
  | cons c front ih =>
    exact .blank (h c (List.mem_cons_self ..)) (ih fun c hc => h c (List.mem_cons_of_mem _ hc))

namespace Token.Scan

variable {found : List Token} {t : Token} {b : UInt8}

theorem fromGap?_of_isBare (h : isBare b = true) :
    fromGap? found b = some ⟨found, .bare [b]⟩ := by
  have hspace : isSpace b = false := by
    apply Bool.eq_false_iff.2
    intro hspace
    rw [isBare_of_isSpace hspace] at h
    cases h
  have hquote : b ≠ 0x22 := by
    rintro rfl
    exact absurd h (by decide)
  simp [fromGap?, hspace, hquote, h]

theorem fromGap?_of_ofPunctuation? (h : ofPunctuation? b = some t) :
    fromGap? found b = some ⟨t :: found, .gap⟩ := by
  obtain ⟨hspace, hquote, hbare⟩ := of_ofPunctuation? h
  simp [fromGap?, hspace, hquote, hbare, h]

theorem tokens?_bare {bs read : List UInt8} (h : ∀ b ∈ bs, isBare b = true) (rest : List UInt8) :
    tokens? ⟨found, .bare read⟩ (bs ++ rest) =
      tokens? ⟨found, .bare (bs.reverse ++ read)⟩ rest := by
  induction bs generalizing read with
  | nil => rfl
  | cons b bs ih =>
    have hstep : step? ⟨found, .bare read⟩ b = some ⟨found, .bare (b :: read)⟩ := by
      simp [step?, h b (List.mem_cons_self ..)]
    rw [List.cons_append, tokens?_cons hstep, ih fun b hb => h b (List.mem_cons_of_mem _ hb)]
    simp

/-- A word that has been read to its end is judged, and its token found. -/
theorem tokens?_settle {read rest : List UInt8} (h : ofBare? read.reverse = some t)
    (hstop : ∀ b ∈ rest.head?, isBare b = false) :
    tokens? ⟨found, .bare read⟩ rest = tokens? ⟨t :: found, .gap⟩ rest := by
  cases rest with
  | nil => simp [tokens?_nil, finish?, h]
  | cons b rest =>
    have hb : isBare b = false := hstop b rfl
    -- The byte that ends the word is read as it would be behind the token of the word.
    have hstep : step? ⟨found, .bare read⟩ b = step? ⟨t :: found, .gap⟩ b := by
      simp [step?, hb, h]
    rw [tokens?, List.foldlM_cons, hstep]
    rfl

theorem tokens?_word {word : List UInt8} (hword : ∀ b ∈ word, isBare b = true)
    (ht : ofBare? word = some t) {rest : List UInt8} (hstop : ∀ b ∈ rest.head?, isBare b = false) :
    tokens? ⟨found, .gap⟩ (word ++ rest) = tokens? ⟨t :: found, .gap⟩ rest := by
  cases word with
  | nil => cases ht
  | cons b bs =>
    have hb : step? ⟨found, .gap⟩ b = some ⟨found, .bare [b]⟩ :=
      fromGap?_of_isBare (hword b (List.mem_cons_self ..))
    rw [List.cons_append, tokens?_cons hb,
      tokens?_bare (fun b hb => hword b (List.mem_cons_of_mem _ hb))]
    exact tokens?_settle (by simpa using ht) hstop

end Token.Scan

open Token Scan in
/-- The scan of a text finds the tokens that it spells. -/
theorem Spells.tokens? {ts : List Token} {cs : List Char} (h : Spells ts cs)
    (found : List Token) : Scan.tokens? ⟨found, .gap⟩ (encode cs) = some (found.reverse ++ ts) := by
  induction h generalizing found with
  | nil => simp [encode, tokens?_nil, finish?]
  | @blank c ts cs hc _ ih =>
    obtain ⟨b, hb, hspace⟩ := List.map_eq_singleton_iff.1 hc
    have hstep : step? ⟨found, .gap⟩ b = some ⟨found, .gap⟩ := by simp [step?, fromGap?, hspace]
    rw [encode_cons, hb, List.singleton_append, tokens?_cons hstep, ih]
  | @mark c t ts cs hc _ ih =>
    obtain ⟨b, hb, hmark⟩ := List.map_eq_singleton_iff.1 hc
    have hstep : step? ⟨found, .gap⟩ b = some ⟨t :: found, .gap⟩ :=
      fromGap?_of_ofPunctuation? hmark
    rw [encode_cons, hb, List.singleton_append, tokens?_cons hstep, ih]
    simp
  | string s _ ih =>
    rw [encode_append, tokens?_literal, ih]
    simp
  | word hword ht hstop _ ih =>
    rw [encode_append, tokens?_word (List.all_eq_true.1 hword) ht hstop, ih]
    simp

theorem Spells.ofBytes? {ts : List Token} {cs : List Char} (h : Spells ts cs) :
    Token.ofBytes? (encode cs) = some ts := h.tokens? []

end AccumulatorMachine.Json
