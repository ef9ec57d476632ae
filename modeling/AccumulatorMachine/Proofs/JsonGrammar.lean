import Mathlib.Data.List.Chain
import AccumulatorMachine.Proofs.JsonLiterals
import AccumulatorMachine.Proofs.JsonNumerals
import AccumulatorMachine.Proofs.JsonSpelling
import AccumulatorMachine.Proofs.JsonTree

/-!
# Texts of trees

A text of a tree is any text of its tokens: each token in any of its spellings, and any white space
between them. In the tokens of a tree no two words stand side by side, so none is ever taken for the
beginning of the next; the text is cut into the tokens again, and read as the tree.
-/

namespace AccumulatorMachine.Json

def whiteSpace : List Char := [' ', '\t', '\n', '\r']

def marks : List (Token × Char) :=
  [(.leftBrace, '\x7b'), (.rightBrace, '\x7d'), (.leftBracket, '['), (.rightBracket, ']'),
    (.colon, ':'), (.comma, ',')]

def words : List (Token × List Char) :=
  [(.null, ['n', 'u', 'l', 'l']), (.bool true, ['t', 'r', 'u', 'e']),
    (.bool false, ['f', 'a', 'l', 's', 'e'])]

/-- The spellings of a token. -/
inductive Token.Written : Token → List Char → Prop
  | mark {t : Token} {c : Char} (h : (t, c) ∈ marks) : Written t [c]
  | word {t : Token} {cs : List Char} (h : (t, cs) ∈ words) : Written t cs
  | number {n : Number} {cs : List Char} (h : n.Written cs) : Written (.number n) cs
  | string {content : Content} {cs : List Char} (h : Quoted content cs) :
    Written (.string content) ('"' :: (cs ++ ['"']))

/-- A text of tokens, with any white space in front of each of them and at the end. -/
inductive Typeset : List Token → List Char → Prop
  | nil {blanks : List Char} (hblanks : ∀ c ∈ blanks, c ∈ whiteSpace) : Typeset [] blanks
  | cons {blanks spelling cs : List Char} {t : Token} {ts : List Token}
    (hblanks : ∀ c ∈ blanks, c ∈ whiteSpace) (ht : t.Written spelling) (h : Typeset ts cs) :
    Typeset (t :: ts) (blanks ++ (spelling ++ cs))

def IsTypeset (j : Json Content) (text : String) : Prop := Typeset (tokens j) text.toList

namespace Typeset

theorem empty : Typeset [] [] := nil (by simp)

variable {ts : List Token} {cs : List Char} (h : Typeset ts cs)
include h

theorem blank {c : Char} (hc : c ∈ whiteSpace) : Typeset ts (c :: cs) := by
  cases h with
  | nil hblanks => exact .nil (List.forall_mem_cons.2 ⟨hc, hblanks⟩)
  | cons hblanks ht h => exact .cons (List.forall_mem_cons.2 ⟨hc, hblanks⟩) ht h

theorem token {t : Token} {spelling : List Char} (ht : t.Written spelling) :
    Typeset (t :: ts) (spelling ++ cs) :=
  @cons [] spelling cs t ts (by simp) ht h

theorem mark (t : Token) (c : Char) (ht : (t, c) ∈ marks) : Typeset (t :: ts) (c :: cs) :=
  h.token (.mark ht)

theorem string {content : Content} {body : List Char} (hbody : Quoted content body) :
    Typeset (.string content :: ts) ('"' :: (body ++ '"' :: cs)) := by
  have hcs := h.token (.string hbody)
  rwa [List.cons_append, List.append_assoc, List.singleton_append] at hcs

end Typeset

/-! ### Where words end -/

def Token.isMark (t : Token) : Bool := marks.any (·.1 = t)

/-- One of two neighbours is punctuation. -/
def Token.Apart (t u : Token) : Prop := t.isMark = true ∨ u.isMark = true

/-- The tokens after a value begin with punctuation, if there are any. -/
def Follows (ts : List Token) : Prop := ∀ t ∈ ts.head?, t.isMark = true

theorem isChain_mark {t : Token} (ht : t.isMark = true) {ts : List Token}
    (h : ts.IsChain Token.Apart) : (t :: ts).IsChain Token.Apart :=
  List.isChain_cons.2 ⟨fun _ _ => .inl ht, h⟩

theorem isChain_scalar {t : Token} {ts : List Token} (hts : Follows ts)
    (h : ts.IsChain Token.Apart) : (t :: ts).IsChain Token.Apart :=
  List.isChain_cons.2 ⟨fun u hu => .inr (hts u hu), h⟩

theorem follows_itemTokens (items : List (Json Content)) (ts : List Token) :
    Follows (itemTokens items ++ ts) := by
  cases items with
  | nil =>
    rintro t ⟨⟩
    rfl
  | cons j items =>
    rintro t ⟨⟩
    rfl

theorem follows_fieldTokens (fields : List (Content × Json Content)) (ts : List Token) :
    Follows (fieldTokens fields ++ ts) := by
  cases fields with
  | nil =>
    rintro t ⟨⟩
    rfl
  | cons field fields =>
    rintro t ⟨⟩
    rfl

mutual

/-- In the tokens of a tree no two words stand side by side. -/
theorem isChain_tokens (j : Json Content) {ts : List Token} (hts : Follows ts)
    (h : ts.IsChain Token.Apart) : (tokens j ++ ts).IsChain Token.Apart := by
  cases j with
  | null | bool | number | string => exact isChain_scalar hts h
  | array items =>
    cases items with
    | nil => exact isChain_mark rfl (isChain_mark rfl h)
    | cons j items =>
      rw [tokens, List.cons_append, List.append_assoc]
      exact isChain_mark rfl
        (isChain_tokens j (follows_itemTokens items ts) (isChain_itemTokens items h))
  | object fields =>
    cases fields with
    | nil => exact isChain_mark rfl (isChain_mark rfl h)
    | cons field fields =>
      obtain ⟨key, j⟩ := field
      rw [tokens, List.cons_append, List.cons_append, List.cons_append, List.append_assoc]
      refine isChain_mark rfl (isChain_scalar ?_ (isChain_mark rfl
        (isChain_tokens j (follows_fieldTokens fields ts) (isChain_fieldTokens fields h))))
      rintro t ⟨⟩
      rfl

theorem isChain_itemTokens (items : List (Json Content)) {ts : List Token}
    (h : ts.IsChain Token.Apart) : (itemTokens items ++ ts).IsChain Token.Apart := by
  cases items with
  | nil => exact isChain_mark rfl h
  | cons j items =>
    rw [itemTokens, List.cons_append, List.append_assoc]
    exact isChain_mark rfl
      (isChain_tokens j (follows_itemTokens items ts) (isChain_itemTokens items h))

theorem isChain_fieldTokens (fields : List (Content × Json Content)) {ts : List Token}
    (h : ts.IsChain Token.Apart) : (fieldTokens fields ++ ts).IsChain Token.Apart := by
  cases fields with
  | nil => exact isChain_mark rfl h
  | cons field fields =>
    obtain ⟨key, j⟩ := field
    rw [fieldTokens, List.cons_append, List.cons_append, List.cons_append, List.append_assoc]
    refine isChain_mark rfl (isChain_scalar ?_ (isChain_mark rfl
      (isChain_tokens j (follows_fieldTokens fields ts) (isChain_fieldTokens fields h))))
    rintro t ⟨⟩
    rfl

end

theorem isBlank_of_mem_whiteSpace {c : Char} (h : c ∈ whiteSpace) : IsBlank c := by
  simp only [whiteSpace, List.mem_cons, List.not_mem_nil, or_false] at h
  rcases h with rfl | rfl | rfl | rfl <;> rfl

theorem isMark_of_mem_marks {t : Token} {c : Char} (h : (t, c) ∈ marks) : IsMark c t := by
  have hall : ∀ p ∈ marks,
      (String.utf8EncodeChar p.2).map Token.ofPunctuation? = [some p.1] := by decide
  exact hall (t, c) h

theorem Token.Written.mark_of_isMark {t : Token} {cs : List Char} (h : t.Written cs)
    (ht : t.isMark = true) : ∃ c, cs = [c] ∧ (t, c) ∈ marks := by
  cases h with
  | @mark t c h => exact ⟨c, rfl, h⟩
  | word h =>
    have hall : ∀ p ∈ words, p.1.isMark = false := by decide
    cases (hall _ h).symm.trans ht
  | number _ => cases ht
  | string _ => cases ht

theorem Typeset.stops {ts : List Token} {cs : List Char} (h : Typeset ts cs) (hts : Follows ts) :
    Stops cs := by
  cases h with
  | nil hblanks =>
    have hstop : Stops [] := by simp [Stops, encode]
    simpa using hstop.blanks fun c hc => isBlank_of_mem_whiteSpace (hblanks c hc)
  | cons hblanks ht _ =>
    obtain ⟨c, rfl, hc⟩ := ht.mark_of_isMark (hts _ rfl)
    exact ((isMark_of_mem_marks hc).stops _).blanks
      fun c hc => isBlank_of_mem_whiteSpace (hblanks c hc)

/-! ### Reading -/

namespace Token

open Scan

variable (found : List Token)

theorem tokens?_blanks {blanks : List Char} (h : ∀ c ∈ blanks, c ∈ whiteSpace)
    (rest : List UInt8) :
    tokens? ⟨found, .gap⟩ (encode blanks ++ rest) = tokens? ⟨found, .gap⟩ rest := by
  induction blanks with
  | nil => rfl
  | cons c blanks ih =>
    obtain ⟨hc, hblanks⟩ := List.forall_mem_cons.1 h
    obtain ⟨b, hb, hspace⟩ := List.map_eq_singleton_iff.1 (isBlank_of_mem_whiteSpace hc)
    have hstep : step? ⟨found, .gap⟩ b = some ⟨found, .gap⟩ := by simp [step?, fromGap?, hspace]
    rw [encode_cons, hb, List.append_assoc, List.singleton_append, tokens?_cons hstep, ih hblanks]

theorem Written.tokens? {t : Token} {spelling cs : List Char} (h : t.Written spelling)
    (hstop : t.isMark = true ∨ Stops cs) :
    Scan.tokens? ⟨found, .gap⟩ (encode spelling ++ encode cs) =
      Scan.tokens? ⟨t :: found, .gap⟩ (encode cs) := by
  cases h with
  | mark h =>
    obtain ⟨b, hb, hmark⟩ := List.map_eq_singleton_iff.1 (isMark_of_mem_marks h)
    have hstep : step? ⟨found, .gap⟩ b = some ⟨t :: found, .gap⟩ :=
      fromGap?_of_ofPunctuation? hmark
    rw [encode_cons, hb, List.singleton_append, List.cons_append]
    exact tokens?_cons hstep _
  | word h =>
    have hall : ∀ p ∈ words, p.1.isMark = false ∧ (encode p.2).all isBare = true ∧
        ofBare? (encode p.2) = some p.1 := by decide
    obtain ⟨hmark, hbare, hword⟩ := hall _ h
    exact tokens?_word (List.all_eq_true.1 hbare) hword
      (hstop.resolve_left (by rw [hmark]; exact Bool.false_ne_true))
  | number h =>
    obtain ⟨hbare, hnumber⟩ := h.ofBare?
    exact tokens?_word (List.all_eq_true.1 hbare) hnumber (hstop.resolve_left nofun)
  | @string content body h =>
    have hbytes : encode ('"' :: (body ++ ['"'])) ++ encode cs =
        0x22 :: (encode body ++ 0x22 :: encode cs) := by
      rw [encode_cons, encode_append, List.append_assoc, List.append_assoc]
      rfl
    have hopen : Scan.tokens? ⟨found, .gap⟩ (0x22 :: (encode body ++ 0x22 :: encode cs)) =
        Scan.tokens? ⟨found, .string []⟩ (encode body ++ 0x22 :: encode cs) :=
      tokens?_cons rfl _
    have hclose : Scan.tokens? ⟨found, .string (content.reverse ++ [])⟩ (0x22 :: encode cs) =
        Scan.tokens? ⟨.string (content.reverse ++ []).reverse :: found, .gap⟩ (encode cs) :=
      tokens?_cons rfl _
    rw [hbytes, hopen, h.tokens?, hclose, List.append_nil, List.reverse_reverse]

end Token

/-- A text of tokens is cut into them, if no two words stand side by side. -/
theorem Typeset.tokens? {ts : List Token} {cs : List Char} (h : Typeset ts cs)
    (hts : ts.IsChain Token.Apart) (found : List Token) :
    Token.Scan.tokens? ⟨found, .gap⟩ (encode cs) = some (found.reverse ++ ts) := by
  induction h generalizing found with
  | @nil blanks hblanks =>
    have hread := Token.tokens?_blanks found hblanks []
    rw [List.append_nil] at hread
    rw [hread, List.append_nil]
    rfl
  | @cons blanks spelling cs t ts hblanks ht h ih =>
    obtain ⟨hfollows, hts⟩ := List.isChain_cons.1 hts
    have hstop : t.isMark = true ∨ Stops cs := by
      by_cases hmark : t.isMark = true
      · exact .inl hmark
      · exact .inr (h.stops fun u hu => (hfollows u hu).resolve_left hmark)
    rw [encode_append, encode_append, Token.tokens?_blanks found hblanks, ht.tokens? found hstop,
      ih hts, List.reverse_cons, List.append_assoc, List.singleton_append]

/-- A text of a tree is read as the tree. -/
theorem IsTypeset.ofBytes? {j : Json Content} {text : String} (h : j.IsTypeset text) :
    ofBytes? (utf8 text) = some j := by
  have hfollows : Follows [] := nofun
  have hchain := isChain_tokens j hfollows .nil
  rw [List.append_nil] at hchain
  have hcut : Token.ofBytes? (encode text.toList) = some (tokens j) :=
    Typeset.tokens? h hchain []
  rw [Json.ofBytes?, utf8_eq_encode, hcut, Option.bind_some, ofTokens?_tokens]

end AccumulatorMachine.Json
