import AccumulatorMachine.Json.Reader
import AccumulatorMachine.Json.Writer

/-!
# Strings as JSON literals

A literal is read back as the text that was written. Each character is written plainly, by a short
escape or by a UTF-16 unit; in all three forms the scan finds pieces that stand for the bytes of
the character.
-/

namespace AccumulatorMachine.Json

def encode (cs : List Char) : List UInt8 := cs.flatMap String.utf8EncodeChar

theorem encode_cons (c : Char) (cs : List Char) :
    encode (c :: cs) = String.utf8EncodeChar c ++ encode cs := List.flatMap_cons

theorem encode_append (cs ds : List Char) : encode (cs ++ ds) = encode cs ++ encode ds :=
  List.flatMap_append

theorem utf8_ofList (cs : List Char) : utf8 (String.ofList cs) = encode cs := by
  rw [utf8, String.toByteArray_ofList, List.utf8Encode, List.toList_data_toByteArray, encode]

theorem utf8_eq_encode (s : String) : utf8 s = encode s.toList := by
  rw [← utf8_ofList, String.ofList_toList]

theorem textOfBytes?_utf8 (s : String) : Content.textOfBytes? (utf8 s) = some s := by
  have hbytes : ByteArray.mk (utf8 s).toArray = s.toByteArray := rfl
  rw [Content.textOfBytes?, hbytes, String.fromUTF8?, dif_pos s.isValidUTF8]
  rfl

theorem byte_ge_of_mem_utf8EncodeChar {c : Char} (h : 0x80 ≤ c.toNat) {b : UInt8}
    (hb : b ∈ String.utf8EncodeChar c) : 0x80 ≤ b.toNat := by
  have htail (n : Nat) (hn : 0x80 ≤ n) (hlt : n < 0x100) : 0x80 ≤ (UInt8.ofNat n).toNat := by
    rw [UInt8.toNat_ofNat_of_lt' hlt]
    exact hn
  unfold Char.toNat at h
  unfold String.utf8EncodeChar at hb
  dsimp only at hb
  rw [if_neg (by omega)] at hb
  split at hb
  · simp only [List.mem_cons, List.not_mem_nil, or_false] at hb
    rcases hb with rfl | rfl <;> apply htail <;> omega
  split at hb
  · simp only [List.mem_cons, List.not_mem_nil, or_false] at hb
    rcases hb with rfl | rfl | rfl <;> apply htail <;> omega
  · simp only [List.mem_cons, List.not_mem_nil, or_false] at hb
    rcases hb with rfl | rfl | rfl | rfl <;> apply htail <;> omega

theorem utf8EncodeChar_of_ascii {c : Char} (h : c.toNat < 0x80) :
    String.utf8EncodeChar c = [UInt8.ofNat c.toNat] := by
  unfold Char.toNat at h
  unfold String.utf8EncodeChar
  dsimp only
  rw [if_pos (by omega)]
  rfl

/-- The three ways of writing a character. -/
inductive Escaped (c : Char) : List Char → Prop
  /-- A backslash and a letter that stands for the character. -/
  | short {e : Char} (hascii : e.toNat < 0x80) (hunit : e ≠ 'u')
    (h : (Token.ofEscape? (UInt8.ofNat e.toNat)).map ([·]) = some (String.utf8EncodeChar c)) :
    Escaped c ['\\', e]
  /-- The number of the character as four digits. -/
  | unit (h : c.toNat < 0x20) : Escaped c
    ['\\', 'u', '0', '0', Nat.digitChar (c.toNat / 16), Nat.digitChar (c.toNat % 16)]
  /-- The character itself. -/
  | plain (h : 0x20 ≤ c.toNat) (hquote : c ≠ '"') (hescape : c ≠ '\\') : Escaped c [c]

theorem escaped_escapedChar (c : Char) : Escaped c (escapedChar c) := by
  unfold escapedChar
  split
  case h_8 hquote hescape _ _ _ _ _ =>
    split
    next h => exact .unit h
    next h => exact .plain (Nat.le_of_not_lt h) hquote hescape
  all_goals exact .short (by decide) (by decide) (by decide)

def pieces (c : Char) : Content :=
  if (escapedChar c).length = 6 then [.unit c.toNat] else (String.utf8EncodeChar c).map .byte

/-- The content of the literal of a text. -/
def contentOf (s : String) : Content := s.toList.flatMap pieces

namespace Content

theorem isHighSurrogate_of_lt {u : Nat} (h : u < 0xD800) : isHighSurrogate u = false := by
  unfold isHighSurrogate
  simp
  omega

theorem isLowSurrogate_of_lt {u : Nat} (h : u < 0xD800) : isLowSurrogate u = false := by
  unfold isLowSurrogate
  simp
  omega

theorem bytes?_unit {u : Nat} (h : u < 0xD800) (rest : Content) :
    bytes? (.unit u :: rest) =
      (bytes? rest).map (String.utf8EncodeChar (Char.ofNat u) ++ ·) := by
  cases rest with
  | nil => simp [bytes?, isHighSurrogate_of_lt h, isLowSurrogate_of_lt h]
  | cons p rest =>
    cases p <;> simp [bytes?, isHighSurrogate_of_lt h, isLowSurrogate_of_lt h]

theorem bytes?_map_byte (bs : List UInt8) (rest : Content) :
    bytes? (bs.map .byte ++ rest) = (bytes? rest).map (bs ++ ·) := by
  induction bs with
  | nil => simp
  | cons b bs ih =>
    rw [List.map_cons, List.cons_append, bytes?, ih, Option.map_map]
    rfl

theorem bytes?_pieces (c : Char) (rest : Content) :
    bytes? (pieces c ++ rest) = (bytes? rest).map (String.utf8EncodeChar c ++ ·) := by
  unfold pieces
  split
  next hlength =>
    have hc : c.toNat < 0x20 := by
      have hescaped := escaped_escapedChar c
      generalize escapedChar c = cs at hlength hescaped
      cases hescaped with
      | short => cases hlength
      | unit h => exact h
      | plain => cases hlength
    rw [List.singleton_append, bytes?_unit (by omega), Char.ofNat_toNat]
  next => exact bytes?_map_byte _ rest

theorem bytes?_flatMap_pieces (cs : List Char) : bytes? (cs.flatMap pieces) = some (encode cs) := by
  induction cs with
  | nil => rfl
  | cons c cs ih =>
    rw [List.flatMap_cons, bytes?_pieces, ih, encode_cons]
    rfl

/-- The content of the literal of a text denotes the text. -/
theorem text?_contentOf (s : String) : text? (contentOf s) = some s := by
  rw [text?, contentOf, bytes?_flatMap_pieces, ← utf8_eq_encode, Option.bind_some,
    textOfBytes?_utf8]

end Content

namespace Token.Scan

/-- The tokens of a scan that goes on to the end of the text. -/
def tokens? (s : Scan) (bs : List UInt8) : Option (List Token) :=
  (bs.foldlM step? s).bind finish?

variable {found : List Token} {read : Content}

theorem tokens?_nil (s : Scan) : s.tokens? [] = s.finish? := rfl

theorem tokens?_cons {s s' : Scan} {b : UInt8} (h : s.step? b = some s') (bs : List UInt8) :
    s.tokens? (b :: bs) = s'.tokens? bs := by
  rw [tokens?, List.foldlM_cons, h]
  rfl

def IsPlain (b : UInt8) : Prop := b ≠ 0x22 ∧ b ≠ 0x5C ∧ ¬b < 0x20

theorem step?_plain {b : UInt8} (h : IsPlain b) :
    step? ⟨found, .string read⟩ b = some ⟨found, .string (.byte b :: read)⟩ := by
  obtain ⟨hquote, hescape, hcontrol⟩ := h
  simp [step?, hquote, hescape, hcontrol]

theorem tokens?_plain {bs : List UInt8} (h : ∀ b ∈ bs, IsPlain b) (rest : List UInt8) :
    tokens? ⟨found, .string read⟩ (bs ++ rest) =
      tokens? ⟨found, .string ((bs.map .byte).reverse ++ read)⟩ rest := by
  induction bs generalizing read with
  | nil => rfl
  | cons b bs ih =>
    rw [List.cons_append, tokens?_cons (step?_plain (h b (List.mem_cons_self ..))),
      ih fun b hb => h b (List.mem_cons_of_mem _ hb)]
    simp

theorem isPlain_of_mem_utf8EncodeChar {c : Char} (h : 0x20 ≤ c.toNat) (hquote : c ≠ '"')
    (hescape : c ≠ '\\') {b : UInt8} (hb : b ∈ String.utf8EncodeChar c) : IsPlain b := by
  unfold IsPlain
  rw [ne_eq, ne_eq, ← UInt8.toNat_inj, ← UInt8.toNat_inj, UInt8.lt_iff_toNat_lt]
  by_cases hascii : c.toNat < 0x80
  · rw [utf8EncodeChar_of_ascii hascii, List.mem_singleton] at hb
    rw [hb, UInt8.toNat_ofNat_of_lt' (Nat.lt_trans hascii (by decide))]
    refine ⟨?_, ?_, Nat.not_lt.2 h⟩
    · exact fun heq => hquote (Char.toNat_inj.1 heq)
    · exact fun heq => hescape (Char.toNat_inj.1 heq)
  · have hbyte := byte_ge_of_mem_utf8EncodeChar (Nat.le_of_not_lt hascii) hb
    refine ⟨?_, ?_, ?_⟩
    · exact fun heq => absurd (heq ▸ hbyte) (by decide)
    · exact fun heq => absurd (heq ▸ hbyte) (by decide)
    · exact fun hlt => absurd (Nat.lt_of_le_of_lt hbyte hlt) (by decide)

theorem step?_digit {count value d : Nat} (hd : d < 16) :
    step? ⟨found, .unit read count value⟩ (UInt8.ofNat (Nat.digitChar d).toNat) =
      some (if count = 3 then ⟨found, .string (.unit (value * 16 + d) :: read)⟩
        else ⟨found, .unit read (count + 1) (value * 16 + d)⟩) := by
  have hdigit : ∀ d < 16, Text.digitValue? 16
      (Char.ofNat (UInt8.ofNat (Nat.digitChar d).toNat).toNat) = some d := by decide
  simp only [step?, hdigit d hd]
  split <;> rfl

theorem utf8EncodeChar_digitChar : ∀ d < 16,
    String.utf8EncodeChar (Nat.digitChar d) = [UInt8.ofNat (Nat.digitChar d).toNat] := by decide

theorem tokens?_escapedChar (c : Char) (rest : List UInt8) :
    tokens? ⟨found, .string read⟩ (encode (escapedChar c) ++ rest) =
      tokens? ⟨found, .string ((pieces c).reverse ++ read)⟩ rest := by
  have hescaped := escaped_escapedChar c
  unfold pieces
  generalize escapedChar c = cs at hescaped ⊢
  cases hescaped with
  | @short e hascii hunit h =>
    obtain ⟨b, hb, hbyte⟩ := Option.map_eq_some_iff.1 h
    have hne : UInt8.ofNat e.toNat ≠ 0x75 := by
      intro heq
      have hnat := congrArg UInt8.toNat heq
      rw [UInt8.toNat_ofNat_of_lt' (Nat.lt_trans hascii (by decide))] at hnat
      exact hunit (Char.toNat_inj.1 hnat)
    have hescape : step? ⟨found, .escape read⟩ (UInt8.ofNat e.toNat) =
        some ⟨found, .string (.byte b :: read)⟩ := by
      simp [step?, hne, hb]
    rw [encode_cons, encode_cons, utf8EncodeChar_of_ascii hascii, ← hbyte]
    exact tokens?_cons hescape rest
  | unit h =>
    -- The first two of the four digits are zeros whatever the character is.
    have hfront (b : UInt8) (bs : List UInt8) :
        tokens? ⟨found, .string read⟩ (0x5C :: 0x75 :: 0x30 :: 0x30 :: b :: bs) =
          tokens? ⟨found, .unit read 2 0⟩ (b :: bs) := rfl
    have hunit : c.toNat / 16 * 16 + c.toNat % 16 = c.toNat := by omega
    have hbytes : encode ['\\', 'u', '0', '0', Nat.digitChar (c.toNat / 16),
        Nat.digitChar (c.toNat % 16)] = [0x5C, 0x75, 0x30, 0x30,
          UInt8.ofNat (Nat.digitChar (c.toNat / 16)).toNat,
          UInt8.ofNat (Nat.digitChar (c.toNat % 16)).toNat] := by
      simp only [encode_cons, utf8EncodeChar_digitChar _ (by omega : c.toNat / 16 < 16),
        utf8EncodeChar_digitChar _ (by omega : c.toNat % 16 < 16)]
      rfl
    rw [hbytes]
    calc
      _ = tokens? ⟨found, .unit read 2 0⟩ _ := hfront _ _
      _ = tokens? ⟨found, .unit read 3 (0 * 16 + c.toNat / 16)⟩ _ :=
        tokens?_cons (step?_digit (by omega)) _
      _ = tokens? ⟨found, .string (.unit ((0 * 16 + c.toNat / 16) * 16 + c.toNat % 16) :: read)⟩
          rest := tokens?_cons (step?_digit (by omega)) _
      _ = _ := by
        rw [Nat.zero_mul, Nat.zero_add, hunit]
        rfl
  | plain h hquote hescape =>
    rw [encode_cons, encode, List.flatMap_nil, List.append_nil]
    exact tokens?_plain (fun b hb => isPlain_of_mem_utf8EncodeChar h hquote hescape hb) rest

theorem tokens?_flatMap_escapedChar (cs : List Char) (rest : List UInt8) :
    tokens? ⟨found, .string read⟩ (encode (cs.flatMap escapedChar) ++ rest) =
      tokens? ⟨found, .string ((cs.flatMap pieces).reverse ++ read)⟩ rest := by
  induction cs generalizing read with
  | nil => rfl
  | cons c cs ih =>
    rw [List.flatMap_cons, encode_append, List.append_assoc, tokens?_escapedChar, ih,
      List.flatMap_cons, List.reverse_append, List.append_assoc]

/-- The scan of a literal finds its content. -/
theorem tokens?_literal (s : String) (rest : List UInt8) :
    tokens? ⟨found, .gap⟩ (encode (literal s) ++ rest) =
      tokens? ⟨.string (contentOf s) :: found, .gap⟩ rest := by
  have hquote (bs : List UInt8) : tokens? ⟨found, .gap⟩ (0x22 :: bs) =
      tokens? ⟨found, .string []⟩ bs := tokens?_cons rfl bs
  have hliteral : encode (literal s) ++ rest =
      0x22 :: (encode (s.toList.flatMap escapedChar) ++ 0x22 :: rest) := by
    rw [literal, encode_cons, encode_append, List.append_assoc, List.append_assoc]
    rfl
  have hclose (read : Content) : tokens? ⟨found, .string read⟩ (0x22 :: rest) =
      tokens? ⟨.string read.reverse :: found, .gap⟩ rest := tokens?_cons rfl rest
  rw [hliteral, hquote, tokens?_flatMap_escapedChar, hclose, List.append_nil, List.reverse_reverse,
    contentOf]

end Token.Scan

end AccumulatorMachine.Json
