import AccumulatorMachine.Proofs.JsonStrings
import AccumulatorMachine.Proofs.Numerals

/-!
# Strings in every spelling

The writer spells a text in one way. Any other way is read as well: a character may stand for
itself, be escaped by a letter that stands for it, or be given by one UTF-16 unit or two. What
stands between the quotes is a content, whatever its spelling, and a content that denotes a text is
read as the text.
-/

namespace AccumulatorMachine.Json

/-- The letters of the short escapes, each with the character that it stands for. -/
def shortEscapes : List (Char × Char) :=
  [('"', '"'), ('\\', '\\'), ('/', '/'), ('b', '\x08'), ('f', '\x0c'), ('n', '\n'), ('r', '\r'),
    ('t', '\t')]

/-- What may stand between the quotes of a literal, and its content. -/
inductive Quoted : Content → List Char → Prop
  | nil : Quoted [] []
  | plain {c : Char} {content : Content} {cs : List Char} (hcontrol : 0x20 ≤ c.toNat)
    (hquote : c ≠ '"') (hescape : c ≠ '\\') (h : Quoted content cs) :
    Quoted ((String.utf8EncodeChar c).map .byte ++ content) (c :: cs)
  | short {e c : Char} {content : Content} {cs : List Char} (he : (e, c) ∈ shortEscapes)
    (h : Quoted content cs) :
    Quoted ((String.utf8EncodeChar c).map .byte ++ content) ('\\' :: e :: cs)
  | unit {digits : List Char} {u : Nat} {content : Content} {cs : List Char}
    (hlength : digits.length = 4) (hdigits : Text.Digits 16 digits u) (h : Quoted content cs) :
    Quoted (.unit u :: content) ('\\' :: 'u' :: (digits ++ cs))

/-- A content denotes a text: each character is given by its bytes, by the UTF-16 unit that it is,
or by the two units of its surrogate pair. -/
inductive Content.Denotes : Content → List Char → Prop
  | nil : Denotes [] []
  | bytes (c : Char) {content : Content} {cs : List Char} (h : Denotes content cs) :
    Denotes ((String.utf8EncodeChar c).map .byte ++ content) (c :: cs)
  | unit {c : Char} {content : Content} {cs : List Char} (hc : c.toNat < 0x10000)
    (h : Denotes content cs) : Denotes (.unit c.toNat :: content) (c :: cs)
  | pair {c : Char} {content : Content} {cs : List Char} (hc : 0x10000 ≤ c.toNat)
    (h : Denotes content cs) :
    Denotes (.unit (0xD800 + (c.toNat - 0x10000) / 0x400) ::
      .unit (0xDC00 + (c.toNat - 0x10000) % 0x400) :: content) (c :: cs)

/-- The content of a literal whose characters stand for themselves. -/
def plain (cs : List Char) : Content := (encode cs).map .byte

theorem plain_cons (c : Char) (cs : List Char) :
    plain (c :: cs) = (String.utf8EncodeChar c).map .byte ++ plain cs := by
  rw [plain, encode_cons, List.map_append, plain]

theorem quoted_plain (cs : List Char)
    (h : (cs.all fun c => 0x20 ≤ c.toNat ∧ c ≠ '"' ∧ c ≠ '\\') = true) :
    Quoted (plain cs) cs := by
  induction cs with
  | nil => exact .nil
  | cons c cs ih =>
    rw [List.all_cons, Bool.and_eq_true, decide_eq_true_eq] at h
    obtain ⟨⟨hcontrol, hquote, hescape⟩, hcs⟩ := h
    rw [plain_cons]
    exact .plain hcontrol hquote hescape (ih hcs)

theorem denotes_plain (cs : List Char) : (plain cs).Denotes cs := by
  induction cs with
  | nil => exact .nil
  | cons c cs ih =>
    rw [plain_cons]
    exact .bytes c ih

namespace Token.Scan

variable {found : List Token} {read : Content}

theorem tokens?_short {e c : Char} (he : (e, c) ∈ shortEscapes) (rest : List UInt8) :
    tokens? ⟨found, .string read⟩ (0x5C :: (String.utf8EncodeChar e ++ rest)) =
      tokens? ⟨found, .string (((String.utf8EncodeChar c).map .byte).reverse ++ read)⟩ rest := by
  have hall : ∀ p ∈ shortEscapes, p.1.toNat < 0x80 ∧ p.2.toNat < 0x80 ∧
      UInt8.ofNat p.1.toNat ≠ 0x75 ∧
      ofEscape? (UInt8.ofNat p.1.toNat) = some (UInt8.ofNat p.2.toNat) := by decide
  obtain ⟨hletter, hchar, hunit, hescape⟩ := hall (e, c) he
  have hopen : step? ⟨found, .string read⟩ 0x5C = some ⟨found, .escape read⟩ := rfl
  have hclose : step? ⟨found, .escape read⟩ (UInt8.ofNat e.toNat) =
      some ⟨found, .string (.byte (UInt8.ofNat c.toNat) :: read)⟩ := by
    simp [step?, hunit, hescape]
  rw [utf8EncodeChar_of_ascii hletter, utf8EncodeChar_of_ascii hchar, List.singleton_append,
    tokens?_cons hopen, tokens?_cons hclose]
  rfl

theorem step?_isDigit (found : List Token) (read : Content) {c : Char} {d : Nat}
    (h : Text.IsDigit 16 c d) (count value : Nat) :
    ∃ b, String.utf8EncodeChar c = [b] ∧ step? ⟨found, .unit read count value⟩ b =
      some (if count = 3 then ⟨found, .string (.unit (value * 16 + d) :: read)⟩
        else ⟨found, .unit read (count + 1) (value * 16 + d)⟩) := by
  have hall : ∀ d < 16, (Nat.digitChar d).toNat < 0x80 ∧
      (Nat.digitChar d).toUpper.toNat < 0x80 := by decide
  have hascii : c.toNat < 0x80 := by
    obtain ⟨hd, rfl | rfl⟩ := h
    · exact (hall d hd).1
    · exact (hall d hd).2
  refine ⟨_, utf8EncodeChar_of_ascii hascii, ?_⟩
  have hvalue : Text.digitValue? 16 (Char.ofNat (UInt8.ofNat c.toNat).toNat) = some d := by
    rw [UInt8.toNat_ofNat_of_lt' (Nat.lt_trans hascii (by decide)), Char.ofNat_toNat]
    exact (Text.digitValue?_eq_some_iff (by decide)).2 h
  simp only [step?, hvalue]
  split <;> rfl

theorem tokens?_unit {digits : List Char} {u : Nat} (hlength : digits.length = 4)
    (hdigits : Text.Digits 16 digits u) (rest : List UInt8) :
    tokens? ⟨found, .unit read 0 0⟩ (encode digits ++ rest) =
      tokens? ⟨found, .string (.unit u :: read)⟩ rest := by
  obtain ⟨-, ds, hds, rfl⟩ := hdigits
  match digits, ds, hlength, hds with
  | [c₁, c₂, c₃, c₄], [d₁, d₂, d₃, d₄], _, .cons h₁ (.cons h₂ (.cons h₃ (.cons h₄ .nil))) =>
    obtain ⟨b₁, hb₁, hstep₁⟩ := step?_isDigit found read h₁ 0 0
    obtain ⟨b₂, hb₂, hstep₂⟩ := step?_isDigit found read h₂ 1 (0 * 16 + d₁)
    obtain ⟨b₃, hb₃, hstep₃⟩ :=
      step?_isDigit found read h₃ 2 ((0 * 16 + d₁) * 16 + d₂)
    obtain ⟨b₄, hb₄, hstep₄⟩ :=
      step?_isDigit found read h₄ 3 (((0 * 16 + d₁) * 16 + d₂) * 16 + d₃)
    have hbytes : encode [c₁, c₂, c₃, c₄] = [b₁, b₂, b₃, b₄] := by
      simp only [encode_cons, hb₁, hb₂, hb₃, hb₄]
      rfl
    have hvalue : Nat.ofDigits 16 [d₁, d₂, d₃, d₄].reverse =
        (((0 * 16 + d₁) * 16 + d₂) * 16 + d₃) * 16 + d₄ := by
      simp [Nat.ofDigits_cons]
      ring
    rw [hbytes, hvalue]
    calc
      _ = tokens? _ (b₂ :: b₃ :: b₄ :: rest) := tokens?_cons hstep₁ _
      _ = tokens? _ (b₃ :: b₄ :: rest) := tokens?_cons hstep₂ _
      _ = tokens? _ (b₄ :: rest) := tokens?_cons hstep₃ _
      _ = _ := tokens?_cons hstep₄ _

end Token.Scan

open Token Scan in
/-- The scan of what stands between quotes finds its content. -/
theorem Quoted.tokens? {content : Content} {cs : List Char} (h : Quoted content cs)
    {found : List Token} {read : Content} (rest : List UInt8) :
    Scan.tokens? ⟨found, .string read⟩ (encode cs ++ rest) =
      Scan.tokens? ⟨found, .string (content.reverse ++ read)⟩ rest := by
  induction h generalizing read with
  | nil => rfl
  | plain hcontrol hquote hescape _ ih =>
    rw [encode_cons, List.append_assoc,
      tokens?_plain fun b hb => isPlain_of_mem_utf8EncodeChar hcontrol hquote hescape hb, ih,
      List.reverse_append, List.append_assoc]
  | @short e c content cs he _ ih =>
    have hbytes : encode ('\\' :: e :: cs) ++ rest =
        0x5C :: (String.utf8EncodeChar e ++ (encode cs ++ rest)) := by
      rw [encode_cons, encode_cons, List.append_assoc, List.append_assoc]
      rfl
    rw [hbytes, tokens?_short he, ih, List.reverse_append, List.append_assoc]
  | @unit digits u content cs hlength hdigits _ ih =>
    have hbytes : encode ('\\' :: 'u' :: (digits ++ cs)) ++ rest =
        0x5C :: 0x75 :: (encode digits ++ (encode cs ++ rest)) := by
      rw [encode_cons, encode_cons, encode_append, List.append_assoc, List.append_assoc,
        List.append_assoc]
      rfl
    have hopen : Scan.tokens? ⟨found, .string read⟩
        (0x5C :: 0x75 :: (encode digits ++ (encode cs ++ rest))) =
          Scan.tokens? ⟨found, .unit read 0 0⟩ (encode digits ++ (encode cs ++ rest)) := rfl
    rw [hbytes, hopen, tokens?_unit hlength hdigits, ih]
    simp

namespace Content

theorem isSurrogate_toNat (c : Char) :
    isHighSurrogate c.toNat = false ∧ isLowSurrogate c.toNat = false := by
  have hvalid : c.toNat < 0xD800 ∨ 0xDFFF < c.toNat ∧ c.toNat < 0x110000 := c.valid
  simp only [isHighSurrogate, isLowSurrogate, Bool.and_eq_false_iff, decide_eq_false_iff_not]
  omega

theorem bytes?_unit_toNat (c : Char) (rest : Content) :
    bytes? (.unit c.toNat :: rest) = (bytes? rest).map (String.utf8EncodeChar c ++ ·) := by
  obtain ⟨hhigh, hlow⟩ := isSurrogate_toNat c
  cases rest with
  | nil => simp [bytes?, hhigh, hlow]
  | cons p rest => cases p <;> simp [bytes?, hhigh, hlow]

/-- The two units of a surrogate pair stand for their character. -/
theorem bytes?_pair {c : Char} (hc : 0x10000 ≤ c.toNat) (rest : Content) :
    bytes? (.unit (0xD800 + (c.toNat - 0x10000) / 0x400) ::
      .unit (0xDC00 + (c.toNat - 0x10000) % 0x400) :: rest) =
        (bytes? rest).map (String.utf8EncodeChar c ++ ·) := by
  have hvalid : c.toNat < 0xD800 ∨ 0xDFFF < c.toNat ∧ c.toNat < 0x110000 := c.valid
  have hhigh : isHighSurrogate (0xD800 + (c.toNat - 0x10000) / 0x400) = true := by
    simp only [isHighSurrogate, Bool.and_eq_true, decide_eq_true_eq]
    omega
  have hlow : isLowSurrogate (0xDC00 + (c.toNat - 0x10000) % 0x400) = true := by
    simp only [isLowSurrogate, Bool.and_eq_true, decide_eq_true_eq]
    omega
  have hchar : pairChar (0xD800 + (c.toNat - 0x10000) / 0x400)
      (0xDC00 + (c.toNat - 0x10000) % 0x400) = c := by
    rw [pairChar, show 0x10000 + (0xD800 + (c.toNat - 0x10000) / 0x400 - 0xD800) * 0x400 +
      (0xDC00 + (c.toNat - 0x10000) % 0x400 - 0xDC00) = c.toNat by omega, Char.ofNat_toNat]
  rw [bytes?, if_pos hhigh, if_pos hlow, hchar]

theorem Denotes.bytes? {content : Content} {cs : List Char} (h : content.Denotes cs) :
    content.bytes? = some (encode cs) := by
  induction h with
  | nil => rfl
  | bytes c _ ih =>
    rw [bytes?_map_byte, ih, encode_cons]
    rfl
  | unit _ _ ih =>
    rw [bytes?_unit_toNat, ih, encode_cons]
    rfl
  | pair hc _ ih =>
    rw [bytes?_pair hc, ih, encode_cons]
    rfl

/-- A content that denotes a text is read as the text. -/
theorem Denotes.text? {content : Content} {s : String} (h : content.Denotes s.toList) :
    content.text? = some s := by
  rw [Content.text?, h.bytes?, ← utf8_eq_encode, Option.bind_some, textOfBytes?_utf8]

end Content

end AccumulatorMachine.Json
