import AccumulatorMachine.Proofs.Blanks
import AccumulatorMachine.Proofs.Records

/-!
# The format of records

A record is decoded exactly if its address is one to three hexadecimal digits and its word exactly
four, blanks around them apart. Decoding can be done in two passes, of which the first checks the
digits and the second converts them by a reader that takes more: the second has nothing left to
refuse.
-/

namespace AccumulatorMachine

namespace Text

/-- The word that hexadecimal digits denote, after an optional plus sign, if 16 bits hold it. -/
def hexWord? (cs : List Char) : Option Word :=
  let digits := match cs with
    | '+' :: rest => rest
    | cs => cs
  ((unsigned? 16 digits).filter (· < 2 ^ 16)).map (BitVec.ofNat 16)

def byteCount (cs : List Char) : Nat := (cs.map Char.utf8Size).sum

theorem allHex_iff {cs : List Char} (hcs : cs ≠ []) : allHex cs = true ↔ ∃ n, Digits 16 cs n := by
  have hsome := isSome_unsigned? 16 cs
  rw [← List.isEmpty_eq_false_iff] at hcs
  rw [hcs, Bool.not_false, Bool.true_and] at hsome
  rw [allHex, ← hsome, Option.isSome_iff_exists]
  simp only [unsigned?_eq_some_iff (le_refl 16)]

theorem utf8Size_of_isDigit {c : Char} {d : Nat} (h : IsDigit 16 c d) : c.utf8Size = 1 := by
  have hdigits : ∀ d < 16, (Nat.digitChar d).utf8Size = 1 ∧
      (Nat.digitChar d).toUpper.utf8Size = 1 := by decide
  obtain ⟨hd, rfl | rfl⟩ := h
  · exact (hdigits d hd).1
  · exact (hdigits d hd).2

theorem byteCount_of_allHex {cs : List Char} (h : allHex cs = true) : byteCount cs = cs.length := by
  induction cs with
  | nil => rfl
  | cons c cs ih =>
    rw [allHex, List.all_cons, Bool.and_eq_true] at h
    obtain ⟨d, hd⟩ := Option.isSome_iff_exists.1 h.1
    have hc := utf8Size_of_isDigit ((digitValue?_eq_some_iff (le_refl 16)).1 hd)
    have hcs : (cs.map Char.utf8Size).sum = cs.length := ih h.2
    rw [byteCount, List.map_cons, List.sum_cons, List.length_cons, hc, hcs, Nat.add_comm]

theorem hexWord?_of_digits {cs : List Char} {n : Nat} (h : Digits 16 cs n) (hlen : cs.length ≤ 4) :
    hexWord? cs = some (BitVec.ofNat 16 n) := by
  have hlt : n < 2 ^ 16 := (h.lt (by decide)).trans_le (Nat.pow_le_pow_right (by decide) hlen)
  have hread := (unsigned?_eq_some_iff (le_refl 16)).2 h
  unfold hexWord?
  dsimp only
  split
  · exact (not_digits_sign (le_refl 16) (.inl rfl) _ _ h).elim
  · rw [hread, Option.filter_some, if_pos (decide_eq_true hlt), Option.map_some]

end Text

namespace Image.Record

open Text

variable {r : Record} {index : Nat}

/-- A field is some hexadecimal digits with blanks around them, and denotes a number. -/
def IsField (low high : Nat) (text : String) (n : Nat) : Prop :=
  ∃ body, Padded text.toList body ∧ low ≤ body.length ∧ body.length ≤ high ∧ Digits 16 body n

theorem isField_iff {low high : Nat} {text : String} {n : Nat} :
    IsField low high text n ↔ low ≤ (trimChars text.toList).length ∧
      (trimChars text.toList).length ≤ high ∧ Digits 16 (trimChars text.toList) n := by
  rw [IsField, exists_padded_iff fun _ h => isBlank_of_digits (le_refl 16) h.2.2]

theorem isHex_iff {low high : Nat} (hlow : 1 ≤ low) {text : String} :
    IsHex low high text ↔ ∃ n, IsField low high text n := by
  simp only [isField_iff, exists_and_left, IsHex]
  refine and_congr_right fun hlen => and_congr_right fun _ => allHex_iff ?_
  exact List.ne_nil_of_length_pos (by omega)

theorem field?_eq_some_iff {allowed : Nat → Bool} {low high n : Nat} {text : String}
    (hallowed : ∀ k, allowed k = true ↔ low ≤ k ∧ k ≤ high) :
    field? allowed text = some n ↔ IsField low high text n := by
  rw [isField_iff, ← unsigned?_eq_some_iff (le_refl 16), ← and_assoc, ← hallowed]
  unfold field?
  dsimp only
  split <;> simp [*]

theorem IsField.lt {low high : Nat} {text : String} {n : Nat} (h : IsField low high text n) :
    n < 16 ^ high := by
  obtain ⟨body, -, -, hhigh, hdigits⟩ := h
  exact (hdigits.lt (by decide)).trans_le (Nat.pow_le_pow_right (by decide) hhigh)

theorem hasAddress_iff : r.HasAddress ↔ ∃ n, IsField 1 3 r.address n := isHex_iff (le_refl 1)

theorem hasWord_iff : r.HasWord ↔ ∃ n, IsField 4 4 r.word n := isHex_iff (by decide)

theorem parse_of_isField {m n : Nat} (ha : IsField 1 3 r.address m) (hw : IsField 4 4 r.word n) :
    r.parse index = .ok (BitVec.ofNat 16 m, BitVec.ofNat 16 n) := by
  have haddress : field? (fun n => 1 ≤ n && n ≤ 3) r.address = some m :=
    (field?_eq_some_iff (by simp)).2 ha
  have hword : field? (· = 4) r.word = some n := (field?_eq_some_iff (by simp; omega)).2 hw
  rw [parse, haddress, hword]

theorem toNat_of_isField {low high m : Nat} {text : String} (h : IsField low high text m)
    (hhigh : high ≤ 4) : (BitVec.ofNat 16 m).toNat = m := by
  have hlt := h.lt
  have hle : 16 ^ high ≤ 16 ^ 4 := Nat.pow_le_pow_right (by decide) hhigh
  rw [BitVec.toNat_ofNat]
  exact Nat.mod_eq_of_lt (hlt.trans_le hle)

/-- A record is decoded exactly if both of its fields are such, to the address and to the word that
the digits are in two's complement. -/
theorem parse_eq_ok_iff {address word : Word} :
    r.parse index = .ok (address, word) ↔
      ∃ m n, IsField 1 3 r.address m ∧ IsField 4 4 r.word n ∧ address.toNat = m ∧
        word.toNat = n := by
  constructor
  · intro h
    obtain ⟨ha, hw⟩ := isOk_parse.1 (by rw [h]; rfl : (r.parse index).isOk = true)
    obtain ⟨m, hm⟩ := hasAddress_iff.1 ha
    obtain ⟨n, hn⟩ := hasWord_iff.1 hw
    cases (parse_of_isField hm hn).symm.trans h
    exact ⟨m, n, hm, hn, toNat_of_isField hm (by decide), toNat_of_isField hn (by decide)⟩
  · rintro ⟨m, n, hm, hn, rfl, rfl⟩
    rw [parse_of_isField hm hn, BitVec.ofNat_toNat, BitVec.ofNat_toNat]
    rfl

inductive Pass
  | check
  | conversion
  deriving DecidableEq, Repr

/-- Decode a record in two passes: check the digits of both fields, then convert them. Says which
pass has refused a field. -/
def parseInPasses (r : Record) (index : Nat) : Except (Pass × ImageError) (Word × Word) :=
  let address := trimChars r.address.toList
  let word := trimChars r.word.toList
  if address = [] ∨ 3 < byteCount address ∨ allHex address = false then
    .error (.check, .malformedAddress index r.address)
  else if byteCount word ≠ 4 ∨ allHex word = false then
    .error (.check, .malformedWord index r.word)
  else
    match hexWord? address, hexWord? word with
    | none, _ => .error (.conversion, .malformedAddress index r.address)
    | _, none => .error (.conversion, .malformedWord index r.word)
    | some address, some word => .ok (address, word)

theorem address_refused_iff :
    trimChars r.address.toList = [] ∨ 3 < byteCount (trimChars r.address.toList) ∨
        allHex (trimChars r.address.toList) = false ↔ ¬ r.HasAddress := by
  unfold HasAddress IsHex
  dsimp only
  cases hhex : allHex (trimChars r.address.toList) with
  | false => simp
  | true =>
    rw [byteCount_of_allHex hhex, ← List.length_eq_zero_iff]
    simp only [Bool.true_eq_false, or_false, and_true]
    omega

theorem word_refused_iff :
    byteCount (trimChars r.word.toList) ≠ 4 ∨ allHex (trimChars r.word.toList) = false ↔
      ¬ r.HasWord := by
  unfold HasWord IsHex
  dsimp only
  cases hhex : allHex (trimChars r.word.toList) with
  | false => simp
  | true =>
    rw [byteCount_of_allHex hhex]
    simp only [Bool.true_eq_false, or_false, and_true]
    omega

/-- The two passes decode as one does, and only the first refuses anything. -/
theorem parseInPasses_eq : r.parseInPasses index = (r.parse index).mapError (Pass.check, ·) := by
  unfold parseInPasses
  dsimp only
  by_cases ha : r.HasAddress
  · rw [if_neg (mt address_refused_iff.1 (not_not_intro ha))]
    by_cases hw : r.HasWord
    · rw [if_neg (mt word_refused_iff.1 (not_not_intro hw))]
      obtain ⟨m, hm⟩ := hasAddress_iff.1 ha
      obtain ⟨n, hn⟩ := hasWord_iff.1 hw
      obtain ⟨-, hlen, hm'⟩ := isField_iff.1 hm
      obtain ⟨-, hlen', hn'⟩ := isField_iff.1 hn
      rw [parse_of_isField hm hn, hexWord?_of_digits hm' (by omega), hexWord?_of_digits hn' hlen']
      rfl
    · rw [if_pos (word_refused_iff.2 hw), parse_eq_error_iff.2 (.word ha hw)]
      rfl
  · rw [if_pos (address_refused_iff.2 ha), parse_eq_error_iff.2 (.address ha)]
    rfl

/-- A record places a word exactly if its address has a character that is not blank. -/
theorem isExecutable_iff : r.isExecutable = true ↔ ∃ c ∈ r.address.toList, isBlank c = false := by
  rw [isExecutable, Bool.not_eq_true', List.isEmpty_eq_false_iff, ne_eq, trimChars_eq_nil_iff]
  simp

theorem isField_hexText {low width n : Nat} (hlow : low ≤ width) (hwidth : 0 < width)
    (hn : n < 16 ^ width) : IsField low width (hexText width n) n := by
  have hlen := length_numeral hwidth hn
  refine ⟨numeral 16 width n, ?_, by omega, by omega, digits_numeral (by decide) width n⟩
  rw [hexText, String.toList_ofList]
  exact .refl _

theorem parse_new (address word : Word) (label mnemonic operandToken : String) :
    ((new address word).withSource label mnemonic operandToken).parse index =
      .ok (BitVec.ofNat 16 (address.toNat % 4096), word) := by
  have haddress : IsField 1 3 (hexText 3 address.low12.toNat) address.low12.toNat :=
    isField_hexText (by decide) (by decide) address.toNat_low12_lt
  have hword : IsField 4 4 (hexText 4 word.toNat) word.toNat :=
    isField_hexText (by decide) (by decide) word.isLt
  rw [← Word.toNat_low12]
  exact parse_eq_ok_iff.2 ⟨_, _, haddress, hword, toNat_of_isField haddress (by decide), rfl⟩

theorem of_isExecutable (h : r.isExecutable = true) (hnone : ¬ ∃ m, IsField 1 3 r.address m) :
    3 < (trimChars r.address.toList).length ∨
      ∃ c ∈ trimChars r.address.toList, ¬ ∃ d, IsDigit 16 c d := by
  rw [isExecutable, Bool.not_eq_true', List.isEmpty_eq_false_iff] at h
  have hpos := List.length_pos_of_ne_nil h
  rw [← hasAddress_iff, HasAddress, IsHex] at hnone
  by_cases hlen : 3 < (trimChars r.address.toList).length
  · exact .inl hlen
  · right
    have hhex : ¬ allHex (trimChars r.address.toList) = true :=
      fun hhex => hnone ⟨hpos, by omega, hhex⟩
    simp only [allHex, List.all_eq_true, not_forall] at hhex
    obtain ⟨c, hc, hvalue⟩ := hhex
    refine ⟨c, hc, ?_⟩
    rintro ⟨d, hd⟩
    rw [← digitValue?_eq_some_iff (le_refl 16)] at hd
    simp [hd] at hvalue

/-- A record is decoded exactly if, blanks around them apart, its address is one to three
hexadecimal digits and its word four: to that address, which is in memory, and to that word in two's
complement. Otherwise the error names the address if that is none, and else the word, with the text
as it was. Once the digits are checked, their conversion refuses nothing. A record is executable
exactly if its address is not blank, so that a blank address is never why an executable record is
refused. A record made for a word at an address is decoded to them. -/
theorem record_format_exact (r : Record) (index : Nat) :
    (∀ address word : Word, r.parse index = .ok (address, word) ↔
      ∃ m n, IsField 1 3 r.address m ∧ IsField 4 4 r.word n ∧ address.toNat = m ∧
        word.toInt = if n < 2 ^ 15 then (n : Int) else n - 2 ^ 16) ∧
    (∀ m, IsField 1 3 r.address m → m ≤ 4095) ∧
    (∀ e, r.parse index = .error e ↔
      (¬ ∃ m, IsField 1 3 r.address m) ∧ e = .malformedAddress index r.address ∨
        (∃ m, IsField 1 3 r.address m) ∧ (¬ ∃ n, IsField 4 4 r.word n) ∧
          e = .malformedWord index r.word) ∧
    r.parseInPasses index = (r.parse index).mapError (Pass.check, ·) ∧
    (r.isExecutable = true ↔ ∃ c ∈ r.address.toList, isBlank c = false) ∧
    (r.isExecutable = true → (¬ ∃ m, IsField 1 3 r.address m) →
      3 < (trimChars r.address.toList).length ∨
        ∃ c ∈ trimChars r.address.toList, ¬ ∃ d, IsDigit 16 c d) ∧
    (∀ (address word : Word) (label mnemonic operandToken : String),
      ((new address word).withSource label mnemonic operandToken).parse index =
        .ok (BitVec.ofNat 16 (address.toNat % 4096), word)) := by
  refine ⟨?decoded, fun _ h => Nat.le_of_lt_succ h.lt, ?refused, parseInPasses_eq, isExecutable_iff,
    of_isExecutable, parse_new⟩
  case decoded =>
    intro address word
    rw [parse_eq_ok_iff]
    refine exists_congr fun m => exists_congr fun n => and_congr_right fun _ =>
      and_congr_right fun hn => and_congr_right fun _ => ?_
    have hlt : n < 16 ^ 4 := hn.lt
    have hword := word.isLt
    rw [BitVec.toInt_eq_toNat_cond]
    split_ifs <;> omega
  case refused =>
    intro e
    rw [parse_eq_error_iff]
    simp only [← hasAddress_iff, ← hasWord_iff]
    constructor
    · rintro (h | ⟨h, hw⟩)
      · exact .inl ⟨h, rfl⟩
      · exact .inr ⟨h, hw, rfl⟩
    · rintro (⟨h, rfl⟩ | ⟨h, hw, rfl⟩)
      · exact .address h
      · exact .word h hw

/-- The record of a statement whose address has a sign. -/
def signed : Record := { (new 0 0xFFFF) with address := " +1" }

/-- A sign, which the conversion would take, is refused by the check: the record is executable, and
its address is one character that is no digit too many. -/
theorem record_format_exact_signed :
    signed.isExecutable = true ∧ (¬ ∃ m, IsField 1 3 signed.address m) ∧
      (∃ c ∈ trimChars signed.address.toList, ¬ ∃ d, IsDigit 16 c d) ∧
      hexWord? (trimChars signed.address.toList) = some 1 ∧
      signed.parse 7 = .error (.malformedAddress 7 " +1") := by
  obtain ⟨-, -, hrefused, -, hexecutable, hreason, -⟩ := record_format_exact signed 7
  have hrun : signed.isExecutable = true := hexecutable.2 ⟨'+', by decide, by decide⟩
  have herror : signed.parse 7 = .error (.malformedAddress 7 " +1") := by decide +kernel
  have hnone : ¬ ∃ m, IsField 1 3 signed.address m := by
    rcases (hrefused _).1 herror with ⟨hnone, -⟩ | ⟨-, -, hword⟩
    · exact hnone
    · cases hword
  refine ⟨hrun, hnone, (hreason hrun hnone).resolve_left (by decide), by decide, herror⟩

end Image.Record

end AccumulatorMachine
