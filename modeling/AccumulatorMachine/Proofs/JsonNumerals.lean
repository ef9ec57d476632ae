import Mathlib.Data.List.TakeWhile
import AccumulatorMachine.Proofs.JsonStrings
import AccumulatorMachine.Proofs.Numerals

/-!
# Numerals of JSON

A numeral has a whole part without needless zeros, after at most one minus sign, and may have a
fraction and an exponent. Each of them is read: as an integer if it has neither of the two and is no
negative zero, and otherwise as itself.
-/

namespace AccumulatorMachine.Json

namespace Number

/-- Digits of a number without a zero in front, unless there is no other digit. -/
structure IsWhole (cs : List Char) (n : Nat) : Prop where
  digits : Text.Digits 10 cs n
  noZero : cs.head? = some '0' → cs = ['0']

theorem isWhole_toDigits (n : Nat) : IsWhole (Nat.toDigits 10 n) n where
  digits := Text.digits_toDigits (by decide) n
  noZero h := by rw [Text.eq_zero_of_head?_toDigits h, Nat.toDigits_zero]

/-- Nothing, or a point and digits. -/
inductive IsFraction : List Char → Prop
  | none : IsFraction []
  | some {ds : List Char} {n : Nat} (h : Text.Digits 10 ds n) : IsFraction ('.' :: ds)

/-- Nothing, or the letter e in either case and digits, which may have a sign. -/
inductive IsExponent : List Char → Prop
  | none : IsExponent []
  | some {e : Char} {sign ds : List Char} {n : Nat} (he : e = 'e' ∨ e = 'E')
    (hsign : sign = [] ∨ sign = ['+'] ∨ sign = ['-']) (h : Text.Digits 10 ds n) :
    IsExponent (e :: (sign ++ ds))

/-- A numeral, and the number that it is. -/
inductive Written : Number → List Char → Prop
  | natural {cs : List Char} {n : Nat} (h : IsWhole cs n) : Written (.integer n) cs
  | negative {cs : List Char} {n : Nat} (h : IsWhole cs n) (hn : n ≠ 0) :
    Written (.integer (-n)) ('-' :: cs)
  | negativeZero : Written (.other ['-', '0']) ['-', '0']
  | real {sign whole fraction exponent : List Char} {n : Nat} (hsign : sign = [] ∨ sign = ['-'])
    (hwhole : IsWhole whole n) (hfraction : IsFraction fraction) (hexponent : IsExponent exponent)
    (hreal : fraction ≠ [] ∨ exponent ≠ []) :
    Written (.other (sign ++ (whole ++ (fraction ++ exponent))))
      (sign ++ (whole ++ (fraction ++ exponent)))

def NoDigit (cs : List Char) : Prop := ∀ c ∈ cs.head?, c.isDigit = false

theorem isDigit_of_digits {ds : List Char} {n : Nat} (h : Text.Digits 10 ds n) :
    ∀ c ∈ ds, c.isDigit = true := by
  have hall : ∀ d < 10, (Nat.digitChar d).isDigit = true ∧
      (Nat.digitChar d).toUpper.isDigit = true := by decide
  intro c hc
  obtain ⟨d, hd, rfl | rfl⟩ := h.isDigit c hc
  · exact (hall d hd).1
  · exact (hall d hd).2

theorem digits?_append {ds rest : List Char} {n : Nat} (h : Text.Digits 10 ds n)
    (hrest : NoDigit rest) : digits? (ds ++ rest) = some (ds, rest) := by
  have hdigits := isDigit_of_digits h
  have hstop : rest.takeWhile Char.isDigit = [] ∧ rest.dropWhile Char.isDigit = rest := by
    cases rest with
    | nil => exact ⟨rfl, rfl⟩
    | cons c rest =>
      have hc : c.isDigit = false := hrest c rfl
      simp [hc]
  rw [digits?, List.takeWhile_append_of_pos hdigits, List.dropWhile_append_of_pos hdigits, hstop.1,
    hstop.2, List.append_nil, List.isEmpty_eq_false_iff.2 h.1]
  rfl

theorem digits?_of_digits {ds : List Char} {n : Nat} (h : Text.Digits 10 ds n) :
    digits? ds = some (ds, []) := by
  have hstop : NoDigit [] := nofun
  simpa using digits?_append h hstop

theorem head_digits {ds : List Char} {n : Nat} (h : Text.Digits 10 ds n) :
    ∃ c cs, ds = c :: cs ∧ c ≠ '-' ∧ c ≠ '+' := by
  cases ds with
  | nil => exact (h.1 rfl).elim
  | cons c cs =>
    have hc := isDigit_of_digits h c (List.mem_cons_self ..)
    refine ⟨c, cs, rfl, ?_, ?_⟩
    all_goals
      rintro rfl
      cases hc

theorem IsExponent.noDigit {cs : List Char} (h : IsExponent cs) : NoDigit cs := by
  cases h with
  | none => exact nofun
  | some he _ _ =>
    rintro c ⟨⟩
    rcases he with rfl | rfl <;> rfl

theorem IsFraction.noDigit {cs exponent : List Char} (h : IsFraction cs)
    (hexponent : IsExponent exponent) : NoDigit (cs ++ exponent) := by
  cases h with
  | none => exact hexponent.noDigit
  | some _ =>
    rintro c ⟨⟩
    rfl

theorem fraction?_append {cs exponent : List Char} (h : IsFraction cs)
    (hexponent : IsExponent exponent) :
    fraction? (cs ++ exponent) = some (!cs.isEmpty, exponent) := by
  cases h with
  | none =>
    cases hexponent with
    | none => rfl
    | some he _ _ => rcases he with rfl | rfl <;> rfl
  | some h =>
    rw [List.cons_append, fraction?, digits?_append h hexponent.noDigit]
    rfl

theorem exponentDigits?_append {sign ds : List Char} {n : Nat}
    (hsign : sign = [] ∨ sign = ['+'] ∨ sign = ['-']) (h : Text.Digits 10 ds n) :
    exponentDigits? (sign ++ ds) = some [] := by
  have hds := digits?_of_digits h
  rcases hsign with rfl | rfl | rfl
  · obtain ⟨c, cs, rfl, hminus, hplus⟩ := head_digits h
    rw [List.nil_append, exponentDigits?, hds]
    · rfl
    · exact fun _ heq => hplus (List.cons.inj heq).1
    · exact fun _ heq => hminus (List.cons.inj heq).1
  · rw [List.singleton_append, exponentDigits?, hds]
    rfl
  · rw [List.singleton_append, exponentDigits?, hds]
    rfl

theorem exponent?_of_isExponent {cs : List Char} (h : IsExponent cs) :
    exponent? cs = some (!cs.isEmpty, []) := by
  cases h with
  | none => rfl
  | some he hsign h =>
    rcases he with rfl | rfl
    all_goals
      rw [exponent?, exponentDigits?_append hsign h]
      rfl

theorem ofMagnitude?_parts (negative : Bool) (lexeme : List Char)
    {whole fraction exponent : List Char} {n : Nat} (hwhole : IsWhole whole n)
    (hfraction : IsFraction fraction) (hexponent : IsExponent exponent) :
    ofMagnitude? negative lexeme (whole ++ (fraction ++ exponent)) =
      some (if !fraction.isEmpty || !exponent.isEmpty || (negative && n = 0) then .other lexeme
        else .integer (if negative then -n else n)) := by
  have hzero : ¬(whole.head? = some '0' ∧ whole ≠ ['0']) := fun h => h.2 (hwhole.noZero h.1)
  have hn : Text.unsigned? 10 whole = some n :=
    (Text.unsigned?_eq_some_iff (by decide)).2 hwhole.digits
  rw [ofMagnitude?, digits?_append hwhole.digits (hfraction.noDigit hexponent)]
  simp only [Option.bind_eq_bind, Option.bind_some, if_neg hzero,
    fraction?_append hfraction hexponent, exponent?_of_isExponent hexponent, hn, ne_eq,
    not_true_eq_false, ↓reduceIte]
  split <;> rfl

theorem ofLexeme?_minus (cs : List Char) :
    ofLexeme? ('-' :: cs) = ofMagnitude? true ('-' :: cs) cs := rfl

theorem ofLexeme?_whole {whole : List Char} {n : Nat} (h : IsWhole whole n) (rest : List Char) :
    ofLexeme? (whole ++ rest) = ofMagnitude? false (whole ++ rest) (whole ++ rest) := by
  obtain ⟨c, cs, rfl, hminus, -⟩ := head_digits h.digits
  rw [ofLexeme?]
  exact fun _ heq => hminus (List.cons.inj heq).1

/-- A numeral is read as the number that it is. -/
theorem Written.ofLexeme? {n : Number} {cs : List Char} (h : n.Written cs) :
    ofLexeme? cs = some n := by
  cases h with
  | @natural cs n h =>
    have hread := ofMagnitude?_parts false cs h .none .none
    have hlexeme := ofLexeme?_whole h []
    simp only [List.append_nil] at hread hlexeme
    rw [hlexeme, hread]
    rfl
  | @negative cs n h hn =>
    have hread := ofMagnitude?_parts true ('-' :: cs) h .none .none
    simp only [List.append_nil] at hread
    rw [ofLexeme?_minus, hread]
    simp [hn]
  | negativeZero => rfl
  | @real sign whole fraction exponent n hsign hwhole hfraction hexponent hreal =>
    have hparts : (!fraction.isEmpty || !exponent.isEmpty) = true := by
      simpa [List.isEmpty_iff] using hreal
    rcases hsign with rfl | rfl
    · rw [List.nil_append, ofLexeme?_whole hwhole,
        ofMagnitude?_parts _ _ hwhole hfraction hexponent, hparts]
      rfl
    · rw [List.singleton_append, ofLexeme?_minus,
        ofMagnitude?_parts _ _ hwhole hfraction hexponent, hparts]
      rfl

end Number

/-! ### Characters of words -/

/-- A character that is one byte, which can belong to a word or a numeral. -/
def IsBareChar (c : Char) : Prop :=
  ∃ b, String.utf8EncodeChar c = [b] ∧ Token.isBare b = true ∧ Char.ofNat b.toNat = c

theorem encode_of_isBareChar {cs : List Char} (h : ∀ c ∈ cs, IsBareChar c) :
    (encode cs).all Token.isBare = true ∧
      (encode cs).map (fun b => Char.ofNat b.toNat) = cs := by
  induction cs with
  | nil => exact ⟨rfl, rfl⟩
  | cons c cs ih =>
    obtain ⟨hc, hcs⟩ := List.forall_mem_cons.1 h
    obtain ⟨b, hb, hbare, hchar⟩ := hc
    obtain ⟨hall, hchars⟩ := ih hcs
    simp [encode_cons, hb, hbare, hchar, hall, hchars]

theorem isBareChar_of_isDigit {c : Char} (h : c.isDigit = true) : IsBareChar c := by
  have hnat : 48 ≤ c.toNat ∧ c.toNat ≤ 57 := Char.isDigit_iff_toNat.1 h
  have hbare : ∀ n < 58, 48 ≤ n → Token.isBare (UInt8.ofNat n) = true := by decide
  refine ⟨UInt8.ofNat c.toNat, utf8EncodeChar_of_ascii (by omega),
    hbare c.toNat (by omega) (by omega), ?_⟩
  rw [UInt8.toNat_ofNat_of_lt' (Nat.lt_trans (by omega : c.toNat < 58) (by decide)),
    Char.ofNat_toNat]

namespace Number

theorem isBareChar_of_digits {ds : List Char} {n : Nat} (h : Text.Digits 10 ds n) :
    ∀ c ∈ ds, IsBareChar c :=
  fun c hc => isBareChar_of_isDigit (isDigit_of_digits h c hc)

theorem IsFraction.isBareChar {cs : List Char} (h : IsFraction cs) : ∀ c ∈ cs, IsBareChar c := by
  cases h with
  | none => exact nofun
  | some h => exact List.forall_mem_cons.2 ⟨⟨_, rfl, rfl, rfl⟩, isBareChar_of_digits h⟩

theorem IsExponent.isBareChar {cs : List Char} (h : IsExponent cs) : ∀ c ∈ cs, IsBareChar c := by
  cases h with
  | none => exact nofun
  | some he hsign h =>
    refine List.forall_mem_cons.2 ⟨?_, List.forall_mem_append.2 ⟨?_, isBareChar_of_digits h⟩⟩
    · rcases he with rfl | rfl <;> exact ⟨_, rfl, rfl, rfl⟩
    · rcases hsign with rfl | rfl | rfl
      · exact nofun
      · exact List.forall_mem_cons.2 ⟨⟨_, rfl, rfl, rfl⟩, nofun⟩
      · exact List.forall_mem_cons.2 ⟨⟨_, rfl, rfl, rfl⟩, nofun⟩

theorem Written.isBareChar {n : Number} {cs : List Char} (h : n.Written cs) :
    ∀ c ∈ cs, IsBareChar c := by
  have hminus : IsBareChar '-' := ⟨_, rfl, rfl, rfl⟩
  cases h with
  | natural h => exact isBareChar_of_digits h.digits
  | negative h _ => exact List.forall_mem_cons.2 ⟨hminus, isBareChar_of_digits h.digits⟩
  | negativeZero =>
    exact List.forall_mem_cons.2 ⟨hminus, List.forall_mem_cons.2 ⟨⟨_, rfl, rfl, rfl⟩, nofun⟩⟩
  | real hsign hwhole hfraction hexponent _ =>
    refine List.forall_mem_append.2 ⟨?_, List.forall_mem_append.2
      ⟨isBareChar_of_digits hwhole.digits, List.forall_mem_append.2
        ⟨hfraction.isBareChar, hexponent.isBareChar⟩⟩⟩
    rcases hsign with rfl | rfl
    · exact nofun
    · exact List.forall_mem_cons.2 ⟨hminus, nofun⟩

theorem Written.ofBare? {n : Number} {cs : List Char} (h : n.Written cs) :
    (encode cs).all Token.isBare = true ∧ Token.ofBare? (encode cs) = some (.number n) := by
  obtain ⟨hbare, hchars⟩ := encode_of_isBareChar h.isBareChar
  -- The words that are no numerals are not read as one.
  have hword (word : List Char) (hnone : Number.ofLexeme? word = none) : cs ≠ word := by
    rintro rfl
    cases h.ofLexeme?.symm.trans hnone
  refine ⟨hbare, ?_⟩
  unfold Token.ofBare?
  rw [hchars, if_neg (hword _ rfl), if_neg (hword _ rfl), if_neg (hword _ rfl), h.ofLexeme?]
  rfl

end Number

end AccumulatorMachine.Json
