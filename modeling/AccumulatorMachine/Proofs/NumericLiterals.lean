import AccumulatorMachine.Proofs.Blanks
import AccumulatorMachine.Proofs.Numerals
import AccumulatorMachine.Register

/-!
# Numeric literals

A decimal or hexadecimal literal is read exactly if it is a numeral, with any blanks around it, of a
number that 32 bits hold. The number is then cut to a word. What is shown of a word is read back as
that word, and the three digits of an address as the address.
-/

namespace AccumulatorMachine

/-- A text is a numeral with blanks around it, and its number fits 32 bits. -/
def Text.IsNumber (base : Nat) (text : String) (n : Int) : Prop :=
  (∃ body, Padded text.toList body ∧ Numeral base body n) ∧ -2 ^ 31 ≤ n ∧ n ≤ 2 ^ 31 - 1

/-- The base of a mode's numerals. An ASCII literal is no numeral. -/
def DisplayMode.base? : DisplayMode → Option Nat
  | hex => some 16
  | decimal => some 10
  | ascii => none

theorem literalRange_iff (n : Int) : literalRange n = true ↔ -2 ^ 31 ≤ n ∧ n ≤ 2 ^ 31 - 1 := by
  simp [literalRange]

namespace Text

theorem isNumber_iff {base : Nat} (hbase : base ≤ 16) {text : String} {n : Int} :
    IsNumber base text n ↔
      Numeral base (trimChars text.toList) n ∧ -2 ^ 31 ≤ n ∧ n ≤ 2 ^ 31 - 1 := by
  rw [IsNumber, exists_padded_iff fun _ h => isBlank_of_numeral hbase h]

end Text

namespace DisplayMode

section reading

variable {mode : DisplayMode} {base : Nat} (hbase : mode.base? = some base)
include hbase

theorem base_le : 1 < base ∧ base ≤ 16 := by
  cases mode <;> cases hbase <;> decide

theorem number?_eq_some_iff {text : String} {n : Int} :
    mode.number? (Text.trimChars text.toList) = some n ↔ Text.IsNumber base text n := by
  have hle := (base_le hbase).2
  rw [Text.isNumber_iff hle, ← Text.signed?_eq_some_iff hle, ← literalRange_iff,
    ← Option.filter_eq_some_iff]
  cases mode with
  | hex => cases hbase; rfl
  | decimal => cases hbase; rfl
  | ascii => cases hbase

theorem literal_of_isNumber {text : String} {n : Int} (h : Text.IsNumber base text n) :
    mode.literal text = .ok (Word.ofInt n) := by
  rw [literal, (number?_eq_some_iff hbase).2 h]

theorem literal_eq_ok_iff {text : String} {w : Word} :
    mode.literal text = .ok w ↔ ∃ n, Text.IsNumber base text n ∧ Word.ofInt n = w := by
  constructor
  · intro h
    unfold literal at h
    split at h
    next n hn => exact ⟨n, (number?_eq_some_iff hbase).1 hn, by cases h; rfl⟩
    next => cases h
  · rintro ⟨n, h, rfl⟩
    exact literal_of_isNumber hbase h

theorem literal_eq_error_iff {text : String} :
    mode.literal text = .error ⟨text, mode⟩ ↔ ¬ ∃ n, Text.IsNumber base text n := by
  simp only [← number?_eq_some_iff hbase, ← Option.isSome_iff_exists, Option.not_isSome_iff_eq_none]
  unfold literal
  cases mode.number? (Text.trimChars text.toList) <;> simp

end reading

theorem isNumber_hexText {text : String} {width n : Nat}
    (hpadded : Text.Padded text.toList (Text.hexText width n).toList) (hn : n < 2 ^ 16) :
    Text.IsNumber 16 text n := by
  rw [Text.hexText, String.toList_ofList] at hpadded
  exact ⟨⟨_, hpadded, .bare (Text.digits_numeral (by decide) width n)⟩, by omega, by omega⟩

/-- A word that is shown as a number is read back, whatever blanks are around it. -/
theorem literal_render {mode : DisplayMode} {base : Nat} (hbase : mode.base? = some base) (w : Word)
    {text : String} (hpadded : Text.Padded text.toList (mode.render false w).toList) :
    mode.literal text = .ok w := by
  have hlt := w.isLt
  cases mode with
  | hex =>
    rw [literal_of_isNumber rfl (isNumber_hexText hpadded hlt), Word.ofInt, BitVec.ofInt_natCast]
    simp
  | decimal =>
    have hlow := BitVec.le_toInt w
    have hhigh := BitVec.toInt_lt (x := w)
    rw [render, Text.decimalText, String.toList_ofList] at hpadded
    have hnumber : Text.IsNumber 10 text w.toInt :=
      ⟨⟨_, hpadded, Text.numeral_decimal _⟩, by omega, by omega⟩
    rw [literal_of_isNumber rfl hnumber, Word.ofInt_toInt]
  | ascii => cases hbase

/-- The three digits of an address are read back as the address. -/
theorem literal_render_address (w : Word) {text : String}
    (hpadded : Text.Padded text.toList (hex.render true w).toList) :
    hex.literal text = .ok (BitVec.ofNat 16 (w.toNat % 4096)) := by
  have hlt := w.low12.isLt
  rw [literal_of_isNumber rfl (isNumber_hexText hpadded hlt), Word.ofInt, BitVec.ofInt_natCast,
    Word.toNat_low12]

end DisplayMode

/-- Enter a literal into a register: it is read in the register's mode, and then stored. -/
def Register.enter (text : String) : EStateM LiteralError Register Unit := do
  match (← get).mode.literal text with
  | .error e => throw e
  | .ok w => modify (·.setValue w.toInt)

namespace Register

theorem run_enter (r : Register) (text : String) :
    (enter text).run r = match r.setLiteral text with
      | .ok r' => .ok () r'
      | .error e => .error e r := by
  have hread : (enter text).run r =
      (match r.mode.literal text with
        | .error e => throw e
        | .ok w => modify (·.setValue w.toInt) : EStateM LiteralError Register Unit) r := rfl
  rw [hread, setLiteral]
  cases r.mode.literal text <;> rfl

end Register

/-- A literal in a numeric mode is read exactly if it is a numeral of a number that 32 bits hold,
with any blanks around it, and gives that number cut to a word. Any other is refused, and a register
into which it is entered stays as it was. What is shown of a word in the mode is read back as the
word, and the three digits of an address as its low twelve bits. -/
theorem DisplayMode.numeric_literals_exact {mode : DisplayMode} {base : Nat}
    (hbase : mode.base? = some base) :
    (∀ (text : String) (w : Word),
      mode.literal text = .ok w ↔ ∃ n, Text.IsNumber base text n ∧ w.toInt = n.bmod (2 ^ 16)) ∧
    (∀ text, mode.literal text = .error ⟨text, mode⟩ ↔ ¬ ∃ n, Text.IsNumber base text n) ∧
    (∀ (r : Register) (text : String), r.mode = mode → (¬ ∃ n, Text.IsNumber base text n) →
      r.setLiteral text = .error ⟨text, mode⟩ ∧
        (Register.enter text).run r = .error ⟨text, mode⟩ r) ∧
    (∀ (w : Word) (text : String), Text.Padded text.toList (mode.render false w).toList →
      mode.literal text = .ok w) ∧
    (∀ (w : Word) (text : String), Text.Padded text.toList (DisplayMode.hex.render true w).toList →
      DisplayMode.hex.literal text = .ok (BitVec.ofNat 16 (w.toNat % 4096))) := by
  refine ⟨?accepted, fun _ => literal_eq_error_iff hbase, ?refused,
    fun w _ h => literal_render hbase w h, fun w _ h => literal_render_address w h⟩
  case accepted =>
    intro text w
    have hword (n : Int) : Word.ofInt n = w ↔ w.toInt = n.bmod (2 ^ 16) := by
      rw [← BitVec.toInt_inj, Word.ofInt, BitVec.toInt_ofInt, eq_comm]
    simp only [literal_eq_ok_iff hbase, hword]
  case refused =>
    intro r text hmode hnone
    have herror : r.setLiteral text = .error ⟨text, mode⟩ := by
      rw [Register.setLiteral, hmode, (literal_eq_error_iff hbase).2 hnone]
      rfl
    exact ⟨herror, by rw [Register.run_enter, herror]⟩

/-- A number beyond sixteen bits is cut, and one beyond 32 bits is refused. What is shown of a word
is read back from between blanks. -/
theorem DisplayMode.numeric_literals_exact_cut :
    decimal.base? = some 10 ∧
      (Text.IsNumber 10 " -0032769\n" (-32769) ∧
        decimal.literal " -0032769\n" = .ok (BitVec.ofNat 16 32767)) ∧
      ((¬ ∃ n, Text.IsNumber 10 "2147483648" n) ∧
        (Register.enter "2147483648").run (.new .input) =
          .error ⟨"2147483648", decimal⟩ (.new .input)) ∧
      (Text.Padded "\t-12 ".toList (decimal.render false (Word.ofInt (-12))).toList ∧
        decimal.literal "\t-12 " = .ok (Word.ofInt (-12))) ∧
      (Text.Padded " FFF".toList (hex.render true 0xFFFF).toList ∧
        hex.literal " FFF" = .ok 0x0FFF) := by
  have hbase : decimal.base? = some 10 := rfl
  obtain ⟨hok, herror, hkept, hword, haddress⟩ := numeric_literals_exact hbase
  have hnumber : Text.IsNumber 10 " -0032769\n" (-32769) :=
    (number?_eq_some_iff hbase).1 (by decide +kernel)
  have hnone : ¬ ∃ n, Text.IsNumber 10 "2147483648" n := (herror _).1 (by decide +kernel)
  have hpadded : Text.Padded "\t-12 ".toList (decimal.render false (Word.ofInt (-12))).toList :=
    ⟨['\t'], [' '], by decide +kernel, List.forall_mem_singleton.2 rfl,
      List.forall_mem_singleton.2 rfl⟩
  have hshown : Text.Padded " FFF".toList (hex.render true 0xFFFF).toList :=
    ⟨[' '], [], by decide +kernel, List.forall_mem_singleton.2 rfl, List.forall_mem_nil _⟩
  exact ⟨hbase, ⟨hnumber, (hok _ _).2 ⟨_, hnumber, by decide⟩⟩, ⟨hnone, (hkept _ _ rfl hnone).2⟩,
    ⟨hpadded, hword _ _ hpadded⟩, ⟨hshown, haddress _ _ hshown⟩⟩

end AccumulatorMachine
