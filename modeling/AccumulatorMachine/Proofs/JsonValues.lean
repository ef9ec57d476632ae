import Mathlib.Data.List.Forall2
import AccumulatorMachine.Json.Fields
import AccumulatorMachine.Proofs.JsonLayout
import AccumulatorMachine.Proofs.JsonNumerals

/-!
# Values are read back

The numeral of an integer is read as the integer, and the text of a value whose numbers are integers
as the value. What is taken out of a value by its bounds, its tag or its key is what was written.
-/

namespace AccumulatorMachine.Json

namespace Number

theorem ofMagnitude?_toDigits (negative : Bool) (lexeme : List Char) (n : Nat) :
    ofMagnitude? negative lexeme (Nat.toDigits 10 n) =
      some (if negative && n = 0 then .other lexeme
        else .integer (if negative then -n else n)) := by
  have hread := ofMagnitude?_parts negative lexeme (isWhole_toDigits n) .none .none
  simpa only [List.append_nil, List.isEmpty_nil, Bool.not_true, Bool.false_or] using hread

/-- The numeral of an integer is read as the integer. -/
theorem ofLexeme?_decimal (n : Int) : ofLexeme? (Text.decimal n) = some (.integer n) := by
  cases n with
  | ofNat n =>
    have hplain := ofLexeme?_whole (isWhole_toDigits n) []
    rw [List.append_nil] at hplain
    rw [Text.decimal, hplain, ofMagnitude?_toDigits]
    rfl
  | negSucc n =>
    rw [Text.decimal, ofLexeme?, ofMagnitude?_toDigits]
    simp
    omega

end Number

def IsNumeral (c : Char) : Prop := c.isDigit = true ∨ c = '-'

theorem isNumeral_of_mem_decimal {n : Int} {c : Char} (h : c ∈ Text.decimal n) : IsNumeral c := by
  cases n with
  | ofNat n => exact .inl (Nat.isDigit_of_mem_toDigits (by decide) (by decide) h)
  | negSucc n =>
    rcases List.mem_cons.1 h with rfl | h
    · exact .inr rfl
    · exact .inl (Nat.isDigit_of_mem_toDigits (by decide) (by decide) h)

theorem isBareChar_of_isNumeral {c : Char} (h : IsNumeral c) : IsBareChar c := by
  rcases h with hdigit | rfl
  · exact isBareChar_of_isDigit hdigit
  · exact ⟨_, rfl, rfl, rfl⟩

theorem Number.readsBack_integer (n : Int) : (Number.integer n).ReadsBack := by
  obtain ⟨hbare, hchars⟩ := encode_of_isBareChar fun _ hc =>
    isBareChar_of_isNumeral (isNumeral_of_mem_decimal (n := n) hc)
  -- The words that are no numerals have letters.
  have hword (word : List Char) (h : ∃ c ∈ word, ¬IsNumeral c) : Text.decimal n ≠ word := by
    rintro rfl
    obtain ⟨c, hc, hnot⟩ := h
    exact hnot (isNumeral_of_mem_decimal hc)
  refine ⟨hbare, ?_⟩
  unfold Token.ofBare?
  rw [Number.lexeme, hchars, if_neg (hword _ ⟨'n', by decide, nofun⟩),
    if_neg (hword _ ⟨'t', by decide, nofun⟩), if_neg (hword _ ⟨'f', by decide, nofun⟩),
    Number.ofLexeme?_decimal]
  rfl

section meaning

variable {σ τ : Type} {f : σ → τ} {g : τ → Option σ}

mutual

/-- Strings that have been changed get their meaning back. -/
theorem mapStrings?_mapStrings (h : ∀ s, g (f s) = some s) (j : Json σ) :
    mapStrings? g (mapStrings f j) = some j := by
  cases j with
  | null | bool | number => rfl
  | string s => simp [mapStrings, mapStrings?, h]
  | array items => simp [mapStrings, mapStrings?, mapItems?_mapItems h items]
  | object fields => simp [mapStrings, mapStrings?, mapFields?_mapFields h fields]

theorem mapItems?_mapItems (h : ∀ s, g (f s) = some s) (items : List (Json σ)) :
    mapItems? g (mapItems f items) = some items := by
  cases items with
  | nil => rfl
  | cons j items =>
    simp [mapItems, mapItems?, mapStrings?_mapStrings h j, mapItems?_mapItems h items]

theorem mapFields?_mapFields (h : ∀ s, g (f s) = some s) (fields : List (σ × Json σ)) :
    mapFields? g (mapFields f fields) = some fields := by
  cases fields with
  | nil => rfl
  | cons field fields =>
    obtain ⟨key, j⟩ := field
    simp [mapFields, mapFields?, h, mapStrings?_mapStrings h j, mapFields?_mapFields h fields]

end

end meaning

def Integral {σ : Type} (j : Json σ) : Prop := ∀ n ∈ numbers j, ∃ k, n = .integer k

section integral

variable {σ : Type}

@[simp] theorem integral_null : Integral (.null : Json σ) := nofun

@[simp] theorem integral_bool (b : Bool) : Integral (.bool b : Json σ) := nofun

@[simp] theorem integral_string (s : σ) : Integral (.string s) := nofun

@[simp] theorem integral_int (n : Int) : Integral (int n : Json σ) := by
  intro k hk
  exact ⟨n, List.mem_singleton.1 hk⟩

@[simp] theorem integral_array (items : List (Json σ)) :
    Integral (.array items) ↔ ∀ j ∈ items, j.Integral := by
  change (∀ n ∈ itemNumbers items, ∃ k, n = .integer k) ↔ _
  induction items with
  | nil => simp [itemNumbers]
  | cons j items ih =>
    simp only [itemNumbers, List.mem_append, or_imp, forall_and, ih, List.forall_mem_cons]
    rfl

@[simp] theorem integral_object (fields : List (σ × Json σ)) :
    Integral (.object fields) ↔ ∀ field ∈ fields, field.2.Integral := by
  change (∀ n ∈ fieldNumbers fields, ∃ k, n = .integer k) ↔ _
  induction fields with
  | nil => simp [fieldNumbers]
  | cons field fields ih =>
    simp only [fieldNumbers, List.mem_append, or_imp, forall_and, ih, List.forall_mem_cons]
    rfl

@[simp] theorem integral_ofOption (j? : Option (Json σ)) :
    Integral (ofOption j?) ↔ ∀ j ∈ j?, j.Integral := by
  cases j? <;> simp [ofOption]

end integral

/-- The text of a value whose numbers are integers denotes the value, whatever its strings hold. -/
theorem valueOfBytes?_compact {j : Json String} (h : j.Integral) :
    valueOfBytes? (utf8 (compact j)) = some j := by
  have hnumbers : ∀ n ∈ numbers j, n.ReadsBack := by
    intro n hn
    obtain ⟨k, rfl⟩ := h n hn
    exact Number.readsBack_integer k
  rw [valueOfBytes?, ofBytes?_compact hnumbers, Option.bind_some,
    mapStrings?_mapStrings Content.text?_contentOf]

theorem natBelow?_int {n bound : Nat} (h : n < bound) : natBelow? bound (int n) = some n := by
  have hbounds : (0 : Int) ≤ n ∧ (n : Int) ≤ bound - 1 := by omega
  simp [natBelow?, int, intBetween?, hbounds]

theorem natKey?_decimalText {n bound : Nat} (h : n < bound) :
    natKey? bound (Text.decimalText n) = some n := by
  rw [natKey?, Text.decimalText, String.toList_ofList, Number.ofLexeme?_decimal]
  exact natBelow?_int h

theorem mapM_eq_some_of_forall₂ {α β : Type} {read : β → Option α} {xs : List β} {ys : List α}
    (h : List.Forall₂ (fun x y => read x = some y) xs ys) : xs.mapM read = some ys := by
  induction h with
  | nil => rfl
  | cons hx _ ih =>
    rw [List.mapM_cons, hx, ih]
    rfl

theorem mapM_map_of_reads {α β : Type} {read : β → Option α} {write : α → β} {xs : List α}
    (h : ∀ x ∈ xs, read (write x) = some x) : (xs.map write).mapM read = some xs := by
  apply mapM_eq_some_of_forall₂
  rw [List.forall₂_map_left_iff, List.forall₂_same]
  exact h

theorem items?_map {α : Type} {read : Json String → Option α} {write : α → Json String}
    {xs : List α} (h : ∀ x ∈ xs, read (write x) = some x) :
    items? read (.array (xs.map write)) = some xs :=
  mapM_map_of_reads h

theorem optional?_ofOption {α : Type} {read : Json String → Option α} {write : α → Json String}
    {x? : Option α} (h : ∀ x ∈ x?, write x ≠ .null ∧ read (write x) = some x) :
    optional? read (some (.ofOption (x?.map write))) = some x? := by
  cases x? with
  | none => rfl
  | some x =>
    obtain ⟨hnull, hread⟩ := h x rfl
    rw [Option.map_some, ofOption]
    unfold optional?
    split
    next heq => cases heq
    next heq => exact (hnull (Option.some.inj heq)).elim
    next j _ heq =>
      cases heq
      rw [hread]
      rfl

end AccumulatorMachine.Json
