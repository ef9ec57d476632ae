import Mathlib.Data.List.Forall2
import Mathlib.Data.Nat.Digits.Defs
import Mathlib.Tactic.Ring
import AccumulatorMachine.Text.Blank
import AccumulatorMachine.Text.Numeral

/-!
# Numerals and the numbers they denote

What a numeral is, and which number it denotes: one or more digits of a base, in either case and
with any number of zeros in front, after at most one sign. Reading accepts exactly these texts, with
that number, and a number that is written is read as itself.
-/

namespace AccumulatorMachine.Text

/-- A character is a digit of a base, in either case. -/
def IsDigit (base : Nat) (c : Char) (d : Nat) : Prop :=
  d < base ∧ (c = Nat.digitChar d ∨ c = (Nat.digitChar d).toUpper)

/-- One or more digits, and the number that they denote in a base, the most significant first. -/
def Digits (base : Nat) (cs : List Char) (n : Nat) : Prop :=
  cs ≠ [] ∧ ∃ ds, List.Forall₂ (IsDigit base) cs ds ∧ n = Nat.ofDigits base ds.reverse

/-- Digits after at most one sign, and the number that they denote. -/
inductive Numeral (base : Nat) : List Char → Int → Prop
  | bare {cs : List Char} {n : Nat} (h : Digits base cs n) : Numeral base cs n
  | plus {cs : List Char} {n : Nat} (h : Digits base cs n) : Numeral base ('+' :: cs) n
  | minus {cs : List Char} {n : Nat} (h : Digits base cs n) : Numeral base ('-' :: cs) (-n)

variable {base : Nat}

/-! ### Reading digits -/

theorem isSome_foldlM_digits {n : Nat} {cs : List Char} :
    (cs.foldlM (fun n c => (digitValue? base c).map (n * base + ·)) n).isSome =
      cs.all fun c => (digitValue? base c).isSome := by
  induction cs generalizing n with
  | nil => rfl
  | cons c cs ih =>
    rw [List.foldlM_cons]
    cases hd : digitValue? base c with
    | none => simp [hd]
    | some d => simp [hd, ih]

theorem isSome_unsigned? (base : Nat) (cs : List Char) :
    (unsigned? base cs).isSome = (!cs.isEmpty && cs.all fun c => (digitValue? base c).isSome) := by
  cases cs with
  | nil => rfl
  | cons c cs => exact isSome_foldlM_digits

theorem digitValue?_digitChar : ∀ d < 16, digitValue? 16 (Nat.digitChar d) = some d ∧
    digitValue? 16 (Nat.digitChar d).toUpper = some d := by
  decide

theorem digitValue?_eq_filter (hbase : base ≤ 16) (c : Char) :
    digitValue? base c = (digitValue? 16 c).filter (· < base) := by
  simp only [digitValue?, Option.filter_filter]
  congr 1
  funext d
  rw [← Bool.decide_and, decide_eq_decide]
  omega

theorem eq_digitChar_of_digitValue? {c : Char} {d : Nat} (h : digitValue? 16 c = some d) :
    c = Nat.digitChar d ∨ c = (Nat.digitChar d).toUpper := by
  have hle (a b : Char) : a ≤ b ↔ a.toNat ≤ b.toNat := Char.le_def
  simp only [digitValue?, hle, Char.reduceToNat] at h
  split_ifs at h with hfigure hsmall hcapital
  · cases (Option.filter_eq_some_iff.1 h).1
    left
    rw [← Char.toNat_inj, Nat.toNat_digitChar_of_lt_ten (by omega)]
    omega
  · cases (Option.filter_eq_some_iff.1 h).1
    have hsmalls : ∀ k < 6, (Nat.digitChar (k + 10)).toNat = 97 + k := by decide
    left
    rw [← Char.toNat_inj, hsmalls _ (by omega)]
    omega
  · cases (Option.filter_eq_some_iff.1 h).1
    have hcapitals : ∀ k < 6, (Nat.digitChar (k + 10)).toUpper.toNat = 65 + k := by decide
    right
    rw [← Char.toNat_inj, hcapitals _ (by omega)]
    omega
  · cases h

theorem digitValue?_eq_some_iff (hbase : base ≤ 16) {c : Char} {d : Nat} :
    digitValue? base c = some d ↔ IsDigit base c d := by
  rw [digitValue?_eq_filter hbase, Option.filter_eq_some_iff, decide_eq_true_eq, IsDigit, and_comm,
    and_congr_right_iff]
  intro hd
  have hread := digitValue?_digitChar d (hd.trans_le hbase)
  constructor
  · exact eq_digitChar_of_digitValue?
  · rintro (rfl | rfl)
    · exact hread.1
    · exact hread.2

/-- Reading digits behind a number that has been read. -/
theorem foldlM_digits_eq_some_iff (hbase : base ≤ 16) {cs : List Char} {n r : Nat} :
    cs.foldlM (fun n c => (digitValue? base c).map (n * base + ·)) n = some r ↔
      ∃ ds, List.Forall₂ (IsDigit base) cs ds ∧
        r = n * base ^ cs.length + Nat.ofDigits base ds.reverse := by
  induction cs generalizing n with
  | nil =>
    simp [eq_comm]
  | cons c cs ih =>
    simp only [List.foldlM_cons, Option.bind_eq_bind, Option.bind_eq_some_iff,
      Option.map_eq_some_iff, digitValue?_eq_some_iff hbase, ih]
    constructor
    · rintro ⟨_, ⟨d, hd, rfl⟩, ds, hds, rfl⟩
      refine ⟨d :: ds, .cons hd hds, ?_⟩
      rw [Nat.ofDigits_reverse_cons, ← hds.length_eq, List.length_cons, pow_succ]
      ring
    · rintro ⟨_, hds, rfl⟩
      cases hds with
      | cons hd hds =>
        refine ⟨_, ⟨_, hd, rfl⟩, _, hds, ?_⟩
        rw [Nat.ofDigits_reverse_cons, ← hds.length_eq, List.length_cons, pow_succ]
        ring

theorem unsigned?_eq_some_iff (hbase : base ≤ 16) {cs : List Char} {n : Nat} :
    unsigned? base cs = some n ↔ Digits base cs n := by
  cases cs with
  | nil => simp [unsigned?, Digits]
  | cons c cs =>
    rw [unsigned?, foldlM_digits_eq_some_iff hbase]
    · simp [Digits]
    · exact nofun

theorem Digits.isDigit {cs : List Char} {n : Nat} (h : Digits base cs n) :
    ∀ c ∈ cs, ∃ d, IsDigit base c d := by
  obtain ⟨-, ds, hds, -⟩ := h
  have hboth : List.Forall₂ (fun c d => (∃ d, IsDigit base c d) ∧ IsDigit base c d) cs ds :=
    hds.imp fun _ d hd => ⟨⟨d, hd⟩, hd⟩
  exact ((List.forall₂_and_left cs ds).1 hboth).1

/-- Digits denote one number. -/
theorem Digits.unique (hbase : base ≤ 16) {cs : List Char} {m n : Nat} (hm : Digits base cs m)
    (hn : Digits base cs n) : m = n := by
  rw [← unsigned?_eq_some_iff hbase] at hm hn
  exact Option.some.inj (hm.symm.trans hn)

theorem Digits.lt (hone : 1 < base) {cs : List Char} {n : Nat} (h : Digits base cs n) :
    n < base ^ cs.length := by
  obtain ⟨-, ds, hds, rfl⟩ := h
  have hsmall : ∀ d ∈ ds, d < base := by
    have hboth := hds.flip.imp fun _ _ hd => And.intro hd.1 hd
    exact ((List.forall₂_and_left (p := (· < base)) ds cs).1 hboth).1
  rw [hds.length_eq, ← List.length_reverse]
  exact Nat.ofDigits_lt_base_pow_length hone fun d hd => hsmall d (List.mem_reverse.1 hd)

theorem not_digits_sign (hbase : base ≤ 16) {c : Char} (hc : c = '+' ∨ c = '-') (cs : List Char)
    (n : Nat) : ¬ Digits base (c :: cs) n := by
  rintro ⟨-, ds, hds, -⟩
  cases hds with
  | cons hd =>
    rw [← digitValue?_eq_some_iff hbase, digitValue?_eq_filter hbase] at hd
    rcases hc with rfl | rfl
    · cases hd
    · cases hd

theorem signed?_minus (cs : List Char) :
    signed? base ('-' :: cs) = (unsigned? base cs).map fun n : Nat => -(n : Int) := by
  rw [signed?]
  cases unsigned? base cs <;> rfl

theorem signed?_plus (cs : List Char) :
    signed? base ('+' :: cs) = (unsigned? base cs).map fun n : Nat => (n : Int) := by
  rw [signed?]
  cases unsigned? base cs <;> rfl

theorem signed?_of_no_sign {cs : List Char} (hminus : cs.head? ≠ some '-')
    (hplus : cs.head? ≠ some '+') :
    signed? base cs = (unsigned? base cs).map fun n : Nat => (n : Int) := by
  rw [signed?]
  · cases unsigned? base cs <;> rfl
  · rintro rest rfl
    exact hminus rfl
  · rintro rest rfl
    exact hplus rfl

theorem signed?_eq_some_iff (hbase : base ≤ 16) {cs : List Char} {n : Int} :
    signed? base cs = some n ↔ Numeral base cs n := by
  have hread {cs : List Char} {k : Nat} : unsigned? base cs = some k ↔ Digits base cs k :=
    unsigned?_eq_some_iff hbase
  constructor
  · intro h
    by_cases hminus : cs.head? = some '-'
    · obtain ⟨rest, rfl⟩ := List.head?_eq_some_iff.1 hminus
      rw [signed?_minus] at h
      obtain ⟨k, hk, rfl⟩ := Option.map_eq_some_iff.1 h
      exact .minus (hread.1 hk)
    · by_cases hplus : cs.head? = some '+'
      · obtain ⟨rest, rfl⟩ := List.head?_eq_some_iff.1 hplus
        rw [signed?_plus] at h
        obtain ⟨k, hk, rfl⟩ := Option.map_eq_some_iff.1 h
        exact .plus (hread.1 hk)
      · rw [signed?_of_no_sign hminus hplus] at h
        obtain ⟨k, hk, rfl⟩ := Option.map_eq_some_iff.1 h
        exact .bare (hread.1 hk)
  · intro h
    cases h with
    | minus h => rw [signed?_minus, hread.2 h]; rfl
    | plus h => rw [signed?_plus, hread.2 h]; rfl
    | bare h =>
      rw [signed?_of_no_sign, hread.2 h]
      · rfl
      · intro hsign
        obtain ⟨rest, rfl⟩ := List.head?_eq_some_iff.1 hsign
        exact not_digits_sign hbase (.inr rfl) _ _ h
      · intro hsign
        obtain ⟨rest, rfl⟩ := List.head?_eq_some_iff.1 hsign
        exact not_digits_sign hbase (.inl rfl) _ _ h

theorem isBlank_of_isDigit (hbase : base ≤ 16) {c : Char} {d : Nat} (h : IsDigit base c d) :
    isBlank c = false := by
  have hdigits : ∀ d < 16, isBlank (Nat.digitChar d) = false ∧
      isBlank (Nat.digitChar d).toUpper = false := by decide
  obtain ⟨hd, rfl | rfl⟩ := h
  · exact (hdigits d (hd.trans_le hbase)).1
  · exact (hdigits d (hd.trans_le hbase)).2

theorem isBlank_of_digits (hbase : base ≤ 16) {cs : List Char} {n : Nat} (h : Digits base cs n) :
    ∀ c ∈ cs, isBlank c = false := by
  intro c hc
  obtain ⟨d, hd⟩ := h.isDigit c hc
  exact isBlank_of_isDigit hbase hd

theorem isBlank_of_numeral (hbase : base ≤ 16) {cs : List Char} {n : Int} (h : Numeral base cs n) :
    ∀ c ∈ cs, isBlank c = false := by
  cases h with
  | bare h => exact isBlank_of_digits hbase h
  | plus h => exact List.forall_mem_cons.2 ⟨rfl, isBlank_of_digits hbase h⟩
  | minus h => exact List.forall_mem_cons.2 ⟨rfl, isBlank_of_digits hbase h⟩

/-! ### Written numerals -/

/-- The digits of a number denote it, also if they are replaced by others of the same value. -/
theorem digits_map_toDigits (hone : 1 < base) {f : Char → Char}
    (hf : ∀ d < base, IsDigit base (f (Nat.digitChar d)) d) (n : Nat) :
    Digits base ((Nat.toDigits base n).map f) n := by
  refine ⟨by simp [Nat.toDigits_ne_nil], ?_⟩
  induction n using Nat.strongRecOn with
  | ind n ih =>
    by_cases hn : n < base
    · refine ⟨[n], ?_, by simp⟩
      rw [Nat.toDigits_of_lt_base hn]
      exact .cons (hf n hn) .nil
    · -- The last digit comes behind the digits of the number without it.
      have hle := Nat.le_of_not_lt hn
      obtain ⟨ds, hds, hvalue⟩ := ih (n / base) (Nat.div_lt_self (by omega) hone)
      have hlast := hf (n % base) (Nat.mod_lt _ (by omega))
      refine ⟨ds ++ [n % base], ?_, ?_⟩
      · rw [Nat.toDigits_of_base_le hone hle, List.map_append]
        exact List.rel_append hds (.cons hlast .nil)
      · rw [List.reverse_append, List.reverse_singleton, List.singleton_append, Nat.ofDigits_cons,
          ← hvalue]
        exact (Nat.mod_add_div n base).symm

theorem Digits.replicate_append (hone : 1 < base) {cs : List Char} {n : Nat} (h : Digits base cs n)
    (k : Nat) : Digits base (List.replicate k '0' ++ cs) n := by
  obtain ⟨hcs, ds, hds, rfl⟩ := h
  have hzero : IsDigit base '0' 0 := ⟨by omega, .inl rfl⟩
  have hzeros : List.Forall₂ (IsDigit base) (List.replicate k '0') (List.replicate k 0) := by
    induction k with
    | zero => exact .nil
    | succ k ih => exact .cons hzero ih
  refine ⟨by simp [hcs], List.replicate k 0 ++ ds, List.rel_append hzeros hds, ?_⟩
  rw [List.reverse_append, List.reverse_replicate, Nat.ofDigits_append_replicate_zero]

theorem digits_toDigits (hone : 1 < base) (n : Nat) : Digits base (Nat.toDigits base n) n := by
  simpa using digits_map_toDigits hone (f := id) (fun _ hd => ⟨hd, .inl rfl⟩) n

theorem digits_numeral (hone : 1 < base) (width n : Nat) : Digits base (numeral base width n) n :=
  (digits_map_toDigits hone (fun _ hd => ⟨hd, .inr rfl⟩) n).replicate_append hone _

theorem length_numeral {width n : Nat} (hwidth : 0 < width) (hn : n < base ^ width) :
    (numeral base width n).length = width := by
  have hle := Nat.toDigits_length base n width hwidth hn
  rw [numeral, List.length_append, List.length_replicate, List.length_map]
  omega

theorem numeral_inj (hone : 1 < base) (hbase : base ≤ 16) (width : Nat) {m n : Nat}
    (h : numeral base width m = numeral base width n) : m = n :=
  (digits_numeral hone width m).unique hbase (h ▸ digits_numeral hone width n)

theorem numeral_decimal (n : Int) : Numeral 10 (decimal n) n := by
  cases n with
  | ofNat n => exact .bare (digits_toDigits (by decide) n)
  | negSucc n => exact .minus (digits_toDigits (by decide) (n + 1))

theorem eq_zero_of_head?_toDigits {n : Nat} (h : (Nat.toDigits 10 n).head? = some '0') :
    n = 0 := by
  induction n using Nat.strongRecOn with
  | ind n ih =>
    by_cases hn : n < 10
    · have hzero : ∀ d < 10, Nat.digitChar d = '0' → d = 0 := by decide
      rw [Nat.toDigits_of_lt_base hn] at h
      exact hzero n hn (Option.some.inj h)
    · rw [Nat.toDigits_of_base_le (by decide) (by omega),
        List.head?_append_of_ne_nil _ Nat.toDigits_ne_nil] at h
      have htenth := ih (n / 10) (by omega) h
      omega

end AccumulatorMachine.Text
