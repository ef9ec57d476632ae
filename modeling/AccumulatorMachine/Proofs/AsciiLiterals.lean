import AccumulatorMachine.Proofs.Blanks
import AccumulatorMachine.Proofs.TraceTransparency

/-!
# ASCII literals

An ASCII literal stands for the low seven bits of a character. Blanks in front are dropped in this
mode too, so the character is the first that is not blank. It is the first of the literal exactly if
the literal does not begin with a blank; from one that does, the blank's own code can come only as
the code of another character.
-/

namespace AccumulatorMachine

/-- The low seven bits of the first of some characters, and 0 if there is none. -/
def Text.firstCode (cs : List Char) : Word :=
  cs.head?.elim 0 fun c => BitVec.ofNat 16 (c.toNat % 128)

namespace Text

theorem toNat_firstCode_cons (c : Char) (cs : List Char) :
    (firstCode (c :: cs)).toNat = c.toNat % 128 := by
  have hlt : c.toNat % 128 < 128 := Nat.mod_lt _ (by decide)
  simp only [firstCode, List.head?_cons, Option.elim_some, BitVec.toNat_ofNat]
  omega

theorem firstCode_eq_zero_iff {cs : List Char} :
    firstCode cs = 0 ↔ ∀ c ∈ cs.head?, c.toNat % 128 = 0 := by
  cases cs with
  | nil => simp [firstCode]
  | cons c cs => simp [← BitVec.toNat_inj, toNat_firstCode_cons]

theorem firstCode_eq_iff {cs : List Char} {w : Word} (hw : w ≠ 0) :
    firstCode cs = w ↔ ∃ c ∈ cs.head?, c.toNat % 128 = w.toNat := by
  cases cs with
  | nil => simpa [firstCode] using hw.symm
  | cons c cs => simp [← BitVec.toNat_inj, toNat_firstCode_cons]

theorem firstCode_eq_of_takeWhile_ne_nil {cs : List Char} (h : cs.takeWhile isBlank ≠ []) :
    firstCode cs = firstCode (cs.takeWhile isBlank) := by
  cases cs with
  | nil => exact (h rfl).elim
  | cons c cs =>
    by_cases hc : isBlank c
    · rw [List.takeWhile_cons_of_pos hc]
      rfl
    · exact (h (List.takeWhile_cons_of_neg hc)).elim

end Text

namespace DisplayMode

open Text

theorem literal_ascii (text : String) :
    ascii.literal text = .ok (firstCode (text.toList.dropWhile isBlank)) := by
  rw [literal, number?, head?_trimChars, firstCode]
  cases (text.toList.dropWhile isBlank).head? with
  | none => rfl
  | some c => exact congrArg Except.ok (BitVec.ofInt_natCast 16 (c.toNat % 128))

/-- An ASCII literal has the code of its first character exactly if that is no blank, or if the
first character that is none has the code of the blank. -/
theorem literal_ascii_eq_firstCode_iff (text : String) :
    ascii.literal text = .ok (firstCode text.toList) ↔
      text.toList.takeWhile isBlank = [] ∨
        firstCode (text.toList.dropWhile isBlank) =
          firstCode (text.toList.takeWhile isBlank) := by
  rw [literal_ascii, Except.ok.injEq]
  by_cases h : text.toList.takeWhile isBlank = []
  · have hkept : text.toList.dropWhile isBlank = text.toList := by
      have happend := List.takeWhile_append_dropWhile (p := isBlank) (l := text.toList)
      rwa [h, List.nil_append] at happend
    simp [h, hkept]
  · rw [← firstCode_eq_of_takeWhile_ne_nil h]
    simp [h]

theorem literal_ascii_eq_zero_iff (text : String) :
    ascii.literal text = .ok 0 ↔
      ∀ c ∈ (text.toList.dropWhile isBlank).head?, c.toNat % 128 = 0 := by
  rw [literal_ascii, Except.ok.injEq, firstCode_eq_zero_iff]

end DisplayMode

namespace Register

variable {r : Register}

theorem setValue_stored (hrendered : r.IsRendered) (hlt : r.stored.toNat < 4096) :
    r.setValue r.stored.toInt = r := by
  have hlow : r.stored.low12 = r.stored := by
    rw [← BitVec.toNat_inj, Word.toNat_low12, Nat.mod_eq_of_lt hlt]
  calc
    r.setValue r.stored.toInt = rendered { r with stored := r.stored } := by
      simp only [setValue, Word.ofInt_toInt, hlow, ite_self]
    _ = { r with rendering := r.freshRendering } := rfl
    _ = r := by rw [← hrendered]

theorem toNat_ofNat_of_lt : ∀ n < 128, (Char.ofNat n).toNat = n := by
  decide

theorem isBlank_ofNat_iff : ∀ n < 128,
    (Text.isBlank (Char.ofNat n) = true ↔ 9 ≤ n ∧ n ≤ 13 ∨ n = 32) := by
  decide

theorem setValue_zero_ne (h : r.stored ≠ 0) : r.setValue 0 ≠ r := by
  intro hsame
  have hstored : (r.setValue 0).stored = 0 := by
    dsimp only [setValue, rendered]
    split <;> rfl
  rw [hsame] at hstored
  exact h hstored

/-- A register in ASCII mode takes its own text for the value that it stores exactly if that is no
blank. Of a blank it takes nothing, which is 0. -/
theorem setLiteral_rendering (hmode : r.mode = .ascii) (hrendered : r.IsRendered)
    (hlt : r.stored.toNat < 128) :
    r.setLiteral r.rendering =
      .ok (if Text.isBlank (Char.ofNat r.stored.toNat) then r.setValue 0 else r) := by
  have hkept := setValue_stored hrendered (Nat.lt_trans hlt (by decide))
  have hread : r.setLiteral r.rendering =
      .ok (r.setValue (Text.firstCode (r.rendering.toList.dropWhile Text.isBlank)).toInt) := by
    rw [setLiteral, hmode, DisplayMode.literal_ascii]
    rfl
  rw [hread, hrendered, freshRendering, hmode, DisplayMode.render, Nat.mod_eq_of_lt hlt]
  by_cases hzero : r.stored = 0
  · rw [hzero] at hkept ⊢
    exact congrArg Except.ok hkept
  · rw [if_neg hzero, String.toList_ofList]
    have hcode : Text.firstCode [Char.ofNat r.stored.toNat] = r.stored := by
      have hchar := toNat_ofNat_of_lt r.stored.toNat hlt
      rw [← BitVec.toNat_inj, Text.toNat_firstCode_cons, hchar, Nat.mod_eq_of_lt hlt]
    cases hblank : Text.isBlank (Char.ofNat r.stored.toNat) with
    | true =>
      rw [List.dropWhile_cons_of_pos hblank]
      rfl
    | false =>
      rw [List.dropWhile_cons_of_neg (by simp [hblank]), hcode, hkept]
      rfl

end Register

namespace CommandLine

open Text

/-- A line of input for an INPUT instruction in ASCII mode is worth the code of its first character
that is not blank. -/
theorem Run.answer_ascii {r : Run} (hwait : r.status = .awaitingInput)
    (hmode : r.controller.machine.registers.input.mode = .ascii) (fuel : Nat) (line : String) :
    r.answer fuel (some (some line)) =
      { r with
        controller := Control.exec
          (Control.supply fuel (firstCode (line.toList.dropWhile isBlank)).toInt)
            r.controller } := by
  rw [answer_eq hwait, hmode, lineValue, DisplayMode.literal_ascii]

/-- An ASCII literal denotes the low seven bits of its first character that is no blank, and 0 if
there is none. So it denotes those of its first character exactly if that is no blank, or has by
chance the same low seven bits. A register in ASCII mode that is given its own text stays as it is
exactly if the text is no blank, and becomes 0 otherwise. A line that begins with a space is worth
32 to an INPUT instruction in ASCII mode exactly if its first character that is no blank is. -/
theorem first_character_read_iff (text : String) :
    (DisplayMode.ascii.literal text = .ok (firstCode (text.toList.dropWhile isBlank)) ∧
      (DisplayMode.ascii.literal text = .ok (firstCode text.toList) ↔
        text.toList.takeWhile isBlank = [] ∨ firstCode (text.toList.dropWhile isBlank) =
          firstCode (text.toList.takeWhile isBlank)) ∧
      (DisplayMode.ascii.literal text = .ok 0 ↔
        ∀ c ∈ (text.toList.dropWhile isBlank).head?, c.toNat % 128 = 0)) ∧
    (∀ r : Register, r.mode = .ascii → r.IsRendered → r.stored.toNat < 128 →
      (r.setLiteral r.rendering = .ok r ↔
        ¬(9 ≤ r.stored.toNat ∧ r.stored.toNat ≤ 13 ∨ r.stored.toNat = 32)) ∧
      (9 ≤ r.stored.toNat ∧ r.stored.toNat ≤ 13 ∨ r.stored.toNat = 32 →
        r.setLiteral r.rendering = .ok (r.setValue 0))) ∧
    (∀ (r : Run) (fuel : Nat), r.status = .awaitingInput →
      r.controller.machine.registers.input.mode = .ascii → text.toList.head? = some ' ' →
      let w := firstCode (text.toList.dropWhile isBlank)
      r.answer fuel (some (some text)) =
          { r with controller := Control.exec (Control.supply fuel w.toInt) r.controller } ∧
        (w = 32 ↔ ∃ c ∈ (text.toList.dropWhile isBlank).head?, c.toNat % 128 = 32)) := by
  refine ⟨⟨DisplayMode.literal_ascii text, DisplayMode.literal_ascii_eq_firstCode_iff text,
    DisplayMode.literal_ascii_eq_zero_iff text⟩, ?register, ?line⟩
  case register =>
    intro r hmode hrendered hlt
    rw [Register.setLiteral_rendering hmode hrendered hlt, Except.ok.injEq,
      ← Register.isBlank_ofNat_iff _ hlt]
    cases hblank : isBlank (Char.ofNat r.stored.toNat) with
    | false => simp
    | true =>
      have hne : r.stored ≠ 0 := by
        intro hzero
        rw [hzero] at hblank
        cases hblank
      simpa using Register.setValue_zero_ne hne
  case line =>
    intro r fuel hwait hmode _
    exact ⟨Run.answer_ascii hwait hmode fuel text, firstCode_eq_iff (by decide)⟩

def spaceHolder : Register := ((Register.new .ac).setMode .ascii).setValue 32

/-- A run whose program waits for an ASCII literal. -/
def asking : Run where
  controller := ((Controller.new .default).performAll 9
    [.load (.ok (.ofWords 0 [0x5000, 0x7000])), .setMode .input .ascii, .run]).2
  options := { Run.echoOptions none with inputMode := .ascii }
  files := Companions.ofPath "echo"
  startCycles := 0
  stdout := ""
  stderr := ""

/-- Behind a space the letter is read, a register loses the space it stores, and the line supplies
the letter. -/
theorem first_character_read_iff_spaces :
    (DisplayMode.ascii.literal " A" ≠ .ok (firstCode " A".toList) ∧
      DisplayMode.ascii.literal "\u1680\u3000" = .ok (firstCode "\u1680\u3000".toList)) ∧
    (spaceHolder.mode = .ascii ∧ spaceHolder.IsRendered ∧ spaceHolder.stored.toNat < 128 ∧
      spaceHolder.setLiteral spaceHolder.rendering = .ok (spaceHolder.setValue 0)) ∧
    (asking.status = .awaitingInput ∧ asking.controller.machine.registers.input.mode = .ascii ∧
      " A".toList.head? = some ' ' ∧
      asking.answer 9 (some (some " A")) =
        { asking with controller := Control.exec (Control.supply 9 65) asking.controller }) := by
  obtain ⟨⟨-, hletter, -⟩, hregister, hline⟩ := first_character_read_iff " A"
  obtain ⟨⟨-, hblanks, -⟩, -⟩ := first_character_read_iff "\u1680\u3000"
  have hwait : asking.status = .awaitingInput := by decide +kernel
  have hmode : asking.controller.machine.registers.input.mode = .ascii := by decide +kernel
  refine ⟨⟨?_, hblanks.2 (.inr (by decide))⟩,
    ⟨rfl, rfl, by decide, (hregister spaceHolder rfl rfl (by decide)).2 (by decide)⟩,
    hwait, hmode, by decide, (hline asking 9 hwait hmode (by decide)).1⟩
  rw [ne_eq, hletter]
  decide

/-- What an ASCII literal, the text of a register and a line of input should denote, the code of
their first character, they do not if that is a space: what is read is the letter behind it, or
nothing. -/
theorem leading_space_lost :
    (firstCode " A".toList = 32 ∧ DisplayMode.ascii.literal " A" = .ok 65) ∧
      (spaceHolder.stored = 32 ∧ spaceHolder.rendering = " " ∧
        spaceHolder.setLiteral spaceHolder.rendering ≠ .ok spaceHolder) ∧
      (asking.status = .awaitingInput ∧
        (asking.answer 9 (some (some " A"))).controller.machine.value .input = 65) := by
  decide +kernel

end CommandLine

end AccumulatorMachine
