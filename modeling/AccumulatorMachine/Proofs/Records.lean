import Mathlib.Data.List.Forall2
import AccumulatorMachine.Machine.Load
import AccumulatorMachine.Proofs.Numerals

/-!
# Records and the lines they become

When a record can be decoded, what is reported of one that cannot, and the lines of an image: those
of its executable records in their order, unless there are too many, one is malformed, or there is
none.
-/

namespace AccumulatorMachine

theorem mapM_eq_ok_iff {ε α β : Type} {f : α → Except ε β} {xs : List α} {ys : List β} :
    xs.mapM f = .ok ys ↔ List.Forall₂ (fun x y => f x = .ok y) xs ys := by
  induction xs generalizing ys with
  | nil => cases ys <;> simp [pure, Except.pure]
  | cons x xs ih =>
    rw [List.mapM_cons]
    cases hx : f x with
    | error e => cases ys <;> simp [bind, Except.bind, hx]
    | ok y =>
      cases hxs : xs.mapM f with
      | error e => cases ys <;> simp [bind, Except.bind, ← ih, hxs, hx]
      | ok rest => cases ys <;> simp [bind, Except.bind, pure, Except.pure, ← ih, hxs, hx]

theorem mapM_eq_error_iff {ε α β : Type} {f : α → Except ε β} {xs : List α} {e : ε} :
    xs.mapM f = .error e ↔ ∃ before x after, xs = before ++ x :: after ∧
      (∀ y ∈ before, (f y).isOk = true) ∧ f x = .error e := by
  induction xs with
  | nil => simp [pure, Except.pure]
  | cons x xs ih =>
    rw [List.mapM_cons]
    cases hx : f x with
    | error e' =>
      constructor
      · intro h
        cases h
        exact ⟨[], x, xs, rfl, nofun, hx⟩
      · rintro ⟨before, z, after, hsplit, hbefore, hz⟩
        cases before with
        | nil =>
          cases hsplit
          cases hx.symm.trans hz
          rfl
        | cons y before =>
          cases hsplit
          have hok := hbefore x (List.mem_cons_self ..)
          rw [hx] at hok
          cases hok
    | ok y =>
      have htail : xs.mapM f = .error e ↔
          (do let rest ← xs.mapM f; pure (y :: rest) : Except ε (List β)) = .error e := by
        cases xs.mapM f <;> simp [bind, Except.bind, pure, Except.pure]
      refine htail.symm.trans (ih.trans ?_)
      constructor
      · rintro ⟨before, z, after, rfl, hbefore, hz⟩
        refine ⟨x :: before, z, after, rfl, ?_, hz⟩
        intro w hw
        rcases List.mem_cons.1 hw with rfl | hw
        · rw [hx]
          rfl
        · exact hbefore w hw
      · rintro ⟨before, z, after, hsplit, hbefore, hz⟩
        cases before with
        | nil =>
          cases hsplit
          rw [hx] at hz
          cases hz
        | cons w before =>
          cases hsplit
          exact ⟨before, z, after, rfl, fun v hv => hbefore v (List.mem_cons_of_mem _ hv), hz⟩

namespace Image

namespace Record

variable {r : Record} {index : Nat}

/-- Without the blanks around it, a text is some hexadecimal digits. -/
def IsHex (low high : Nat) (text : String) : Prop :=
  let cs := Text.trimChars text.toList
  low ≤ cs.length ∧ cs.length ≤ high ∧ Text.allHex cs = true

def HasAddress (r : Record) : Prop := IsHex 1 3 r.address

def HasWord (r : Record) : Prop := IsHex 4 4 r.word

/-- What is wrong with a record that places no word: its address, or else its word. -/
inductive Malformed (r : Record) (index : Nat) : ImageError → Prop
  | address (h : ¬ r.HasAddress) : Malformed r index (.malformedAddress index r.address)
  | word (h : r.HasAddress) (hw : ¬ r.HasWord) : Malformed r index (.malformedWord index r.word)

/-- A line is what a record places in memory, with the source it came from. -/
structure Becomes (r : Record) (index : Nat) (line : Line) : Prop where
  parse : r.parse index = .ok (line.address, line.word)
  label : line.label = Text.trim r.label
  mnemonic : line.mnemonic = Text.trim r.mnemonic
  operandToken : line.operandToken = Text.trim r.operandToken
  breakpoint : line.breakpoint = false

theorem isSome_field? {allowed : Nat → Bool} {low high : Nat} {text : String} (hlow : 1 ≤ low)
    (hallowed : ∀ n, allowed n = true ↔ low ≤ n ∧ n ≤ high) :
    (field? allowed text).isSome = true ↔ IsHex low high text := by
  unfold field? IsHex Text.allHex
  dsimp only
  generalize Text.trimChars text.toList = cs
  split
  next h =>
    have hcs : cs ≠ [] := by
      rintro rfl
      have := (hallowed 0).1 h
      omega
    rw [Text.isSome_unsigned?]
    simp [(hallowed _).1 h, hcs]
  next h =>
    rw [hallowed] at h
    simp only [Option.isSome_none, Bool.false_eq_true, false_iff]
    rintro ⟨hle, hle', -⟩
    exact h ⟨hle, hle'⟩

theorem isSome_address : (field? (fun n => 1 ≤ n && n ≤ 3) r.address).isSome = true ↔
    r.HasAddress :=
  isSome_field? (le_refl 1) (by simp)

theorem isSome_word : (field? (· = 4) r.word).isSome = true ↔ r.HasWord :=
  isSome_field? (by decide) (by simp; omega)

/-- Decoding fails exactly on a malformed record, for its first fault. -/
theorem parse_eq_error_iff {e : ImageError} :
    r.parse index = .error e ↔ r.Malformed index e := by
  unfold parse
  constructor
  · intro h
    split at h
    next ha =>
      cases h
      exact .address (by simp [← isSome_address, ha])
    next ha =>
      split at h
      next hw =>
        cases h
        exact .word (by simp [← isSome_address, ha]) (by simp [← isSome_word, hw])
      next => cases h
  · intro h
    cases h with
    | address h =>
      rw [← isSome_address, Option.not_isSome_iff_eq_none] at h
      rw [h]
    | word h hw =>
      obtain ⟨address, h⟩ := Option.isSome_iff_exists.1 (isSome_address.2 h)
      rw [← isSome_word, Option.not_isSome_iff_eq_none] at hw
      rw [h, hw]

theorem isOk_parse : (r.parse index).isOk = true ↔ r.HasAddress ∧ r.HasWord := by
  have herror (e : ImageError) : r.parse index = .error e ↔ r.Malformed index e :=
    parse_eq_error_iff
  cases h : r.parse index with
  | error e =>
    simp only [Except.isOk, Except.toBool, Bool.false_eq_true, false_iff]
    rintro ⟨ha, hw⟩
    cases (herror e).1 h with
    | address hbad => exact hbad ha
    | word _ hbad => exact hbad hw
  | ok content =>
    simp only [Except.isOk, Except.toBool, true_iff]
    by_contra hbad
    by_cases ha : r.HasAddress
    · have hw : ¬ r.HasWord := fun hw => hbad ⟨ha, hw⟩
      cases ((herror _).2 (.word ha hw)).symm.trans h
    · cases ((herror _).2 (.address ha)).symm.trans h

theorem toNat_address_lt {content : Word × Word} (h : r.parse index = .ok content) :
    content.1.toNat < memorySize := by
  unfold parse at h
  split at h
  next => cases h
  next address ha =>
    split at h
    next => cases h
    next word hw =>
      cases h
      unfold field? at ha
      dsimp only at ha
      split at ha
      next hlen =>
        simp only [Bool.and_eq_true, decide_eq_true_eq] at hlen
        have hlt := ((Text.unsigned?_eq_some_iff (by decide)).1 ha).lt (by decide)
        have hle : 16 ^ (Text.trimChars r.address.toList).length ≤ 16 ^ 3 :=
          Nat.pow_le_pow_right (by decide) hlen.2
        rw [BitVec.toNat_ofNat]
        unfold memorySize
        omega
      next => cases ha

theorem line_eq_ok_iff {line : Line} : r.line index = .ok line ↔ r.Becomes index line := by
  unfold Record.line
  constructor
  · intro h
    cases hp : r.parse index with
    | error e =>
      rw [hp] at h
      cases h
    | ok content =>
      rw [hp] at h
      cases h
      exact ⟨hp, rfl, rfl, rfl, rfl⟩
  · intro h
    obtain ⟨hp, hl, hm, ho, hb⟩ := h
    obtain ⟨address, word, label, mnemonic, operandToken, breakpoint⟩ := line
    cases hl
    cases hm
    cases ho
    cases hb
    rw [hp]
    rfl

theorem line_eq_error_iff {e : ImageError} : r.line index = .error e ↔ r.Malformed index e := by
  rw [← parse_eq_error_iff]
  unfold Record.line
  cases r.parse index with
  | error e' => exact ⟨fun h => by cases h; rfl, fun h => by cases h; rfl⟩
  | ok content => exact ⟨nofun, nofun⟩

theorem isOk_line : (r.line index).isOk = (r.parse index).isOk := by
  unfold Record.line
  cases r.parse index <;> rfl

end Record

variable {image : Image}

theorem mem_executable {index : Nat} {r : Record} :
    (index, r) ∈ image.executable ↔ image.records[index]? = some r ∧ r.isExecutable = true := by
  unfold executable
  rw [List.mem_filter, List.mem_iff_getElem?]
  simp only [List.getElem?_mapIdx, Option.map_eq_some_iff]
  constructor
  · rintro ⟨⟨i, r', hr', hpair⟩, h⟩
    cases hpair
    exact ⟨hr', h⟩
  · rintro ⟨hr, h⟩
    exact ⟨⟨index, r, hr, rfl⟩, h⟩

theorem pairwise_executable : image.executable.Pairwise fun p q => p.1 < q.1 := by
  unfold executable
  apply List.Pairwise.filter
  rw [List.pairwise_iff_getElem]
  intro i j hi hj hij
  simpa using hij

/-- The first malformed one of the executable records, with its place in the whole image. -/
structure FirstMalformed (image : Image) (index : Nat) (r : Record) (e : ImageError) : Prop where
  place : image.records[index]? = some r
  executable : r.isExecutable = true
  before : ∀ j < index, ∀ r' : Record, image.records[j]? = some r' → r'.isExecutable = true →
    r'.HasAddress ∧ r'.HasWord
  malformed : r.Malformed index e

/-- Why an image is refused: it has more executable records than there are cells, whatever they
hold; or else one of them is malformed; or else there is none. -/
inductive Refused (image : Image) : LoadError → Prop
  | tooMany (h : memorySize < image.executable.length) :
    Refused image (.tooManyRecords image.executable.length)
  | malformed {index : Nat} {r : Record} {e : ImageError}
    (hfits : image.executable.length ≤ memorySize) (h : image.FirstMalformed index r e) :
    Refused image (.image e)
  | empty (h : image.executable = []) : Refused image .empty

/-- The traversal of the executable records stops at the first malformed one. -/
theorem mapM_line_eq_error_iff {e : ImageError} :
    (image.executable.mapM fun (index, r) => r.line index) = .error e ↔
      ∃ index r, image.FirstMalformed index r e := by
  have hsorted := image.pairwise_executable
  rw [mapM_eq_error_iff]
  constructor
  · rintro ⟨before, ⟨index, r⟩, after, hsplit, hbefore, he⟩
    have hmem : (index, r) ∈ image.executable := by simp [hsplit]
    obtain ⟨hplace, hexecutable⟩ := mem_executable.1 hmem
    refine ⟨index, r, hplace, hexecutable, ?_, Record.line_eq_error_iff.1 he⟩
    intro j hj r' hplace' hexecutable'
    have hmem' : (j, r') ∈ image.executable := mem_executable.2 ⟨hplace', hexecutable'⟩
    rw [hsplit] at hmem' hsorted
    -- What stands behind the malformed record has a greater number.
    have hafter := (List.pairwise_cons.1 (List.pairwise_append.1 hsorted).2.1).1
    rcases List.mem_append.1 hmem' with hmem' | hmem'
    · have hok := hbefore _ hmem'
      rw [Record.isOk_line] at hok
      exact Record.isOk_parse.1 hok
    · rcases List.mem_cons.1 hmem' with heq | hmem'
      · cases heq
        omega
      · have hlt : index < j := hafter _ hmem'
        omega
  · rintro ⟨index, r, h⟩
    obtain ⟨before, after, hsplit⟩ :=
      List.append_of_mem (mem_executable.2 ⟨h.place, h.executable⟩)
    refine ⟨before, (index, r), after, hsplit, ?_, Record.line_eq_error_iff.2 h.malformed⟩
    rintro ⟨j, r'⟩ hmem
    have hmem' : (j, r') ∈ image.executable := by simp [hsplit, hmem]
    obtain ⟨hplace', hexecutable'⟩ := mem_executable.1 hmem'
    rw [hsplit] at hsorted
    have hlt := (List.pairwise_append.1 hsorted).2.2 _ hmem _ (List.mem_cons_self ..)
    rw [Record.isOk_line]
    exact Record.isOk_parse.2 (h.before j hlt r' hplace' hexecutable')

/-- The lines of an image are those of its executable records, which must be there and fit. -/
theorem lines_eq_ok_iff {lines : List Line} :
    image.lines = .ok lines ↔ image.executable.length ≤ memorySize ∧ lines ≠ [] ∧
      List.Forall₂ (fun p line => p.2.Becomes p.1 line) image.executable lines := by
  have hlines : (image.executable.mapM fun p => p.2.line p.1) = .ok lines ↔
      List.Forall₂ (fun p line => p.2.Becomes p.1 line) image.executable lines := by
    rw [mapM_eq_ok_iff]
    simp only [Record.line_eq_ok_iff]
  rw [← hlines]
  unfold Image.lines
  dsimp only
  split
  next h => simp [Nat.not_le.2 h]
  next h =>
    have hfits := Nat.le_of_not_lt h
    cases image.executable.mapM fun p : Nat × Record => p.2.line p.1 with
    | error e => simp
    | ok lines' => cases lines' <;> grind

theorem lines_eq_error_iff {e : LoadError} : image.lines = .error e ↔ image.Refused e := by
  unfold Image.lines
  dsimp only
  constructor
  · intro h
    split at h
    next hmany =>
      cases h
      exact .tooMany hmany
    next hfits =>
      split at h
      next e' he =>
        cases h
        obtain ⟨index, r, hfirst⟩ := mapM_line_eq_error_iff.1 he
        exact .malformed (Nat.le_of_not_lt hfits) hfirst
      next he =>
        cases h
        exact .empty (List.forall₂_nil_right_iff.1 (mapM_eq_ok_iff.1 he))
      next => cases h
  · intro h
    cases h with
    | tooMany h => rw [if_pos h]
    | malformed hfits h =>
      rw [if_neg (Nat.not_lt.2 hfits), mapM_line_eq_error_iff.2 ⟨_, _, h⟩]
    | empty h =>
      rw [h]
      rfl

end Image

end AccumulatorMachine
