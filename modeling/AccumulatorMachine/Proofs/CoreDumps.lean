import Mathlib.Data.List.Nodup
import AccumulatorMachine.Machine.Report
import AccumulatorMachine.Proofs.Numerals

/-!
# What a core dump shows

A core dump is a list of lines: a heading with the state, the error if there is one and the count of
cycles, then a line for each register and a row for each sixteen cells. The lines can be told apart,
and what each of them shows can be read back, so the text determines all of it.
-/

namespace AccumulatorMachine

namespace Text

/-! ### Lines -/

theorem append_cons_inj {α : Type} {c : α} {a b x y : List α} (ha : c ∉ a) (hb : c ∉ b)
    (h : a ++ c :: x = b ++ c :: y) : a = b ∧ x = y := by
  induction a generalizing b with
  | nil =>
    cases b with
    | nil => exact ⟨rfl, (List.cons.inj h).2⟩
    | cons d b => exact (hb (List.mem_cons.2 (.inl (List.cons.inj h).1))).elim
  | cons e a ih =>
    cases b with
    | nil => exact (ha (List.mem_cons.2 (.inl (List.cons.inj h).1.symm))).elim
    | cons d b =>
      obtain ⟨rfl, htail⟩ := List.cons.inj h
      have ha' := mt (List.mem_cons_of_mem _) ha
      have hb' := mt (List.mem_cons_of_mem _) hb
      obtain ⟨rfl, rfl⟩ := ih ha' hb' htail
      exact ⟨rfl, rfl⟩

/-- A text that consists of lines, each ended by a line feed. -/
structure IsLines (text : String) (lines : List (List Char)) : Prop where
  noFeed : ∀ line ∈ lines, '\n' ∉ line
  toList : text.toList = lines.flatMap (· ++ ['\n'])

theorem lines_inj {a b : List (List Char)} (ha : ∀ line ∈ a, '\n' ∉ line)
    (hb : ∀ line ∈ b, '\n' ∉ line) (h : a.flatMap (· ++ ['\n']) = b.flatMap (· ++ ['\n'])) :
    a = b := by
  induction a generalizing b with
  | nil =>
    cases b with
    | nil => rfl
    | cons line b => simp at h
  | cons line a ih =>
    cases b with
    | nil => simp at h
    | cons line' b =>
      obtain ⟨hline, htail⟩ := List.forall_mem_cons.1 ha
      obtain ⟨hline', htail'⟩ := List.forall_mem_cons.1 hb
      simp only [List.flatMap_cons, List.append_assoc, List.singleton_append] at h
      obtain ⟨rfl, hrest⟩ := append_cons_inj hline hline' h
      rw [ih htail htail' hrest]

/-- A text has its lines in one way only. -/
theorem IsLines.unique {text : String} {a b : List (List Char)} (ha : IsLines text a)
    (hb : IsLines text b) : a = b :=
  lines_inj ha.noFeed hb.noFeed (ha.toList.symm.trans hb.toList)

theorem IsLines.append {text text' : String} {a b : List (List Char)} (ha : IsLines text a)
    (hb : IsLines text' b) : IsLines (text ++ text') (a ++ b) where
  noFeed line hline := (List.mem_append.1 hline).elim (ha.noFeed line) (hb.noFeed line)
  toList := by rw [String.toList_append, List.flatMap_append, ha.toList, hb.toList]

theorem IsLines.single {line : List Char} {text : String} (h : text.toList = line ++ ['\n'])
    (hfree : '\n' ∉ line) : IsLines text [line] where
  noFeed := by simpa using hfree
  toList := by simp [h]

theorem IsLines.join {α : Type} {l : List α} {text : α → String} {line : α → List Char}
    (h : ∀ a ∈ l, IsLines (text a) [line a]) : IsLines (String.join (l.map text)) (l.map line) where
  noFeed := by
    intro c hc
    obtain ⟨a, ha, rfl⟩ := List.mem_map.1 hc
    exact (h a ha).noFeed _ (by simp)
  toList := by
    rw [String.toList_join, List.flatMap_map, List.flatMap_map]
    apply List.flatMap_congr
    intro a ha
    simpa using (h a ha).toList

theorem flatMap_inj_of_length {α β : Type} {f g : α → List β} {l : List α}
    (hlength : ∀ a ∈ l, (f a).length = (g a).length) (h : l.flatMap f = l.flatMap g) :
    ∀ a ∈ l, f a = g a := by
  induction l with
  | nil => exact nofun
  | cons a l ih =>
    obtain ⟨ha, hl⟩ := List.forall_mem_cons.1 hlength
    obtain ⟨hhead, htail⟩ := List.append_inj h ha
    exact List.forall_mem_cons.2 ⟨hhead, ih hl htail⟩

/-! ### Hexadecimal digits -/

/-- Hexadecimal digits of a number, as many as the width says, none of them a small letter. -/
structure IsHex (width : Nat) (cs : List Char) (n : Nat) : Prop where
  length : cs.length = width
  digits : Digits 16 cs n
  capital : ∀ c ∈ cs, c.isLower = false

theorem isHex_numeral {width n : Nat} (hwidth : 0 < width) (hn : n < 16 ^ width) :
    IsHex width (numeral 16 width n) n where
  length := length_numeral hwidth hn
  digits := digits_numeral (by decide) width n
  capital := by
    have hcapital : ∀ d < 16, (Nat.digitChar d).toUpper.isLower = false ∧
        (Nat.digitChar d).toUpper.toUpper.isLower = false := by decide
    intro c hc
    rcases List.mem_append.1 hc with hzero | hdigit
    · rw [List.eq_of_mem_replicate hzero]
      rfl
    · obtain ⟨c', hc', rfl⟩ := List.mem_map.1 hdigit
      obtain ⟨d, hd, rfl | rfl⟩ := (digits_toDigits (by decide) n).isDigit c' hc'
      · exact (hcapital d hd).1
      · exact (hcapital d hd).2

theorem feed_not_mem_decimal (n : Int) : '\n' ∉ decimal n := by
  intro hfeed
  cases isBlank_of_numeral (by decide) (numeral_decimal n) _ hfeed

theorem feed_not_mem_numeral (width n : Nat) : '\n' ∉ numeral 16 width n := by
  intro hfeed
  cases isBlank_of_digits (by decide) (digits_numeral (by decide) width n) _ hfeed

end Text

open Text

/-! ### Rows of memory -/

namespace Memory

theorem ext_cell {m n : Memory} (h : ∀ i < memorySize, m.cell i = n.cell i) : m = n := by
  obtain ⟨a⟩ := m
  obtain ⟨b⟩ := n
  congr 1
  ext i hi
  have hcell := h i hi
  simp only [cell, Vector.getElem?_eq_getElem hi, Option.getD_some] at hcell
  rw [hcell]

def rowLine (m : Memory) (r : Nat) : List Char :=
  numeral 16 3 (r * rowWidth) ++ ' ' :: (List.range' (r * rowWidth) rowWidth).flatMap fun i =>
    ' ' :: numeral 16 4 (m.cell i).toNat

/-- A line that shows a row: the address of its first cell, then the words of sixteen cells in
order, each after a space. -/
def IsRow (m : Memory) (r : Nat) (line : List Char) : Prop :=
  ∃ address words, line = address ++ ' ' :: words.flatMap (' ' :: ·) ∧ IsHex 3 address (16 * r) ∧
    List.Forall₂ (fun i word => IsHex 4 word (m.cell i).toNat) (List.range' (16 * r) 16) words

theorem isHex_cell (m : Memory) (i : Nat) :
    IsHex 4 (numeral 16 4 (m.cell i).toNat) (m.cell i).toNat :=
  isHex_numeral (by decide) (m.cell i).isLt

theorem isRow_rowLine (m : Memory) {r : Nat} (hr : r < 256) : m.IsRow r (m.rowLine r) := by
  refine ⟨numeral 16 3 (16 * r),
    (List.range' (16 * r) 16).map fun i => numeral 16 4 (m.cell i).toNat, ?_,
    isHex_numeral (by decide) (by omega), ?_⟩
  · rw [rowLine, List.flatMap_map, rowWidth, Nat.mul_comm]
  · rw [List.forall₂_map_right_iff, List.forall₂_same]
    exact fun i _ => m.isHex_cell i

theorem feed_not_mem_rowLine (m : Memory) (r : Nat) : '\n' ∉ m.rowLine r := by
  have hwords : ∀ i, '\n' ∉ numeral 16 4 (m.cell i).toNat := fun i => feed_not_mem_numeral 4 _
  simp [rowLine, feed_not_mem_numeral, hwords]

theorem isLines_hexRows (m : Memory) :
    IsLines m.hexRows ((List.range 256).map m.rowLine) := by
  apply IsLines.join
  intro r _
  refine .single ?_ (m.feed_not_mem_rowLine r)
  simp [hexRow, rowLine, hexText, String.toList_join, List.flatMap_map]

/-- The rows of memory in lines, and what each of them shows. -/
theorem isRow_hexRows (m : Memory) :
    List.Forall₂ m.IsRow (List.range 256) ((List.range 256).map m.rowLine) := by
  rw [List.forall₂_map_right_iff, List.forall₂_same]
  exact fun r hr => m.isRow_rowLine (List.mem_range.1 hr)

theorem cell_eq_of_rowLine_eq {m n : Memory} {r : Nat} (h : m.rowLine r = n.rowLine r) :
    ∀ i ∈ List.range' (r * rowWidth) rowWidth, m.cell i = n.cell i := by
  intro i hi
  have hwords := (List.cons.inj (List.append_cancel_left h)).2
  have hword := flatMap_inj_of_length (fun i _ => ?_) hwords i hi
  · exact BitVec.eq_of_toNat_eq (numeral_inj (by decide) (by decide) 4 (List.cons.inj hword).2)
  · rw [List.length_cons, List.length_cons, (m.isHex_cell i).length, (n.isHex_cell i).length]

/-- The rows determine the memory. -/
theorem eq_of_rowLines_eq {m n : Memory}
    (h : (List.range 256).map m.rowLine = (List.range 256).map n.rowLine) : m = n := by
  apply ext_cell
  intro i hi
  rw [memorySize] at hi
  have hrow : m.rowLine (i / 16) = n.rowLine (i / 16) :=
    List.map_inj_left.1 h _ (List.mem_range.2 (by omega))
  apply cell_eq_of_rowLine_eq hrow
  rw [List.mem_range'_1, rowWidth]
  omega

end Memory

/-! ### Registers -/

namespace Designation

def column (d : Designation) : List Char := (padRight 6 d.name ++ " ").toList

theorem length_column (d : Designation) : d.column.length = 7 := by cases d <;> decide +kernel

theorem column_inj {d e : Designation} (h : d.column = e.column) : d = e := by
  have hdistinct : (all.map column).Nodup := by decide +kernel
  exact List.inj_on_of_nodup_map hdistinct d.mem_all e.mem_all h

end Designation

namespace Register

def line (r : Register) : List Char :=
  r.designation.column ++
    numeral 16 (if r.designation.isAddress then 3 else 4) r.value.toNat

theorem low12_value_of_isAddress {r : Register} (h : r.designation.isAddress = true) :
    r.value.low12 = r.value := by
  rw [value, if_pos h, Word.low12_low12]

theorem toList_dumpLine (r : Register) : r.dumpLine.toList = r.line ++ ['\n'] := by
  have hdigits : DisplayMode.hex.render r.designation.isAddress r.value =
      hexText (if r.designation.isAddress then 3 else 4) r.value.toNat := by
    rw [DisplayMode.render]
    split
    next h => rw [low12_value_of_isAddress h]
    next h => rfl
  rw [dumpLine, hdigits, line, Designation.column, hexText]
  simp

theorem feed_not_mem_line (r : Register) : '\n' ∉ r.line := by
  have hcolumn : ∀ d : Designation, '\n' ∉ d.column := by
    intro d
    cases d <;> decide +kernel
  rw [line, List.mem_append]
  exact not_or.2 ⟨hcolumn _, feed_not_mem_numeral _ _⟩

theorem eq_of_line_eq {r s : Register} (h : r.line = s.line) :
    r.designation = s.designation ∧ r.value = s.value := by
  have hlength : r.designation.column.length = s.designation.column.length := by
    rw [Designation.length_column, Designation.length_column]
  obtain ⟨hcolumn, hdigits⟩ := List.append_inj h hlength
  have hname := Designation.column_inj hcolumn
  rw [hname] at hdigits
  exact ⟨hname, BitVec.eq_of_toNat_eq (numeral_inj (by decide) (by decide) _ hdigits)⟩

end Register

namespace ErrorCode

def line (code : ErrorCode) : List Char :=
  ("Error: " ++ code.message ++ " (" ++ decimalText code.number ++ ")").toList

theorem feed_not_mem_line (code : ErrorCode) : '\n' ∉ code.line := by
  cases code <;> decide +kernel

def all : List ErrorCode :=
  [illegalOpcode, illegalCondition, addressOutOfRange, invalidImage, imageUnreadable, invalidValue,
    programTooLong]

theorem mem_all (code : ErrorCode) : code ∈ all := by cases code <;> decide

theorem line_inj {a b : ErrorCode} (h : a.line = b.line) : a = b := by
  have hdistinct : (all.map line).Nodup := by decide +kernel
  exact List.inj_on_of_nodup_map hdistinct a.mem_all b.mem_all h

end ErrorCode

namespace Status

def line (s : Status) : List Char := ("State: " ++ s.description).toList

theorem feed_not_mem_line (s : Status) : '\n' ∉ s.line := by
  cases s <;> decide +kernel

theorem line_inj {s t : Status} (h : s.line = t.line) : s = t := by
  have hdistinct : (all.map line).Nodup := by decide +kernel
  exact List.inj_on_of_nodup_map hdistinct s.mem_all t.mem_all h

end Status

/-! ### The dump -/

namespace Machine

def cyclesLine (m : Machine) : List Char := ("Cycles: " ++ decimalText m.cycles.toNat).toList

theorem feed_not_mem_cyclesLine (m : Machine) : '\n' ∉ m.cyclesLine := by
  rw [cyclesLine, String.toList_append, List.mem_append, decimalText]
  refine not_or.2 ⟨by decide, ?_⟩
  rw [String.toList_ofList]
  exact feed_not_mem_decimal _

theorem cycles_eq_of_cyclesLine_eq {m n : Machine} (h : m.cyclesLine = n.cyclesLine) :
    m.cycles = n.cycles := by
  have hdigits : Nat.toDigits 10 m.cycles.toNat = Nat.toDigits 10 n.cycles.toNat := by
    simp only [cyclesLine, String.toList_append, decimalText, String.toList_ofList] at h
    exact List.append_cancel_left h
  have hm : Digits 10 (Nat.toDigits 10 n.cycles.toNat) m.cycles.toNat :=
    hdigits ▸ digits_toDigits (by decide) _
  exact UInt64.toNat_inj.1 (hm.unique (by decide) (digits_toDigits (by decide) _))

def headLines (m : Machine) : List (List Char) :=
  ["MARIE core dump".toList, m.status.line] ++ (m.errorCode?.map ErrorCode.line).toList ++
    [m.cyclesLine, []]

theorem isLines_dumpHeader (m : Machine) : IsLines m.dumpHeader m.headLines where
  noFeed := by
    unfold headLines
    cases m.errorCode? with
    | none => simp [Status.feed_not_mem_line, feed_not_mem_cyclesLine]
    | some code =>
      simp [Status.feed_not_mem_line, ErrorCode.feed_not_mem_line, feed_not_mem_cyclesLine]
  toList := by
    unfold dumpHeader headLines
    cases m.errorCode? with
    | none => simp [Status.line, cyclesLine]
    | some code => simp [Status.line, ErrorCode.line, cyclesLine]

def bodyLines (m : Machine) : List (List Char) :=
  m.registers.toList.map Register.line ++ [] :: (List.range 256).map m.memory.rowLine

theorem isLines_coreDump (m : Machine) : IsLines m.coreDump (m.headLines ++ m.bodyLines) := by
  have hregisters : IsLines (String.join (m.registers.toList.map Register.dumpLine))
      (m.registers.toList.map Register.line) :=
    .join fun r _ => .single r.toList_dumpLine r.feed_not_mem_line
  have hblank : IsLines "\n" [[]] := .single rfl (by decide)
  have hbody := (hregisters.append hblank).append m.memory.isLines_hexRows
  have hall := m.isLines_dumpHeader.append hbody
  rw [coreDump, bodyLines]
  simpa [String.append_assoc] using hall

theorem eq_of_headLines_eq {m n : Machine} (h : m.headLines = n.headLines) :
    m.status = n.status ∧ m.errorCode? = n.errorCode? ∧ m.cycles = n.cycles := by
  -- A line for the error makes the head longer, so both heads have one or none has.
  unfold headLines at h
  cases hm : m.errorCode? with
  | none =>
    cases hn : n.errorCode? with
    | none =>
      simp only [hm, hn, Option.map_none, Option.toList_none, List.append_nil, List.cons_append,
        List.nil_append, List.cons.injEq, and_true, true_and] at h
      exact ⟨Status.line_inj h.1, rfl, cycles_eq_of_cyclesLine_eq h.2⟩
    | some b => simpa [hm, hn] using congrArg List.length h
  | some a =>
    cases hn : n.errorCode? with
    | none => simpa [hm, hn] using congrArg List.length h
    | some b =>
      simp only [hm, hn, Option.map_some, Option.toList_some, List.cons_append, List.nil_append,
        List.cons.injEq, and_true, true_and] at h
      obtain ⟨hstatus, hcode, hcycles⟩ := h
      rw [ErrorCode.line_inj hcode]
      exact ⟨Status.line_inj hstatus, rfl, cycles_eq_of_cyclesLine_eq hcycles⟩

theorem eq_of_bodyLines_eq {m n : Machine} (h : m.bodyLines = n.bodyLines) :
    (∀ d, (m.registers.get d).designation = (n.registers.get d).designation ∧
      m.value d = n.value d) ∧ m.memory = n.memory := by
  obtain ⟨hregisters, hrows⟩ := List.append_inj h (by simp [Registers.toList])
  refine ⟨?_, Memory.eq_of_rowLines_eq (List.cons.inj hrows).2⟩
  intro d
  simp only [Registers.toList, List.map_map] at hregisters
  exact Register.eq_of_line_eq (List.map_inj_left.1 hregisters d d.mem_all)

theorem coreDump_congr {m n : Machine} (hstatus : m.status = n.status)
    (herror : m.errorCode? = n.errorCode?) (hcycles : m.cycles = n.cycles)
    (hregisters : ∀ d, (m.registers.get d).designation = (n.registers.get d).designation ∧
      m.value d = n.value d) (hmemory : m.memory = n.memory) : m.coreDump = n.coreDump := by
  have hlines : m.registers.toList.map Register.dumpLine =
      n.registers.toList.map Register.dumpLine := by
    simp only [Registers.toList, List.map_map]
    apply List.map_congr_left
    intro d _
    obtain ⟨hname, hvalue⟩ := hregisters d
    rw [value, value] at hvalue
    simp only [Function.comp_apply, Register.dumpLine, hname, hvalue]
  have hheader : m.dumpHeader = n.dumpHeader := by
    unfold dumpHeader
    rw [hstatus, herror, hcycles]
  rw [coreDump, coreDump, hheader, hlines, hmemory]

/-- The memory is printed in 256 lines, one for each row, and a core dump shows as much as it says:
two machines have the same one exactly if they agree in state, error code, count of cycles,
registers and memory. A register is shown with its name, which in a well-formed machine is that of
its slot. -/
theorem coreDump_faithful (m n : Machine) :
    (∃ lines, IsLines m.memory.hexRows lines ∧
      List.Forall₂ m.memory.IsRow (List.range 256) lines) ∧
    (m.coreDump = n.coreDump ↔
      m.status = n.status ∧ m.errorCode? = n.errorCode? ∧ m.cycles = n.cycles ∧
        (∀ d, (m.registers.get d).designation = (n.registers.get d).designation ∧
          m.value d = n.value d) ∧
        m.memory = n.memory) := by
  refine ⟨?rows, ?same, ?equal⟩
  case rows => exact ⟨_, m.memory.isLines_hexRows, m.memory.isRow_hexRows⟩
  case same =>
    intro h
    have hn := n.isLines_coreDump
    rw [← h] at hn
    have hlines := m.isLines_coreDump.unique hn
    obtain ⟨hhead, hbody⟩ := List.append_inj' hlines (by simp [bodyLines, Registers.toList])
    obtain ⟨hstatus, herror, hcycles⟩ := eq_of_headLines_eq hhead
    obtain ⟨hregisters, hmemory⟩ := eq_of_bodyLines_eq hbody
    exact ⟨hstatus, herror, hcycles, hregisters, hmemory⟩
  case equal =>
    rintro ⟨hstatus, herror, hcycles, hregisters, hmemory⟩
    exact coreDump_congr hstatus herror hcycles hregisters hmemory

end Machine

end AccumulatorMachine
