import Mathlib.Data.List.Induction
import AccumulatorMachine.Memory

/-!
# Memory under edits

A memory is made from zeros by edits: words are written at any location, and all of it is cleared,
in any order. It stays a map from the numbers 0 to 4095 to words. A cell holds what was written to
it last since the memory was last cleared, every other location is refused with nothing changed, and
a dump lists the cells of a range as far as there are any.
-/

namespace AccumulatorMachine

namespace Memory

inductive Edit
  | write (place : Location) (w : Word)
  | clear
  deriving DecidableEq

/-- The memory after an edit. A write may be refused, and then does nothing. -/
def edit (m : Memory) : Edit → Memory
  | .write place w =>
    match m.write place w with
    | .ok m' => m'
    | .error _ => m
  | .clear => m.clear

def editAll (m : Memory) (es : List Edit) : Memory := es.foldl edit m

theorem editAll_concat (m : Memory) (es : List Edit) (e : Edit) :
    m.editAll (es ++ [e]) = (m.editAll es).edit e := by
  rw [editAll, List.foldl_append, List.foldl_cons, List.foldl_nil, editAll]

/-- The word that an edit is to write at a location. -/
def Edit.wordAt? (place : Location) : Edit → Option Word
  | .write place' w => if place' = place then some w else none
  | .clear => none

/-- The last word that some edits were to write at a location since they last cleared the memory. -/
def lastWritten? (es : List Edit) (place : Location) : Option Word :=
  (es.reverse.takeWhile (· ≠ .clear)).findSome? (·.wordAt? place)

theorem lastWritten?_concat (es : List Edit) (e : Edit) (place : Location) :
    lastWritten? (es ++ [e]) place =
      match e with
      | .write place' w => if place' = place then some w else lastWritten? es place
      | .clear => none := by
  cases e with
  | write place' w =>
    by_cases hplace : place' = place <;> simp [lastWritten?, Edit.wordAt?, hplace]
  | clear => simp [lastWritten?]

section edit

variable (m : Memory) {place : Location}

theorem write_eq_edit (w : Word) (h : place.toNat < memorySize) :
    m.write place w = .ok (m.edit (.write place w)) := by
  rw [edit, write_of_lt m w h]

theorem edit_write_of_le (w : Word) (h : memorySize ≤ place.toNat) :
    m.edit (.write place w) = m := by
  rw [edit, write_of_le m w h]

theorem cell_edit (e : Edit) (h : place.toNat < memorySize) :
    (m.edit e).cell place.toNat =
      match e with
      | .write place' w => if place' = place then w else m.cell place.toNat
      | .clear => 0 := by
  cases e with
  | write place' w =>
    dsimp only
    rcases Nat.lt_or_ge place'.toNat memorySize with hin | hout
    · have hsame : place.toNat = place'.toNat ↔ place' = place := by
        rw [BitVec.toNat_inj, eq_comm]
      simp only [cell_of_write (m.write_eq_edit w hin), hsame]
    · have hne : place' ≠ place := by
        rintro rfl
        exact Nat.not_lt.2 hout h
      rw [m.edit_write_of_le w hout, if_neg hne]
  | clear => rw [edit, clear_eq_zero, cell_zero]

end edit

/-- A cell of a memory made by edits holds the word written last, or 0 if there is none. -/
theorem cell_editAll (es : List Edit) {place : Location} (h : place.toNat < memorySize) :
    (zero.editAll es).cell place.toNat = (lastWritten? es place).getD 0 := by
  induction es using List.reverseRecOn with
  | nil => exact cell_zero place.toNat
  | append_singleton es e ih =>
    rw [editAll_concat, cell_edit _ e h, lastWritten?_concat]
    cases e with
    | write place' w =>
      dsimp only
      split
      next => rfl
      next => exact ih
    | clear => rfl

section dump

variable (m : Memory) (start count : Nat)

theorem pairwise_addresses_dump : ((m.dump start count).map Prod.fst).Pairwise (· < ·) := by
  simp only [dump, List.map_map, Function.comp_def, List.map_id']
  exact List.pairwise_lt_range'

/-- A dump shows the cells that are both in the range and in memory. The sum of start and count may
be no number of sixty-four bits, but the number taken for it is behind all cells then. -/
theorem mem_dump_iff (i : Nat) (w : Word) :
    (i, w) ∈ m.dump start count ↔
      start ≤ i ∧ i < start + count ∧ i < memorySize ∧ m.cell i = w := by
  simp only [dump, saturatingAdd, UInt64.size, memorySize, List.mem_map, List.mem_range'_1,
    Prod.mk.injEq]
  constructor
  · rintro ⟨j, hj, rfl, hcell⟩
    exact ⟨by omega, by omega, by omega, hcell⟩
  · rintro ⟨hstart, hcount, hsize, hcell⟩
    exact ⟨i, by omega, rfl, hcell⟩

end dump

theorem read_ofNat (m : Memory) {i : Nat} (h : i < memorySize) :
    m.read (.ofNat 32 i) = .ok (m.cell i) := by
  have hnat : (BitVec.ofNat 32 i).toNat = i := by
    rw [BitVec.toNat_ofNat]
    unfold memorySize at h
    omega
  rw [read_eq_cell m (hnat.symm ▸ h), hnat]

/-- Whatever writes and clears have made a memory, it has 4096 cells. A cell reads as the word that
was written to it last since the last clear, or as 0 if there is none, and can be written. At any
other location, be it behind the cells or negative, reading and writing are refused with that
location, and nothing is changed. A dump of any range shows, in ascending order and each once, the
cells that the range has in memory, with the words that are read there. -/
theorem bounded_map (es : List Edit) :
    let m := zero.editAll es
    m.cells.toList.length = 4096 ∧
    (∀ place : Location, 0 ≤ place.toInt ∧ place.toInt ≤ 4095 →
      m.read place = .ok ((lastWritten? es place).getD 0) ∧
      ∀ w, m.write place w = .ok (zero.editAll (es ++ [.write place w]))) ∧
    (∀ place : Location, ¬(0 ≤ place.toInt ∧ place.toInt ≤ 4095) →
      m.read place = .error ⟨place⟩ ∧
      ∀ w, m.write place w = .error ⟨place⟩ ∧ zero.editAll (es ++ [.write place w]) = m) ∧
    ∀ start count : Nat,
      ((m.dump start count).map Prod.fst).Pairwise (· < ·) ∧
      ∀ i w, (i, w) ∈ m.dump start count ↔
        start ≤ i ∧ i < start + count ∧ i ≤ 4095 ∧ m.read (.ofNat 32 i) = .ok w := by
  intro m
  refine ⟨m.cells.length_toList, ?inside, ?outside, ?dump⟩
  case inside =>
    intro place hplace
    have hin := (toNat_lt_memorySize_iff (by decide) place).2 hplace
    refine ⟨by rw [read_eq_cell m hin, cell_editAll es hin], fun w => ?_⟩
    rw [editAll_concat, write_eq_edit m w hin]
  case outside =>
    intro place hplace
    have hout : memorySize ≤ place.toNat := by
      rw [← Nat.not_lt, toNat_lt_memorySize_iff (by decide)]
      exact hplace
    refine ⟨read_of_le m hout, fun w => ⟨write_of_le m w hout, ?_⟩⟩
    rw [editAll_concat, edit_write_of_le m w hout]
  case dump =>
    intro start count
    refine ⟨m.pairwise_addresses_dump start count, fun i w => ?_⟩
    rw [mem_dump_iff]
    constructor
    · rintro ⟨hstart, hcount, hi, rfl⟩
      exact ⟨hstart, hcount, Nat.le_of_lt_succ hi, m.read_ofNat hi⟩
    · rintro ⟨hstart, hcount, hi, hread⟩
      rw [m.read_ofNat (Nat.lt_succ_of_le hi)] at hread
      exact ⟨hstart, hcount, Nat.lt_succ_of_le hi, Except.ok.inj hread⟩

/-- A cell written before a clear and twice behind it, one written only before it, and writes behind
the last cell and at a negative location. -/
def refilling : List Edit :=
  [.write 5 7, .write 4095 1, .clear, .write 5 8, .write 4096 9, .write (-1) 3, .write 4094 2,
    .write 5 0xFFFF]

def refilled : Memory := zero.editAll refilling

/-- The later of two words is read, and 0 where all was cleared. A range that starts in memory is
cut at its end however long it is, and one that starts behind it is empty. -/
theorem bounded_map_refilled :
    (0 ≤ (5 : Location).toInt ∧ (5 : Location).toInt ≤ 4095) ∧ refilled.read 5 = .ok 0xFFFF ∧
      (0 ≤ (4095 : Location).toInt ∧ (4095 : Location).toInt ≤ 4095) ∧
      refilled.read 4095 = .ok 0 ∧
      ¬(0 ≤ (-1 : Location).toInt ∧ (-1 : Location).toInt ≤ 4095) ∧
      refilled.read (-1) = .error ⟨-1⟩ ∧ zero.editAll (refilling ++ [.write (-1) 3]) = refilled ∧
      (4095, 0) ∈ refilled.dump 4094 (UInt64.size - 1) ∧
      ∀ i w, (i, w) ∉ refilled.dump (UInt64.size - 1) (UInt64.size - 1) := by
  obtain ⟨-, hinside, houtside, hdump⟩ := bounded_map refilling
  have hfive : 0 ≤ (5 : Location).toInt ∧ (5 : Location).toInt ≤ 4095 := by decide
  have hlast : 0 ≤ (4095 : Location).toInt ∧ (4095 : Location).toInt ≤ 4095 := by decide
  have hnegative : ¬(0 ≤ (-1 : Location).toInt ∧ (-1 : Location).toInt ≤ 4095) := by decide
  obtain ⟨hrefused, hkept⟩ := houtside (-1) hnegative
  have hzero : refilled.read 4095 = .ok 0 := (hinside 4095 hlast).1
  refine ⟨hfive, (hinside 5 hfive).1, hlast, hzero, hnegative, hrefused, (hkept 3).2,
    ((hdump _ _).2 4095 0).2 ⟨by decide, by decide, by decide, hzero⟩, ?_⟩
  intro i w hmem
  obtain ⟨hstart, -, hend, -⟩ := ((hdump _ _).2 i w).1 hmem
  have hlarge : 4095 < UInt64.size - 1 := by decide
  omega

end Memory

end AccumulatorMachine
