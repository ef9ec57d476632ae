import AccumulatorMachine.Proofs.Loading
import AccumulatorMachine.Proofs.RecordFormat

/-!
# Images made of words

An image can be made of words that are to stand in consecutive cells. Each word goes through a
record, as text, and comes back from it: loading such an image places every word where it belongs.
The origin is any word. Cells are counted in twelve bits, and behind the last cell comes the first.
-/

namespace AccumulatorMachine

namespace Image

def addressFrom (origin : Word) (i : Nat) : Word :=
  BitVec.ofNat 16 ((origin.toNat + i) % memorySize)

/-- The line of a word some cells behind an origin. It comes from no source. -/
def wordLine (origin : Word) (i : Nat) (w : Word) : Line :=
  ⟨addressFrom origin i, w, "", "", "", false⟩

variable (origin : Word) (words : List Word)

theorem toNat_addressFrom (i : Nat) :
    (addressFrom origin i).toNat = (origin.toNat + i) % memorySize := by
  have hlt : (origin.toNat + i) % memorySize < memorySize := Nat.mod_lt _ (by decide)
  unfold memorySize at hlt
  rw [addressFrom, BitVec.toNat_ofNat]
  apply Nat.mod_eq_of_lt
  unfold memorySize
  omega

theorem addressFrom_eq (i : Nat) :
    addressFrom origin i = BitVec.ofNat 16 ((origin + BitVec.ofNat 16 i).toNat % 4096) := by
  rw [addressFrom, memorySize, BitVec.toNat_add, BitVec.toNat_ofNat]
  congr 1
  omega

theorem addressFrom_inj {i j : Nat} (hi : i < memorySize) (hj : j < memorySize)
    (h : addressFrom origin i = addressFrom origin j) : i = j := by
  have hnat := congrArg BitVec.toNat h
  rw [toNat_addressFrom, toNat_addressFrom] at hnat
  unfold memorySize at hi hj hnat
  omega

namespace Record

theorem isExecutable_new (address word : Word) : (new address word).isExecutable = true := by
  have hfield : IsField 1 3 (Text.hexText 3 address.low12.toNat) address.low12.toNat :=
    isField_hexText (by decide) (by decide) address.toNat_low12_lt
  obtain ⟨hlen, -⟩ := isField_iff.1 hfield
  rw [isExecutable, Bool.not_eq_true', List.isEmpty_eq_false_iff]
  exact List.ne_nil_of_length_pos hlen

theorem becomes_wordLine (i : Nat) (w : Word) :
    (new (origin + BitVec.ofNat 16 i) w).Becomes i (wordLine origin i w) where
  parse := by
    change (new (origin + BitVec.ofNat 16 i) w).parse i = .ok (addressFrom origin i, w)
    rw [addressFrom_eq]
    exact parse_new (origin + BitVec.ofNat 16 i) w "" "" ""
  label := rfl
  mnemonic := rfl
  operandToken := rfl
  breakpoint := rfl

end Record

theorem executable_ofWords :
    (ofWords origin words).executable =
      words.mapIdx fun i w => (i, .new (origin + BitVec.ofNat 16 i) w) := by
  rw [executable, ofWords, List.mapIdx_mapIdx]
  apply List.filter_eq_self.2
  intro p hp
  obtain ⟨i, hi, rfl⟩ := List.mem_mapIdx.1 hp
  exact Record.isExecutable_new _ _

theorem length_executable_ofWords : (ofWords origin words).executable.length = words.length := by
  rw [executable_ofWords, List.length_mapIdx]

variable {origin words}

/-- The lines of an image of words. -/
theorem lines_ofWords (hsome : words ≠ []) (hfits : words.length ≤ memorySize) :
    (ofWords origin words).lines = .ok (words.mapIdx (wordLine origin)) := by
  rw [lines_eq_ok_iff]
  refine ⟨by rwa [length_executable_ofWords], ?_, ?_⟩
  · intro hnil
    exact hsome (List.mapIdx_eq_nil_iff.1 hnil)
  · rw [executable_ofWords, List.mapIdx_eq_zipIdx_map, List.mapIdx_eq_zipIdx_map,
      List.forall₂_map_left_iff, List.forall₂_map_right_iff, List.forall₂_same]
    intro p hp
    exact Record.becomes_wordLine origin p.2 p.1

theorem isLastRow_mapIdx_wordLine (hfits : words.length ≤ memorySize) {i : Nat}
    (hi : i < words.length) :
    IsLastRow (words.mapIdx (wordLine origin)) (addressFrom origin i) i := by
  constructor
  · simp [hi, wordLine]
  · intro later hlater heq
    rw [List.getElem?_mapIdx, Option.map_map, Option.map_eq_some_iff] at heq
    obtain ⟨w, hw, haddress⟩ := heq
    have hlt := (List.getElem?_eq_some_iff.1 hw).1
    have hsame := addressFrom_inj origin (by omega) (by omega) haddress
    omega

end Image

namespace Machine

open AccumulatorMachine.Image (addressFrom wordLine)

/-- A machine that has just been loaded with some words: they stand in the cells from an origin on,
all other cells are zero, and the lines are those of the words. -/
structure HoldsWords (m : Machine) (origin : Word) (words : List Word) : Prop where
  cell : ∀ i, ∀ h : i < words.length,
    m.memory.cell ((origin.toNat + i) % memorySize) = words[i]
  cell_other : ∀ a, (∀ i < words.length, (origin.toNat + i) % memorySize ≠ a) →
    m.memory.cell a = 0
  size : m.listing.size = words.length
  line : ∀ i, ∀ h : i < words.length, m.listing.line? i = some (wordLine origin i words[i])
  row : ∀ i < words.length, m.listing.rowOf? (addressFrom origin i) = some i
  pc : (m.value .pc).toNat = origin.toNat % memorySize

theorem Holds.holdsWords {m : Machine} {image : Image} {origin : Word} {words : List Word}
    (h : m.Holds image (words.mapIdx (wordLine origin))) (hsome : words ≠ [])
    (hfits : words.length ≤ memorySize) : m.HoldsWords origin words := by
  have hget : ∀ i, ∀ hi : i < words.length,
      (words.mapIdx (wordLine origin))[i]? = some (wordLine origin i words[i]) := by
    intro i hi
    simp [hi]
  have hlast : ∀ i < words.length,
      IsLastRow (words.mapIdx (wordLine origin)) (addressFrom origin i) i :=
    fun i hi => Image.isLastRow_mapIdx_wordLine hfits hi
  constructor
  case cell =>
    intro i hi
    rw [← Image.toNat_addressFrom]
    exact h.cell_line i _ (hget i hi) (hlast i hi)
  case cell_other =>
    intro a ha
    apply h.cell_other
    intro line hline
    obtain ⟨i, hi, rfl⟩ := List.mem_mapIdx.1 hline
    exact fun heq => ha i hi ((Image.toNat_addressFrom origin i).symm.trans heq)
  case size =>
    rw [Listing.size, ← Array.length_toList, h.lines_eq, List.length_mapIdx]
  case line =>
    intro i hi
    rw [Listing.line?, ← Array.getElem?_toList, h.lines_eq, hget i hi]
  case row =>
    intro i hi
    exact (h.rows _ i).2 (hlast i hi)
  case pc =>
    obtain ⟨w, rest, rfl⟩ := List.exists_cons_of_ne_nil hsome
    have hpc := h.pc
    rw [List.mapIdx_cons, List.head?_cons, Option.map_some, Option.some_inj] at hpc
    rw [← hpc]
    exact Image.toNat_addressFrom origin 0

/-- An image made of words is loaded exactly if there are words and they fit in memory. Then each
of them stands where it belongs, counted from the origin in twelve bits, in memory as in the
listing, and execution starts at the first. Otherwise the load is refused with the reason. -/
theorem load_ofWords_exact {m : Machine} (h : m.WellFormed) (origin : Word) (words : List Word) :
    (words ≠ [] → words.length ≤ memorySize →
      ∃ loaded, (load (.ofWords origin words)).run m = .ok () loaded ∧
        loaded.HoldsWords origin words) ∧
    (memorySize < words.length →
      (load (.ofWords origin words)).run m = .error (.tooManyRecords words.length) m.reset) ∧
    (words = [] → (load (.ofWords origin words)).run m = .error .empty m.reset) := by
  have hlength := Image.length_executable_ofWords origin words
  refine ⟨?placed, ?tooMany, ?empty⟩
  case placed =>
    intro hsome hfits
    have hlines : (Image.ofWords origin words).lines = _ := Image.lines_ofWords hsome hfits
    refine ⟨m.loadedWith (words.mapIdx (wordLine origin)), by rw [run_load, hlines], ?_⟩
    exact (holds_loadedWith h hlines).holdsWords hsome hfits
  case tooMany =>
    intro hmany
    have hrefused : (Image.ofWords origin words).Refused (.tooManyRecords words.length) := by
      rw [← hlength] at hmany ⊢
      exact .tooMany hmany
    rw [run_load, Image.lines_eq_error_iff.2 hrefused]
  case empty =>
    rintro rfl
    have hrefused : (Image.ofWords origin []).Refused .empty :=
      .empty (List.eq_nil_of_length_eq_zero hlength)
    rw [run_load, Image.lines_eq_error_iff.2 hrefused]

/-- Three words from an origin near the end of the sixteen bits, loaded on a machine that has
faulted: the last of them is in the first cell. -/
theorem load_ofWords_exact_wrapping :
    faulted.WellFormed ∧ ∃ loaded,
      (load (.ofWords 0xFFFE [0x9000, 0xFFFF, 0x7000])).run faulted = .ok () loaded ∧
        loaded.memory.cell 0xFFE = 0x9000 ∧ loaded.memory.cell 0xFFF = 0xFFFF ∧
        loaded.memory.cell 0 = 0x7000 ∧ loaded.memory.cell 1 = 0 ∧
        loaded.listing.rowOf? 0 = some 2 ∧ loaded.value .pc = 0xFFE := by
  have hw : faulted.WellFormed := by
    intro d
    cases d <;> rfl
  obtain ⟨hplaced, -, -⟩ := load_ofWords_exact hw 0xFFFE [0x9000, 0xFFFF, 0x7000]
  obtain ⟨loaded, hrun, hwords⟩ := hplaced (by decide) (by decide)
  refine ⟨hw, loaded, hrun, hwords.cell 0 (by decide), hwords.cell 1 (by decide),
    hwords.cell 2 (by decide), hwords.cell_other 1 (by decide), hwords.row 2 (by decide), ?_⟩
  exact BitVec.eq_of_toNat_eq hwords.pc

end Machine

end AccumulatorMachine
