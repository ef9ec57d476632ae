import AccumulatorMachine.Machine.Snapshot
import AccumulatorMachine.Proofs.JsonValues

/-!
# The parts of a snapshot

Each part of a machine is found again in the value that was written for it, and the numbers in it
are integers. Only rows have to be small: a snapshot bounds them by 2^64, a listing does not.
-/

namespace AccumulatorMachine

namespace Json

theorem unsigned?_int {bits : Nat} (w : BitVec bits) : unsigned? bits (int w.toNat) = some w := by
  have hlt : w.toNat < 1 <<< bits := by
    rw [Nat.one_shiftLeft]
    exact w.isLt
  rw [unsigned?, natBelow?_int hlt]
  simp

theorem signed?_int {bits : Nat} (w : BitVec bits) : signed? bits (int w.toInt) = some w := by
  have hlow := BitVec.le_toInt w
  have hhigh := BitVec.toInt_lt (x := w)
  have hbounds : -((1 <<< (bits - 1) : Nat) : Int) ≤ w.toInt ∧
      w.toInt ≤ ((1 <<< (bits - 1) : Nat) : Int) - 1 := by
    rw [Nat.one_shiftLeft]
    push_cast
    omega
  simp only [signed?, int, intBetween?, if_pos hbounds]
  simp

end Json

open Json

namespace DisplayMode

@[simp] theorem integral_toJson (mode : DisplayMode) : mode.toJson.Integral := by simp [toJson]

theorem ofJson?_toJson (mode : DisplayMode) : ofJson? mode.toJson = some mode := by
  cases mode <;> rfl

end DisplayMode

theorem Designation.ofTag?_tag (d : Designation) :
    ofTag? all tag (.string d.tag) = some d := by
  cases d <;> rfl

theorem Status.ofTag?_tag (s : Status) : ofTag? all tag (.string s.tag) = some s := by
  cases s <;> rfl

theorem Opcode.ofTag?_tag (op : Opcode) : ofTag? all tag (.string op.tag) = some op := by
  cases op <;> rfl

namespace Register

@[simp] theorem integral_toJson (r : Register) : r.toJson.Integral := by simp [toJson]

theorem ofJson?_toJson (r : Register) : ofJson? r.toJson = some r := by
  have hrecord : record? fieldNames r.toJson = some [some (.string r.designation.tag),
      some (int r.stored.toInt), some r.mode.toJson, some (.string r.rendering)] := rfl
  rw [ofJson?, hrecord]
  dsimp only [Option.bind_eq_bind, Option.bind_some]
  rw [Designation.ofTag?_tag, signed?_int, DisplayMode.ofJson?_toJson]
  rfl

end Register

namespace Registers

@[simp] theorem integral_toJson (rs : Registers) : rs.toJson.Integral := by simp [toJson]

theorem ofJson?_toJson (rs : Registers) : ofJson? rs.toJson = some rs := by
  have hrecord : record? (Designation.all.map Designation.key) rs.toJson = some [some rs.ac.toJson,
      some rs.ir.toJson, some rs.mar.toJson, some rs.mbr.toJson, some rs.pc.toJson,
      some rs.input.toJson, some rs.output.toJson] := rfl
  rw [ofJson?, hrecord]
  dsimp only [Option.bind_eq_bind, Option.bind_some]
  simp only [Register.ofJson?_toJson]
  rfl

end Registers

namespace Memory

@[simp] theorem integral_toJson (m : Memory) : m.toJson.Integral := by simp [toJson]

theorem ofJson?_toJson (m : Memory) : ofJson? m.toJson = some m := by
  have hwords : items? (signed? 16) (.array (m.cells.toList.map fun w => int w.toInt)) =
      some m.cells.toList := items?_map fun w _ => signed?_int w
  have hcells : Vector.mk m.cells.toList.toArray (by simp) = m.cells :=
    Vector.toArray_inj.1 (@Array.toArray_toList _ m.cells.toArray)
  have hrecord : record? ["cells"] m.toJson =
      some [some (.array (m.cells.toList.map fun w => int w.toInt))] := rfl
  simp [ofJson?, hrecord, hwords, hcells]

end Memory

namespace Fault

@[simp] theorem integral_toJson (f : Fault) : f.toJson.Integral := by cases f <;> simp [toJson]

theorem ofJson?_toJson (f : Fault) : ofJson? f.toJson = some f := by
  cases f with
  | illegalOpcode opcode address =>
    have hrecord : record? ["opcode", "address"]
        (.object [("opcode", int opcode.toNat), ("address", int address.toNat)]) =
      some [some (int opcode.toNat), some (int address.toNat)] := rfl
    simp [ofJson?, toJson, alternative?, hrecord, unsigned?_int]
  | illegalCondition address =>
    have hrecord : record? ["address"] (.object [("address", int address.toNat)]) =
      some [some (int address.toNat)] := rfl
    simp [ofJson?, toJson, alternative?, hrecord, unsigned?_int]
  | addressOutOfRange location => simp [ofJson?, toJson, alternative?, signed?_int]
  | endOfMemory => rfl
  | invalidValue reason => rfl

end Fault

namespace Line

@[simp] theorem integral_toJson (line : Line) : line.toJson.Integral := by simp [toJson]

theorem ofJson?_toJson (line : Line) : ofJson? line.toJson = some line := by
  have hrecord : record? fieldNames line.toJson = some [some (int line.address.toNat),
      some (int line.word.toInt), some (.string line.label), some (.string line.mnemonic),
      some (.string line.operandToken), some (.bool line.breakpoint)] := rfl
  rw [ofJson?, hrecord]
  dsimp only [Option.bind_eq_bind, Option.bind_some]
  rw [unsigned?_int, signed?_int]
  rfl

end Line

namespace Listing

@[simp] theorem integral_toJson (l : Listing) : l.toJson.Integral := by
  have hrows : l.rowsToJson.Integral := by
    rw [rowsToJson, integral_object, List.forall_mem_map]
    exact fun _ _ => integral_int _
  simp [toJson, linesToJson, hrows]

theorem ofList_owned (l : Listing) : Std.ExtTreeMap.ofList l.owned = l.rows := by
  apply Std.ExtTreeMap.ext_getElem?
  intro address
  cases hrow : l.rows[address]? with
  | some row =>
    have hdistinct : l.owned.Pairwise fun a b => ¬compare a.1 b.1 = .eq :=
      Std.ExtTreeMap.distinct_keys_toList
    have hmem : (address, row) ∈ l.owned :=
      Std.ExtTreeMap.mem_toList_iff_getElem?_eq_some.2 hrow
    exact Std.ExtTreeMap.getElem?_ofList_of_mem Std.ReflCmp.compare_self hdistinct hmem
  | none =>
    apply Std.ExtTreeMap.getElem?_ofList_of_contains_eq_false
    rw [Bool.eq_false_iff]
    intro hcontains
    obtain ⟨⟨_, row⟩, hentry, rfl⟩ := List.mem_map.1 (List.contains_iff_mem.1 hcontains)
    cases hrow.symm.trans (Std.ExtTreeMap.mem_toList_iff_getElem?_eq_some.1 hentry)

/-- The map of rows is found again under its decimal keys. -/
theorem rowsOfJson?_rowsToJson {l : Listing}
    (h : ∀ address row, l.rowOf? address = some row → row < UInt64.size) :
    rowsOfJson? l.rowsToJson = some l.rows := by
  have hread : ∀ entry ∈ l.owned, entry.2 < UInt64.size :=
    fun entry he => h entry.1 entry.2 (Std.ExtTreeMap.mem_toList_iff_getElem?_eq_some.1 he)
  rw [rowsToJson, rowsOfJson?, mapM_map_of_reads]
  · rw [← ofList_owned]
    rfl
  · intro entry he
    simp [natKey?_decimalText entry.1.isLt, natBelow?_int (hread entry he)]

theorem ofJson?_toJson {l : Listing}
    (h : ∀ address row, l.rowOf? address = some row → row < UInt64.size) :
    ofJson? l.toJson = some l := by
  have hlines : items? Line.ofJson? l.linesToJson = some l.lines.toList :=
    items?_map fun line _ => Line.ofJson?_toJson line
  have hrecord : record? ["lines", "rows"] l.toJson = some [some l.linesToJson,
      some l.rowsToJson] := rfl
  simp [ofJson?, hrecord, hlines, rowsOfJson?_rowsToJson h]

end Listing

namespace OutputRecord

@[simp] theorem integral_toJson (r : OutputRecord) : r.toJson.Integral := by simp [toJson]

theorem ofJson?_toJson (r : OutputRecord) : ofJson? r.toJson = some r := by
  have hrecord : record? ["value", "mode"] r.toJson = some [some (int r.value.toInt),
      some r.mode.toJson] := rfl
  simp [ofJson?, hrecord, signed?_int, DisplayMode.ofJson?_toJson]

end OutputRecord

theorem Json.integral_row (row? : Option Nat) :
    (.ofOption (row?.map fun row => int row) : Json String).Integral := by
  cases row? <;> simp

theorem Json.optional?_row {row? : Option Nat} (h : ∀ row ∈ row?, row < UInt64.size) :
    optional? (natBelow? UInt64.size) (some (.ofOption (row?.map fun row => int row))) =
      some row? := by
  cases row? with
  | none => rfl
  | some row =>
    have hread := natBelow?_int (h row rfl)
    exact congrArg (Option.map some) hread

namespace Machine

theorem integral_toJson (m : Machine) : m.toJson.Integral := by
  rw [toJson, integral_object]
  simp only [List.forall_mem_cons, integral_row]
  simp

/-- A machine with rows below 2^64. -/
structure SmallRows (m : Machine) : Prop where
  listing : ∀ address row, m.listing.rowOf? address = some row → row < UInt64.size
  cursor : ∀ row ∈ m.cursor, row < UInt64.size
  executedLine : ∀ row ∈ m.executedLine, row < UInt64.size

theorem ofJson?_toJson {m : Machine} (h : m.SmallRows) : ofJson? m.toJson = some m := by
  have hfault : optional? Fault.ofJson? (some (.ofOption (m.fault.map Fault.toJson))) =
      some m.fault := by
    apply optional?_ofOption
    exact fun f _ => ⟨by cases f <;> nofun, Fault.ofJson?_toJson f⟩
  have hopcode : optional? (ofTag? Opcode.all Opcode.tag)
      (some (.ofOption (m.lastOpcode.map fun op => .string op.tag))) = some m.lastOpcode := by
    apply optional?_ofOption
    exact fun op _ => ⟨nofun, op.ofTag?_tag⟩
  have houtput : items? OutputRecord.ofJson? (.array (m.output.toList.map OutputRecord.toJson)) =
      some m.output.toList := items?_map fun r _ => r.ofJson?_toJson
  have hcycles : natBelow? UInt64.size (int m.cycles.toNat) = some m.cycles.toNat :=
    natBelow?_int m.cycles.toNat_lt
  have hrecord : record? fieldNames m.toJson = some [some m.registers.toJson, some m.memory.toJson,
      some (.string m.status.tag), some (.ofOption (m.fault.map Fault.toJson)),
      some m.listing.toJson, some (.ofOption (m.cursor.map fun row => int row)),
      some (.ofOption (m.executedLine.map fun row => int row)),
      some (.array (m.output.toList.map OutputRecord.toJson)), some (int m.cycles.toNat),
      some (.ofOption (m.lastOpcode.map fun op => .string op.tag))] := rfl
  rw [ofJson?, hrecord]
  have hcursor := optional?_row h.cursor
  have hexecuted := optional?_row h.executedLine
  dsimp only [Option.bind_eq_bind, Option.bind_some] at hcursor hexecuted ⊢
  rw [houtput, Option.bind_some, Registers.ofJson?_toJson, Option.bind_some,
    Memory.ofJson?_toJson, Option.bind_some, Status.ofTag?_tag, Option.bind_some, hfault,
    Option.bind_some, Listing.ofJson?_toJson h.listing, Option.bind_some, hcursor,
    Option.bind_some, hexecuted, Option.bind_some, hcycles, Option.bind_some, hopcode,
    Option.bind_some, UInt64.ofNat_toNat]
  rfl

/-- The snapshot of a machine with small rows denotes the machine. -/
theorem ofSnapshot?_snapshot {m : Machine} (h : m.SmallRows) :
    ofSnapshot? m.snapshot = some m := by
  rw [ofSnapshot?, snapshot, valueOfBytes?_compact m.integral_toJson, Option.bind_some,
    ofJson?_toJson h]

end Machine

end AccumulatorMachine
