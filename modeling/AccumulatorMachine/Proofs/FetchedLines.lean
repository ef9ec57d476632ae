import AccumulatorMachine.Proofs.Simulation

/-!
# The line that a cycle fetches

A cycle that fetches a word notes the line at its address. Nothing else that a cycle does changes
which lines are noted, whether or not it faults.
-/

namespace AccumulatorMachine

namespace Machine

/-- The address from which a cycle fetches, if it fetches: PC as MAR takes it. -/
def fetchAddress? (m : Machine) : Option Word :=
  let address := (m.assign .mar (m.value .pc).toInt).value .mar
  if m.status = .running ∧ m.fault = none ∧ address.toNat < memorySize then some address else none

theorem fetchAddress?_eq {m : Machine} (h : m.WellFormed) (hrun : m.status = .running)
    (hfault : m.fault = none) : m.fetchAddress? = some (m.value .pc) := by
  have hmar : (m.assign .mar (m.value .pc).toInt).value .mar = m.value .pc := by
    simp [value_assign h, low12_value h (d := .pc) rfl]
  have hlt : (m.value .pc).toNat < memorySize := toNat_value_lt h rfl
  rw [fetchAddress?, hmar, if_pos ⟨hrun, hfault, hlt⟩]

/-- The two lines that a machine notes: that of the last fetch, and the last that was fetched. -/
def notedRows (m : Machine) : Option Nat × Option Nat := (m.executedLine, m.cursor)

theorem executionInvariant_notedRows (rows : Option Nat × Option Nat) :
    ExecutionInvariant fun m => m.notedRows = rows where
  assign h _ _ := h
  setMemory h _ := h
  await h := h
  print h _ := h
  halt h := h

theorem notedRows_left_decoded (m : Machine) (address w : Word) :
    (left ((Action.decoded address w).run m)).notedRows = m.notedRows := by
  have hrows := (executionInvariant_notedRows m.notedRows).relation
  exact (Action.respects_decoded hrows address w m m ⟨rfl, rfl⟩).left

theorem notedRows_left_fetch {m : Machine} (hrun : m.status = .running) (hfault : m.fault = none) :
    (left (Action.fetch.run m)).notedRows = (m.fetchAddress?.elim m m.noteLine).notedRows := by
  let m₁ := m.assign .mar (m.value .pc).toInt
  let address := m₁.value .mar
  rw [Action.fetch_eq, run_bind_ok _ (Action.run_value ..), run_bind_ok _ (Action.run_assign ..),
    run_bind_ok _ (Action.run_value ..)]
  by_cases hcell : address.toNat < memorySize
  · have hlt : address.toLocationUnsigned.toNat < memorySize := by
      rwa [Word.toNat_toLocationUnsigned]
    have haddress : m.fetchAddress? = some address := if_pos ⟨hrun, hfault, hcell⟩
    rw [run_bind_ok _ (Action.run_read_of_lt m₁ hlt), run_bind_ok _ (Action.run_assign ..),
      run_bind_ok _ (Action.run_noteFetched ..), notedRows_left_decoded, haddress]
    rfl
  · have hle : memorySize ≤ address.toLocationUnsigned.toNat := by
      rw [Word.toNat_toLocationUnsigned]
      omega
    have haddress : m.fetchAddress? = none := if_neg fun h => hcell h.2.2
    rw [EStateM.run_bind, Action.run_read_of_le m₁ hle, haddress]
    rfl

/-- What a cycle notes is the line at the address from which it fetches. -/
theorem notedRows_cycle (m : Machine) :
    m.cycle.2.notedRows = (m.fetchAddress?.elim m m.noteLine).notedRows := by
  by_cases hrun : m.status = .running
  · by_cases hfault : m.fault = none
    · obtain ⟨n, hrows, hcycle⟩ := (executionInvariant_notedRows _).cycle (fun h _ => h) hrun hfault
        (notedRows_left_fetch hrun hfault)
      rw [hcycle]
      cases m.cycle.1 with
      | none => exact hrows
      | some op => exact hrows
    · rw [cycle_of_fault hrun hfault, fetchAddress?, if_neg fun h => hfault h.2.1]
      rfl
  · rw [cycle_of_ne hrun, fetchAddress?, if_neg fun h => hrun h.1]
    rfl

/-- The line that a cycle remembers is the one at its program counter. -/
theorem executedLine_cycle {m : Machine} (h : m.WellFormed) (hrun : m.status = .running)
    (hfault : m.fault = none) : m.cycle.2.executedLine = m.listing.rowOf? (m.value .pc) := by
  have hrows := m.notedRows_cycle
  rw [fetchAddress?_eq h hrun hfault] at hrows
  exact congrArg Prod.fst hrows

end Machine

end AccumulatorMachine
