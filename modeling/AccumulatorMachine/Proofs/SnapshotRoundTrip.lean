import AccumulatorMachine.Proofs.Acts
import AccumulatorMachine.Proofs.SnapshotParts

/-!
# Snapshots are read back

A snapshot cannot hold a row of 2^64 or more. A machine never has one, since all of its rows are
rows of its listing, and a listing fits in memory. So its snapshot denotes it, at every moment.
-/

namespace AccumulatorMachine

namespace Machine

theorem Indexed.smallRows {m : Machine} (h : m.Indexed) : m.SmallRows := by
  have hsmall {row : Nat} (hrow : row < m.listing.size) : row < UInt64.size :=
    Nat.lt_of_lt_of_le hrow (Nat.le_trans h.listing.size_le (by decide))
  constructor
  · exact fun _ _ hrow => hsmall (h.listing.row_lt hrow)
  · exact fun row hrow => hsmall (h.cursor row hrow)
  · exact fun row hrow => hsmall (h.executedLine row hrow)

/-- Whatever was done to a new machine, its snapshot is read back as the machine itself: with all
registers and cells, the state, the fault and its text, the listing with its rows and breakpoints,
the output and the counts. So what is done later to the machine that was read back leads where it
would have led without the snapshot. -/
theorem snapshot_reads_back (past : List Act) :
    ofSnapshot? (new.acts past).snapshot = some (new.acts past) ∧
    ∀ later, (ofSnapshot? (new.acts past).snapshot).map (·.acts later) =
      some (new.acts (past ++ later)) := by
  have hindexed : (new.acts past).Indexed := invariant_indexed.acts invariant_indexed.new past
  have hread := ofSnapshot?_snapshot hindexed.smallRows
  refine ⟨hread, fun later => ?_⟩
  rw [hread, Option.map_some, acts_append]

end Machine

end AccumulatorMachine
