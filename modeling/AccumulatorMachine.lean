import AccumulatorMachine.Control.Session
import AccumulatorMachine.Machine.Snapshot
import AccumulatorMachine.Main
import AccumulatorMachine.Proofs.InstructionTable
import AccumulatorMachine.Proofs.LateRequests
import AccumulatorMachine.Proofs.ModeIndependence
import AccumulatorMachine.Proofs.TraceTransparency
import AccumulatorMachine.Proofs.Listings
import AccumulatorMachine.Proofs.Loading
import AccumulatorMachine.Proofs.FaultAgreement
import AccumulatorMachine.Proofs.JsonSpelling
import AccumulatorMachine.Proofs.JsonLayout
import AccumulatorMachine.Proofs.ImageRoundTrip
import AccumulatorMachine.Proofs.JsonValues
import AccumulatorMachine.Proofs.Acts
import AccumulatorMachine.Proofs.BreakpointEdits
import AccumulatorMachine.Proofs.BreakpointRuns
import AccumulatorMachine.Proofs.CycleLimit
import AccumulatorMachine.Proofs.SnapshotParts
import AccumulatorMachine.Proofs.SnapshotRoundTrip
import AccumulatorMachine.Proofs.Suspension
import AccumulatorMachine.Proofs.Refusals
import AccumulatorMachine.Proofs.WorkerRequests
import AccumulatorMachine.Proofs.ProgramPresence
import AccumulatorMachine.Proofs.DisplayModes
import AccumulatorMachine.Proofs.Successors
import AccumulatorMachine.Proofs.CommandReports
import AccumulatorMachine.Proofs.NumericLiterals
import AccumulatorMachine.Proofs.AsciiLiterals
import AccumulatorMachine.Proofs.RecordFormat
import AccumulatorMachine.Proofs.CompanionNames
import AccumulatorMachine.Proofs.ListingEdits
import AccumulatorMachine.Proofs.MemoryEdits
import AccumulatorMachine.Proofs.WordImages
import AccumulatorMachine.Proofs.Subroutines
import AccumulatorMachine.Proofs.Journals
import AccumulatorMachine.Proofs.RegisterFile
import AccumulatorMachine.Proofs.Disassembly
import AccumulatorMachine.Proofs.CoreDumps
import AccumulatorMachine.Proofs.ImageLayouts
