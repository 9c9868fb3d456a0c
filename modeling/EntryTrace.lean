import EntryTrace.Main
import EntryTrace.Generate.Module
import EntryTrace.Tagging.Check
import EntryTrace.Proofs.Announcements
import EntryTrace.Proofs.CutShort
import EntryTrace.Proofs.PresentedText
import EntryTrace.Proofs.TaggedText
import EntryTrace.Proofs.TotalReading
import EntryTrace.Proofs.TypedRuns
import EntryTrace.Proofs.Chronicles
import EntryTrace.Proofs.Nesting
import EntryTrace.Proofs.Failures
import EntryTrace.Proofs.RenumberedRuns
import EntryTrace.Proofs.TaggedFiles
import EntryTrace.Proofs.CheckedTags
import EntryTrace.Proofs.DrawnBodies
import EntryTrace.Proofs.DrawnModules
import EntryTrace.Proofs.Registrations
import EntryTrace.Proofs.FailedLoads
import EntryTrace.Proofs.TextualOrder
import EntryTrace.Proofs.RenamedModules
import EntryTrace.Proofs.CheckedRuns
import EntryTrace.Proofs.OptimizedFiles
import EntryTrace.Proofs.PrintedRuns
import EntryTrace.Proofs.BuiltEdges
import EntryTrace.Proofs.JournaledRuns
import EntryTrace.Proofs.CheckedFronts
import EntryTrace.Proofs.ServedRequests
import EntryTrace.Proofs.LiteralValues
import EntryTrace.Proofs.LineNumbers
import EntryTrace.Proofs.Layouts
import EntryTrace.Proofs.ParallelMoves
import EntryTrace.Proofs.EvaluatedOperators
