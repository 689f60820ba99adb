import Reconcile.Main
import Reconcile.Ordered
import Reconcile.Plan
import Reconcile.Proofs.BagEquality
import Reconcile.Proofs.BudgetedSort
import Reconcile.Proofs.CalendarDays
import Reconcile.Proofs.DecimalMagnitude
import Reconcile.Proofs.Diagnosis
import Reconcile.Proofs.DigitText
import Reconcile.Proofs.ExactMatching
import Reconcile.Proofs.FixtureItems
import Reconcile.Proofs.FixtureLines
import Reconcile.Proofs.FixtureRecords
import Reconcile.Proofs.FixtureValues
import Reconcile.Proofs.GroupedLists
import Reconcile.Proofs.KeyOrder
import Reconcile.Proofs.MemorySources
import Reconcile.Proofs.MergedRuns
import Reconcile.Proofs.MutualCoverage
import Reconcile.Proofs.NumberText
import Reconcile.Proofs.PathNames
import Reconcile.Proofs.QuotedText
import Reconcile.Proofs.ReadersInTurn
import Reconcile.Proofs.RemainingRecords
import Reconcile.Proofs.SavedRecords
import Reconcile.Proofs.SerializedRecords
import Reconcile.Proofs.SortedViews
import Reconcile.Proofs.StableOrder
import Reconcile.Proofs.StoreWrites
import Reconcile.Proofs.TimestampText
import Reconcile.Proofs.UuidText
import Reconcile.Proofs.ValueOrder
import Reconcile.Proofs.Verdict
import Reconcile.Proofs.ArrivalOrder
import Reconcile.Proofs.Distances
import Reconcile.Proofs.MirroredChecks
import Reconcile.Proofs.WiderTolerances
import Reconcile.Proofs.Initialization
import Reconcile.Proofs.FaithfulSorting
import Reconcile.Proofs.Contents
import Reconcile.Proofs.RepeatedChecks
import Reconcile.Proofs.ClosedHandles
import Reconcile.Proofs.PlanVerdict
import Reconcile.Proofs.ItemsInTurn
import Reconcile.Proofs.FileFeeds
import Reconcile.Proofs.KeptFixtures
import Reconcile.Proofs.UnreadableLines
import Reconcile.Proofs.ReadAhead
import Reconcile.Proofs.FailFast
import Reconcile.Proofs.ReorderedPlans
import Reconcile.Proofs.OrderedFeeds
import Reconcile.Proofs.FullKeys
import Reconcile.Proofs.SeenFields
import Reconcile.Proofs.Derivations
import Reconcile.Proofs.NearRecords
import Reconcile.Proofs.SmallestDeltas
import Reconcile.Proofs.ClosingProblems
import Reconcile.Spilling
import Reconcile.Proofs.SpilledChunks
import Reconcile.Proofs.SpilledRuns
import Reconcile.Proofs.SortedInSteps
import Reconcile.Proofs.SpillDirectories
import Reconcile.Proofs.LineByLine
import Reconcile.Proofs.ListPasses
import Reconcile.Proofs.RewrittenLines
import Reconcile.Proofs.HandleHistories
import Reconcile.Proofs.BoundedPreviews
import Reconcile.Generation.Batch
import Reconcile.Proofs.DrawnNumbers
import Reconcile.Proofs.GeneratedNulls
import Reconcile.Proofs.CoercedIntegers
import Reconcile.Proofs.GeneratedTimes
import Reconcile.Merging
import Reconcile.Proofs.FailingMerges
import Reconcile.Proofs.FixedGeneration
import Reconcile.Proofs.DrawnTexts
import Reconcile.Proofs.PatternReading
import Reconcile.Proofs.StreamSeeds
import Reconcile.Proofs.GeneratedFixtures
import Reconcile.Generation.Rewriting
import Reconcile.Proofs.TextRanges
import Reconcile.Proofs.Occurrences
import Reconcile.Proofs.RewritingLoops
