import RowPipeline.Aggregate.Call
import RowPipeline.Aggregate.Function
import RowPipeline.Aggregate.State
import RowPipeline.Bulk.ItemFault
import RowPipeline.Bulk.Request
import RowPipeline.Bulk.Summary
import RowPipeline.Bulk.Writer
import RowPipeline.Cluster.Admission
import RowPipeline.Cluster.Documents
import RowPipeline.Cluster.Fetch
import RowPipeline.Cluster.IndexCreation
import RowPipeline.Cluster.Local
import RowPipeline.Cluster.Simulation
import RowPipeline.CommandLine.Arguments
import RowPipeline.CommandLine.Run
import RowPipeline.Decimal.Shortest
import RowPipeline.Decimal.Text
import RowPipeline.Dictionary
import RowPipeline.Double.Arithmetic
import RowPipeline.Double.Basic
import RowPipeline.Double.Rounding
import RowPipeline.Error.Basic
import RowPipeline.Error.Fault
import RowPipeline.Export.Files
import RowPipeline.Export.Gzip
import RowPipeline.Export.Shape
import RowPipeline.Export.Target
import RowPipeline.Expression.Evaluation
import RowPipeline.Expression.Function
import RowPipeline.Expression.Symbol
import RowPipeline.Index.Address
import RowPipeline.Index.Partition
import RowPipeline.Job
import RowPipeline.Json.Basic
import RowPipeline.Json.Parser
import RowPipeline.Json.Printer
import RowPipeline.Json.Record
import RowPipeline.Log.Entry
import RowPipeline.Log.Event
import RowPipeline.Log.Severity
import RowPipeline.Main
import RowPipeline.Memory
import RowPipeline.Metrics
import RowPipeline.Plan.Compiler
import RowPipeline.Plan.Execution
import RowPipeline.Projection.Basic
import RowPipeline.Projection.Parser
import RowPipeline.Projection.Printer
import RowPipeline.Proofs.Turn
import RowPipeline.Proofs.ValueOrder
import RowPipeline.Row
import RowPipeline.Services
import RowPipeline.Settings
import RowPipeline.Shard
import RowPipeline.SortOrder
import RowPipeline.Stage.Basic
import RowPipeline.Stage.Chain
import RowPipeline.Stage.Counting
import RowPipeline.Stage.Exporting
import RowPipeline.Stage.Fetching
import RowPipeline.Stage.Grouping
import RowPipeline.Stage.IndexWriting
import RowPipeline.Stage.Receiver
import RowPipeline.Stage.Shaping
import RowPipeline.Stage.Sorting
import RowPipeline.Text.Codes
import RowPipeline.UniqueId
import RowPipeline.Value.Basic
import RowPipeline.Value.Fingerprint
import RowPipeline.Value.Order
import RowPipeline.Value.Text
import RowPipeline.Proofs.Protocol
import RowPipeline.Proofs.StageProtocol
import RowPipeline.Proofs.Calls
import RowPipeline.Proofs.ChainProtocol
import RowPipeline.Proofs.Delivery
import RowPipeline.Proofs.ListFunction
import RowPipeline.Proofs.StableSort
import RowPipeline.Proofs.StageMeaning
import RowPipeline.Proofs.SortMeaning
import RowPipeline.Proofs.PlanMeaning
import RowPipeline.Proofs.SortedSlice
import RowPipeline.Proofs.GroupMeaning
import RowPipeline.Proofs.PartialStates
import RowPipeline.Proofs.PartialRows
import RowPipeline.Proofs.TwoPhase
import RowPipeline.Proofs.DataErrors
import RowPipeline.Proofs.Accounts
import RowPipeline.Proofs.Waiting
import RowPipeline.Proofs.WriterSteps
import RowPipeline.Proofs.DrivenStages
import RowPipeline.Proofs.WriteHistory
import RowPipeline.Proofs.WrittenRows
import RowPipeline.Proofs.FetchBatches
import RowPipeline.Proofs.FetchedRows
import RowPipeline.Proofs.Imprints
import RowPipeline.Proofs.SoloWrites
import RowPipeline.Proofs.ForeseenWrites
import RowPipeline.Proofs.BatchedWrites
import RowPipeline.Proofs.Doubles
import RowPipeline.Proofs.Fingerprints
import RowPipeline.Proofs.SharedMemory
import RowPipeline.Proofs.GroupPartition
import RowPipeline.Proofs.Histories
import RowPipeline.Proofs.Slots
import RowPipeline.Proofs.Wakeups
import RowPipeline.Proofs.WriterCalls
import RowPipeline.Proofs.PostedRequests
import RowPipeline.Proofs.FullRequests
import RowPipeline.Proofs.HeldSlots
import RowPipeline.Proofs.MemoryBalance
import RowPipeline.Proofs.StageShares
import RowPipeline.Proofs.HeldMemory
import RowPipeline.Proofs.MemoryReturned
import RowPipeline.Proofs.AscendingKeys
import RowPipeline.Proofs.DocumentVersions
import RowPipeline.Proofs.CreationCalls
import RowPipeline.Proofs.RecordedRequests
import RowPipeline.Proofs.CreatedIndices
import RowPipeline.Proofs.FetchedOnce
import RowPipeline.Proofs.Base64Digits
import RowPipeline.Proofs.NearestDouble
import RowPipeline.Proofs.ShortestDecimal
import RowPipeline.Proofs.NumberTexts
import RowPipeline.Proofs.JsonTexts
import RowPipeline.Proofs.CellTexts
import RowPipeline.Proofs.PartitionNames
import RowPipeline.Proofs.NumberOrder
import RowPipeline.Proofs.ExactNumbers
import RowPipeline.Double.Order
import RowPipeline.Proofs.FailedItems
import RowPipeline.Proofs.WholeNumbers
import RowPipeline.Proofs.KeyTexts
import RowPipeline.Proofs.SharedDocuments
import RowPipeline.Proofs.KeptDocuments
import RowPipeline.Proofs.SymbolTexts
import RowPipeline.Proofs.PlanTexts
import RowPipeline.Proofs.SummaryRows
import RowPipeline.Proofs.ForeseenFaults
import RowPipeline.Proofs.JsonGrammar
import RowPipeline.Proofs.ExportedLines
import RowPipeline.Proofs.LogLines
import RowPipeline.Proofs.RowOrder
import RowPipeline.Proofs.MergedCounts
import RowPipeline.Proofs.PathNames
import RowPipeline.Proofs.ExportPaths
import RowPipeline.Proofs.LimitedMemory
