import DocQuery.Assoc
import DocQuery.CommandLine.Arguments
import DocQuery.CommandLine.Command
import DocQuery.CommandLine.Program
import DocQuery.Config.Basic
import DocQuery.Config.Toml
import DocQuery.Descriptor.Basic
import DocQuery.Descriptor.Clause
import DocQuery.Descriptor.Condition
import DocQuery.Descriptor.Count
import DocQuery.Descriptor.Join
import DocQuery.Descriptor.Reader
import DocQuery.Descriptor.Sort
import DocQuery.Driftsort.Basic
import DocQuery.Driftsort.Merge
import DocQuery.Driftsort.Runs
import DocQuery.Driftsort.SmallSort
import DocQuery.Error
import DocQuery.Json.Printer
import DocQuery.Json.Reader
import DocQuery.Json.Token
import DocQuery.Main
import DocQuery.Number.Basic
import DocQuery.Number.Double
import DocQuery.Number.Shortest
import DocQuery.Number.Text
import DocQuery.Pattern.Basic
import DocQuery.Pattern.Library
import DocQuery.Pattern.Like
import DocQuery.Pattern.Search
import DocQuery.Pattern.Size
import DocQuery.Plan.Basic
import DocQuery.Plan.Compile
import DocQuery.Plan.Expr
import DocQuery.Plan.Json
import DocQuery.Plan.Text
import DocQuery.Report
import DocQuery.Rows.Evaluation
import DocQuery.Rows.Execution
import DocQuery.Store.Action
import DocQuery.Store.Basic
import DocQuery.Store.Connection
import DocQuery.Store.DocumentId
import DocQuery.Store.Error
import DocQuery.Store.Name
import DocQuery.Store.Operation
import DocQuery.Store.Table
import DocQuery.Text.Blank
import DocQuery.Text.Hex
import DocQuery.Text.Quoted
import DocQuery.Text.Unprintable
import DocQuery.Toml.Basic
import DocQuery.Toml.Quoted
import DocQuery.Toml.Reader
import DocQuery.Toml.Scalar
import DocQuery.Value.Basic
import DocQuery.Value.Order
import DocQuery.Proofs.Connectives
import DocQuery.Proofs.WrittenPatterns
import DocQuery.Proofs.ClauseMeaning
import DocQuery.Proofs.StableSort
import DocQuery.Proofs.StableMerges
import DocQuery.Proofs.SmallSort
import DocQuery.Proofs.RunSort
import DocQuery.Proofs.SortedImages
import DocQuery.Proofs.Driftsort
import DocQuery.Proofs.ValueOrder
import DocQuery.Proofs.Execution
import DocQuery.Proofs.Stages
import DocQuery.Proofs.KeyLookup
import DocQuery.Proofs.Joins
import DocQuery.Proofs.WrittenClause
import DocQuery.Proofs.WrittenParts
import DocQuery.Proofs.WrittenStages
import DocQuery.Proofs.Answers
import DocQuery.Proofs.Actions
import DocQuery.Proofs.FailedOperations
import DocQuery.Proofs.Selection
import DocQuery.Proofs.ValueEquality
import DocQuery.Proofs.Patching
import DocQuery.Proofs.Writes
import DocQuery.Proofs.KeyedTables
import DocQuery.Proofs.StoredDocuments
import DocQuery.Proofs.UniqueKeys
import DocQuery.Proofs.WritesByKey
import DocQuery.Proofs.Paging
import DocQuery.Proofs.TableNames
import DocQuery.Proofs.Faults
import DocQuery.Proofs.WrittenGrammar
import DocQuery.Proofs.ClosedConnections
import DocQuery.Proofs.FaultKinds
import DocQuery.Proofs.Insertion
import DocQuery.Proofs.Delimited
import DocQuery.Proofs.ShortestDecimal
import DocQuery.Proofs.NumberText
import DocQuery.Proofs.QuotedText
import DocQuery.Proofs.ValueText
import DocQuery.Proofs.ExprText
import DocQuery.Proofs.PlanText
import DocQuery.Proofs.NumberRounding
import DocQuery.Proofs.SortTransitivity
import DocQuery.Proofs.MultiKeySorting
import DocQuery.Proofs.TablesRead
import DocQuery.Proofs.OneTable
import DocQuery.Proofs.Interleavings
import DocQuery.Proofs.FilteredSorting
import DocQuery.Proofs.JoinFields
import DocQuery.Proofs.WildcardMatching
import DocQuery.Proofs.LiteralEnds
import DocQuery.Proofs.RunsAtEnds
import DocQuery.Proofs.Blanks
import DocQuery.Proofs.CountReading
import DocQuery.Proofs.SortForms
import DocQuery.Proofs.BatchInsertion
import DocQuery.Proofs.ConditionSpellings
import DocQuery.Proofs.UnreadTables
import DocQuery.Proofs.TableReport
import DocQuery.Proofs.RearrangedFields
import DocQuery.Proofs.OrderAndEquality
import DocQuery.Proofs.CollapsedGroups
