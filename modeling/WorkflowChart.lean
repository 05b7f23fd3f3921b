import WorkflowChart.BuildError
import WorkflowChart.Category
import WorkflowChart.Chart.Compile
import WorkflowChart.Chart.Line
import WorkflowChart.Chart.Node
import WorkflowChart.Chart.Options
import WorkflowChart.Decimal.Shortest
import WorkflowChart.Definition.Basic
import WorkflowChart.Definition.Builder
import WorkflowChart.Definition.Decode
import WorkflowChart.Definition.Encode
import WorkflowChart.Definition.Equality
import WorkflowChart.Definition.References
import WorkflowChart.Description
import WorkflowChart.Details
import WorkflowChart.Entries
import WorkflowChart.History.Basic
import WorkflowChart.History.Details
import WorkflowChart.History.Index
import WorkflowChart.Instant.Basic
import WorkflowChart.Instant.Calendar
import WorkflowChart.Instant.Rfc3339
import WorkflowChart.Json.Basic
import WorkflowChart.Json.DecodeError
import WorkflowChart.Json.Decoder
import WorkflowChart.Json.Draft
import WorkflowChart.Json.Encode
import WorkflowChart.Json.Numeral
import WorkflowChart.Json.Printer
import WorkflowChart.Json.Quotation
import WorkflowChart.Json.Reader
import WorkflowChart.Json.Record
import WorkflowChart.Log.Basic
import WorkflowChart.Log.Builder
import WorkflowChart.Log.Decode
import WorkflowChart.Log.Encode
import WorkflowChart.Log.EventType
import WorkflowChart.Status
import WorkflowChart.Text.Blank
import WorkflowChart.Text.Quoted
import WorkflowChart.Text.Unprintable
import WorkflowChart.Proofs.Chart.Blocks
import WorkflowChart.Proofs.Chart.Census
import WorkflowChart.Proofs.Chart.Coloring
import WorkflowChart.Proofs.Chart.ControlFlow
import WorkflowChart.Proofs.Chart.Directives
import WorkflowChart.Proofs.Chart.DrawOrder
import WorkflowChart.Proofs.Chart.Edges
import WorkflowChart.Proofs.Chart.Frames
import WorkflowChart.Proofs.Chart.LineForms
import WorkflowChart.Proofs.Chart.Lines
import WorkflowChart.Proofs.Chart.NodeIds
import WorkflowChart.Proofs.Chart.Outcome
import WorkflowChart.Proofs.Chart.Outline
import WorkflowChart.Proofs.Chart.Registered
import WorkflowChart.Proofs.Chart.Renumbering
import WorkflowChart.Proofs.Chart.Skeleton
import WorkflowChart.Proofs.Chart.TextLines
import WorkflowChart.Proofs.Definition.Dangling
import WorkflowChart.Proofs.Definition.Graphs
import WorkflowChart.Proofs.Definition.Induction
import WorkflowChart.Proofs.Definition.OrderedStates
import WorkflowChart.Proofs.Definition.Origins
import WorkflowChart.Proofs.Definition.Paths
import WorkflowChart.Proofs.Definition.RoundTrip
import WorkflowChart.Proofs.Definition.Targets
import WorkflowChart.Proofs.History.BothWays
import WorkflowChart.Proofs.History.Crediting
import WorkflowChart.Proofs.History.CutOff
import WorkflowChart.Proofs.History.Interleaving
import WorkflowChart.Proofs.History.LastWord
import WorkflowChart.Proofs.History.LeftOver
import WorkflowChart.Proofs.History.Lookups
import WorkflowChart.Proofs.History.NestedRuns
import WorkflowChart.Proofs.History.RenamedIds
import WorkflowChart.Proofs.History.ReportedExit
import WorkflowChart.Proofs.History.Resolving
import WorkflowChart.Proofs.History.Scan
import WorkflowChart.Proofs.History.Visits
import WorkflowChart.Proofs.History.Walks
import WorkflowChart.Proofs.History.WholeChain
import WorkflowChart.Proofs.Instant.Calendar
import WorkflowChart.Proofs.Instant.Timestamps
import WorkflowChart.Proofs.Json.Canonical
import WorkflowChart.Proofs.Json.Numbers
import WorkflowChart.Proofs.Json.Records
import WorkflowChart.Proofs.Json.Written
import WorkflowChart.Proofs.Log.Calls
import WorkflowChart.Proofs.Log.Numbering
import WorkflowChart.Proofs.Log.Origins
import WorkflowChart.Proofs.Log.Recording
import WorkflowChart.Proofs.Log.RoundTrip
import WorkflowChart.Proofs.Log.Runs
import WorkflowChart.Proofs.Log.Tags
import WorkflowChart.Proofs.Results
import WorkflowChart.Proofs.Text.Digits
import WorkflowChart.Proofs.History.Sources
import WorkflowChart.Proofs.History.FirstFailure
import WorkflowChart.Proofs.History.Faults
import WorkflowChart.Proofs.Chart.HandedOut
import WorkflowChart.Proofs.Json.Grammar
import WorkflowChart.Proofs.Json.Accepted
