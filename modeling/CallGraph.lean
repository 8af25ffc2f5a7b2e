import CallGraph.Json.Grammar
import CallGraph.Main
import CallGraph.Sink.Guarded
import CallGraph.Store.Statements
import CallGraph.Proofs.Pipeline.Feed
import CallGraph.Proofs.Pipeline.Run
import CallGraph.Proofs.Disk.Extends
import CallGraph.Proofs.Disk.Writing
import CallGraph.Proofs.Export.Documents
import CallGraph.Proofs.Pipeline.Course
import CallGraph.Proofs.Disk.Folders
import CallGraph.Proofs.Sink.Opening
import CallGraph.Proofs.Store.Rows
import CallGraph.Proofs.Store.Graph
import CallGraph.Proofs.Store.Requests
import CallGraph.Proofs.Store.Operations
import CallGraph.Proofs.Text.ByteOrder
import CallGraph.Proofs.Store.Classes
import CallGraph.Proofs.Sink.Store
import CallGraph.Proofs.Sink.Agreement
import CallGraph.Proofs.Yield
import CallGraph.Proofs.Capture.Lines
import CallGraph.Proofs.Capture.Batch
import CallGraph.Proofs.Json.Reading
import CallGraph.Proofs.Capture.Records
import CallGraph.Proofs.Capture.Layout
import CallGraph.Proofs.Export.Opening
import CallGraph.Proofs.Store.Filed
import CallGraph.Proofs.Export.Database
import CallGraph.Proofs.Export.Replay
import CallGraph.Proofs.Progress
import CallGraph.Proofs.Store.Order
import CallGraph.Proofs.Sink.Requests
import CallGraph.Proofs.Remote.Exchange
import CallGraph.Proofs.Remote.Transactions
import CallGraph.Proofs.Deciles
import CallGraph.Proofs.Json.Spelling
import CallGraph.Proofs.Json.Form
import CallGraph.Proofs.Json.Outline
import CallGraph.Proofs.Json.Record
import CallGraph.Proofs.Json.Order
import CallGraph.Proofs.Method.Written
import CallGraph.Proofs.Edge.Written
import CallGraph.Proofs.Capture.Endpoints
import CallGraph.Proofs.Edge.Retraction
import CallGraph.Proofs.Method.Package
import CallGraph.Proofs.Capture.Agreement
import CallGraph.Proofs.Capture.Classes
import CallGraph.Proofs.Analyzer.Arguments
import CallGraph.Proofs.Filter
import CallGraph.Proofs.Sink.Frozen
import CallGraph.Proofs.Analyzer.Discovery
