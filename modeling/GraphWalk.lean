import GraphWalk.Main
import GraphWalk.Walk.Pipe.Extra
import GraphWalk.Proofs.Line
import GraphWalk.Proofs.Line.Drain
import GraphWalk.Proofs.Line.Run
import GraphWalk.Proofs.Roles
import GraphWalk.Proofs.Line.Batches
import GraphWalk.Proofs.Query
import GraphWalk.Proofs.DepthFirst
import GraphWalk.Proofs.Line.Resume
import GraphWalk.Proofs.Line.Chunks
import GraphWalk.Proofs.Takes
import GraphWalk.Proofs.Reading
import GraphWalk.Proofs.Owned
import GraphWalk.Proofs.Sharing
import GraphWalk.Proofs.Handover
import GraphWalk.Proofs.Graph.Counter
import GraphWalk.Proofs.Graph.Sound
import GraphWalk.Proofs.Graph.Built
import GraphWalk.Proofs.Graph.Flat
import GraphWalk.Proofs.Graph.Reload
import GraphWalk.Proofs.Json.Number
import GraphWalk.Proofs.Json.Quoted
import GraphWalk.Proofs.Json.Value
import GraphWalk.Proofs.Json.Spelling
import GraphWalk.Proofs.Json.Document
import GraphWalk.Proofs.Graph.Text
import GraphWalk.Proofs.Termination
import GraphWalk.Proofs.Alias
import GraphWalk.Proofs.Line.Dry
import GraphWalk.Proofs.Exhaustion
import GraphWalk.Proofs.Json.Float
import GraphWalk.Proofs.Json.Reading
import GraphWalk.Proofs.Graph.Stored
import GraphWalk.Proofs.Writing
import GraphWalk.Proofs.Float.Finite
import GraphWalk.Proofs.Machine.Gated
import GraphWalk.Proofs.Machine.Abreast
import GraphWalk.Proofs.Laziness
import GraphWalk.Store.Backend
import GraphWalk.Proofs.Store.Order
import GraphWalk.Proofs.Store.Backend
import GraphWalk.Proofs.Graph.Series
import GraphWalk.Proofs.Cli.Stores
import GraphWalk.Proofs.Line.Free
import GraphWalk.Proofs.Walks
import GraphWalk.Proofs.Graph.Renumbering
import GraphWalk.Proofs.Reordering
import GraphWalk.Proofs.Converse
import GraphWalk.Proofs.Graph.Fresh
import GraphWalk.Proofs.Graph.Kept
import GraphWalk.Proofs.Except
import GraphWalk.Proofs.Json.Depth
import GraphWalk.Proofs.Script.Split
import GraphWalk.Proofs.Script.Slices
import GraphWalk.Proofs.Text.Blank
import GraphWalk.Proofs.Script.Segment
import GraphWalk.Proofs.Script.Grammar
import GraphWalk.Proofs.Sources
import GraphWalk.Proofs.Padding
import GraphWalk.Proofs.Line.Trailing
import GraphWalk.Proofs.Trailing
import GraphWalk.Proofs.Selecting
import GraphWalk.Proofs.Unnumbered
import GraphWalk.Proofs.Interchange
import GraphWalk.Proofs.EdgeFilters
import GraphWalk.Proofs.Passes
import GraphWalk.Proofs.Cli.Words
import GraphWalk.Proofs.Decimal.Integer
import GraphWalk.Proofs.Graph.Id
import GraphWalk.Proofs.Cli.Listing
import GraphWalk.Proofs.Cli.Report
