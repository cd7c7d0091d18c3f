import FlowGraph.FileSystem
import FlowGraph.Main
import FlowGraph.Text.Basic
import FlowGraph.Text.Utf8
import FlowGraph.Text.Quoted
import FlowGraph.Listing.Read
import FlowGraph.Dot.Document
import FlowGraph.Dot.Operation
import FlowGraph.Method.Outline
import FlowGraph.Proofs.Dot.Bare
import FlowGraph.Proofs.Dot.Drawing
import FlowGraph.Proofs.Dot.Sentence
import FlowGraph.Proofs.Dot.Nesting
import FlowGraph.Proofs.Dot.Coverage
import FlowGraph.Proofs.Dot.Reading
import FlowGraph.Proofs.Dot.DocumentRows
import FlowGraph.Proofs.Listing.Grammar
import FlowGraph.Proofs.Listing.Phrase
import FlowGraph.Proofs.Listing.Run
import FlowGraph.Proofs.Listing.Replay
import FlowGraph.Proofs.Listing.Allowed
import FlowGraph.Proofs.Listing.Match
import FlowGraph.Proofs.Listing.Acceptance
import FlowGraph.Proofs.Listing.Loading
import FlowGraph.Proofs.Method.WellFormed
import FlowGraph.Proofs.Listing.WellFormed
import FlowGraph.Proofs.Dot.Agreement
import FlowGraph.Proofs.Dot.Clusters
import FlowGraph.Proofs.Listing.Layout
import FlowGraph.Proofs.Listing.Quote
import FlowGraph.Proofs.Listing.Print
import FlowGraph.Proofs.Listing.RoundTrip
import FlowGraph.Proofs.Dot.Heading
import FlowGraph.Proofs.Dot.FlatGraph
import FlowGraph.Proofs.Listing.FirstBreach
import FlowGraph.Proofs.Listing.Failure
import FlowGraph.Proofs.Dot.OutputPath
import FlowGraph.Proofs.Export.Written
import FlowGraph.Proofs.CommandLine.Kept
import FlowGraph.Proofs.CommandLine.Breaks
import FlowGraph.Proofs.CommandLine.Accounts
import FlowGraph.Proofs.Export.Order
import FlowGraph.Proofs.CommandLine.Again
import FlowGraph.Proofs.Listing.Spacing
import FlowGraph.Proofs.Dot.Decoding
import FlowGraph.Proofs.Dot.Naming
import FlowGraph.Proofs.Listing.Outlines
import FlowGraph.Proofs.Dot.Operations
import FlowGraph.Proofs.Dot.LabelLines
import FlowGraph.Proofs.Listing.ItemOrder
import FlowGraph.Proofs.Listing.Joined
import FlowGraph.Proofs.Dot.FileNames
import FlowGraph.Proofs.Listing.StringPieces
import FlowGraph.Proofs.Method.RegionGraph
import FlowGraph.Proofs.Dot.Traversal
import FlowGraph.Proofs.Method.Sections
import FlowGraph.Proofs.Dot.OutlineFlow
