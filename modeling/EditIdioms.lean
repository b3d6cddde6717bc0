import EditIdioms.Broadcast.Basic
import EditIdioms.Broadcast.Sink
import EditIdioms.Broadcast.Worker
import EditIdioms.Code.Kind
import EditIdioms.Code.Literal
import EditIdioms.Code.NullGuard
import EditIdioms.Code.Operator
import EditIdioms.Code.Search
import EditIdioms.Code.Site
import EditIdioms.Code.Tree
import EditIdioms.Code.Validation
import EditIdioms.Command.Arguments
import EditIdioms.Command.Basic
import EditIdioms.Dataset
import EditIdioms.Detector.Basic
import EditIdioms.Detector.Insertions
import EditIdioms.Detector.Replacements
import EditIdioms.Detector.Standard
import EditIdioms.Diff.Edit
import EditIdioms.Diff.FileDiff
import EditIdioms.Document.Reading
import EditIdioms.Document.Writing
import EditIdioms.Files.Change
import EditIdioms.Files.Entry
import EditIdioms.Files.Path
import EditIdioms.Files.Store
import EditIdioms.Json.Number
import EditIdioms.Json.Reader
import EditIdioms.Json.Shape
import EditIdioms.Json.Skip
import EditIdioms.Json.Text
import EditIdioms.Json.Value
import EditIdioms.Main
import EditIdioms.Mining
import EditIdioms.Numeric.Binary
import EditIdioms.Numeric.Integer
import EditIdioms.Numeric.Layout
import EditIdioms.Numeric.Shortest
import EditIdioms.Numeric.Word
import EditIdioms.Packed.Bits
import EditIdioms.Packed.Block
import EditIdioms.Packed.Checksum
import EditIdioms.Packed.Fault
import EditIdioms.Packed.Frame
import EditIdioms.Packed.Header
import EditIdioms.Packed.Literals
import EditIdioms.Packed.PrefixCode
import EditIdioms.Packed.Sequences
import EditIdioms.Packed.StateTable
import EditIdioms.Packed.Stream
import EditIdioms.RecordLog.Bytes
import EditIdioms.RecordLog.Format
import EditIdioms.RecordLog.Reading
import EditIdioms.RecordLog.Writer
import EditIdioms.Refinement
import EditIdioms.Rule
import EditIdioms.Run
import EditIdioms.Settings
import EditIdioms.Tables
import EditIdioms.Text.Bytes
import EditIdioms.Text.CaseTables
import EditIdioms.Text.LowerCase
import EditIdioms.Text.Order
import EditIdioms.Text.Printable
import EditIdioms.Text.Quoted
import EditIdioms.Proofs.Broadcast.Observed
import EditIdioms.Proofs.Broadcast.Closing
import EditIdioms.Proofs.Broadcast.Session
import EditIdioms.Proofs.Code.Forest
import EditIdioms.Proofs.Code.Navigation
import EditIdioms.Proofs.Code.Scope
import EditIdioms.Proofs.Mining.Loss
import EditIdioms.Proofs.Mining.Blame
import EditIdioms.Proofs.RecordLog.Reads
import EditIdioms.Proofs.RecordLog.Records
import EditIdioms.Proofs.RecordLog.Listing
import EditIdioms.Proofs.Packed.Stored
import EditIdioms.Proofs.Files.Pieces
import EditIdioms.Proofs.Files.Places
import EditIdioms.Proofs.Files.Operations
import EditIdioms.Proofs.Broadcast.Filled
import EditIdioms.Proofs.RecordLog.RoundTrip
import EditIdioms.Proofs.Broadcast.World
import EditIdioms.Proofs.Tables
import EditIdioms.Proofs.Mining.Artifacts
import EditIdioms.Proofs.Detector.Chain
import EditIdioms.Proofs.Detector.Guard
import EditIdioms.Proofs.Detector.InsertedIf
import EditIdioms.Proofs.Detector.Attribution
import EditIdioms.Proofs.Command.Arguments
import EditIdioms.Proofs.Command.Dump
import EditIdioms.Proofs.Code.Renumbering
import EditIdioms.Proofs.Detector.Slots
import EditIdioms.Proofs.Code.Acyclic
import EditIdioms.Proofs.Detector.Renumbering
import EditIdioms.Proofs.Code.Loops
import EditIdioms.Proofs.Detector.Unchecked
import EditIdioms.Proofs.Tiers
import EditIdioms.Proofs.Mining.Stream
import EditIdioms.Proofs.Tally
import EditIdioms.Proofs.Mining.Specialization
import EditIdioms.Proofs.Ranking
import EditIdioms.Proofs.Lists
import EditIdioms.Proofs.Dataset.Loading
import EditIdioms.Proofs.Dataset.Removal
import EditIdioms.Proofs.Mining.Inert
import EditIdioms.Proofs.Json.Grammar
import EditIdioms.Proofs.Json.Tokens
import EditIdioms.Proofs.Json.Integers
import EditIdioms.Proofs.Json.Skipping
import EditIdioms.Proofs.Json.Shapes
import EditIdioms.Proofs.Files.Walk
import EditIdioms.Proofs.Files.Removal
import EditIdioms.Proofs.Text.Order
import EditIdioms.Proofs.Document.Rendering
import EditIdioms.Proofs.Dataset.Rendering
import EditIdioms.Proofs.Code.Defects
import EditIdioms.Proofs.Code.Growth
import EditIdioms.Proofs.Code.Structure
import EditIdioms.Proofs.Files.Components
import EditIdioms.Proofs.Files.Reordering
import EditIdioms.Proofs.Dataset.Crawling
import EditIdioms.Proofs.Code.Traversal
import EditIdioms.Proofs.Detector.Priority
import EditIdioms.Proofs.Refiners
import EditIdioms.Proofs.Json.Cutting
import EditIdioms.Proofs.Json.CutShapes
import EditIdioms.Proofs.Document.Cutting
import EditIdioms.Proofs.Dataset.Cutting
import EditIdioms.Proofs.Code.Searching
import EditIdioms.Proofs.Mining.Constants
import EditIdioms.Proofs.Json.Objects
import EditIdioms.Proofs.Document.Settings
import EditIdioms.Proofs.Command.Layering
import EditIdioms.Proofs.Files.Making
import EditIdioms.Proofs.Command.EarlyFailure
import EditIdioms.Proofs.Code.Positions
import EditIdioms.Proofs.Detector.Positions
