import ShapeAudit.Command.Basic
import ShapeAudit.Command.Find
import ShapeAudit.Command.Setup
import ShapeAudit.Command.Verify
import ShapeAudit.CommandLine.Argument
import ShapeAudit.CommandLine.Execute
import ShapeAudit.CommandLine.Request
import ShapeAudit.Comparison
import ShapeAudit.Config.Record
import ShapeAudit.Digest.Sha256
import ShapeAudit.Failure
import ShapeAudit.Files.Collect
import ShapeAudit.Files.Fault
import ShapeAudit.Files.Path
import ShapeAudit.Files.Storage
import ShapeAudit.Files.Tree
import ShapeAudit.Json.Basic
import ShapeAudit.Json.Decode
import ShapeAudit.Json.Number
import ShapeAudit.Json.Pointer
import ShapeAudit.Json.Reader
import ShapeAudit.Json.Writer
import ShapeAudit.Main
import ShapeAudit.Process.Escape
import ShapeAudit.Process.Machine
import ShapeAudit.Process.Pattern
import ShapeAudit.Process.Script
import ShapeAudit.Process.Shell
import ShapeAudit.Process.Utility
import ShapeAudit.Process.Word
import ShapeAudit.Response
import ShapeAudit.Search.Basic
import ShapeAudit.Search.Triggered
import ShapeAudit.Settings
import ShapeAudit.Shape.Divergence
import ShapeAudit.Shape.Kind
import ShapeAudit.Shape.Tree
import ShapeAudit.Source.Character
import ShapeAudit.Source.Cursor
import ShapeAudit.Source.Fault
import ShapeAudit.Source.Grammar.Basic
import ShapeAudit.Source.Grammar.Function
import ShapeAudit.Source.Grammar.Jsx
import ShapeAudit.Source.Grammar.Member
import ShapeAudit.Source.Grammar.Module
import ShapeAudit.Source.Grammar.Operand
import ShapeAudit.Source.Grammar.Operator
import ShapeAudit.Source.Grammar.Statement
import ShapeAudit.Source.Kind
import ShapeAudit.Source.Lexeme
import ShapeAudit.Source.Lookahead
import ShapeAudit.Source.Lowering
import ShapeAudit.Source.Parse
import ShapeAudit.Source.Pattern
import ShapeAudit.Source.Reading
import ShapeAudit.Source.Report.Basic
import ShapeAudit.Source.Report.Bracket
import ShapeAudit.Source.Report.End
import ShapeAudit.Source.Report.Next
import ShapeAudit.Source.Report.Operand
import ShapeAudit.Source.Report.Stray
import ShapeAudit.Source.Tree
import ShapeAudit.Summary
import ShapeAudit.Text
import ShapeAudit.Text.Count
import ShapeAudit.Transform.Basic
import ShapeAudit.Transform.Engine
import ShapeAudit.Transform.External
import ShapeAudit.Transform.Fault
import ShapeAudit.Transform.Memo
import ShapeAudit.Transform.Script
import ShapeAudit.Json.Order
import ShapeAudit.Proofs.Shape.Erasure
import ShapeAudit.Proofs.Config.Override
import ShapeAudit.Proofs.Search.Mask
import ShapeAudit.Proofs.Search.PowerSet
import ShapeAudit.Proofs.Comparison
import ShapeAudit.Proofs.Shape.Position
import ShapeAudit.Proofs.Shape.FirstDifference
import ShapeAudit.Proofs.Search.Strategies
import ShapeAudit.Proofs.Source.Entries
import ShapeAudit.Proofs.Source.Outline
import ShapeAudit.Proofs.Source.Freedom
import ShapeAudit.Proofs.Source.Context
import ShapeAudit.Proofs.Transform.Memo
import ShapeAudit.Proofs.Text.Octets
import ShapeAudit.Proofs.Json.Indent
import ShapeAudit.Proofs.Json.ReadBack
import ShapeAudit.Proofs.Summary
import ShapeAudit.Proofs.Search.Simulation
import ShapeAudit.Proofs.Files.Collect
import ShapeAudit.Proofs.Command.Find
import ShapeAudit.Proofs.Files.Tree
import ShapeAudit.Proofs.Files.Storage
import ShapeAudit.Proofs.SummaryClosing
import ShapeAudit.Proofs.Command.Progress
import ShapeAudit.Proofs.CommandLine.Find
import ShapeAudit.Proofs.Alignment
import ShapeAudit.Proofs.Json.Numeral
import ShapeAudit.Proofs.Json.Compact
import ShapeAudit.Proofs.Transform.Key
import ShapeAudit.Proofs.Json.Location
import ShapeAudit.Proofs.Search.Calls
import ShapeAudit.Proofs.Search.Exclusion
import ShapeAudit.Proofs.Shape.Kinds
import ShapeAudit.Proofs.Source.Manner
import ShapeAudit.Proofs.Source.Gates
import ShapeAudit.Proofs.Command.Verify
import ShapeAudit.Proofs.Json.Spread
import ShapeAudit.Proofs.Response
import ShapeAudit.Proofs.CommandLine.Exit
import ShapeAudit.Proofs.Source.Lookahead
import ShapeAudit.Proofs.Source.Placement.Reading
import ShapeAudit.Proofs.Source.Placement.Tree
import ShapeAudit.Proofs.Source.Placement.Expression
import ShapeAudit.Proofs.Source.Placement.Jsx
import ShapeAudit.Proofs.Source.Placement.Statement
import ShapeAudit.Proofs.Source.Placement.Program
import ShapeAudit.Proofs.Source.Prefixed
import ShapeAudit.Proofs.AlignmentFaults
import ShapeAudit.Proofs.Json.Exact
import ShapeAudit.Proofs.Config.Laws
import ShapeAudit.Proofs.Search.Cost
import ShapeAudit.Proofs.Command.Cost
import ShapeAudit.Proofs.SummaryFaults
import ShapeAudit.Proofs.Shape.WellFormed
import ShapeAudit.Proofs.Source.WellFormed
import ShapeAudit.Proofs.Source.Holes
import ShapeAudit.Proofs.CommandLine.Refusal
import ShapeAudit.Proofs.Source.Defaults
import ShapeAudit.Proofs.Shape.Exchange
import ShapeAudit.Proofs.Size
import ShapeAudit.Proofs.Source.Faults
import ShapeAudit.Proofs.Command.Compare
import ShapeAudit.Proofs.Source.Placement.Behind
import ShapeAudit.Proofs.AlignmentPlaces
import ShapeAudit.Proofs.Text.Pieces
import ShapeAudit.Proofs.Text.Count
import ShapeAudit.Proofs.Text.ByteOrder
import ShapeAudit.Proofs.Transform.Engine
import ShapeAudit.Proofs.Settings
import ShapeAudit.Proofs.Files.Path
import ShapeAudit.Proofs.Files.Below
import ShapeAudit.Proofs.Files.Expansion
import ShapeAudit.Proofs.Files.Trail
import ShapeAudit.Proofs.Files.Spelling
import ShapeAudit.Proofs.Files.Upkeep
import ShapeAudit.Proofs.Search.Results
import ShapeAudit.Proofs.Settings.Limits
import ShapeAudit.Proofs.Text.Replacement
import ShapeAudit.Proofs.Transform.Template
