import Interlock.Command.Basic
import Interlock.Command.Grammar
import Interlock.Command.Run
import Interlock.Command.Scan
import Interlock.Command.Value
import Interlock.Data.Json.Number
import Interlock.Data.Json.Printer
import Interlock.Data.Json.Reader
import Interlock.Data.Json.Token
import Interlock.Data.Record
import Interlock.Data.Toml.Document
import Interlock.Data.Toml.Lexeme
import Interlock.Data.Toml.Reader
import Interlock.Data.Toml.Scalar
import Interlock.Data.Value
import Interlock.Digest.Md5
import Interlock.Duration
import Interlock.Files.Collect
import Interlock.Files.Glob
import Interlock.Files.Ignore
import Interlock.Files.Source
import Interlock.Files.Tree
import Interlock.Finding.Run
import Interlock.Finding.Severity
import Interlock.Finding.Summary
import Interlock.Flow.Basic
import Interlock.Flow.Expression
import Interlock.Flow.Scope
import Interlock.Flow.Statement
import Interlock.Graph.Circuit
import Interlock.Graph.Reach
import Interlock.Lock.Held
import Interlock.Lock.Pattern
import Interlock.Lock.Vocabulary
import Interlock.LockOrder.Analysis
import Interlock.LockOrder.Graph
import Interlock.Main
import Interlock.Number.Binary64
import Interlock.Number.Decimal
import Interlock.Number.Fixed
import Interlock.Number.Shortest
import Interlock.Path.Basic
import Interlock.Path.Name
import Interlock.Proofs.Command.Account
import Interlock.Proofs.Command.Threshold
import Interlock.Proofs.Data.Json.Reading
import Interlock.Proofs.Data.Json.Tokens
import Interlock.Proofs.Data.Record
import Interlock.Proofs.Finding.Across
import Interlock.Proofs.Finding.Isolation
import Interlock.Proofs.Flow.Accesses
import Interlock.Proofs.Flow.Agreement
import Interlock.Proofs.Flow.Coverage
import Interlock.Proofs.Flow.Definitions
import Interlock.Proofs.Flow.Execution
import Interlock.Proofs.Flow.History
import Interlock.Proofs.Flow.Join
import Interlock.Proofs.Flow.Junction
import Interlock.Proofs.Flow.Lambda
import Interlock.Proofs.Flow.Lexical
import Interlock.Proofs.Flow.LexicalHolds
import Interlock.Proofs.Flow.Makings
import Interlock.Proofs.Flow.Modes
import Interlock.Proofs.Flow.MustHold
import Interlock.Proofs.Flow.Naming
import Interlock.Proofs.Flow.Origin
import Interlock.Proofs.Flow.Places
import Interlock.Proofs.Flow.Reached
import Interlock.Proofs.Flow.Region
import Interlock.Proofs.Flow.Statement
import Interlock.Proofs.Flow.Taken
import Interlock.Proofs.Flow.Uses
import Interlock.Proofs.Graph.Circuits
import Interlock.Proofs.Graph.Companions
import Interlock.Proofs.Graph.Component
import Interlock.Proofs.Graph.Enumeration
import Interlock.Proofs.Graph.Moments
import Interlock.Proofs.Graph.Reach
import Interlock.Proofs.Graph.Release
import Interlock.Proofs.Graph.Search
import Interlock.Proofs.Lock.Held
import Interlock.Proofs.Lock.Pattern
import Interlock.Proofs.LockOrder.Construction
import Interlock.Proofs.LockOrder.Cover
import Interlock.Proofs.LockOrder.Cycles
import Interlock.Proofs.LockOrder.Edges
import Interlock.Proofs.LockOrder.Graph
import Interlock.Proofs.LockOrder.Nesting
import Interlock.Proofs.LockOrder.Permutation
import Interlock.Proofs.LockOrder.Sites
import Interlock.Proofs.Path.Order
import Interlock.Proofs.Race.Advice
import Interlock.Proofs.Race.Fields
import Interlock.Proofs.Race.Guarded
import Interlock.Proofs.Race.Markers
import Interlock.Proofs.Race.Report
import Interlock.Proofs.Race.Table
import Interlock.Proofs.Race.Tracking
import Interlock.Proofs.Race.Units
import Interlock.Proofs.Report.RoundTrip
import Interlock.Proofs.Stress.Interleaving
import Interlock.Proofs.Stress.Reports
import Interlock.Proofs.Stress.Targets
import Interlock.Proofs.Stress.Updates
import Interlock.Proofs.Stress.Verdict
import Interlock.Proofs.Syntax.Build
import Interlock.Proofs.Syntax.Flaws
import Interlock.Proofs.Syntax.Nesting
import Interlock.Proofs.Syntax.Roles
import Interlock.Proofs.Text.Bytes
import Interlock.Proofs.Text.Dotted
import Interlock.Proofs.Text.Folding
import Interlock.Race.Analysis
import Interlock.Race.Protection
import Interlock.Race.State
import Interlock.Race.Table
import Interlock.Report.Basic
import Interlock.Report.Decode
import Interlock.Report.Encode
import Interlock.Report.Render
import Interlock.Report.Text
import Interlock.Routine
import Interlock.Settings.Basic
import Interlock.Settings.Decode
import Interlock.Settings.Load
import Interlock.Settings.Sample
import Interlock.Stress.Program
import Interlock.Stress.Target
import Interlock.Stress.Tester
import Interlock.Stress.Timeline
import Interlock.Stress.Verdict
import Interlock.Stress.World
import Interlock.Syntax.Kind
import Interlock.Syntax.Node
import Interlock.Syntax.Outline
import Interlock.Syntax.Unit
import Interlock.Text.Basic
import Interlock.Text.Digit
import Interlock.Text.Dotted
import Interlock.Text.Fold
import Interlock.Text.Lower
import Interlock.Text.Quoted
