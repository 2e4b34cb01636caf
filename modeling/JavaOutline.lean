import JavaOutline.Decimal.Binary64
import JavaOutline.Decimal.Shortest
import JavaOutline.Entity.Basic
import JavaOutline.Entity.Json
import JavaOutline.Entity.Kind
import JavaOutline.Fault
import JavaOutline.Java.Declaration
import JavaOutline.Java.Expr
import JavaOutline.Java.Operator
import JavaOutline.Java.Render
import JavaOutline.Java.Stmt
import JavaOutline.Java.Word
import JavaOutline.Json.Basic
import JavaOutline.Json.Read
import JavaOutline.Json.Write
import JavaOutline.Log.Event
import JavaOutline.Log.Filter
import JavaOutline.Log.Level
import JavaOutline.Outline.Basic
import JavaOutline.Outline.Branch
import JavaOutline.Outline.Build
import JavaOutline.Outline.Method
import JavaOutline.Outline.Rejection
import JavaOutline.Outline.Walk
import JavaOutline.Proofs.Outline.Forest
import JavaOutline.Proofs.Outline.Graft
import JavaOutline.Proofs.Outline.Refinement
import JavaOutline.Proofs.Outline.Rollback
import JavaOutline.Proofs.Reading.Layout
import JavaOutline.Proofs.Reading.Methods
import JavaOutline.Proofs.Reading.Onward
import JavaOutline.Proofs.Reading.Reach
import JavaOutline.Proofs.Reading.Statements
import JavaOutline.Proofs.Token.Order
import JavaOutline.Reading.Cursor
import JavaOutline.Reading.Declaration
import JavaOutline.Reading.Expr
import JavaOutline.Reading.Operator
import JavaOutline.Reading.Skip
import JavaOutline.Reading.Stmt
import JavaOutline.Reading.TypeRef
import JavaOutline.Settings.Basic
import JavaOutline.Settings.Document
import JavaOutline.Source.Lines
import JavaOutline.Source.Offset
import JavaOutline.Source.Span
import JavaOutline.Source.Text
import JavaOutline.Text.Alphanumeric
import JavaOutline.Text.CodePoints
import JavaOutline.Text.Digits
import JavaOutline.Text.Identifier
import JavaOutline.Text.Printable
import JavaOutline.Text.Quoted
import JavaOutline.Text.WhiteSpace
import JavaOutline.Token.Basic
import JavaOutline.Token.Scan
import JavaOutline.Toml.Basic
import JavaOutline.Toml.Document
import JavaOutline.Toml.Scalar
import JavaOutline.Toml.Table
import JavaOutline.Proofs.Outline.Nesting
import JavaOutline.Proofs.Outline.Laminar
import JavaOutline.Proofs.Outline.Coverage
import JavaOutline.Proofs.Reading.Construct
import JavaOutline.Proofs.Reading.Placed
import JavaOutline.Proofs.Reading.PlacedStatements
import JavaOutline.Proofs.Reading.PlacedDeclarations
import JavaOutline.Proofs.Reading.Spans
import JavaOutline.Proofs.Token.Lexeme
import JavaOutline.Proofs.Java.Writable
import JavaOutline.Proofs.Reading.Lookahead
import JavaOutline.Proofs.Reading.Spelled
import JavaOutline.Proofs.Reading.Rendered
import JavaOutline.Proofs.Reading.RenderedOperations
import JavaOutline.Proofs.Reading.RoundTrip
import JavaOutline.Proofs.Java.Structured
import JavaOutline.Proofs.Reading.StructuredStatements
import JavaOutline.Proofs.Reading.StructuredBlocks
import JavaOutline.Proofs.Java.Relocation
import JavaOutline.Proofs.Reading.Progress
import JavaOutline.Proofs.Reading.Parallel
import JavaOutline.Proofs.Reading.ParallelTokens
import JavaOutline.Proofs.Reading.ParallelExprs
import JavaOutline.Proofs.Reading.ParallelStatements
import JavaOutline.Proofs.Reading.ParallelBlocks
import JavaOutline.Proofs.Reading.Offsets
import JavaOutline.Proofs.Reading.Bodies
import JavaOutline.Proofs.Java.Erasure
import JavaOutline.Proofs.Outline.Acceptance
import JavaOutline.Proofs.Outline.Redundancy
import JavaOutline.Proofs.Outline.Relaid
import JavaOutline.Proofs.Outline.Schema
import JavaOutline.Proofs.Token.Lossless
import JavaOutline.Proofs.Token.Respaced
import JavaOutline.Proofs.Source.Backing
import JavaOutline.Proofs.Outline.Links
import JavaOutline.Proofs.Reading.Citations
import JavaOutline.Proofs.Outline.Faithful
import JavaOutline.Proofs.Json.Spelling
import JavaOutline.Proofs.Outline.Export
import JavaOutline.Proofs.Reading.Advance
import JavaOutline.Proofs.Reading.Termination
import JavaOutline.Proofs.Java.Precedence
import JavaOutline.Proofs.Reading.OperatorChains
import JavaOutline.Proofs.Outline.Outlinable
import JavaOutline.Proofs.Reading.Patterns
import JavaOutline.Proofs.Outline.Preorder
import JavaOutline.Proofs.Reading.Types
import JavaOutline.Proofs.Token.Numeral
import JavaOutline.Proofs.Reading.ArrowLabels
import JavaOutline.Proofs.Json.Literals
import JavaOutline.Proofs.Json.Layout
import JavaOutline.Proofs.Json.Records
import JavaOutline.Proofs.Entity.RoundTrip
import JavaOutline.Proofs.Java.Lookup
import JavaOutline.Proofs.Source.Terminators
import JavaOutline.Proofs.Source.Positions
import JavaOutline.Proofs.Source.Extents
import JavaOutline.Proofs.Token.Continued
import JavaOutline.Proofs.Token.Characters
import JavaOutline.Proofs.Java.Fates
import JavaOutline.Proofs.Java.TypeTexts
import JavaOutline.Proofs.Java.Renderings
import JavaOutline.Proofs.Outline.ShownTokens
import JavaOutline.Proofs.Reading.Taken
import JavaOutline.Proofs.Reading.TypesTaken
import JavaOutline.Proofs.Reading.Accounts
import JavaOutline.Proofs.Reading.ExprReadings
import JavaOutline.Proofs.Reading.Heads
import JavaOutline.Proofs.Outline.KeptTokens
