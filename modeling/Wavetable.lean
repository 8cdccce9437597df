import Wavetable.Catalogue.Bundle
import Wavetable.Catalogue.Disk
import Wavetable.Catalogue.Entry
import Wavetable.Catalogue.History
import Wavetable.Catalogue.Packaged
import Wavetable.Catalogue.Query
import Wavetable.Catalogue.State
import Wavetable.Catalogue.Store
import Wavetable.Catalogue.Timestamp
import Wavetable.Catalogue.Uuid
import Wavetable.Catalogue.Version
import Wavetable.Digest.Blake2b
import Wavetable.Digest.Stable
import Wavetable.Editor
import Wavetable.Editor.History
import Wavetable.Formula.Builtin
import Wavetable.Formula.Compiled
import Wavetable.Formula.EvalError
import Wavetable.Formula.Evaluation
import Wavetable.Formula.Expr
import Wavetable.Formula.Function
import Wavetable.Formula.Machine
import Wavetable.Formula.Operator
import Wavetable.Formula.Parser
import Wavetable.Formula.Printer
import Wavetable.Formula.Scan
import Wavetable.Formula.SyntaxError
import Wavetable.Formula.Token
import Wavetable.Grid.Apply
import Wavetable.Grid.Basic
import Wavetable.Grid.Clamp
import Wavetable.Grid.Position
import Wavetable.Grid.Procedure
import Wavetable.Grid.Random
import Wavetable.Journal.Activity
import Wavetable.Journal.Basic
import Wavetable.Journal.Clock
import Wavetable.Journal.Fields
import Wavetable.Journal.Handler
import Wavetable.Journal.Layout
import Wavetable.Journal.Level
import Wavetable.Journal.Literal
import Wavetable.Journal.Note
import Wavetable.Journal.Record
import Wavetable.Journal.Template
import Wavetable.Journal.Work
import Wavetable.Json.Reader
import Wavetable.Json.Value
import Wavetable.Json.Writer
import Wavetable.Number.Decimal
import Wavetable.Number.Double
import Wavetable.Number.Layout
import Wavetable.Number.Rounding
import Wavetable.Number.Shortest
import Wavetable.Settings.Basic
import Wavetable.Settings.Load
import Wavetable.Settings.Numeric
import Wavetable.Settings.Path
import Wavetable.Text.Blank
import Wavetable.Text.Distinct
import Wavetable.Text.File
import Wavetable.Text.Half
import Wavetable.Text.Integer
import Wavetable.Text.Lines
import Wavetable.Text.LowerCase
import Wavetable.Text.Quoted
import Wavetable.Text.Ranges
import Wavetable.Proofs.Formula.Grammar
import Wavetable.Proofs.Formula.Soundness
import Wavetable.Proofs.Formula.Completeness
import Wavetable.Proofs.Formula.Parsing
import Wavetable.Proofs.Formula.Balance
import Wavetable.Proofs.Formula.Execution
import Wavetable.Proofs.Grid.Clamp
import Wavetable.Proofs.Attempt
import Wavetable.Proofs.Settings.Accepted
import Wavetable.Proofs.Grid.Pass
import Wavetable.Proofs.Grid.Atomic
import Wavetable.Proofs.Formula.Failures
import Wavetable.Proofs.Formula.Printing
import Wavetable.Proofs.Number.Unpacked
import Wavetable.Proofs.Number.Unsigned
import Wavetable.Proofs.Number.Positional
import Wavetable.Proofs.Number.Nearest
import Wavetable.Proofs.Number.Ratio
import Wavetable.Proofs.Number.Scientific
import Wavetable.Proofs.Number.Shortest
import Wavetable.Proofs.Number.ReadBack
import Wavetable.Proofs.Formula.Rendering
import Wavetable.Proofs.Formula.RoundTrip
import Wavetable.Proofs.Catalogue.Edits
import Wavetable.Proofs.Catalogue.Undo
import Wavetable.Proofs.Number.Digits
import Wavetable.Proofs.Text.Blank
import Wavetable.Proofs.Json.Strings
import Wavetable.Proofs.Json.RoundTrip
import Wavetable.Proofs.Catalogue.Identifiers
import Wavetable.Proofs.Catalogue.Calendar
import Wavetable.Proofs.Catalogue.Timestamps
import Wavetable.Proofs.Catalogue.StateText
import Wavetable.Proofs.Catalogue.Progress
import Wavetable.Proofs.Catalogue.Bundled
import Wavetable.Proofs.Catalogue.Consistency
import Wavetable.Proofs.Catalogue.Reopening
import Wavetable.Proofs.Formula.Dependence
import Wavetable.Proofs.Formula.Names
import Wavetable.Proofs.Formula.References
import Wavetable.Proofs.Grid.Strategies
import Wavetable.Proofs.Formula.Lexemes
import Wavetable.Proofs.Formula.Tokenization
import Wavetable.Proofs.Formula.Nesting
import Wavetable.Proofs.Editor.Texts
import Wavetable.Proofs.Grid.Containers
import Wavetable.Proofs.Formula.Lookahead
import Wavetable.Proofs.Number.Order
import Wavetable.Proofs.Formula.Prediction
import Wavetable.Proofs.Formula.Refusal
import Wavetable.Proofs.Grid.Bounds
import Wavetable.Proofs.Formula.Layout
import Wavetable.Proofs.Formula.Trimming
import Wavetable.Catalogue.Turns
import Wavetable.Proofs.Catalogue.Flags
import Wavetable.Proofs.Catalogue.Reloading
import Wavetable.Proofs.Catalogue.Loading
import Wavetable.Proofs.Catalogue.Recorded
import Wavetable.Catalogue.Reading
import Wavetable.Proofs.Catalogue.Listing
import Wavetable.Proofs.Json.Canonical
import Wavetable.Proofs.Catalogue.Numbering
import Wavetable.Proofs.Catalogue.Reading
import Wavetable.Proofs.Catalogue.Lookup
import Wavetable.Grid.Heap
import Wavetable.Proofs.Grid.Cancellation
import Wavetable.Proofs.Grid.Targets
import Wavetable.Proofs.Journal.Scopes
import Wavetable.Journal.Switching
import Wavetable.Proofs.Journal.Handlers
import Wavetable.Proofs.Number.Arithmetic
import Wavetable.Proofs.Grid.Random
import Wavetable.Proofs.Catalogue.Frames
import Wavetable.Proofs.Grid.Period
import Wavetable.Proofs.Number.Sums
import Wavetable.Proofs.Number.HalfAway
import Wavetable.Proofs.Number.Numerals
import Wavetable.Proofs.Json.Arrangement
import Wavetable.Proofs.Formula.Comparison
import Wavetable.Proofs.Number.Difference
import Wavetable.Proofs.Number.Next
import Wavetable.Proofs.Settings.Ceiling
import Wavetable.Proofs.Formula.Joining
import Wavetable.Proofs.Formula.Equality
import Wavetable.Proofs.Grid.Projection
import Wavetable.Proofs.Grid.Failures
import Wavetable.Proofs.Editor.Errors
import Wavetable.Proofs.Json.Members
import Wavetable.Proofs.Catalogue.Brackets
import Wavetable.Proofs.Catalogue.Categories
import Wavetable.Proofs.Settings.Layers
import Wavetable.Proofs.Settings.Limits
import Wavetable.Proofs.Grid.Usable
import Wavetable.Proofs.Text.LowerCase
import Wavetable.Proofs.Catalogue.Search
import Wavetable.Proofs.Journal.Slots
import Wavetable.Proofs.Journal.Thresholds
import Wavetable.Proofs.Journal.Headings
import Wavetable.Proofs.Formula.Traversal
import Wavetable.Proofs.Number.DataText
import Wavetable.Proofs.Json.Grammar
import Wavetable.Proofs.Json.Compact
import Wavetable.Proofs.Json.Unquoted
import Wavetable.Proofs.Json.Reading
import Wavetable.Proofs.Journal.Lines
