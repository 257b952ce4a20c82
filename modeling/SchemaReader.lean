import SchemaReader.Clause
import SchemaReader.Command.Arguments
import SchemaReader.Command.Help
import SchemaReader.Command.Request
import SchemaReader.Command.Run
import SchemaReader.Document.Checked
import SchemaReader.Document.Layout
import SchemaReader.Document.Rendering
import SchemaReader.Document.Template
import SchemaReader.Document.Value
import SchemaReader.Enumeration
import SchemaReader.Files
import SchemaReader.Identifier
import SchemaReader.Journal
import SchemaReader.Main
import SchemaReader.Notice
import SchemaReader.Number.Binary64
import SchemaReader.Number.Numeral
import SchemaReader.Number.Shortest
import SchemaReader.Output
import SchemaReader.Reading.Column
import SchemaReader.Reading.Constraint
import SchemaReader.Reading.File
import SchemaReader.Reading.Statement
import SchemaReader.Scan.Balance
import SchemaReader.Scan.Comment
import SchemaReader.Scan.Quote
import SchemaReader.Schema.Basic
import SchemaReader.Schema.Measure
import SchemaReader.Schema.Record
import SchemaReader.Schema.Relation
import SchemaReader.Settings
import SchemaReader.Text.Case
import SchemaReader.Text.Character
import SchemaReader.Text.Encoding
import SchemaReader.Text.Quoted
import SchemaReader.Text.Search
import SchemaReader.Yaml.Fault
import SchemaReader.Yaml.Kind
import SchemaReader.Yaml.Load
import SchemaReader.Yaml.Moment
import SchemaReader.Yaml.Node
import SchemaReader.Yaml.Scalar
import SchemaReader.Yaml.Tag
import SchemaReader.Yaml.Token
import SchemaReader.Yaml.Tokens
import SchemaReader.Proofs.Canonical.Cells
import SchemaReader.Proofs.Canonical.Clauses
import SchemaReader.Proofs.Canonical.Columns
import SchemaReader.Proofs.Canonical.RoundTrip
import SchemaReader.Proofs.Canonical.Script
import SchemaReader.Proofs.Canonical.Statements
import SchemaReader.Proofs.Canonical.Tails
import SchemaReader.Proofs.Clause.Announced
import SchemaReader.Proofs.Clause.Closed
import SchemaReader.Proofs.Clause.Cut
import SchemaReader.Proofs.Clause.Joined
import SchemaReader.Proofs.Command.Effects
import SchemaReader.Proofs.Enumeration.RoundTrip
import SchemaReader.Proofs.Enumeration.Terminated
import SchemaReader.Proofs.Fallible
import SchemaReader.Proofs.Files.Written
import SchemaReader.Proofs.Identifier.Qualified
import SchemaReader.Proofs.Identifier.Written
import SchemaReader.Proofs.Number.Numeral
import SchemaReader.Proofs.Output.Numeral
import SchemaReader.Proofs.Output.Reader
import SchemaReader.Proofs.Output.RoundTrip
import SchemaReader.Proofs.Reading.Annotation
import SchemaReader.Proofs.Reading.Balanced
import SchemaReader.Proofs.Reading.Bodies
import SchemaReader.Proofs.Reading.Concat
import SchemaReader.Proofs.Reading.Default
import SchemaReader.Proofs.Reading.Depth
import SchemaReader.Proofs.Reading.Erasure
import SchemaReader.Proofs.Reading.Heads
import SchemaReader.Proofs.Reading.Keys
import SchemaReader.Proofs.Reading.Kinds
import SchemaReader.Proofs.Reading.Locality
import SchemaReader.Proofs.Reading.Numeral
import SchemaReader.Proofs.Reading.Outcome
import SchemaReader.Proofs.Reading.Recovery
import SchemaReader.Proofs.Reading.Rounds
import SchemaReader.Proofs.Reading.Searches
import SchemaReader.Proofs.Reading.Segments
import SchemaReader.Proofs.Reading.Uncommented
import SchemaReader.Proofs.Scan.Annotation
import SchemaReader.Proofs.Scan.Code
import SchemaReader.Proofs.Scan.Literal
import SchemaReader.Proofs.Scan.Masked
import SchemaReader.Proofs.Scan.Matching
import SchemaReader.Proofs.Scan.Nesting
import SchemaReader.Proofs.Scan.Paren
import SchemaReader.Proofs.Scan.Stripped
import SchemaReader.Proofs.Scan.Veil
import SchemaReader.Proofs.Schema.Measure
import SchemaReader.Proofs.Schema.PrimaryKey
import SchemaReader.Proofs.Schema.Relation
import SchemaReader.Proofs.Text.Capitals
import SchemaReader.Proofs.Text.Case
import SchemaReader.Proofs.Text.Pieces
import SchemaReader.Proofs.Text.Word
