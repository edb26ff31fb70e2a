import TraceSearch.Attribute.Basic
import TraceSearch.Attribute.Value
import TraceSearch.Command.Arguments
import TraceSearch.Command.Failure
import TraceSearch.Command.Help
import TraceSearch.Command.Run
import TraceSearch.Corpus.File
import TraceSearch.Corpus.Lookup
import TraceSearch.Corpus.Synthetic
import TraceSearch.Decimal.Bits
import TraceSearch.Decimal.Digits
import TraceSearch.Decimal.Integer
import TraceSearch.Decimal.Layout
import TraceSearch.Decimal.Nearest
import TraceSearch.Decimal.Real
import TraceSearch.Decimal.Shortest
import TraceSearch.Duration.Basic
import TraceSearch.Duration.Literal
import TraceSearch.Duration.Notation
import TraceSearch.Explanation.Context
import TraceSearch.Host.File
import TraceSearch.Host.Folder
import TraceSearch.Host.Network
import TraceSearch.Ini.Reader
import TraceSearch.Instant.Basic
import TraceSearch.Instant.Calendar
import TraceSearch.Instant.Rfc3339
import TraceSearch.Intent.Basic
import TraceSearch.Intent.Reader
import TraceSearch.Intent.Validation
import TraceSearch.Json.Basic
import TraceSearch.Json.Error
import TraceSearch.Json.Literal
import TraceSearch.Json.Printer
import TraceSearch.Json.Reader
import TraceSearch.Json.Record
import TraceSearch.Json5.Literal
import TraceSearch.Json5.Reader
import TraceSearch.Main
import TraceSearch.Model.Assistant
import TraceSearch.Model.Endpoint
import TraceSearch.Model.Error
import TraceSearch.Model.Generator
import TraceSearch.Model.Prompt
import TraceSearch.Model.Reply
import TraceSearch.Otlp.Reader
import TraceSearch.Otlp.Writer
import TraceSearch.Query.Basic
import TraceSearch.Query.Predicate
import TraceSearch.Ron.Literal
import TraceSearch.Ron.Reader
import TraceSearch.Scan.Basic
import TraceSearch.Scan.Token
import TraceSearch.Search.Basic
import TraceSearch.Search.Report
import TraceSearch.Search.Service
import TraceSearch.Server.MediaType
import TraceSearch.Server.Respond
import TraceSearch.Server.Route
import TraceSearch.Settings.Basic
import TraceSearch.Settings.Conversion
import TraceSearch.Settings.Layer
import TraceSearch.Settings.Source
import TraceSearch.Text.Blank
import TraceSearch.Text.Hidden
import TraceSearch.Text.Quoted
import TraceSearch.Text.Reader
import TraceSearch.Text.Segments
import TraceSearch.Text.Utf8
import TraceSearch.Toml.Document
import TraceSearch.Toml.Moment
import TraceSearch.Toml.Scalar
import TraceSearch.Toml.Table
import TraceSearch.Toml.Text
import TraceSearch.Trace.Basic
import TraceSearch.Trace.View
import TraceSearch.Uri.Basic
import TraceSearch.Uri.Reader
import TraceSearch.Yaml.Cursor
import TraceSearch.Yaml.Document
import TraceSearch.Yaml.Node
import TraceSearch.Yaml.Scalar
import TraceSearch.Yaml.Token
import TraceSearch.Proofs.Scan.Cutoff
import TraceSearch.Proofs.Scan.Answers
import TraceSearch.Proofs.Scan.Drain
import TraceSearch.Proofs.Intent.Mapping
import TraceSearch.Proofs.Intent.Meaning
import TraceSearch.Proofs.Scan.Session
import TraceSearch.Proofs.Search.Outcome
import TraceSearch.Proofs.Host.Folder
import TraceSearch.Proofs.Intent.Agreement
import TraceSearch.Proofs.Search.Requests
import TraceSearch.Proofs.Decimal.Bits
import TraceSearch.Proofs.Decimal.Nearest
import TraceSearch.Proofs.Decimal.Shortest
import TraceSearch.Proofs.Json.Number
import TraceSearch.Proofs.Text.Order
import TraceSearch.Proofs.Json.Literal
import TraceSearch.Proofs.Json.Nesting
import TraceSearch.Proofs.Json.Document
import TraceSearch.Proofs.Json.Record
import TraceSearch.Proofs.Otlp.Value
import TraceSearch.Proofs.Otlp.Growth
import TraceSearch.Proofs.Otlp.Trace
import TraceSearch.Proofs.Otlp.Loaded
import TraceSearch.Proofs.Corpus.RoundTrip
import TraceSearch.Proofs.Corpus.Reload
import TraceSearch.Proofs.Intent.Constraints
import TraceSearch.Proofs.Attribute.Writes
import TraceSearch.Proofs.Corpus.Keys
import TraceSearch.Proofs.Otlp.Shape
import TraceSearch.Proofs.Otlp.Spelling
import TraceSearch.Proofs.Json.Layout
import TraceSearch.Proofs.Model.Reply
import TraceSearch.Proofs.Model.Page
import TraceSearch.Proofs.Intent.Written
import TraceSearch.Proofs.Model.Extraction
import TraceSearch.Proofs.Duration.Grammar
import TraceSearch.Proofs.Duration.Notation
import TraceSearch.Proofs.Duration.Fraction
import TraceSearch.Proofs.Duration.Precision
import TraceSearch.Proofs.Duration.Attempt
import TraceSearch.Proofs.Duration.Refusal
import TraceSearch.Proofs.Corpus.Stored
import TraceSearch.Proofs.Corpus.Synthetic
import TraceSearch.Proofs.Model.Completion
import TraceSearch.Proofs.Server.Request
import TraceSearch.Proofs.Server.Classification
import TraceSearch.Proofs.Trace.Arrangement
import TraceSearch.Proofs.Query.Refinement
import TraceSearch.Proofs.Scan.Comparison
import TraceSearch.Proofs.Query.TimeWindow
import TraceSearch.Proofs.Decimal.Layout
import TraceSearch.Proofs.Decimal.Whole
import TraceSearch.Proofs.Json.Numeral
import TraceSearch.Proofs.Search.NumericTag
import TraceSearch.Proofs.Json.Grammar
import TraceSearch.Proofs.Json.Tokens
import TraceSearch.Proofs.Json.Reading
import TraceSearch.Proofs.Json.Skipping
import TraceSearch.Proofs.Corpus.Loading
import TraceSearch.Proofs.Json.Members
import TraceSearch.Proofs.Intent.Document
import TraceSearch.Proofs.Search.EmptyTag
import TraceSearch.Proofs.Text.Lines
import TraceSearch.Proofs.Trace.Position
import TraceSearch.Proofs.Trace.Listing
import TraceSearch.Proofs.Trace.Envelope
import TraceSearch.Proofs.Explanation.Durations
import TraceSearch.Proofs.Search.ErrorMark
import TraceSearch.Proofs.Query.Delay
import TraceSearch.Proofs.Search.Rotation
import TraceSearch.Proofs.Duration.Word
import TraceSearch.Proofs.Duration.Count
import TraceSearch.Proofs.Duration.FixedWidth
