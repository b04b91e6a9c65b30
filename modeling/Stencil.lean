import Stencil.Binary64.Basic
import Stencil.Binary64.Decimal
import Stencil.Binary64.Literal
import Stencil.Binary64.Rounding
import Stencil.Calendar.Date
import Stencil.Calendar.Iso
import Stencil.Calendar.Moment
import Stencil.Calendar.Pattern
import Stencil.Catalog.Basic
import Stencil.Catalog.Definition
import Stencil.Catalog.Operation
import Stencil.Context.Basic
import Stencil.Context.Check
import Stencil.Context.Flatten
import Stencil.Context.Lookup
import Stencil.Diagnostic
import Stencil.Fault
import Stencil.Fields
import Stencil.Json.Basic
import Stencil.Json.Reader
import Stencil.Load.Document
import Stencil.Load.Home
import Stencil.Load.Result
import Stencil.Numeral
import Stencil.Report.Export
import Stencil.Report.Form
import Stencil.Report.Markdown
import Stencil.Resolve.Policy
import Stencil.Resolve.Reference
import Stencil.Resolve.Resolver
import Stencil.Resolve.Settings
import Stencil.Resolve.Text
import Stencil.Schema.Check
import Stencil.Session
import Stencil.Template.Path
import Stencil.Template.Reference
import Stencil.Template.Step
import Stencil.Template.Token
import Stencil.Text.Base64
import Stencil.Text.Blank
import Stencil.Text.Case
import Stencil.Text.CaseTable
import Stencil.Text.Digit
import Stencil.Text.DigitTable
import Stencil.Text.Halved
import Stencil.Text.Percent
import Stencil.Text.Printable
import Stencil.Text.PrintableTable
import Stencil.Text.Quoted
import Stencil.Text.Search
import Stencil.Text.Utf8
import Stencil.Transform.Builtin
import Stencil.Transform.Operation
import Stencil.Transform.Registry
import Stencil.Value.Basic
import Stencil.Value.Display
import Stencil.Value.Entries
import Stencil.Value.Json
import Stencil.Value.Kind
import Stencil.Value.Moment
import Stencil.Value.Number
import Stencil.Workflow.Schema
import Stencil.Workflow.Snapshot
import Stencil.Yaml.Block
import Stencil.Yaml.Cursor
import Stencil.Yaml.Document
import Stencil.Yaml.Node
import Stencil.Yaml.Plain
import Stencil.Yaml.Property
import Stencil.Yaml.Quoted
import Stencil.Yaml.Scalar
import Stencil.Yaml.Tag
import Stencil.Yaml.Timestamp
import Stencil.Yaml.Token
import Stencil.Proofs.Outcome
import Stencil.Proofs.Text.Digits
import Stencil.Proofs.Text.Pieces
import Stencil.Proofs.Template.Hole
import Stencil.Proofs.Template.Span
import Stencil.Proofs.Template.Build
import Stencil.Proofs.Template.Enclosed
import Stencil.Proofs.Template.Index
import Stencil.Proofs.Template.Name
import Stencil.Proofs.FirstOccurrence
import Stencil.Proofs.Resolve.Filling
import Stencil.Proofs.Resolve.Memo
import Stencil.Proofs.Resolve.Path
import Stencil.Proofs.Resolve.Template
import Stencil.Proofs.Resolve.Policy
import Stencil.Proofs.Resolve.Preview
import Stencil.Proofs.Resolve.Lookup
import Stencil.Proofs.Resolve.Success
import Stencil.Proofs.Resolve.Deep
import Stencil.Proofs.Resolve.Leafwise
import Stencil.Proofs.Resolve.Safe
import Stencil.Proofs.Resolve.Noninterference
import Stencil.Proofs.Resolve.Answers
import Stencil.Proofs.Resolve.Foresight
import Stencil.Proofs.Value.Writable
import Stencil.Proofs.Transform.Writable
import Stencil.Proofs.Fields
import Stencil.Proofs.Schema.Accepted
import Stencil.Proofs.Value.Integers
import Stencil.Proofs.Workflow.Snapshot
import Stencil.Proofs.Catalog.Indexed
import Stencil.Proofs.Catalog.Update
import Stencil.Proofs.Context.Leaves
import Stencil.Proofs.Context.Walk
import Stencil.Proofs.Template.Valid
import Stencil.Proofs.Template.Grammar
import Stencil.Proofs.Template.Single
import Stencil.Proofs.Template.Call
import Stencil.Proofs.Template.Quoted
import Stencil.Proofs.Template.Keys
import Stencil.Proofs.Session.Warnings
import Stencil.Proofs.Catalog.Recorded
import Stencil.Proofs.Session.Loads
import Stencil.Proofs.Session.History
import Stencil.Proofs.Catalog.Write
import Stencil.Proofs.Catalog.Declared
import Stencil.Proofs.Catalog.Ambiguous
import Stencil.Proofs.Yaml.Broken
import Stencil.Proofs.Yaml.Made
import Stencil.Proofs.Yaml.Misfit
import Stencil.Proofs.Load.Ends
import Stencil.Proofs.Json.Written
import Stencil.Proofs.Yaml.Numeral
import Stencil.Proofs.Yaml.Blank
import Stencil.Proofs.Json.Tokens
import Stencil.Proofs.Json.Nodes
import Stencil.Proofs.Json.Scalar
import Stencil.Proofs.Json.Reader
import Stencil.Proofs.Json.Compact
import Stencil.Proofs.Binary64.Decimal
import Stencil.Proofs.Binary64.Rational
import Stencil.Proofs.Binary64.Nearest
import Stencil.Proofs.Binary64.Integer
import Stencil.Proofs.Binary64.Digits
import Stencil.Proofs.Value.Parts
import Stencil.Proofs.Value.Json
import Stencil.Proofs.Value.Substitution
import Stencil.Proofs.Session.Written
import Stencil.Proofs.Catalog.Lawful
import Stencil.Proofs.Catalog.Layers
import Stencil.Proofs.Template.Nearest
import Stencil.Proofs.Resolve.Silent
import Stencil.Proofs.Resolve.Pipeline
import Stencil.Proofs.Resolve.Guarded
import Stencil.Proofs.Resolve.Strict
import Stencil.Proofs.Context.Owner
import Stencil.Proofs.Context.Dotted
import Stencil.Proofs.Template.Append
import Stencil.Proofs.Resolve.Append
import Stencil.Proofs.Template.Rename
import Stencil.Proofs.Transform.Growth
import Stencil.Proofs.Resolve.Growth
import Stencil.Proofs.Transform.Callable
import Stencil.Proofs.Text.Utf8
import Stencil.Proofs.Text.Encoded
import Stencil.Proofs.Transform.Lossless
import Stencil.Proofs.Calendar.Iso
import Stencil.Proofs.Value.Dates
import Stencil.Proofs.Transform.Dates
import Stencil.Proofs.Resolve.Dates
import Stencil.Proofs.Template.Integer
import Stencil.Proofs.Resolve.Literal
import Stencil.Proofs.Transform.Round
import Stencil.Proofs.Transform.Number
import Stencil.Proofs.Binary64.Literal
import Stencil.Proofs.Binary64.Tie
import Stencil.Proofs.Value.LeadingNumber
import Stencil.Proofs.Text.Marks
import Stencil.Proofs.Transform.DateTemplate
import Stencil.Proofs.Catalog.Grouping
import Stencil.Proofs.Session.Listing
import Stencil.Proofs.Session.Arguments
