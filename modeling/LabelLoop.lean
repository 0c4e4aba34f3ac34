import LabelLoop.Block.Basic
import LabelLoop.Block.Locate
import LabelLoop.CommandLine.Arguments
import LabelLoop.CommandLine.Help
import LabelLoop.CommandLine.Option
import LabelLoop.CommandLine.Reach
import LabelLoop.CommandLine.Run
import LabelLoop.Conversion.Basic
import LabelLoop.Datum.Basic
import LabelLoop.Datum.Json
import LabelLoop.Datum.Limits
import LabelLoop.Datum.Reader
import LabelLoop.Datum.Shown
import LabelLoop.Diagnostic.Basic
import LabelLoop.Diagnostic.Check
import LabelLoop.Document.Attribute
import LabelLoop.Document.Element
import LabelLoop.Document.Hooks
import LabelLoop.Field.Basic
import LabelLoop.Field.Fault
import LabelLoop.Field.Whole
import LabelLoop.Files.Codec
import LabelLoop.Files.Delivery
import LabelLoop.Files.Encoding
import LabelLoop.Files.Path
import LabelLoop.Files.Tree
import LabelLoop.Literal.Quotes
import LabelLoop.Literal.Scanner
import LabelLoop.Literal.Shield
import LabelLoop.Literal.Span
import LabelLoop.Log.Call
import LabelLoop.Log.Event
import LabelLoop.Log.Line
import LabelLoop.Log.Message
import LabelLoop.Log.Setup
import LabelLoop.Lowering.Basic
import LabelLoop.Lowering.Loop
import LabelLoop.Lowering.Message
import LabelLoop.Main
import LabelLoop.Marker.Basic
import LabelLoop.Number.Binary64
import LabelLoop.Number.Decimal
import LabelLoop.Script.Lexeme
import LabelLoop.Script.Lexer
import LabelLoop.Settings.Basic
import LabelLoop.Settings.EnvFile
import LabelLoop.Template.Basic
import LabelLoop.Template.Directive
import LabelLoop.Template.Slot
import LabelLoop.Text.Basic
import LabelLoop.Text.Blank
import LabelLoop.Text.Casing
import LabelLoop.Text.CodePoint
import LabelLoop.Text.CodeSet
import LabelLoop.Text.Digit
import LabelLoop.Text.Letter
import LabelLoop.Text.Printable
import LabelLoop.Text.Quoted
import LabelLoop.Text.Search
import LabelLoop.Text.Word
import LabelLoop.Text.Wrap
import LabelLoop.Proofs.Characters
import LabelLoop.Proofs.Markers
import LabelLoop.Proofs.Divisions
import LabelLoop.Proofs.Pieces
import LabelLoop.Proofs.Seams
import LabelLoop.Proofs.Nesting
import LabelLoop.Proofs.Passes
import LabelLoop.Proofs.Totality
import LabelLoop.Proofs.Simultaneous
import LabelLoop.Proofs.Scopes
import LabelLoop.Proofs.Occurrences
import LabelLoop.Proofs.Literals
import LabelLoop.Proofs.Survival
import LabelLoop.Proofs.RoundTrip
import LabelLoop.Proofs.Contents
import LabelLoop.Proofs.Enclosure
import LabelLoop.Proofs.Innermost
import LabelLoop.Proofs.Records
import LabelLoop.Proofs.Scanning
import LabelLoop.Proofs.Verdict
import LabelLoop.Proofs.Ledger
import LabelLoop.Proofs.Tags
import LabelLoop.Proofs.Retagging
import LabelLoop.Proofs.Documents
import LabelLoop.Proofs.NormalForm
import LabelLoop.Proofs.Splicing
import LabelLoop.Proofs.Ways
import LabelLoop.Proofs.Trees
import LabelLoop.Proofs.Deliveries
import LabelLoop.Proofs.Provenance
import LabelLoop.Proofs.Safekeeping
import LabelLoop.Proofs.Agreement
import LabelLoop.Proofs.Guard
import LabelLoop.Proofs.Masking
import LabelLoop.Proofs.Attributes
import LabelLoop.Proofs.Extraction
import LabelLoop.Proofs.Closing
import LabelLoop.Proofs.Installing
import LabelLoop.Proofs.Lexemes
import LabelLoop.Proofs.PlainCode
import LabelLoop.Proofs.Rounding
import LabelLoop.Proofs.ShortestDigits
import LabelLoop.Proofs.Numerals
import LabelLoop.Proofs.JsonTokens
import LabelLoop.Proofs.JsonData
import LabelLoop.Proofs.LogLines
import LabelLoop.Proofs.MarkerPlaces
import LabelLoop.Proofs.Conservation
