import WireModel.Command.Flag
import WireModel.Command.Help
import WireModel.Command.Line
import WireModel.Command.Run
import WireModel.Decode.Datum
import WireModel.Decode.Error
import WireModel.Decode.Reader
import WireModel.Decode.Scalar
import WireModel.Document.Basic
import WireModel.Document.Cue
import WireModel.Document.Draft
import WireModel.Document.Json
import WireModel.Document.Json.Scalar
import WireModel.Document.Json.Shape
import WireModel.Document.Json.Skip
import WireModel.Document.Yaml
import WireModel.Document.Yaml.Cursor
import WireModel.Document.Yaml.Kind
import WireModel.Document.Yaml.Merge
import WireModel.Document.Yaml.Scalar
import WireModel.Document.Yaml.Token
import WireModel.Emit.Config
import WireModel.Emit.ConfigFile
import WireModel.Emit.Generator
import WireModel.Emit.Workers
import WireModel.Encoding.Describe
import WireModel.Encoding.Failures
import WireModel.Encoding.Rule
import WireModel.Fault
import WireModel.Graph.Component
import WireModel.Graph.Reach
import WireModel.Graph.Schedule
import WireModel.Graph.Tarjan
import WireModel.Link.Graph
import WireModel.Link.Resolve
import WireModel.Link.Session
import WireModel.Loader
import WireModel.Main
import WireModel.Naming.Identifier
import WireModel.Naming.Plural
import WireModel.Naming.Title
import WireModel.Number.Based
import WireModel.Number.Binary
import WireModel.Number.Decimal
import WireModel.Number.Literal
import WireModel.Number.Power
import WireModel.Number.Shortest
import WireModel.Proofs.Decode.Alike
import WireModel.Proofs.Decode.Depth
import WireModel.Proofs.Decode.Exact
import WireModel.Proofs.Decode.Kinds
import WireModel.Proofs.Decode.Location
import WireModel.Proofs.Decode.Place
import WireModel.Proofs.Decode.Presence
import WireModel.Proofs.Decode.RoundTrip
import WireModel.Proofs.Decode.Termination
import WireModel.Proofs.Decode.Typed
import WireModel.Proofs.Decode.Unread
import WireModel.Proofs.Emit.Files
import WireModel.Proofs.Emit.Workers
import WireModel.Proofs.Encoding.Announced
import WireModel.Proofs.Encoding.Encodable
import WireModel.Proofs.Encoding.Failures
import WireModel.Proofs.Graph.Component
import WireModel.Proofs.Graph.Congruence
import WireModel.Proofs.Graph.Cycle
import WireModel.Proofs.Graph.Schedule
import WireModel.Proofs.Link.Accept
import WireModel.Proofs.Link.Bindings
import WireModel.Proofs.Link.Circle
import WireModel.Proofs.Link.Emission
import WireModel.Proofs.Link.Hidden
import WireModel.Proofs.Link.History
import WireModel.Proofs.Link.Inline
import WireModel.Proofs.Link.Kinds
import WireModel.Proofs.Link.Linked
import WireModel.Proofs.Link.Locality
import WireModel.Proofs.Link.Permutation
import WireModel.Proofs.Link.Recursion
import WireModel.Proofs.Link.Steps
import WireModel.Proofs.Link.Unlinked
import WireModel.Proofs.Loader.Files
import WireModel.Proofs.Loader.Order
import WireModel.Proofs.Loader.Termination
import WireModel.Proofs.Number.Decimal
import WireModel.Proofs.Schema.Conformance
import WireModel.Proofs.Schema.Documents
import WireModel.Proofs.Schema.Pattern
import WireModel.Proofs.Schema.Reference
import WireModel.Proofs.Schema.Validation
import WireModel.Proofs.Source.Selection
import WireModel.Proofs.Source.Size
import WireModel.Proofs.Spec.Index
import WireModel.Proofs.Spec.TypeGrammar
import WireModel.Proofs.Spec.TypePrinting
import WireModel.Proofs.Storage.Write
import WireModel.Proofs.Text.Path
import WireModel.Proofs.Text.Rune
import WireModel.Proofs.Value.Alike
import WireModel.Sample
import WireModel.Schema.Basic
import WireModel.Schema.Document
import WireModel.Source.Build
import WireModel.Source.BuildNote
import WireModel.Source.Columns
import WireModel.Source.Comment
import WireModel.Source.Constraint
import WireModel.Source.DocComment
import WireModel.Source.DocText
import WireModel.Source.DocText.Link
import WireModel.Source.FileLayout
import WireModel.Source.Fragment
import WireModel.Source.Gap
import WireModel.Source.Import
import WireModel.Source.Layout
import WireModel.Source.Names
import WireModel.Source.Syntax
import WireModel.Spec.Decl
import WireModel.Spec.Error
import WireModel.Spec.Module
import WireModel.Spec.Type
import WireModel.Spec.TypeParser
import WireModel.Spec.Validate
import WireModel.SpecFile.Basic
import WireModel.SpecFile.Declare
import WireModel.SpecFile.Form
import WireModel.SpecFile.Format
import WireModel.SpecFile.Read
import WireModel.Storage.Read
import WireModel.Storage.Tree
import WireModel.Storage.Write
import WireModel.Text.Base64
import WireModel.Text.Basic
import WireModel.Text.Case
import WireModel.Text.Csv
import WireModel.Text.Letter
import WireModel.Text.Path
import WireModel.Text.Printable
import WireModel.Text.Punctuation
import WireModel.Text.Rune
import WireModel.Text.WordRange
import WireModel.Value.Basic
import WireModel.Value.Codec
import WireModel.Value.Json
import WireModel.Value.MessagePack
import WireModel.Proofs.Graph.Tarjan
import WireModel.Graph.Placing
import WireModel.Link.Order
import WireModel.Proofs.Graph.Placing
import WireModel.Proofs.Link.ModuleOrder
import WireModel.Proofs.Link.EmissionOrder
import WireModel.Encoding.Collect
import WireModel.Proofs.Encoding.Collect
import WireModel.Proofs.Link.Indirect
import WireModel.Proofs.Link.GivenTwice
import WireModel.Proofs.Loader.Calls
import WireModel.Storage.Staging
import WireModel.Proofs.Storage.Leaves
import WireModel.Proofs.Storage.Staging
import WireModel.Proofs.Loader.Spelling
import WireModel.Decode.Word
import WireModel.Proofs.SpecFile.Notation
import WireModel.Proofs.Number.Rational
import WireModel.Proofs.Decode.Word
import WireModel.Proofs.Decode.Integer
import WireModel.Proofs.SpecFile.Declare
import WireModel.Proofs.SpecFile.Payload
import WireModel.Proofs.SpecFile.Null
import WireModel.Proofs.Loader.Stops
import WireModel.Proofs.Number.Json
import WireModel.Proofs.Decode.Numeric
import WireModel.Proofs.Schema.IntegerRange
import WireModel.Proofs.Naming.Exported
import WireModel.Proofs.Source.NameCheck
import WireModel.Proofs.Spec.WellFormed
import WireModel.Proofs.Naming.Receiver
import WireModel.Proofs.Source.Commentary
import WireModel.Proofs.Value.Codec
