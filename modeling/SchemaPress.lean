import SchemaPress.Command.Arguments
import SchemaPress.Command.Run
import SchemaPress.Config.Basic
import SchemaPress.Config.Decode
import SchemaPress.Config.Environment
import SchemaPress.Config.Loading
import SchemaPress.Config.Settings
import SchemaPress.Config.Validation
import SchemaPress.Decimal.Binary64
import SchemaPress.Decimal.Literal
import SchemaPress.Decimal.Notation
import SchemaPress.Decimal.Shortest
import SchemaPress.Error
import SchemaPress.Files.Bundle
import SchemaPress.Files.Tree
import SchemaPress.Generation.Build
import SchemaPress.Generation.Project
import SchemaPress.Golden
import SchemaPress.Html.CharacterReference
import SchemaPress.Html.Entity
import SchemaPress.Html.PlainText
import SchemaPress.Html.Token
import SchemaPress.Json.Basic
import SchemaPress.Json.Printer
import SchemaPress.Json.Reader
import SchemaPress.Log.Event
import SchemaPress.Log.Output
import SchemaPress.Main
import SchemaPress.Model.Basic
import SchemaPress.Model.Properties
import SchemaPress.Model.Property
import SchemaPress.Node.Basic
import SchemaPress.Node.Denotation
import SchemaPress.Node.Entries
import SchemaPress.Node.OfJson
import SchemaPress.Node.Scalar
import SchemaPress.OpenApi.Conformance
import SchemaPress.OpenApi.Document
import SchemaPress.OpenApi.Loader
import SchemaPress.OpenApi.Locate
import SchemaPress.OpenApi.Reading
import SchemaPress.OpenApi.Schema
import SchemaPress.OpenApi.Shape
import SchemaPress.OpenApi.Skip
import SchemaPress.OpenApi.Source
import SchemaPress.Page.Layout
import SchemaPress.Page.Template
import SchemaPress.Path
import SchemaPress.Prompt
import SchemaPress.Proofs.Checkpoints
import SchemaPress.Proofs.Collapsed
import SchemaPress.Proofs.Command.SingleProject
import SchemaPress.Proofs.Composition
import SchemaPress.Proofs.Config.Environment
import SchemaPress.Proofs.Config.Order
import SchemaPress.Proofs.Config.Selection
import SchemaPress.Proofs.Config.Settings
import SchemaPress.Proofs.Config.Source
import SchemaPress.Proofs.Config.Validation
import SchemaPress.Proofs.Decimal.Rounding
import SchemaPress.Proofs.EcmaScript.RegexLiteral
import SchemaPress.Proofs.EcmaScript.TextLiteral
import SchemaPress.Proofs.Files.Direct
import SchemaPress.Proofs.Files.Meeting
import SchemaPress.Proofs.Files.Reach
import SchemaPress.Proofs.Generation.Cancellation
import SchemaPress.Proofs.Generation.Content
import SchemaPress.Proofs.Generation.Isolation
import SchemaPress.Proofs.Generation.Outputs
import SchemaPress.Proofs.Generation.Project
import SchemaPress.Proofs.Generation.Repetition
import SchemaPress.Proofs.Generation.Run
import SchemaPress.Proofs.Generation.Steady
import SchemaPress.Proofs.Generation.Touched
import SchemaPress.Proofs.Json.Grammar
import SchemaPress.Proofs.Json.Quantity
import SchemaPress.Proofs.Model.History
import SchemaPress.Proofs.Node.Lookup
import SchemaPress.Proofs.Node.Number
import SchemaPress.Proofs.Node.Numeral
import SchemaPress.Proofs.Node.OfJson
import SchemaPress.Proofs.Node.Order
import SchemaPress.Proofs.Node.Unfolding
import SchemaPress.Proofs.OpenApi.IntegerTypes
import SchemaPress.Proofs.OpenApi.JsonDocument
import SchemaPress.Proofs.OpenApi.KeyOrder
import SchemaPress.Proofs.OpenApi.KeySpelling
import SchemaPress.Proofs.OpenApi.Loading
import SchemaPress.Proofs.OpenApi.NullConstraint
import SchemaPress.Proofs.OpenApi.Reading
import SchemaPress.Proofs.OpenApi.SkipLevel
import SchemaPress.Proofs.Renderer.Agreement
import SchemaPress.Proofs.Renderer.OwnLines
import SchemaPress.Proofs.Renderer.Registry
import SchemaPress.Proofs.Text.Casing
import SchemaPress.Proofs.Text.Lines
import SchemaPress.Proofs.TypeScript.Comment
import SchemaPress.Proofs.Url.Lower
import SchemaPress.Proofs.Url.Parts
import SchemaPress.Proofs.Url.Web
import SchemaPress.Proofs.Value.Alike
import SchemaPress.Proofs.Yup.AllowedValues
import SchemaPress.Proofs.Yup.EscapeParity
import SchemaPress.Proofs.Yup.PatternUnits
import SchemaPress.Proofs.Yup.Regex
import SchemaPress.Renderer
import SchemaPress.Session
import SchemaPress.Text.Casing
import SchemaPress.Text.CharClass
import SchemaPress.Text.Printable
import SchemaPress.Text.Quoted
import SchemaPress.Text.Utf8
import SchemaPress.Text.Words
import SchemaPress.TypeScript.Interface
import SchemaPress.Url
import SchemaPress.Value.Basic
import SchemaPress.Value.Exchange
import SchemaPress.Value.Timestamp
import SchemaPress.Version
import SchemaPress.Yaml.Cursor
import SchemaPress.Yaml.Document
import SchemaPress.Yaml.Input
import SchemaPress.Yaml.Lexeme.Block
import SchemaPress.Yaml.Lexeme.Name
import SchemaPress.Yaml.Lexeme.Plain
import SchemaPress.Yaml.Lexeme.Quoted
import SchemaPress.Yaml.Scanner
import SchemaPress.Yaml.Token
import SchemaPress.Yup.Chain
import SchemaPress.Yup.Rule
import SchemaPress.Yup.Validator
