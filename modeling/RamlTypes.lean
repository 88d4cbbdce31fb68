import RamlTypes.Command.Arguments
import RamlTypes.Command.Libraries
import RamlTypes.Command.Request
import RamlTypes.Command.Run
import RamlTypes.Command.Step
import RamlTypes.Command.Storage
import RamlTypes.CommonAncestor
import RamlTypes.Config
import RamlTypes.Dispatch
import RamlTypes.Document.BadScalar
import RamlTypes.Document.Load
import RamlTypes.Document.Timestamp
import RamlTypes.Document.Value
import RamlTypes.EnumDef
import RamlTypes.Fault
import RamlTypes.FileName
import RamlTypes.Hierarchy
import RamlTypes.Json.Reader
import RamlTypes.Json.SyntaxError
import RamlTypes.Json.Token
import RamlTypes.Json.Writer
import RamlTypes.Log.Event
import RamlTypes.Log.Logged
import RamlTypes.Main
import RamlTypes.Mapping
import RamlTypes.Model
import RamlTypes.Model.Encode
import RamlTypes.Number.Arithmetic
import RamlTypes.Number.Double
import RamlTypes.Number.Shortest
import RamlTypes.Options
import RamlTypes.Overrides
import RamlTypes.Profile
import RamlTypes.Proofs.AbstractTypes
import RamlTypes.Proofs.AcceptedDeclarations
import RamlTypes.Proofs.AddedTypes
import RamlTypes.Proofs.Agreement
import RamlTypes.Proofs.ArgumentLists
import RamlTypes.Proofs.BodyTypes
import RamlTypes.Proofs.BuiltGraphs
import RamlTypes.Proofs.Chains
import RamlTypes.Proofs.CommandRuns
import RamlTypes.Proofs.CommonAncestors
import RamlTypes.Proofs.Dispatching
import RamlTypes.Proofs.EffectiveProperties
import RamlTypes.Proofs.Enclosures
import RamlTypes.Proofs.EnumIdentifiers
import RamlTypes.Proofs.EnumMembers
import RamlTypes.Proofs.EnumNames
import RamlTypes.Proofs.EnumReferences
import RamlTypes.Proofs.ExpressionForms
import RamlTypes.Proofs.ExpressionParts
import RamlTypes.Proofs.Expressions
import RamlTypes.Proofs.FlattenedProperties
import RamlTypes.Proofs.GraphExtensions
import RamlTypes.Proofs.Graphs
import RamlTypes.Proofs.InheritanceCircles
import RamlTypes.Proofs.InheritedFields
import RamlTypes.Proofs.InheritedProperties
import RamlTypes.Proofs.JsonGrammar
import RamlTypes.Proofs.JsonNumbers
import RamlTypes.Proofs.JsonTexts
import RamlTypes.Proofs.LastSegments
import RamlTypes.Proofs.Losses
import RamlTypes.Proofs.MappedTypes
import RamlTypes.Proofs.MappingFailures
import RamlTypes.Proofs.MediaTypes
import RamlTypes.Proofs.ModelContents
import RamlTypes.Proofs.ModelHierarchy
import RamlTypes.Proofs.NestedLists
import RamlTypes.Proofs.Origins
import RamlTypes.Proofs.Outcomes
import RamlTypes.Proofs.ParallelRuns
import RamlTypes.Proofs.ParentLinks
import RamlTypes.Proofs.ParentReferences
import RamlTypes.Proofs.Payloads
import RamlTypes.Proofs.PrintedExpressions
import RamlTypes.Proofs.PrintedModels
import RamlTypes.Proofs.ReferencedNames
import RamlTypes.Proofs.RememberedAnswers
import RamlTypes.Proofs.Reordering
import RamlTypes.Proofs.RequiredOverrides
import RamlTypes.Proofs.ResolutionFaults
import RamlTypes.Proofs.ResolutionOptions
import RamlTypes.Proofs.RunOptions
import RamlTypes.Proofs.ShortForms
import RamlTypes.Proofs.SortedNames
import RamlTypes.Proofs.Steps
import RamlTypes.Proofs.StringLiterals
import RamlTypes.Proofs.SupportedExpressions
import RamlTypes.Proofs.Tables
import RamlTypes.Proofs.TargetLanguages
import RamlTypes.Proofs.Views
import RamlTypes.Proofs.WrittenExpressions
import RamlTypes.Resolution
import RamlTypes.Schema.Basic
import RamlTypes.Schema.Facet
import RamlTypes.Schema.OfDocument
import RamlTypes.Session
import RamlTypes.Session.Memory
import RamlTypes.Settings
import RamlTypes.Sorting
import RamlTypes.Table
import RamlTypes.Target
import RamlTypes.Text.Blank
import RamlTypes.Text.Control
import RamlTypes.Text.Hex
import RamlTypes.Text.Identifier
import RamlTypes.Text.Lower
import RamlTypes.Text.Numeral
import RamlTypes.Text.Printable
import RamlTypes.Text.Quoted
import RamlTypes.Text.Search
import RamlTypes.Text.Upper
import RamlTypes.TypeExpr.Basic
import RamlTypes.TypeExpr.Parser
import RamlTypes.TypeGraph.Basic
import RamlTypes.TypeGraph.OfSchema
import RamlTypes.Yaml.Cursor
import RamlTypes.Yaml.Node
import RamlTypes.Yaml.Node.Level
import RamlTypes.Yaml.Node.Parser
import RamlTypes.Yaml.Node.Value
import RamlTypes.Yaml.Reader
import RamlTypes.Yaml.Scalar.Binary
import RamlTypes.Yaml.Scalar.Number
import RamlTypes.Yaml.Scalar.Timestamp
import RamlTypes.Yaml.Tag
import RamlTypes.Yaml.Token
import RamlTypes.Yaml.Token.Block
import RamlTypes.Yaml.Token.Directive
import RamlTypes.Yaml.Token.Lexer
import RamlTypes.Yaml.Token.Plain
import RamlTypes.Yaml.Token.Property
import RamlTypes.Yaml.Token.Quoted
