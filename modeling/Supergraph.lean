import Supergraph.Command
import Supergraph.Composition
import Supergraph.Config
import Supergraph.Conflict
import Supergraph.Error
import Supergraph.Federation
import Supergraph.FilePath
import Supergraph.FileTree
import Supergraph.GraphQL.BlockString
import Supergraph.GraphQL.BuiltIn
import Supergraph.GraphQL.Definition
import Supergraph.GraphQL.Directive
import Supergraph.GraphQL.Document
import Supergraph.GraphQL.Document.Reader
import Supergraph.GraphQL.Document.Schema
import Supergraph.GraphQL.Layout.Schema
import Supergraph.GraphQL.Layout.Value
import Supergraph.GraphQL.Name
import Supergraph.GraphQL.Number
import Supergraph.GraphQL.StringLiteral
import Supergraph.GraphQL.Token
import Supergraph.GraphQL.Token.Tree
import Supergraph.GraphQL.TypeRef
import Supergraph.GraphQL.Value
import Supergraph.Identity
import Supergraph.Join
import Supergraph.Model
import Supergraph.Model.Declaration
import Supergraph.Model.Emission
import Supergraph.Model.Retained
import Supergraph.OrderedMap
import Supergraph.OrderedSet
import Supergraph.Proofs.Command.Listing
import Supergraph.Proofs.Command.Run
import Supergraph.Proofs.Composition.Agreement
import Supergraph.Proofs.Composition.Arguments
import Supergraph.Proofs.Composition.Attribution
import Supergraph.Proofs.Composition.Closure
import Supergraph.Proofs.Composition.Content
import Supergraph.Proofs.Composition.CopiedUse
import Supergraph.Proofs.Composition.Copies
import Supergraph.Proofs.Composition.Declarations
import Supergraph.Proofs.Composition.DefaultValues
import Supergraph.Proofs.Composition.Disabled
import Supergraph.Proofs.Composition.Graphs
import Supergraph.Proofs.Composition.Growth
import Supergraph.Proofs.Composition.Inputs
import Supergraph.Proofs.Composition.Kept
import Supergraph.Proofs.Composition.Order
import Supergraph.Proofs.Composition.Outcome
import Supergraph.Proofs.Composition.Replicas
import Supergraph.Proofs.Composition.RetainedDirectives
import Supergraph.Proofs.Composition.RetainedTypes
import Supergraph.Proofs.Composition.Roots
import Supergraph.Proofs.Composition.TypeFacts
import Supergraph.Proofs.Composition.Vocabulary
import Supergraph.Proofs.GraphQL.BlockText
import Supergraph.Proofs.GraphQL.Election
import Supergraph.Proofs.GraphQL.NameText
import Supergraph.Proofs.GraphQL.TokenText
import Supergraph.Proofs.GraphQL.TypeText
import Supergraph.Proofs.GraphQL.ValueText
import Supergraph.Proofs.Grouping
import Supergraph.Proofs.Identity.Acceptance
import Supergraph.Proofs.Identity.Assignment
import Supergraph.Proofs.Identity.EnumValue
import Supergraph.Proofs.Identity.Numbering
import Supergraph.Proofs.Identity.Rejection
import Supergraph.Proofs.Identity.Resolution
import Supergraph.Proofs.Identity.Search
import Supergraph.Proofs.Join
import Supergraph.Proofs.Model.Applications
import Supergraph.Proofs.Model.Elected
import Supergraph.Proofs.Model.Emission
import Supergraph.Proofs.Model.Entry
import Supergraph.Proofs.Model.Invariant
import Supergraph.Proofs.Model.Ledger
import Supergraph.Proofs.Model.Locality
import Supergraph.Proofs.Model.Lookup
import Supergraph.Proofs.Model.Place
import Supergraph.Proofs.Model.Recorded
import Supergraph.Proofs.Model.Replica
import Supergraph.Proofs.Model.Retained
import Supergraph.Proofs.Model.Run
import Supergraph.Proofs.Model.Shape
import Supergraph.Proofs.Model.TypeOrder
import Supergraph.Proofs.Model.TypeParts
import Supergraph.Proofs.Model.Walk
import Supergraph.Proofs.OrderedMap
import Supergraph.Proofs.OrderedSet
import Supergraph.Proofs.Rule.Finding
import Supergraph.Proofs.Rule.Message
import Supergraph.Proofs.Rule.Report
import Supergraph.Proofs.Rule.Types
import Supergraph.Proofs.Text.JsonText
import Supergraph.Rule
import Supergraph.Subgraph
import Supergraph.Text.CaseClass
import Supergraph.Text.CaseMap
import Supergraph.Text.Casing
import Supergraph.Text.Hexadecimal
import Supergraph.Text.Json
import Supergraph.Visit
import Supergraph.Wording
import Supergraph.Yaml.Cursor
import Supergraph.Yaml.Document
import Supergraph.Yaml.Document.Reader
import Supergraph.Yaml.Node
import Supergraph.Yaml.Scalar
import Supergraph.Yaml.Tag
import Supergraph.Yaml.Token
import Supergraph.Main
