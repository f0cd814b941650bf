import Supergraph.GraphQL.Value

namespace Supergraph.GraphQL

structure Directive where
  name : Name
  arguments : List (Name × Value) := []
deriving DecidableEq, Inhabited

namespace Directive

def argument? (d : Directive) (name : String) : Option Value :=
  (d.arguments.find? (·.1.text == name)).map (·.2)

def stringArgument? (d : Directive) (name : String) : Option String :=
  match d.argument? name with
  | some (.string s) => some s
  | _ => none

def boolArgument? (d : Directive) (name : String) : Option Bool :=
  match d.argument? name with
  | some (.boolean b) => some b
  | _ => none

end Directive

inductive DirectiveLocation
  | query
  | mutation
  | subscription
  | field
  | fragmentDefinition
  | fragmentSpread
  | inlineFragment
  | variableDefinition
  | schema
  | scalar
  | object
  | fieldDefinition
  | argumentDefinition
  | interface
  | union
  | enum
  | enumValue
  | inputObject
  | inputFieldDefinition
deriving DecidableEq, Inhabited

namespace DirectiveLocation

def all : List DirectiveLocation := [
  .query, .mutation, .subscription, .field, .fragmentDefinition, .fragmentSpread, .inlineFragment,
  .variableDefinition, .schema, .scalar, .object, .fieldDefinition, .argumentDefinition,
  .interface, .union, .enum, .enumValue, .inputObject, .inputFieldDefinition]

theorem mem_all (l : DirectiveLocation) : l ∈ all := by
  cases l <;> decide

def name : DirectiveLocation → Name
  | .query => .lit "QUERY"
  | .mutation => .lit "MUTATION"
  | .subscription => .lit "SUBSCRIPTION"
  | .field => .lit "FIELD"
  | .fragmentDefinition => .lit "FRAGMENT_DEFINITION"
  | .fragmentSpread => .lit "FRAGMENT_SPREAD"
  | .inlineFragment => .lit "INLINE_FRAGMENT"
  | .variableDefinition => .lit "VARIABLE_DEFINITION"
  | .schema => .lit "SCHEMA"
  | .scalar => .lit "SCALAR"
  | .object => .lit "OBJECT"
  | .fieldDefinition => .lit "FIELD_DEFINITION"
  | .argumentDefinition => .lit "ARGUMENT_DEFINITION"
  | .interface => .lit "INTERFACE"
  | .union => .lit "UNION"
  | .enum => .lit "ENUM"
  | .enumValue => .lit "ENUM_VALUE"
  | .inputObject => .lit "INPUT_OBJECT"
  | .inputFieldDefinition => .lit "INPUT_FIELD_DEFINITION"

def ofName? (n : Name) : Option DirectiveLocation := all.find? (·.name == n)

def isExecutable : DirectiveLocation → Bool
  | .query | .mutation | .subscription | .field | .fragmentDefinition | .fragmentSpread
  | .inlineFragment | .variableDefinition => true
  | _ => false

end DirectiveLocation

end Supergraph.GraphQL
