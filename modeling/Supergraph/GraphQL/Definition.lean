import Supergraph.OrderedMap
import Supergraph.OrderedSet
import Supergraph.GraphQL.Directive
import Supergraph.GraphQL.TypeRef

/-!
This module contains the definitions that make up a schema. A definition does not hold its own name:
the map or list it stands in does.
-/

namespace Supergraph.GraphQL

structure InputValueDef where
  description : Option String := none
  type : TypeRef
  defaultValue : Option Value := none
  directives : List Directive := []
deriving Inhabited

structure FieldDef where
  description : Option String := none
  arguments : List (Name × InputValueDef) := []
  type : TypeRef
  directives : List Directive := []
deriving Inhabited

structure EnumValueDef where
  description : Option String := none
  directives : List Directive := []
deriving Inhabited

structure DirectiveDef where
  description : Option String := none
  arguments : List (Name × InputValueDef) := []
  repeatable : Bool := false
  locations : List DirectiveLocation
deriving Inhabited

inductive TypeKind
  | object
  | interface
  | union
  | enum
  | inputObject
  | scalar
deriving DecidableEq, Inhabited

def TypeKind.describe : TypeKind → String
  | .object => "Object Type"
  | .interface => "Interface Type"
  | .union => "Union Type"
  | .enum => "Enum Type"
  | .inputObject => "Input Object Type"
  | .scalar => "Scalar Type"

structure CompositeBody where
  interfaces : OrderedSet Name
  fields : OrderedMap Name FieldDef
deriving Inhabited

inductive TypeBody
  | object (body : CompositeBody)
  | interface (body : CompositeBody)
  | union (members : OrderedSet Name)
  | enum (values : OrderedMap Name EnumValueDef)
  | inputObject (fields : OrderedMap Name InputValueDef)
  | scalar
deriving Inhabited

def TypeBody.kind : TypeBody → TypeKind
  | .object _ => .object
  | .interface _ => .interface
  | .union _ => .union
  | .enum _ => .enum
  | .inputObject _ => .inputObject
  | .scalar => .scalar

structure TypeDef where
  description : Option String := none
  directives : List Directive := []
  body : TypeBody
deriving Inhabited

def TypeDef.kind (t : TypeDef) : TypeKind := t.body.kind

inductive Operation
  | query
  | mutation
  | subscription
deriving DecidableEq, Inhabited

namespace Operation

def all : List Operation := [.query, .mutation, .subscription]

def keyword : Operation → String
  | .query => "query"
  | .mutation => "mutation"
  | .subscription => "subscription"

def ofKeyword? (s : String) : Option Operation := all.find? (·.keyword == s)

def defaultTypeName : Operation → Name
  | .query => .lit "Query"
  | .mutation => .lit "Mutation"
  | .subscription => .lit "Subscription"

end Operation

abbrev RootTypes := Operation → Option Name

structure Schema where
  description : Option String := none
  directives : List Directive := []
  roots : RootTypes := fun _ => none
  directiveDefs : OrderedMap Name DirectiveDef
  types : OrderedMap Name TypeDef
deriving Inhabited

end Supergraph.GraphQL
