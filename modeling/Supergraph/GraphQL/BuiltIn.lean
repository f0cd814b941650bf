import Supergraph.GraphQL.Definition

/-!
This module contains the types and directives that every schema has. Their descriptions are left
out, as they are never printed.
-/

namespace Supergraph.GraphQL.BuiltIn

def nullable (type : Name) : TypeRef := .named type false

def required (type : Name) : TypeRef := .named type true

def listOf (type : Name) (nonNull : Bool) : TypeRef := .list (required type) nonNull

def field (name : Name) (type : TypeRef) : Name × FieldDef := (name, { type })

def deprecatable (field : Name) (type : TypeRef) : Name × FieldDef :=
  (field, { type, arguments := [(.lit "includeDeprecated",
    { type := nullable (.lit "Boolean"), defaultValue := some (.boolean false) })] })

def scalar : TypeDef := { body := .scalar }

def object (fields : List (Name × FieldDef)) : TypeDef :=
  { body := .object ⟨∅, .ofList fields⟩ }

def enum (values : List Name) : TypeDef := { body := .enum (.ofList (values.map (·, {}))) }

def types : OrderedMap Name TypeDef := .ofList [
  (.lit "Int", scalar),
  (.lit "Float", scalar),
  (.lit "String", scalar),
  (.lit "Boolean", scalar),
  (.lit "ID", scalar),
  (.lit "__Schema", object [
    field (.lit "description") (nullable (.lit "String")),
    field (.lit "types") (listOf (.lit "__Type") true),
    field (.lit "queryType") (required (.lit "__Type")),
    field (.lit "mutationType") (nullable (.lit "__Type")),
    field (.lit "subscriptionType") (nullable (.lit "__Type")),
    field (.lit "directives") (listOf (.lit "__Directive") true)]),
  (.lit "__Type", object [
    field (.lit "kind") (required (.lit "__TypeKind")),
    field (.lit "name") (nullable (.lit "String")),
    field (.lit "description") (nullable (.lit "String")),
    deprecatable (.lit "fields") (listOf (.lit "__Field") false),
    field (.lit "interfaces") (listOf (.lit "__Type") false),
    field (.lit "possibleTypes") (listOf (.lit "__Type") false),
    deprecatable (.lit "enumValues") (listOf (.lit "__EnumValue") false),
    deprecatable (.lit "inputFields") (listOf (.lit "__InputValue") false),
    field (.lit "ofType") (nullable (.lit "__Type")),
    field (.lit "specifiedByURL") (nullable (.lit "String"))]),
  (.lit "__TypeKind", enum [.lit "SCALAR", .lit "OBJECT", .lit "INTERFACE", .lit "UNION",
    .lit "ENUM", .lit "INPUT_OBJECT", .lit "LIST", .lit "NON_NULL"]),
  (.lit "__Field", object [
    field (.lit "name") (required (.lit "String")),
    field (.lit "description") (nullable (.lit "String")),
    deprecatable (.lit "args") (listOf (.lit "__InputValue") true),
    field (.lit "type") (required (.lit "__Type")),
    field (.lit "isDeprecated") (required (.lit "Boolean")),
    field (.lit "deprecationReason") (nullable (.lit "String"))]),
  (.lit "__InputValue", object [
    field (.lit "name") (required (.lit "String")),
    field (.lit "description") (nullable (.lit "String")),
    field (.lit "type") (required (.lit "__Type")),
    field (.lit "defaultValue") (nullable (.lit "String")),
    field (.lit "isDeprecated") (required (.lit "Boolean")),
    field (.lit "deprecationReason") (nullable (.lit "String"))]),
  (.lit "__EnumValue", object [
    field (.lit "name") (required (.lit "String")),
    field (.lit "description") (nullable (.lit "String")),
    field (.lit "isDeprecated") (required (.lit "Boolean")),
    field (.lit "deprecationReason") (nullable (.lit "String"))]),
  (.lit "__Directive", object [
    field (.lit "name") (required (.lit "String")),
    field (.lit "description") (nullable (.lit "String")),
    field (.lit "locations") (listOf (.lit "__DirectiveLocation") true),
    deprecatable (.lit "args") (listOf (.lit "__InputValue") true),
    field (.lit "isRepeatable") (required (.lit "Boolean"))]),
  (.lit "__DirectiveLocation", enum (DirectiveLocation.all.map (·.name)))]

def conditional : DirectiveDef where
  arguments := [(.lit "if", { type := required (.lit "Boolean") })]
  locations := [.field, .fragmentSpread, .inlineFragment]

def directiveDefs : OrderedMap Name DirectiveDef := .ofList [
  (.lit "skip", conditional),
  (.lit "include", conditional),
  (.lit "deprecated", {
    arguments := [(.lit "reason",
      { type := nullable (.lit "String"), defaultValue := some (.string "No longer supported") })]
    locations := [.fieldDefinition, .argumentDefinition, .inputFieldDefinition, .enumValue] }),
  (.lit "specifiedBy", {
    arguments := [(.lit "url", { type := required (.lit "String") })]
    locations := [.scalar] })]

end BuiltIn

def Schema.builtIn : Schema where
  directiveDefs := BuiltIn.directiveDefs
  types := BuiltIn.types

def isBuiltInType (name : Name) : Bool := BuiltIn.types.contains name

def isBuiltInDirective (name : Name) : Bool := BuiltIn.directiveDefs.contains name

end Supergraph.GraphQL
