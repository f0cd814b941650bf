import Supergraph.Model
import Supergraph.GraphQL.BuiltIn

/-!
This module contains the vocabulary in which a supergraph records what it is joined from. No
subgraph has a say in it, apart from its name and where it is served.
-/

namespace Supergraph

open GraphQL

/--
A statement about an element of the supergraph. The subgraph is given by its enum value.
-/
inductive JoinFact
  | type (graph : Name) (key : Option Key)
  | implements (graph interface : Name)
  | field (graph : Name) (requires provides : Option String) (declared : Option TypeRef)
    (external : Bool)
  | unionMember (graph member : Name)
  | enumValue (graph : Name)
deriving DecidableEq, Inhabited

namespace Join

def graphArgument (graph : Name) : Name × Value := (.lit "graph", .ofName graph)

def keyArguments (key : Key) : List (Name × Value) :=
  (.lit "key", .string key.fields)
    -- Keys are resolvable unless something else is said.
    :: if key.resolvable then [] else [(.lit "resolvable", .boolean false)]

def textArgument (name : Name) : Option String → List (Name × Value)
  | some s => [(name, .string s)]
  | none => []

end Join

open Join

def JoinFact.toDirective : JoinFact → Directive
  | .type graph key => {
      name := .lit "join__type"
      arguments := graphArgument graph :: (key.map keyArguments).getD [] }
  | .implements graph interface => {
      name := .lit "join__implements"
      arguments := [graphArgument graph, (.lit "interface", .string interface.text)] }
  | .field graph requires provides declared external => {
      name := .lit "join__field"
      arguments := graphArgument graph :: textArgument (.lit "requires") requires
        ++ textArgument (.lit "provides") provides
        ++ textArgument (.lit "type") (declared.map (·.render))
        ++ if external then [(.lit "external", .boolean true)] else [] }
  | .unionMember graph member => {
      name := .lit "join__unionMember"
      arguments := [graphArgument graph, (.lit "member", .string member.text)] }
  | .enumValue graph => {
      name := .lit "join__enumValue"
      arguments := [graphArgument graph] }

namespace Join

def links : List Directive := [
  { name := .lit "link"
    arguments := [(.lit "url", .string "https://specs.apollo.dev/link/v1.0")] },
  { name := .lit "link"
    arguments := [(.lit "url", .string "https://specs.apollo.dev/join/v0.3"),
      (.lit "for", .ofName (.lit "EXECUTION"))] }]

def nullable (type : Name) : InputValueDef := { type := .named type false }

def required (type : Name) : InputValueDef := { type := .named type true }

def flag (default : Bool) : InputValueDef :=
  { type := .named (.lit "Boolean") true, defaultValue := some (.boolean default) }

def string : Name := .lit "String"

def graphType : Name := .lit "join__Graph"

def fieldSet : Name := .lit "join__FieldSet"

def directiveDefs : List (Name × DirectiveDef) := [
  (.lit "link", {
    arguments := [
      (.lit "url", nullable string),
      (.lit "as", nullable string),
      (.lit "for", nullable (.lit "link__Purpose")),
      (.lit "import", { type := .list (.named (.lit "link__Import") false) false })]
    repeatable := true
    locations := [.schema] }),
  (.lit "join__graph", {
    arguments := [(.lit "name", required string), (.lit "url", required string)]
    locations := [.enumValue] }),
  (.lit "join__type", {
    arguments := [
      (.lit "graph", required graphType),
      (.lit "key", nullable fieldSet),
      (.lit "extension", flag false),
      (.lit "resolvable", flag true),
      (.lit "isInterfaceObject", flag false)]
    repeatable := true
    locations := [.object, .interface, .union, .enum, .inputObject, .scalar] }),
  (.lit "join__field", {
    arguments := [
      (.lit "graph", nullable graphType),
      (.lit "requires", nullable fieldSet),
      (.lit "provides", nullable fieldSet),
      (.lit "type", nullable string),
      (.lit "external", nullable (.lit "Boolean")),
      (.lit "override", nullable string),
      (.lit "usedOverridden", nullable (.lit "Boolean"))]
    repeatable := true
    locations := [.fieldDefinition, .inputFieldDefinition] }),
  (.lit "join__implements", {
    arguments := [(.lit "graph", required graphType), (.lit "interface", required string)]
    repeatable := true
    locations := [.object, .interface] }),
  (.lit "join__unionMember", {
    arguments := [(.lit "graph", required graphType), (.lit "member", required string)]
    repeatable := true
    locations := [.union] }),
  (.lit "join__enumValue", {
    arguments := [(.lit "graph", required graphType)]
    repeatable := true
    locations := [.enumValue] })]

def purposes : OrderedMap Name EnumValueDef := .ofList [
  (.lit "SECURITY", described
    "`SECURITY` features provide metadata necessary to securely resolve fields."),
  (.lit "EXECUTION", described
    "`EXECUTION` features provide metadata necessary for operation execution.")]
where
  described (text : String) : EnumValueDef := { description := some text }

def graphValue (identity : Identity) : Name × EnumValueDef :=
  (identity.enumValue, {
    directives := [{
      name := .lit "join__graph"
      arguments := [(.lit "name", .string identity.name),
        (.lit "url", .string (identity.url.getD ""))] }] })

def types (graphs : Identities) : List (Name × TypeDef) := [
  (.lit "link__Purpose", { body := .enum purposes }),
  (.lit "link__Import", { body := .scalar }),
  (fieldSet, { body := .scalar }),
  (graphType, { body := .enum (.ofList (graphs.values.map graphValue)) })]

end Join

end Supergraph
