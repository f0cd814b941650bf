import Supergraph.GraphQL.BuiltIn

/-!
This module contains the vocabulary by which subgraphs take part in a supergraph, and the part of a
schema that is merged.
-/

namespace Supergraph

open GraphQL

namespace Federation

def directives : List String := [
  "key", "requires", "provides", "external", "shareable", "extends", "override", "inaccessible",
  "tag", "link", "composeDirective", "interfaceObject", "authenticated", "requiresScopes", "policy",
  "context", "fromContext", "cost", "listSize"]

def standardDirectives : List String := [
  "skip", "include", "deprecated", "specifiedBy", "defer", "stream", "oneOf"]

def types : List String := [
  "_Any", "_Entity", "_Service", "FieldSet", "_FieldSet", "ContextFieldValue"]

def fields : List String := ["_service", "_entities"]

def namespaces : List String := ["federation__", "link__", "join__"]

def isNamespaced (name : Name) : Bool :=
  namespaces.any fun beginning => beginning.toList.isPrefixOf name.text.toList

def isUserDirective (name : Name) : Bool :=
  !directives.contains name.text && !standardDirectives.contains name.text && !isNamespaced name

def isUserType (name : Name) : Bool :=
  !isBuiltInType name && !types.contains name.text && !isNamespaced name

def isApplication (name : String) (d : Directive) : Bool :=
  d.name.text == name || d.name.text == "federation__" ++ name

end Federation

namespace GraphQL

def TypeBody.userPart : TypeBody → TypeBody
  | .object body => .object { body with fields := body.fields.filter isUserField }
  | .interface body => .interface { body with fields := body.fields.filter isUserField }
  | body => body
where
  isUserField (name : Name) (_ : FieldDef) : Bool := !Federation.fields.contains name.text

namespace Schema

def keeps (s : Schema) (d : Directive) : Bool :=
  Federation.isUserDirective d.name && s.directiveDefs.contains d.name

def userDirectives (s : Schema) : List (Name × DirectiveDef) :=
  s.directiveDefs.toList.filter fun (name, _) => Federation.isUserDirective name

def userTypes (s : Schema) : List (Name × TypeDef) :=
  (s.types.toList.filter fun (name, _) => Federation.isUserType name).map fun (name, d) =>
    (name, { d with body := d.body.userPart })

def composedDirectives (s : Schema) : List Name :=
  (s.directives.filter (Federation.isApplication "composeDirective")).filterMap fun d =>
    (d.stringArgument? "name").bind fun name =>
      -- Any number of `@` may stand in front of the name.
      Name.ofText? (String.ofList (name.toList.dropWhile (· == '@')))

end Schema

def InputValueDef.applications (location : DirectiveLocation) (d : InputValueDef) :
    List (DirectiveLocation × Directive) :=
  d.directives.map (location, ·)

def FieldDef.applications (d : FieldDef) : List (DirectiveLocation × Directive) :=
  d.directives.map (.fieldDefinition, ·)
    ++ d.arguments.flatMap fun (_, a) => a.applications .argumentDefinition

def TypeKind.location : TypeKind → DirectiveLocation
  | .object => .object
  | .interface => .interface
  | .union => .union
  | .enum => .enum
  | .inputObject => .inputObject
  | .scalar => .scalar

def TypeBody.applications : TypeBody → List (DirectiveLocation × Directive)
  | .object body => body.fields.values.flatMap (·.applications)
  | .interface body => body.fields.values.flatMap (·.applications)
  | .enum values => values.values.flatMap fun v => v.directives.map (.enumValue, ·)
  | .inputObject fields => fields.values.flatMap (·.applications .inputFieldDefinition)
  | .union _ => []
  | .scalar => []

def TypeDef.applications (d : TypeDef) : List (DirectiveLocation × Directive) :=
  d.directives.map (d.kind.location, ·) ++ d.body.applications

def Schema.usedLocations (s : Schema) (name : Name) : OrderedSet DirectiveLocation :=
  .ofList (((s.userTypes.flatMap (·.2.applications)).filter (·.2.name = name)).map (·.1))

end GraphQL

end Supergraph
