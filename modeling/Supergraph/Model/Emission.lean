import Supergraph.Join
import Supergraph.Model.Retained

/-!
This module contains the supergraph schema of a model. An element carries first the applications
that are copied from subgraphs, then the facts that tell which subgraphs declare it and how.
-/

namespace Supergraph

open GraphQL

structure Annotator where
  graphs : Identities
  retained : OrderedMap Name RetainedDirective

namespace Annotator

def copied (a : Annotator) (location : DirectiveLocation) (applications : List (List Directive)) :
    List Directive :=
  (OrderedSet.ofList (applications.flatten.filter fun d =>
    (a.retained.get? d.name).any (·.copiesAt location))).toList

def facts {δ : Type} (a : Annotator) (byGraph : ByGraph δ) (contribute : Name → δ → List JoinFact) :
    List Directive :=
  byGraph.toList.flatMap fun (graph, d) =>
    ((a.graphs.enumValue? graph).toList.flatMap (contribute · d)).map (·.toDirective)

def typeFacts {δ : Type} (a : Annotator) (byGraph : ByGraph δ) : List Directive :=
  a.facts byGraph fun graph _ => [.type graph none]

end Annotator

def InputEntry.emit (a : Annotator) (location : DirectiveLocation) (e : InputEntry) :
    InputValueDef :=
  e.toDef (a.copied location (e.byGraph.values.map (·.directives)))

namespace FieldEntry

def needsFacts (e : FieldEntry) (subgraphs : Nat) : Bool :=
  -- A field that all subgraphs with its type declare alike needs no facts.
  e.byGraph.size != subgraphs || e.byGraph.values.any fun d =>
    d.external || d.requires.isSome || d.provides.isSome || d.type != e.type

def facts (a : Annotator) (e : FieldEntry) : List Directive :=
  a.facts e.byGraph fun graph d =>
    [.field graph d.requires d.provides (if d.type = e.type then none else some d.type) d.external]

def emit (a : Annotator) (subgraphs : Nat) (e : FieldEntry) : FieldDef where
  description := e.description
  arguments := (sharedInputs e.byGraph.size e.arguments).toList.map fun (n, argument) =>
    (n, argument.emit a .argumentDefinition)
  type := e.type
  directives := a.copied .fieldDefinition (e.byGraph.values.map (·.directives))
    ++ if e.needsFacts subgraphs then e.facts a else []

end FieldEntry

namespace CompositeEntry

def facts (a : Annotator) (e : CompositeEntry) : List Directive :=
  (a.facts e.byGraph fun graph d =>
      if d.keys.isEmpty then [.type graph none] else d.keys.map fun key => .type graph (some key))
    ++ a.facts e.byGraph fun graph d => d.interfaces.toList.map (.implements graph)

def body (a : Annotator) (e : CompositeEntry) : CompositeBody where
  interfaces := .ofList (e.byGraph.values.flatMap (·.interfaces.toList))
  fields := e.fields.map fun _ field => field.emit a e.byGraph.size

def directives (a : Annotator) (location : DirectiveLocation) (e : CompositeEntry) :
    List Directive :=
  a.copied location (e.byGraph.values.map (·.directives)) ++ e.facts a

def emitObject (a : Annotator) (e : CompositeEntry) : TypeDef where
  description := e.description
  directives := e.directives a .object
  body := .object (e.body a)

def emitInterface (a : Annotator) (e : CompositeEntry) : TypeDef where
  description := e.description
  directives := e.directives a .interface
  body := .interface (e.body a)

end CompositeEntry

def InputObjectEntry.emit (a : Annotator) (e : InputObjectEntry) : TypeDef where
  description := e.description
  directives := a.copied .inputObject e.byGraph.values ++ a.typeFacts e.byGraph
  body := .inputObject <| (sharedInputs e.byGraph.size e.fields).map fun _ field =>
    field.emit a .inputFieldDefinition

def EnumValueEntry.emit (a : Annotator) (e : EnumValueEntry) : EnumValueDef where
  description := e.description
  directives := a.copied .enumValue e.byGraph.values
    ++ a.facts e.byGraph fun graph _ => [.enumValue graph]

def EnumEntry.emit (a : Annotator) (e : EnumEntry) : TypeDef where
  description := e.description
  directives := a.copied .enum e.byGraph.values ++ a.typeFacts e.byGraph
  body := .enum (e.values.map fun _ value => value.emit a)

namespace UnionEntry

def membersIn (e : UnionEntry) (graph : GraphId) : List Name :=
  (e.members.filter fun _ graphs => graph ∈ graphs).keys

def emit (a : Annotator) (e : UnionEntry) : TypeDef where
  description := e.description
  directives := a.copied .union e.byGraph.values ++ a.typeFacts e.byGraph
    ++ a.facts (e.byGraph.map fun graph _ => e.membersIn graph) fun graph members =>
      members.map (.unionMember graph)
  body := .union ⟨e.members.keys, e.members.keys_nodup⟩

end UnionEntry

def ScalarEntry.emit (a : Annotator) (e : ScalarEntry) : TypeDef where
  description := e.description
  directives := a.copied .scalar e.byGraph.values ++ a.typeFacts e.byGraph
  body := .scalar

namespace Model

def annotator (m : Model) : Annotator := { graphs := m.graphs, retained := m.retained }

def emitType? (m : Model) (a : Annotator) (name : Name) : TypeKind → Option TypeDef
  | .object => (m.objects.get? name).map (·.emitObject a)
  | .interface => (m.interfaces.get? name).map (·.emitInterface a)
  | .inputObject => (m.inputObjects.get? name).map (·.emit a)
  | .enum => (m.enums.get? name).map (·.emit a)
  | .union => (m.unions.get? name).map (·.emit a)
  | .scalar => (m.scalars.get? name).map (·.emit a)

def emitTypes (m : Model) : OrderedMap Name TypeDef :=
  let a := m.annotator
  -- Subgraphs may disagree on the kind, and the first one decides.
  m.kinds.filterMap fun name kinds => kinds.values.head?.bind (m.emitType? a name)

def emitRoots (m : Model) : RootTypes :=
  -- It is enough that some subgraph declares an object type of that name.
  fun operation => (m.roots operation).filter m.objects.contains

def toSchema (m : Model) : Schema where
  directives := Join.links
  roots := m.emitRoots
  directiveDefs := (Schema.builtIn.directiveDefs.insertMany Join.directiveDefs).insertMany
    (m.retained.toList.map fun (name, d) => (name, d.definition))
  types := (Schema.builtIn.types.insertMany (Join.types m.graphs)).insertMany m.emitTypes.toList

end Model

end Supergraph
