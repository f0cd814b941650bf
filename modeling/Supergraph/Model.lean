import Supergraph.Identity

/-!
This module contains the merged model of a run. Every element that has a name of its own maps the
subgraphs that declare it to what they declare, beside the one declaration that was elected for the
supergraph. Conflicts are kept as they are.
-/

namespace Supergraph

open GraphQL

abbrev ByGraph (δ : Type) := OrderedMap GraphId δ

structure Key where
  fields : String
  resolvable : Bool
deriving DecidableEq, Inhabited

structure CompositeInGraph where
  interfaces : OrderedSet Name
  keys : List Key
  directives : List Directive
deriving Inhabited

structure FieldInGraph where
  type : TypeRef
  external : Bool
  requires : Option String
  provides : Option String
  directives : List Directive
deriving DecidableEq, Inhabited

structure InputInGraph where
  type : TypeRef
  defaultValue : Option Value
  directives : List Directive
deriving DecidableEq, Inhabited

def InputInGraph.isRequired (d : InputInGraph) : Bool := d.type.isNonNull && d.defaultValue.isNone

structure DirectiveInGraph where
  locations : OrderedSet DirectiveLocation
  repeatable : Bool
  composed : Bool
  usedLocations : OrderedSet DirectiveLocation
deriving Inhabited

structure InputEntry where
  type : TypeRef
  defaultValue : Option Value
  description : Option String
  byGraph : ByGraph InputInGraph
deriving Inhabited

structure FieldEntry where
  type : TypeRef
  description : Option String
  byGraph : ByGraph FieldInGraph
  arguments : OrderedMap Name InputEntry
deriving Inhabited

structure CompositeEntry where
  description : Option String
  byGraph : ByGraph CompositeInGraph
  fields : OrderedMap Name FieldEntry
deriving Inhabited

structure InputObjectEntry where
  description : Option String
  byGraph : ByGraph (List Directive)
  fields : OrderedMap Name InputEntry
deriving Inhabited

structure EnumValueEntry where
  description : Option String
  byGraph : ByGraph (List Directive)
deriving Inhabited

structure EnumEntry where
  description : Option String
  byGraph : ByGraph (List Directive)
  values : OrderedMap Name EnumValueEntry
deriving Inhabited

structure UnionEntry where
  description : Option String
  byGraph : ByGraph (List Directive)
  members : OrderedMap Name (OrderedSet GraphId)
deriving Inhabited

structure ScalarEntry where
  description : Option String
  byGraph : ByGraph (List Directive)
deriving Inhabited

structure DirectiveEntry where
  description : Option String
  byGraph : ByGraph DirectiveInGraph
  arguments : OrderedMap Name InputEntry
deriving Inhabited

namespace DirectiveEntry

def isExecutable (e : DirectiveEntry) : Bool :=
  e.byGraph.values.any fun d => d.locations.toList.any (·.isExecutable)

def isComposed (e : DirectiveEntry) : Bool :=
  !e.byGraph.isEmpty && e.byGraph.values.all (·.composed)

end DirectiveEntry

structure Model where
  graphs : Identities
  roots : RootTypes := fun _ => none
  kinds : OrderedMap Name (ByGraph TypeKind) := ∅
  objects : OrderedMap Name CompositeEntry := ∅
  interfaces : OrderedMap Name CompositeEntry := ∅
  inputObjects : OrderedMap Name InputObjectEntry := ∅
  enums : OrderedMap Name EnumEntry := ∅
  unions : OrderedMap Name UnionEntry := ∅
  scalars : OrderedMap Name ScalarEntry := ∅
  directives : OrderedMap Name DirectiveEntry := ∅
deriving Inhabited

def Model.subgraphCount (m : Model) : Nat := m.graphs.size

end Supergraph
