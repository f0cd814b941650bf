import Supergraph.Model

/-!
This module contains the directive definitions that survive into the supergraph. A client may use a
directive with any subgraph, so only what all subgraphs declare is kept.
-/

namespace Supergraph

open GraphQL

def sharedInputs (subgraphs : Nat) (inputs : OrderedMap Name InputEntry) :
    OrderedMap Name InputEntry :=
  inputs.filter fun _ e => e.byGraph.size == subgraphs

def InputEntry.toDef (e : InputEntry) (directives : List Directive) : InputValueDef where
  description := e.description
  type := e.type
  defaultValue := e.defaultValue
  directives := directives

structure RetainedDirective where
  definition : DirectiveDef
  composed : Bool
deriving Inhabited

def RetainedDirective.copiesAt (d : RetainedDirective) (location : DirectiveLocation) : Bool :=
  d.composed && d.definition.locations.contains location

namespace DirectiveEntry

def commonLocations (e : DirectiveEntry) : OrderedSet DirectiveLocation :=
  match e.byGraph.values with
  | [] => ∅
  | first :: rest => first.locations.filter fun location =>
    rest.all fun d => location ∈ d.locations

def appliedLocations (e : DirectiveEntry) : List DirectiveLocation :=
  (e.byGraph.values.flatMap (·.usedLocations.toList)).filter (!·.isExecutable)

/--
The locations in the supergraph: the common ones, and for a composed directive those at which it is
applied. One that is not composed keeps executable locations only.
-/
def mergedLocations (e : DirectiveEntry) : OrderedSet DirectiveLocation :=
  if e.isComposed then e.commonLocations.insertMany e.appliedLocations
  else e.commonLocations.filter (·.isExecutable)

def mergedDef (e : DirectiveEntry) : DirectiveDef where
  description := e.description
  arguments := (sharedInputs e.byGraph.size e.arguments).toList.map fun (n, a) => (n, a.toDef [])
  repeatable := e.byGraph.values.all (·.repeatable)
  locations := e.mergedLocations.toList

def retain? (subgraphs : Nat) (e : DirectiveEntry) : Option RetainedDirective :=
  -- A directive without a location could not be applied anywhere.
  if e.byGraph.size = subgraphs ∧ ¬ e.mergedLocations.isEmpty then
    some { definition := e.mergedDef, composed := e.isComposed }
  else none

end DirectiveEntry

def Model.retained (m : Model) : OrderedMap Name RetainedDirective :=
  m.directives.filterMap fun _ e => e.retain? m.subgraphCount

end Supergraph
