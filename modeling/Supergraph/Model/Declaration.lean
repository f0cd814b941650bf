import Supergraph.Model
import Supergraph.Federation

/-!
This module contains the steps by which a model takes up what a subgraph declares. Each step elects
anew, and records the declaration under the subgraph.
-/

namespace Supergraph

open GraphQL

def mergeDescription (merged declared : Option String) : Option String :=
  if merged.all (·.isEmpty) then declared.or merged else merged

structure Declarer where
  graph : GraphId
  keeps : Directive → Bool

def Key.ofDirective? (d : Directive) : Option Key :=
  if Federation.isApplication "key" d then
    (d.stringArgument? "fields").map fun fields =>
      { fields, resolvable := (d.boolArgument? "resolvable").getD true }
  else none

def selection? (name : String) (ds : List Directive) : Option String :=
  (ds.find? (Federation.isApplication name)).bind (·.stringArgument? "fields")

def InputEntry.declare (declarer : Declarer) (d : InputValueDef) (entry : Option InputEntry) :
    InputEntry :=
  let e := entry.getD { type := d.type, defaultValue := none, description := none, byGraph := ∅ }
  { type := e.type.electInput d.type
    defaultValue := e.defaultValue.or d.defaultValue
    description := mergeDescription e.description d.description
    byGraph := e.byGraph.insert declarer.graph {
      type := d.type
      defaultValue := d.defaultValue
      directives := d.directives.filter declarer.keeps } }

def declareInputs (declarer : Declarer) (inputs : List (Name × InputValueDef))
    (entries : OrderedMap Name InputEntry) : OrderedMap Name InputEntry :=
  -- Of a name given twice, the last declaration is recorded.
  inputs.foldl (fun entries (name, d) => entries.upsert name (.declare declarer d)) entries

def FieldEntry.declare (declarer : Declarer) (d : FieldDef) (entry : Option FieldEntry) :
    FieldEntry :=
  let e := entry.getD { type := d.type, description := none, byGraph := ∅, arguments := ∅ }
  { type := e.type.electOutput d.type
    description := mergeDescription e.description d.description
    byGraph := e.byGraph.insert declarer.graph {
      type := d.type
      external := d.directives.any (Federation.isApplication "external")
      requires := selection? "requires" d.directives
      provides := selection? "provides" d.directives
      directives := d.directives.filter declarer.keeps }
    arguments := declareInputs declarer d.arguments e.arguments }

def declareFields (declarer : Declarer) (fields : OrderedMap Name FieldDef)
    (entries : OrderedMap Name FieldEntry) : OrderedMap Name FieldEntry :=
  fields.toList.foldl (fun entries (name, d) => entries.upsert name (.declare declarer d)) entries

def CompositeEntry.declare (declarer : Declarer) (d : TypeDef) (body : CompositeBody)
    (entry : Option CompositeEntry) : CompositeEntry :=
  let e := entry.getD { description := none, byGraph := ∅, fields := ∅ }
  { description := mergeDescription e.description d.description
    byGraph := e.byGraph.insert declarer.graph {
      interfaces := body.interfaces
      keys := d.directives.filterMap Key.ofDirective?
      directives := d.directives.filter declarer.keeps }
    fields := declareFields declarer body.fields e.fields }

def InputObjectEntry.declare (declarer : Declarer) (d : TypeDef)
    (fields : OrderedMap Name InputValueDef) (entry : Option InputObjectEntry) :
    InputObjectEntry :=
  let e := entry.getD { description := none, byGraph := ∅, fields := ∅ }
  { description := mergeDescription e.description d.description
    byGraph := e.byGraph.insert declarer.graph (d.directives.filter declarer.keeps)
    fields := declareInputs declarer fields.toList e.fields }

def EnumValueEntry.declare (declarer : Declarer) (d : EnumValueDef)
    (entry : Option EnumValueEntry) : EnumValueEntry :=
  let e := entry.getD { description := none, byGraph := ∅ }
  { description := mergeDescription e.description d.description
    byGraph := e.byGraph.insert declarer.graph (d.directives.filter declarer.keeps) }

def EnumEntry.declare (declarer : Declarer) (d : TypeDef)
    (values : OrderedMap Name EnumValueDef) (entry : Option EnumEntry) : EnumEntry :=
  let e := entry.getD { description := none, byGraph := ∅, values := ∅ }
  { description := mergeDescription e.description d.description
    byGraph := e.byGraph.insert declarer.graph (d.directives.filter declarer.keeps)
    values := values.toList.foldl
      (fun entries (name, v) => entries.upsert name (.declare declarer v)) e.values }

def UnionEntry.declare (declarer : Declarer) (d : TypeDef) (members : OrderedSet Name)
    (entry : Option UnionEntry) : UnionEntry :=
  let e := entry.getD { description := none, byGraph := ∅, members := ∅ }
  let join := fun graphs : Option (OrderedSet GraphId) => (graphs.getD ∅).insert declarer.graph
  { description := mergeDescription e.description d.description
    byGraph := e.byGraph.insert declarer.graph (d.directives.filter declarer.keeps)
    members := members.toList.foldl (fun entries name => entries.upsert name join) e.members }

def ScalarEntry.declare (declarer : Declarer) (d : TypeDef) (entry : Option ScalarEntry) :
    ScalarEntry :=
  let e := entry.getD { description := none, byGraph := ∅ }
  { description := mergeDescription e.description d.description
    byGraph := e.byGraph.insert declarer.graph (d.directives.filter declarer.keeps) }

def DirectiveEntry.declare (graph : GraphId) (d : DirectiveDef) (composed : Bool)
    (usedLocations : OrderedSet DirectiveLocation) (entry : Option DirectiveEntry) :
    DirectiveEntry :=
  let e := entry.getD { description := none, byGraph := ∅, arguments := ∅ }
  { description := mergeDescription e.description d.description
    byGraph := e.byGraph.insert graph {
      locations := .ofList d.locations
      repeatable := d.repeatable
      composed, usedLocations }
    -- Applications on the arguments of a directive are not kept.
    arguments := declareInputs ⟨graph, fun _ => false⟩ d.arguments e.arguments }

namespace Model

def declareType (declarer : Declarer) (m : Model) (name : Name) (d : TypeDef) : Model :=
  let record := fun kinds : Option (ByGraph TypeKind) => (kinds.getD ∅).insert declarer.graph d.kind
  let m := { m with kinds := m.kinds.upsert name record }
  match d.body with
  | .object body => { m with objects := m.objects.upsert name (.declare declarer d body) }
  | .interface body => { m with interfaces := m.interfaces.upsert name (.declare declarer d body) }
  | .inputObject fields =>
    { m with inputObjects := m.inputObjects.upsert name (.declare declarer d fields) }
  | .enum values => { m with enums := m.enums.upsert name (.declare declarer d values) }
  | .union members => { m with unions := m.unions.upsert name (.declare declarer d members) }
  | .scalar => { m with scalars := m.scalars.upsert name (.declare declarer d) }

def declareDirective (graph : GraphId) (s : Schema) (m : Model) (name : Name) (d : DirectiveDef) :
    Model :=
  let composed := s.composedDirectives.contains name
  let declare := DirectiveEntry.declare graph d composed (s.usedLocations name)
  { m with directives := m.directives.upsert name declare }

def localRoot? (s : Schema) (operation : Operation) : Option Name :=
  (s.roots operation).or
    -- A type with the default name may be of any kind here.
    (if s.types.contains operation.defaultTypeName then some operation.defaultTypeName else none)

def absorb (m : Model) (graph : GraphId) (s : Schema) : Model :=
  -- The first subgraph with a root type decides on it.
  let m := { m with roots := fun operation => (m.roots operation).or (localRoot? s operation) }
  let m := s.userDirectives.foldl (fun m (name, d) => m.declareDirective graph s name d) m
  s.userTypes.foldl (fun m (name, d) => m.declareType ⟨graph, s.keeps⟩ name d) m

def history (m : Model) : List (GraphId × Schema) → List (GraphId × Model)
  | [] => []
  | (graph, s) :: rest =>
    let m := m.absorb graph s
    (graph, m) :: history m rest

def sources (graphs : Identities) (subgraphs : List Subgraph) : List (GraphId × Schema) :=
  graphs.keys.zip (subgraphs.map (·.schema))

def ofSubgraphs (graphs : Identities) (subgraphs : List Subgraph) : Model :=
  (sources graphs subgraphs).foldl (fun m (graph, s) => m.absorb graph s) { graphs }

end Model

end Supergraph
