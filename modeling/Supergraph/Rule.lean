import Supergraph.Error
import Supergraph.Visit
import Supergraph.Model.Retained
import Supergraph.GraphQL.Layout.Value

/-!
This module contains the rules that a model is checked with before it becomes a supergraph. Each
rule reports the conflicts of one or two codes, and no other rule does.
-/

namespace Supergraph

open GraphQL

structure Rule where
  name : String
  visitor : Identities → Visitor Conflict

namespace Rule

def sides? {ν : Type} [DecidableEq ν] (ids : Identities) (declared : List (ν × GraphId)) :
    Option (List (ν × List String)) :=
  let groups := OrderedMap.group declared
  if groups.size < 2 then none
  else some (groups.toList.map fun (said, graphs) => (said, graphs.map ids.name))

def inputTypes (e : InputEntry) : List (String × GraphId) :=
  e.byGraph.toList.map fun (graph, d) => ((e.type.normalizeInput d.type).render, graph)

def outputTypes (e : FieldEntry) : List (String × GraphId) :=
  e.byGraph.toList.map fun (graph, d) => ((e.type.normalizeOutput d.type).render, graph)

def defaults (e : InputEntry) : List (String × GraphId) :=
  e.byGraph.toList.filterMap fun (graph, d) => d.defaultValue.map fun v => (v.render 0, graph)

def missing? (ids : Identities) (parents : List GraphId) (e : InputEntry) :
    Option (List String × List String) :=
  let requiredIn := (e.byGraph.filter fun _ d => d.isRequired).keys
  let missingIn := parents.filter (!e.byGraph.contains ·)
  if requiredIn.isEmpty || missingIn.isEmpty then none
  else some (requiredIn.map ids.name, missingIn.map ids.name)

def typeKinds : Rule where
  name := "TypesOfTheSameKindRule"
  visitor ids := {
    slots := [.namedType]
    report
      | .namedType name kinds =>
        ((sides? ids (kinds.toList.map fun (graph, kind) => (kind, graph))).map
          (Conflict.typeKind name)).toList
      | _ => [] }

def fieldTypes : Rule where
  name := "FieldsOfTheSameTypeRule"
  visitor ids := {
    slots := [.objectField, .interfaceField, .inputObjectField]
    report v :=
      let types := match v with
        | .objectField _ _ _ field => outputTypes field
        | .interfaceField _ _ _ field => outputTypes field
        | .inputObjectField _ _ _ field => inputTypes field
        | _ => []
      ((sides? ids types).map (Conflict.fieldType v.place)).toList }

/--
An argument of an object field has compatible types in every subgraph, and so has an argument of a
directive that clients can use and that every subgraph declares.
-/
def argumentTypes : Rule where
  name := "FieldArgumentsOfTheSameTypeRule"
  visitor ids := {
    slots := [.objectFieldArgument, .directiveArgument]
    report v :=
      let types := match v with
        | .objectFieldArgument _ _ _ _ _ argument => inputTypes argument
        | .directiveArgument _ directive _ argument =>
          if directive.isExecutable && directive.byGraph.size == ids.size then inputTypes argument
          else []
        | _ => []
      ((sides? ids types).map (Conflict.argumentType v.place)).toList }

def requiredArguments : Rule where
  name := "RequiredArgumentMissingInSomeSubgraphRule"
  visitor ids := {
    slots := [.objectFieldArgument, .interfaceFieldArgument]
    report v :=
      let missing := match v with
        | .objectFieldArgument _ _ _ field _ argument => missing? ids field.byGraph.keys argument
        | .interfaceFieldArgument _ _ _ field _ argument => missing? ids field.byGraph.keys argument
        | _ => none
      (missing.map fun (requiredIn, missingIn) =>
        Conflict.requiredArgument v.place requiredIn missingIn).toList }

def argumentDefaults : Rule where
  name := "FieldArgumentDefaultsRule"
  visitor ids := {
    -- Arguments of interface fields are not compared.
    slots := [.objectFieldArgument]
    report
      | v@(.objectFieldArgument _ _ _ _ _ argument) =>
        ((sides? ids (defaults argument)).map (Conflict.argumentDefault v.place)).toList
      | _ => [] }

def inputFields : Rule where
  name := "InputObjectFieldsRule"
  visitor ids := {
    slots := [.inputObjectType, .inputObjectField]
    report
      | .inputObjectType name type =>
        -- Only fields that every subgraph with the type declares are merged.
        if (sharedInputs type.byGraph.size type.fields).isEmpty then [.emptyInputType name] else []
      | v@(.inputObjectField _ type _ field) =>
        ((missing? ids type.byGraph.keys field).map fun (requiredIn, missingIn) =>
          Conflict.requiredInputField v.place requiredIn missingIn).toList
      | _ => [] }

def all : List Rule := [
  typeKinds, fieldTypes, argumentTypes, requiredArguments, argumentDefaults, inputFields]

def ofName? (name : String) : Option Rule := all.find? (·.name == name)

def enabled (disabled : List String) : List Rule := all.filter (·.name ∉ disabled)

end Rule

def Model.conflicts (m : Model) (rules : List Rule) : List Conflict :=
  m.walk (rules.map (·.visitor m.graphs))

end Supergraph
