import Supergraph.Model.Emission
import Supergraph.Proofs.Rule.Finding

/-!
This module contains the theory of the two rules about types: when they report an element, and what
an unreported type promises to every subgraph.
-/

namespace Supergraph

open GraphQL

namespace Visit

def emittedType? (a : Annotator) (v : Visit) : Option TypeRef :=
  match v with
  | .objectField _ type _ field => some (field.emit a type.byGraph.size).type
  | .objectFieldArgument _ _ _ _ _ argument => some (argument.emit a .argumentDefinition).type
  | .interfaceField _ type _ field => some (field.emit a type.byGraph.size).type
  | .interfaceFieldArgument _ _ _ _ _ argument => some (argument.emit a .argumentDefinition).type
  | .inputObjectField _ _ _ field => some (field.emit a .inputFieldDefinition).type
  | .directiveArgument _ _ _ argument => some (argument.toDef []).type
  | _ => none

def isOutput (v : Visit) : Bool :=
  match v with
  | .objectField .. | .interfaceField .. => true
  | _ => false

def mismatchCode (v : Visit) : ErrorCode :=
  match v with
  | .objectFieldArgument .. | .directiveArgument .. => .fieldArgumentTypeMismatch
  | _ => .fieldTypeMismatch

/--
Whether rules look at the types of the element. They leave out arguments of interface fields, and of
directives that no client can use or that some subgraph does not declare.
-/
def HasCheckedType (subgraphs : List Subgraph) (v : Visit) : Prop :=
  match v with
  | .objectField .. | .interfaceField .. | .inputObjectField .. | .objectFieldArgument .. => True
  | .directiveArgument name _ _ _ =>
    (∃ s ∈ subgraphs, ∃ d ∈ s.schema.userDirective? name, ∃ location ∈ d.locations,
      location.isExecutable)
      ∧ ∀ s ∈ subgraphs, (s.schema.userDirective? name).isSome
  | _ => False

def typeConflicts (graphs : Identities) (v : Visit) : List Conflict :=
  [Rule.fieldTypes, Rule.argumentTypes].flatMap fun r => (r.visitor graphs).visit v

end Visit

theorem Model.conflicts_typeRules (m : Model) :
    m.conflicts [Rule.fieldTypes, Rule.argumentTypes]
      =
    m.visits.flatMap (·.typeConflicts m.graphs) :=
  rfl

namespace Rule

variable {subgraphs : List Subgraph} {graphs : Identities}

theorem reports_typeConflicts (h : Identities.resolve subgraphs = .ok graphs)
    (hdistinct : ∀ s ∈ subgraphs, s.schema.DistinctArguments) {v : Visit}
    (hv : v ∈ (Model.ofSubgraphs graphs subgraphs).visits) (hchecked : v.HasCheckedType subgraphs)
    : Reports (v.typeConflicts graphs) v.mismatchCode v.place
        (Finding.type (schemaSet (subgraphs.map (·.schema))) v.slot v.place) := by
  have hfield := reports_fieldTypes h hv hdistinct
  have hargument := reports_argumentTypes h hv hdistinct
  unfold Visit.typeConflicts
  rw [List.flatMap_cons, List.flatMap_cons, List.flatMap_nil, List.append_nil]
  cases v with
  | objectField | interfaceField | inputObjectField =>
    rw [hargument.of_false (by simp [Visit.slot]), List.append_nil]
    exact hfield.congr (by simp [Visit.slot])
  | objectFieldArgument =>
    rw [hfield.of_false (by simp [Visit.slot]), List.nil_append]
    exact hargument.congr (by simp [Visit.slot])
  | directiveArgument name entry argumentName argument =>
    have husable : Finding.usable (schemaSet (subgraphs.map (·.schema)))
        (.directiveArgument name argumentName) := by
      simpa [Finding.usable, Visit.HasCheckedType] using hchecked
    rw [hfield.of_false (by simp [Visit.slot]), List.nil_append]
    exact hargument.congr (by simp [Visit.slot, Visit.place, husable])
  | _ => cases hchecked

theorem isElected_emittedType (h : Identities.resolve subgraphs = .ok graphs) {v : Visit}
    (hv : v ∈ (Model.ofSubgraphs graphs subgraphs).visits) (hchecked : v.HasCheckedType subgraphs)
    (a : Annotator)
    : ∃ t, v.emittedType? a = some t
        ∧ TypeRef.IsElected (!v.isOutput)
          (subgraphs.flatMap (·.schema.typesAt v.slot v.place)) t := by
  cases v with
  | objectField | interfaceField => exact ⟨_, rfl, isElected_fieldEntry h hv rfl⟩
  | objectFieldArgument | inputObjectField | directiveArgument =>
    exact ⟨_, rfl, isElected_inputEntry h hv rfl⟩
  | _ => cases hchecked

theorem typeConflicts_exact (h : Identities.resolve subgraphs = .ok graphs)
    (hdistinct : ∀ s ∈ subgraphs, s.schema.DistinctArguments) {v : Visit}
    (hv : v ∈ (Model.ofSubgraphs graphs subgraphs).visits) (hchecked : v.HasCheckedType subgraphs)
    : ((∃ c ∈ v.typeConflicts graphs, c.code = v.mismatchCode ∧ c.place = v.place)
          ↔ ∃ s ∈ subgraphs, ∃ t ∈ s.schema.typesAt v.slot v.place,
            ∃ s' ∈ subgraphs, ∃ u ∈ s'.schema.typesAt v.slot v.place, ¬ t.SameNullable u)
        ∧ (v.typeConflicts graphs = [] →
          ∃ t, v.emittedType? (Model.ofSubgraphs graphs subgraphs).annotator = some t
            ∧ t.Joins v.isOutput (subgraphs.flatMap (·.schema.typesAt v.slot v.place))) := by
  have hreports := reports_typeConflicts h hdistinct hv hchecked
  have htype : Finding.type (schemaSet (subgraphs.map (·.schema))) v.slot v.place
      ↔ ∃ s ∈ subgraphs, ∃ t ∈ s.schema.typesAt v.slot v.place,
        ∃ s' ∈ subgraphs, ∃ u ∈ s'.schema.typesAt v.slot v.place, ¬ t.SameNullable u := by
    simp [Finding.type, Differ]
  constructor
  . rw [hreports.exists_mem_iff, htype]
  . intro hnone
    rw [hreports.eq_nil_iff, htype] at hnone
    obtain ⟨t, ht, helected⟩ := isElected_emittedType h hv hchecked
      (Model.ofSubgraphs graphs subgraphs).annotator
    refine ⟨t, ht, helected.joins ?_⟩
    intro a ha b hb
    obtain ⟨s, hs, ha⟩ := List.mem_flatMap.1 ha
    obtain ⟨s', hs', hb⟩ := List.mem_flatMap.1 hb
    apply Classical.byContradiction
    intro hne
    exact hnone ⟨s, hs, a, ha, s', hs', b, hb, hne⟩

theorem typeConflicts_exact_sample :
    ∃ v ∈ (Model.ofSubgraphs sampleGraphs sampleSubgraphs).visits,
      v.place = .member (.lit "Query") (.lit "a") ∧ v.typeConflicts sampleGraphs = []
        ∧ ∃ t, v.emittedType? (Model.ofSubgraphs sampleGraphs sampleSubgraphs).annotator = some t
          ∧ t.Joins v.isOutput (sampleSubgraphs.flatMap (·.schema.typesAt v.slot v.place)) := by
  have hv := List.get_mem (Model.ofSubgraphs sampleGraphs sampleSubgraphs).visits ⟨2, by decide⟩
  have hexact := typeConflicts_exact resolve_sampleSubgraphs distinctArguments_sampleSubgraphs hv
    trivial
  exact ⟨_, hv, rfl, rfl, hexact.2 rfl⟩

end Rule

end Supergraph
