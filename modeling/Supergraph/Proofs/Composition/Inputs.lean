import Supergraph.Proofs.Composition.Copies
import Supergraph.Proofs.Model.TypeParts

/-!
This module contains the types and default values of inputs in the supergraph. Each is elected
without regard for the other, so together they may be what no subgraph declares.
-/

namespace Supergraph

open GraphQL

namespace Model

variable {m : Model}

theorem exists_emitType?_of_userType? {type : Name} {t : TypeDef}
    (ht : m.toSchema.userType? type = some t)
    : ∃ kind d, m.emitType? m.annotator type kind = some d ∧ d.userPart = t := by
  obtain ⟨huser, d, hd, rfl⟩ := Schema.exists_of_userType? ht
  obtain ⟨kind, hd⟩ := exists_emitType?_of_toSchema huser hd
  exact ⟨kind, d, hd, rfl⟩

theorem exists_object_of_emitType? {a : Annotator} {type : Name} {kind : TypeKind} {t : TypeDef}
    {x : TypeDef × CompositeBody} (ht : m.emitType? a type kind = some t)
    (hx : t.userPart.object? = some x)
    : ∃ e, m.objects.get? type = some e
        ∧ x.2.fields = (e.body a).fields.filter TypeBody.userPart.isUserField := by
  cases kind <;> obtain ⟨e, he, rfl⟩ := Option.map_eq_some_iff.1 ht <;> cases hx
  exact ⟨e, he, rfl⟩

theorem exists_interface_of_emitType? {a : Annotator} {type : Name} {kind : TypeKind} {t : TypeDef}
    {x : TypeDef × CompositeBody} (ht : m.emitType? a type kind = some t)
    (hx : t.userPart.interface? = some x)
    : ∃ e, m.interfaces.get? type = some e
        ∧ x.2.fields = (e.body a).fields.filter TypeBody.userPart.isUserField := by
  cases kind <;> obtain ⟨e, he, rfl⟩ := Option.map_eq_some_iff.1 ht <;> cases hx
  exact ⟨e, he, rfl⟩

theorem exists_field_of_toSchema {composite? : TypeDef → Option (TypeDef × CompositeBody)}
    {entries : OrderedMap Name CompositeEntry} {type field : Name}
    (hcomposite : ∀ {kind t x}, m.emitType? m.annotator type kind = some t →
      composite? t.userPart = some x → ∃ e, entries.get? type = some e
        ∧ x.2.fields = (e.body m.annotator).fields.filter TypeBody.userPart.isUserField)
    {d : FieldDef} (hd : m.toSchema.field? composite? type field = some d)
    : ∃ e fe, entries.get? type = some e ∧ e.fields.get? field = some fe
        ∧ fe.emit m.annotator e.byGraph.size = d := by
  obtain ⟨x, hx, hd⟩ := Option.bind_eq_some_iff.1 hd
  obtain ⟨t, ht, hx⟩ := Option.bind_eq_some_iff.1 hx
  obtain ⟨kind, emitted, hemitted, rfl⟩ := exists_emitType?_of_userType? ht
  obtain ⟨e, he, hfields⟩ := hcomposite hemitted hx
  rw [hfields, OrderedMap.get?_filter, Option.filter_eq_some_iff] at hd
  obtain ⟨fe, hfe, rfl⟩ := CompositeEntry.exists_field_of_body (Option.mem_toList.2 hd.1)
  exact ⟨e, fe, he, hfe, rfl⟩

theorem exists_inputField_of_toSchema {type field : Name} {d : InputValueDef}
    (hd : m.toSchema.inputField? type field = some d)
    : ∃ e ie, m.inputObjects.get? type = some e ∧ e.fields.get? field = some ie
        ∧ ie.emit m.annotator .inputFieldDefinition = d := by
  obtain ⟨x, hx, hd⟩ := Option.bind_eq_some_iff.1 hd
  obtain ⟨t, ht, hx⟩ := Option.bind_eq_some_iff.1 hx
  obtain ⟨kind, t, ht, rfl⟩ := exists_emitType?_of_userType? ht
  cases kind <;> obtain ⟨e, he, rfl⟩ := Option.map_eq_some_iff.1 ht <;> cases hx
  obtain ⟨ie, hie, rfl⟩ := InputObjectEntry.exists_field_of_emit (Option.mem_toList.2 hd)
  exact ⟨e, ie, he, hie, rfl⟩

theorem exists_argument_of_retained {directive argument : Name} {d : InputValueDef}
    (hd : d ∈ m.toSchema.directiveArguments directive argument)
    : ∃ e ie, m.directives.get? directive = some e ∧ e.arguments.get? argument = some ie
        ∧ ie.toDef [] = d := by
  obtain ⟨definition, hdefinition, hd⟩ := List.mem_flatMap.1 hd
  rw [Option.mem_toList] at hdefinition
  obtain ⟨hget, huser⟩ := Schema.userDirective?_eq_some_iff.1 hdefinition
  obtain ⟨retained, hretained, rfl⟩ := exists_retained_of_isUserDirective huser hget
  obtain ⟨e, he, -, -, rfl⟩ := get?_retained_eq_some_iff.1 hretained
  obtain ⟨ie, hie, rfl⟩ := exists_entry_of_shared (·.toDef []) hd
  exact ⟨e, ie, he, hie, rfl⟩

theorem exists_entry_of_inputsAt {slot : Slot} {place : Coordinate} {d : InputValueDef}
    (hd : d ∈ m.toSchema.inputsAt slot place)
    : ∃ v ∈ m.visits, v.slot = slot ∧ v.place = place
        ∧ ∃ e directives, v.inputEntry? = some e ∧ e.toDef directives = d := by
  simp only [mem_visits_iff]
  unfold Schema.inputsAt at hd
  split at hd
  . next type field argument =>
    obtain ⟨f, hf, hd⟩ := List.mem_flatMap.1 hd
    obtain ⟨e, fe, he, hfe, rfl⟩ :=
      exists_field_of_toSchema exists_object_of_emitType? (Option.mem_toList.1 hf)
    obtain ⟨ie, hie, rfl⟩ := FieldEntry.exists_argument_of_emit hd
    exact ⟨.objectFieldArgument type e field fe argument ie, ⟨he, hfe, hie⟩, rfl, rfl, ie, _, rfl,
      rfl⟩
  . next type field argument =>
    obtain ⟨f, hf, hd⟩ := List.mem_flatMap.1 hd
    obtain ⟨e, fe, he, hfe, rfl⟩ :=
      exists_field_of_toSchema exists_interface_of_emitType? (Option.mem_toList.1 hf)
    obtain ⟨ie, hie, rfl⟩ := FieldEntry.exists_argument_of_emit hd
    exact ⟨.interfaceFieldArgument type e field fe argument ie, ⟨he, hfe, hie⟩, rfl, rfl, ie, _,
      rfl, rfl⟩
  . next type field =>
    obtain ⟨e, ie, he, hie, rfl⟩ := exists_inputField_of_toSchema (Option.mem_toList.1 hd)
    exact ⟨.inputObjectField type e field ie, ⟨he, hie⟩, rfl, rfl, ie, _, rfl, rfl⟩
  . next directive argument =>
    obtain ⟨e, ie, he, hie, rfl⟩ := exists_argument_of_retained hd
    exact ⟨.directiveArgument directive e argument ie, ⟨he, hie⟩, rfl, rfl, ie, _, rfl, rfl⟩
  . cases hd

end Model

theorem Model.inputsAt_toSchema {subgraphs : List Subgraph} {graphs : Identities}
    (h : Identities.resolve subgraphs = .ok graphs) {slot : Slot} {place : Coordinate}
    {d : InputValueDef} (hd : d ∈ (ofSubgraphs graphs subgraphs).toSchema.inputsAt slot place)
    : (d.type.isNonNull
          ↔
        ∃ s ∈ subgraphs, ∃ d' ∈ s.schema.inputsAt slot place,
          d'.type.SameNullable d.type ∧ d'.type.isNonNull)
      ∧ d.defaultValue
          = (subgraphs.flatMap (·.schema.inputsAt slot place)).findSome? (·.defaultValue) := by
  obtain ⟨v, hv, rfl, rfl, e, directives, he, rfl⟩ := exists_entry_of_inputsAt hd
  have htypesAt : ∀ s : Schema, s.typesAt v.slot v.place
      = (s.inputsAt v.slot v.place).map (·.type) :=
    congrFun (Rule.typesAt_of_inputEntry he)
  refine ⟨?_, Rule.defaultValue_inputEntry h hv he⟩
  refine (Rule.isElected_inputEntry h hv he).isNonNull_iff.trans ?_
  simp only [List.mem_flatMap, htypesAt, List.mem_map]
  constructor
  . rintro ⟨_, ⟨s, hs, d, hd, rfl⟩, hsame, hnonNull⟩
    exact ⟨s, hs, d, hd, hsame.symm, hnonNull⟩
  . rintro ⟨s, hs, d, hd, hsame, hnonNull⟩
    exact ⟨d.type, ⟨s, hs, d, hd, rfl⟩, hsame.symm, hnonNull⟩

theorem nonNull_null_default_iff {subgraphs : List Subgraph} {disabled : List String}
    {c : Composition} (hc : compose subgraphs disabled = .ok c) {slot : Slot} {place : Coordinate}
    {d : InputValueDef} (hd : d ∈ c.schema.inputsAt slot place)
    : d.type.isNonNull ∧ d.defaultValue = some .null
        ↔
      (∃ s ∈ subgraphs, ∃ d' ∈ s.schema.inputsAt slot place,
          d'.type.SameNullable d.type ∧ d'.type.isNonNull)
        ∧ (subgraphs.flatMap (·.schema.inputsAt slot place)).findSome? (·.defaultValue)
          = some .null := by
  obtain ⟨graphs, h, -, rfl⟩ := (compose_eq_ok_iff subgraphs disabled c).1 hc
  obtain ⟨hnonNull, hdefault⟩ := Model.inputsAt_toSchema h hd
  rw [← hnonNull, ← hdefault]

def GraphQL.TypeBody.inputs : TypeBody → List InputValueDef
  | .object body | .interface body =>
    body.fields.values.flatMap fun d => d.arguments.map (·.2)
  | .inputObject fields => fields.values
  | .enum _ | .union _ | .scalar => []

def GraphQL.Schema.inputs (s : Schema) : List InputValueDef :=
  s.types.values.flatMap (·.body.inputs)
    ++ s.directiveDefs.values.flatMap fun d => d.arguments.map (·.2)

def demandingSubgraphs : List Subgraph := [
  .sample "first" {
    arguments := [(.lit "x", { type := .named (.lit "Int") false, defaultValue := some .null })]
    type := .named (.lit "Int") false },
  .sample "second" {
    arguments := [(.lit "x", { type := .named (.lit "Int") true })]
    type := .named (.lit "Int") false }]

def demandedArgument : Coordinate := .argument (.lit "Query") (.lit "a") (.lit "x")

theorem compose_demandingSubgraphs :
    compose demandingSubgraphs [] = .ok (sampleResult demandingSubgraphs) :=
  compose_eq_sampleResult rfl (by decide +kernel)

theorem exists_demandedArgument :
    ∃ d ∈ (sampleResult demandingSubgraphs).schema.inputsAt .objectFieldArgument demandedArgument,
      d.type.isNonNull ∧ d.defaultValue = some .null := by
  decide +kernel

theorem nonNull_null_default_demanded :
    ∃ d ∈ (sampleResult demandingSubgraphs).schema.inputsAt .objectFieldArgument demandedArgument,
      d.type.isNonNull ∧ d.defaultValue = some .null
        ↔
      (∃ s ∈ demandingSubgraphs,
          ∃ d' ∈ s.schema.inputsAt .objectFieldArgument demandedArgument,
            d'.type.SameNullable d.type ∧ d'.type.isNonNull)
        ∧ (demandingSubgraphs.flatMap
            (·.schema.inputsAt .objectFieldArgument demandedArgument)).findSome? (·.defaultValue)
          = some .null := by
  obtain ⟨d, hd, -⟩ := exists_demandedArgument
  exact ⟨d, hd, nonNull_null_default_iff compose_demandingSubgraphs hd⟩

theorem exists_nonNull_null_default :
    compose demandingSubgraphs [] = .ok (sampleResult demandingSubgraphs)
      ∧ (∀ s ∈ demandingSubgraphs, ∀ d ∈ s.schema.inputs,
        ¬ (d.type.isNonNull ∧ d.defaultValue = some .null))
      ∧ ∃ d ∈ (sampleResult demandingSubgraphs).schema.inputsAt .objectFieldArgument
          demandedArgument,
        d.type.isNonNull ∧ d.defaultValue = some .null :=
  ⟨compose_demandingSubgraphs, by decide, exists_demandedArgument⟩

end Supergraph
