import Supergraph.Proofs.Composition.Outcome
import Supergraph.Proofs.Model.Applications
import Supergraph.Proofs.Model.Retained

/-!
This module contains the proof that an element carries the recorded applications of composed
directives, then statements about subgraphs, and nothing else.
-/

namespace Supergraph

open GraphQL

namespace Join

def IsJoin (name : Name) : Prop := "join__".toList.isPrefixOf name.text.toList

instance (name : Name) : Decidable (IsJoin name) := inferInstanceAs (Decidable (_ = true))

end Join

theorem JoinFact.isJoin_toDirective (f : JoinFact) : Join.IsJoin f.toDirective.name := by
  have h : ∀ name ∈ [Name.lit "join__type", .lit "join__implements", .lit "join__field",
      .lit "join__unionMember", .lit "join__enumValue"], Join.IsJoin name := by
    decide
  apply h
  cases f <;> simp [toDirective]

theorem Annotator.isJoin_of_mem_facts {δ : Type} {a : Annotator} {byGraph : ByGraph δ}
    {contribute : Name → δ → List JoinFact} {d : Directive} (h : d ∈ a.facts byGraph contribute)
    : Join.IsJoin d.name := by
  obtain ⟨entry, -, h⟩ := List.mem_flatMap.1 h
  obtain ⟨f, -, rfl⟩ := List.mem_map.1 h
  exact f.isJoin_toDirective

namespace Visit

def carried (a : Annotator) : Visit → List Directive
  | .objectType _ type => (type.emitObject a).directives
  | .objectField _ type _ field => (field.emit a type.byGraph.size).directives
  | .objectFieldArgument _ _ _ _ _ argument => (argument.emit a .argumentDefinition).directives
  | .interfaceType _ type => (type.emitInterface a).directives
  | .interfaceField _ type _ field => (field.emit a type.byGraph.size).directives
  | .interfaceFieldArgument _ _ _ _ _ argument => (argument.emit a .argumentDefinition).directives
  | .inputObjectType _ type => (type.emit a).directives
  | .inputObjectField _ _ _ field => (field.emit a .inputFieldDefinition).directives
  | .enumType _ type => (type.emit a).directives
  | .enumValue _ _ _ value => (value.emit a).directives
  | .unionType _ type => (type.emit a).directives
  | .scalarType _ type => (type.emit a).directives
  | .namedType .. | .directive .. | .directiveArgument .. => []

theorem carried_eq (a : Annotator) {v : Visit} {location : DirectiveLocation}
    (hlocation : v.slot.location? = some location)
    : ∃ joins, v.carried a = a.copied location v.recorded ++ joins
        ∧ ∀ d ∈ joins, Join.IsJoin d.name := by
  have hfacts : ∀ {δ δ' : Type} (byGraph : ByGraph δ) contribute (byGraph' : ByGraph δ') contribute',
      ∀ d ∈ a.facts byGraph contribute ++ a.facts byGraph' contribute', Join.IsJoin d.name := by
    intro δ δ' byGraph contribute byGraph' contribute' d hd
    cases List.mem_append.1 hd with
    | inl hd => exact Annotator.isJoin_of_mem_facts hd
    | inr hd => exact Annotator.isJoin_of_mem_facts hd
  cases v <;> cases hlocation
  case objectType | interfaceType => exact ⟨_, rfl, hfacts _ _ _ _⟩
  case objectField typeName type name field | interfaceField typeName type name field =>
    refine ⟨_, rfl, ?_⟩
    intro d hd
    split at hd
    . exact Annotator.isJoin_of_mem_facts hd
    . cases hd
  case objectFieldArgument | interfaceFieldArgument | inputObjectField =>
    exact ⟨[], (List.append_nil _).symm, by simp⟩
  case inputObjectType | enumType | enumValue | scalarType =>
    exact ⟨_, rfl, fun d hd => Annotator.isJoin_of_mem_facts hd⟩
  case unionType => exact ⟨_, List.append_assoc _ _ _, hfacts _ _ _ _⟩

end Visit

theorem CompositeEntry.exists_field_of_body {a : Annotator} {e : CompositeEntry} {field : Name}
    {d : FieldDef} (hd : d ∈ ((e.body a).fields.get? field).toList)
    : ∃ fe, e.fields.get? field = some fe ∧ fe.emit a e.byGraph.size = d := by
  rw [Option.mem_toList] at hd
  unfold body at hd
  rw [OrderedMap.get?_map, Option.map_eq_some_iff] at hd
  exact hd

theorem exists_entry_of_shared {subgraphs : Nat} {inputs : OrderedMap Name InputEntry}
    (emit : InputEntry → InputValueDef) {name : Name} {d : InputValueDef}
    (hd : d ∈ named name ((sharedInputs subgraphs inputs).toList.map fun (n, e) => (n, emit e)))
    : ∃ e, inputs.get? name = some e ∧ emit e = d := by
  obtain ⟨⟨name, d⟩, hmem, rfl⟩ := List.mem_map.1 hd
  rw [List.mem_filter, decide_eq_true_eq] at hmem
  obtain ⟨hmem, rfl⟩ := hmem
  obtain ⟨⟨name, e⟩, he, heq⟩ := List.mem_map.1 hmem
  cases heq
  have hget := (OrderedMap.mem_toList_iff _ _ _).1 he
  unfold sharedInputs at hget
  rw [OrderedMap.get?_filter, Option.filter_eq_some_iff] at hget
  exact ⟨e, hget.1, rfl⟩

theorem FieldEntry.exists_argument_of_emit {a : Annotator} {e : FieldEntry} {subgraphs : Nat}
    {argument : Name} {d : InputValueDef}
    (hd : d ∈ named argument (e.emit a subgraphs).arguments)
    : ∃ ie, e.arguments.get? argument = some ie ∧ ie.emit a .argumentDefinition = d :=
  exists_entry_of_shared _ hd

theorem InputObjectEntry.exists_field_of_emit {a : Annotator} {e : InputObjectEntry} {field : Name}
    {d : InputValueDef}
    (hd : d ∈ (((sharedInputs e.byGraph.size e.fields).map fun _ field =>
      field.emit a .inputFieldDefinition).get? field).toList)
    : ∃ ie, e.fields.get? field = some ie ∧ ie.emit a .inputFieldDefinition = d := by
  rw [Option.mem_toList, OrderedMap.get?_map, Option.map_eq_some_iff] at hd
  obtain ⟨ie, hie, rfl⟩ := hd
  unfold sharedInputs at hie
  rw [OrderedMap.get?_filter, Option.filter_eq_some_iff] at hie
  exact ⟨ie, hie.1, rfl⟩

namespace Model

theorem exists_visit_of_emitType? {m : Model} {a : Annotator} {type : Name} {kind : TypeKind}
    {t : TypeDef} (ht : m.emitType? a type kind = some t) {slot : Slot} {place : Coordinate}
    (hplace : place.type? = some type) {ds : List Directive} (hds : ds ∈ t.appliedAt slot place)
    : ∃ v ∈ m.visits, v.slot = slot ∧ v.place = place ∧ v.carried a = ds := by
  simp only [mem_visits_iff]
  unfold TypeDef.appliedAt at hds
  split at hds
  case h_13 => cases hds
  all_goals
    rename TypeDef.body _ = _ => hbody
    cases hplace
    cases kind <;> obtain ⟨e, he, rfl⟩ := Option.map_eq_some_iff.1 ht <;> cases hbody
  case h_1 => exact ⟨.objectType type e, he, rfl, rfl, (List.mem_singleton.1 hds).symm⟩
  case h_2 =>
    obtain ⟨d, hd, rfl⟩ := List.mem_map.1 hds
    obtain ⟨fe, hfe, rfl⟩ := CompositeEntry.exists_field_of_body hd
    exact ⟨.objectField type e _ fe, ⟨he, hfe⟩, rfl, rfl, rfl⟩
  case h_3 =>
    obtain ⟨d, hd, rfl⟩ := List.mem_map.1 hds
    obtain ⟨f, hf, hd⟩ := List.mem_flatMap.1 hd
    obtain ⟨fe, hfe, rfl⟩ := CompositeEntry.exists_field_of_body hf
    obtain ⟨ie, hie, rfl⟩ := FieldEntry.exists_argument_of_emit hd
    exact ⟨.objectFieldArgument type e _ fe _ ie, ⟨he, hfe, hie⟩, rfl, rfl, rfl⟩
  case h_4 => exact ⟨.interfaceType type e, he, rfl, rfl, (List.mem_singleton.1 hds).symm⟩
  case h_5 =>
    obtain ⟨d, hd, rfl⟩ := List.mem_map.1 hds
    obtain ⟨fe, hfe, rfl⟩ := CompositeEntry.exists_field_of_body hd
    exact ⟨.interfaceField type e _ fe, ⟨he, hfe⟩, rfl, rfl, rfl⟩
  case h_6 =>
    obtain ⟨d, hd, rfl⟩ := List.mem_map.1 hds
    obtain ⟨f, hf, hd⟩ := List.mem_flatMap.1 hd
    obtain ⟨fe, hfe, rfl⟩ := CompositeEntry.exists_field_of_body hf
    obtain ⟨ie, hie, rfl⟩ := FieldEntry.exists_argument_of_emit hd
    exact ⟨.interfaceFieldArgument type e _ fe _ ie, ⟨he, hfe, hie⟩, rfl, rfl, rfl⟩
  case h_7 => exact ⟨.inputObjectType type e, he, rfl, rfl, (List.mem_singleton.1 hds).symm⟩
  case h_8 =>
    obtain ⟨d, hd, rfl⟩ := List.mem_map.1 hds
    obtain ⟨ie, hie, rfl⟩ := InputObjectEntry.exists_field_of_emit hd
    exact ⟨.inputObjectField type e _ ie, ⟨he, hie⟩, rfl, rfl, rfl⟩
  case h_9 => exact ⟨.enumType type e, he, rfl, rfl, (List.mem_singleton.1 hds).symm⟩
  case h_10 =>
    obtain ⟨d, hd, rfl⟩ := List.mem_map.1 hds
    rw [Option.mem_toList, OrderedMap.get?_map, Option.map_eq_some_iff] at hd
    obtain ⟨value, hvalue, rfl⟩ := hd
    exact ⟨.enumValue type e _ value, ⟨he, hvalue⟩, rfl, rfl, rfl⟩
  case h_11 => exact ⟨.unionType type e, he, rfl, rfl, (List.mem_singleton.1 hds).symm⟩
  case h_12 => exact ⟨.scalarType type e, he, rfl, rfl, (List.mem_singleton.1 hds).symm⟩

end Model

/--
Whether an element carries exact copies: first the recorded applications of composed directives,
each once and in their order, then statements about subgraphs and nothing else. The schema defines
the directives of copies, for the location of the element.
-/
structure CopiesComposed (schema : Schema) (subgraphs : List Subgraph)
    (location : DirectiveLocation) (recorded carried : List Directive) : Prop where
  carried_eq : ∃ joins, (∀ d ∈ joins, Join.IsJoin d.name)
    ∧ carried = (OrderedSet.ofList
      (recorded.filter fun d => ComposedByAll subgraphs d.name)).toList ++ joins
  defined : ∀ d ∈ recorded, ComposedByAll subgraphs d.name →
    ∃ definition, schema.directiveDefs.get? d.name = some definition
      ∧ location ∈ definition.locations
  kept : ∀ d ∈ recorded, ComposedByAll subgraphs d.name → d ∈ carried
  only : ∀ d ∈ carried, Join.IsJoin d.name ∨ d ∈ recorded ∧ ComposedByAll subgraphs d.name

section

variable {subgraphs : List Subgraph} {graphs : Identities}
variable (h : Identities.resolve subgraphs = .ok graphs)
variable {slot : Slot} {location : DirectiveLocation} (hlocation : slot.location? = some location)
variable {place : Coordinate} {d : Directive}
variable (hd : d ∈ subgraphs.flatMap (·.schema.recordedAt slot place))

include h hlocation hd

theorem Model.copiesAt_iff_of_recorded :
    ((ofSubgraphs graphs subgraphs).retained.get? d.name).any (·.copiesAt location)
      ↔
    ComposedByAll subgraphs d.name := by
  obtain ⟨s, hs, hd⟩ := List.mem_flatMap.1 hd
  exact copiesAt_iff h (Slot.isExecutable_location? hlocation) hs
    (Schema.mem_usedLocations_of_recordedAt hlocation hd)

theorem Model.exists_definition_of_recorded (hcomposed : ComposedByAll subgraphs d.name) :
    ∃ definition, (ofSubgraphs graphs subgraphs).toSchema.directiveDefs.get? d.name
        = some definition
      ∧ location ∈ definition.locations := by
  rw [← copiesAt_iff_of_recorded h hlocation hd, Option.any_eq_true] at hcomposed
  obtain ⟨retained, hretained, hcopies⟩ := hcomposed
  refine ⟨retained.definition, ?_, ?_⟩
  . rw [get?_directiveDefs_toSchema, hretained]
    rfl
  . exact List.contains_iff_mem.1 (Bool.and_eq_true_iff.1 hcopies).2

end

theorem Visit.copiesComposed {subgraphs : List Subgraph} {graphs : Identities}
    (h : Identities.resolve subgraphs = .ok graphs) {v : Visit}
    (hv : v ∈ (Model.ofSubgraphs graphs subgraphs).visits) {location : DirectiveLocation}
    (hlocation : v.slot.location? = some location)
    : CopiesComposed (Model.ofSubgraphs graphs subgraphs).toSchema subgraphs location
        (subgraphs.flatMap (·.schema.recordedAt v.slot v.place))
        (v.carried (Model.ofSubgraphs graphs subgraphs).annotator) := by
  obtain ⟨joins, hcarried, hjoins⟩ := v.carried_eq (Model.ofSubgraphs graphs subgraphs).annotator
    hlocation
  have hfilter : (subgraphs.flatMap (·.schema.recordedAt v.slot v.place)).filter (fun d =>
      ((Model.ofSubgraphs graphs subgraphs).retained.get? d.name).any (·.copiesAt location))
      = (subgraphs.flatMap (·.schema.recordedAt v.slot v.place)).filter fun d =>
        ComposedByAll subgraphs d.name := by
    apply List.filter_congr
    intro d hd
    rw [Bool.eq_iff_iff, decide_eq_true_eq]
    exact Model.copiesAt_iff_of_recorded h hlocation hd
  have heq : v.carried (Model.ofSubgraphs graphs subgraphs).annotator
      = (OrderedSet.ofList ((subgraphs.flatMap (·.schema.recordedAt v.slot v.place)).filter
        fun d => ComposedByAll subgraphs d.name)).toList ++ joins := by
    rw [hcarried, ← hfilter, ← flatten_recorded h hv hlocation]
    rfl
  refine ⟨⟨joins, hjoins, heq⟩, ?_, ?_, ?_⟩
  . intro d hd hcomposed
    exact Model.exists_definition_of_recorded h hlocation hd hcomposed
  . intro d hd hcomposed
    rw [heq, List.mem_append, OrderedSet.mem_toList, OrderedSet.mem_ofList, List.mem_filter]
    exact .inl ⟨hd, decide_eq_true hcomposed⟩
  . intro d hd
    rw [heq, List.mem_append, OrderedSet.mem_toList, OrderedSet.mem_ofList, List.mem_filter,
      decide_eq_true_eq] at hd
    exact hd.symm.imp_left (hjoins d)

theorem compose_copiesComposed {subgraphs : List Subgraph} {disabled : List String}
    {c : Composition} (hc : compose subgraphs disabled = .ok c) {type : Name}
    (huser : Federation.isUserType type) {t : TypeDef} (ht : c.schema.types.get? type = some t)
    {slot : Slot} {location : DirectiveLocation} (hlocation : slot.location? = some location)
    {place : Coordinate} (hplace : place.type? = some type) {carried : List Directive}
    (hcarried : carried ∈ t.appliedAt slot place)
    : ∃ v ∈ (Model.ofSubgraphs c.graphs subgraphs).visits, v.slot = slot ∧ v.place = place
        ∧ v.recorded.flatten = subgraphs.flatMap (·.schema.recordedAt slot place)
        ∧ CopiesComposed c.schema subgraphs location v.recorded.flatten carried := by
  obtain ⟨graphs, h, -, rfl⟩ := (compose_eq_ok_iff subgraphs disabled c).1 hc
  rw [Model.get?_types_of_isUserType _ huser, Model.get?_emitTypes,
    Option.bind_eq_some_iff] at ht
  obtain ⟨kinds, -, ht⟩ := ht
  obtain ⟨kind, -, ht⟩ := Option.bind_eq_some_iff.1 ht
  obtain ⟨v, hv, rfl, rfl, rfl⟩ := Model.exists_visit_of_emitType? ht hplace hcarried
  have hrecorded := v.flatten_recorded h hv hlocation
  refine ⟨v, hv, rfl, rfl, hrecorded, ?_⟩
  rw [hrecorded]
  exact v.copiesComposed h hv hlocation

def GraphQL.Directive.sample (n : String) : Directive where
  name := .lit "a"
  arguments := [(.lit "n", .string n)]

def applyingSubgraphs : List Subgraph := [
  .composing "first" .field (.named (.lit "String") false) [.sample "x"],
  .composing "second" .field (.named (.lit "String") false) [.sample "y", .sample "x"]]

theorem compose_copiesComposed_sample :
    compose applyingSubgraphs [] = .ok (sampleResult applyingSubgraphs)
      ∧ ∃ t, (sampleResult applyingSubgraphs).schema.types.get? (.lit "Query") = some t
        ∧ CopiesComposed (sampleResult applyingSubgraphs).schema applyingSubgraphs .object
          [.sample "x", .sample "y", .sample "x"] t.directives := by
  have hc : compose applyingSubgraphs [] = .ok (sampleResult applyingSubgraphs) :=
    compose_eq_sampleResult rfl (by decide +kernel)
  have hany : ((sampleResult applyingSubgraphs).schema.types.get? (.lit "Query")).any fun t =>
      t.appliedAt .objectType (.type (.lit "Query")) = [t.directives] := by
    decide +kernel
  obtain ⟨t, ht, hcarried⟩ := (Option.any_eq_true _ _).1 hany
  rw [decide_eq_true_eq] at hcarried
  have hlocation : Slot.objectType.location? = some .object := rfl
  have hmem : t.directives ∈ t.appliedAt .objectType (.type (.lit "Query")) := by
    rw [hcarried]
    exact List.mem_singleton_self _
  obtain ⟨v, -, -, -, hrecorded, hcopies⟩ :=
    compose_copiesComposed hc (by decide) ht hlocation rfl hmem
  have hschemas : applyingSubgraphs.flatMap
      (·.schema.recordedAt .objectType (.type (.lit "Query")))
      = [.sample "x", .sample "y", .sample "x"] := by
    decide +kernel
  rw [hrecorded, hschemas] at hcopies
  exact ⟨hc, t, ht, hcopies⟩

end Supergraph
