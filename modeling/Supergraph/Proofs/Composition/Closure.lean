import Supergraph.Proofs.Composition.Declarations
import Supergraph.Proofs.Composition.Inputs

/-!
This module contains the proof that a supergraph uses no type that is missing, apart from those that
are left out by their name: they are never merged, while what uses them is.
-/

namespace Supergraph

open GraphQL

namespace GraphQL

def FieldDef.usedTypes (d : FieldDef) : List Name :=
  d.type.baseName :: d.arguments.map (·.2.type.baseName)

def CompositeBody.usedTypes (body : CompositeBody) : List Name :=
  body.interfaces.toList ++ body.fields.values.flatMap (·.usedTypes)

def TypeBody.usedTypes : TypeBody → List Name
  | .object body | .interface body => body.usedTypes
  | .union members => members.toList
  | .inputObject fields => fields.values.map (·.type.baseName)
  | .enum _ | .scalar => []

def DirectiveDef.usedTypes (d : DirectiveDef) : List Name := d.arguments.map (·.2.type.baseName)

namespace Schema

def usedTypes (s : Schema) : List Name :=
  s.types.values.flatMap (·.body.usedTypes) ++ s.directiveDefs.values.flatMap (·.usedTypes)

variable {s : Schema}

theorem mem_usedTypes_of_type {t : TypeDef} (ht : t ∈ s.types.values) {name : Name}
    (hname : name ∈ t.body.usedTypes) : name ∈ s.usedTypes :=
  List.mem_append_left _ (List.mem_flatMap.2 ⟨t, ht, hname⟩)

theorem mem_usedTypes_of_field {t : TypeDef} (ht : t ∈ s.types.values) {d : FieldDef}
    (hd : d ∈ t.body.fieldDefs) {name : Name} (hname : name ∈ d.usedTypes)
    : name ∈ s.usedTypes := by
  apply mem_usedTypes_of_type ht
  obtain ⟨description, directives, body⟩ := t
  cases body with
  | object body => exact List.mem_append_right _ (List.mem_flatMap.2 ⟨d, hd, hname⟩)
  | interface body => exact List.mem_append_right _ (List.mem_flatMap.2 ⟨d, hd, hname⟩)
  | _ => cases hd

theorem mem_usedTypes_of_argument {composite? : TypeDef → Option (TypeDef × CompositeBody)}
    (hcomposite : ∀ d x, composite? d = some x → d.body.fieldDefs = x.2.fields.values)
    {type field argument : Name} {d : InputValueDef}
    (hd : d ∈ s.arguments composite? type field argument) : d.type.baseName ∈ s.usedTypes := by
  obtain ⟨f, hf, hd⟩ := List.mem_flatMap.1 hd
  obtain ⟨t, ht, hf⟩ := exists_fieldDef_of_field? hcomposite (Option.mem_toList.1 hf)
  obtain ⟨e, he, rfl⟩ := List.mem_map.1 hd
  apply mem_usedTypes_of_field ht hf
  exact List.mem_cons_of_mem _ (List.mem_map.2 ⟨e, (List.mem_filter.1 he).1, rfl⟩)

theorem mem_usedTypes_of_inputField? {type field : Name} {d : InputValueDef}
    (hd : s.inputField? type field = some d) : d.type.baseName ∈ s.usedTypes := by
  obtain ⟨x, hx, hd⟩ := Option.bind_eq_some_iff.1 hd
  obtain ⟨userType, huserType, hx⟩ := Option.bind_eq_some_iff.1 hx
  obtain ⟨t, ht, rfl⟩ := exists_mem_types_of_userType? huserType
  apply mem_usedTypes_of_type ht
  obtain ⟨description, directives, body⟩ := t
  cases body <;> cases hx
  exact List.mem_map.2 ⟨d, (OrderedMap.mem_values_iff _ _).2 ⟨field, hd⟩, rfl⟩

theorem mem_usedTypes_of_directiveArguments {directive argument : Name} {d : InputValueDef}
    (hd : d ∈ s.directiveArguments directive argument) : d.type.baseName ∈ s.usedTypes := by
  obtain ⟨definition, hdefinition, hd⟩ := List.mem_flatMap.1 hd
  obtain ⟨hget, -⟩ := userDirective?_eq_some_iff.1 (Option.mem_toList.1 hdefinition)
  obtain ⟨e, he, rfl⟩ := List.mem_map.1 hd
  refine List.mem_append_right _ (List.mem_flatMap.2 ⟨definition, ?_, ?_⟩)
  . exact (OrderedMap.mem_values_iff _ _).2 ⟨directive, hget⟩
  . exact List.mem_map.2 ⟨e, (List.mem_filter.1 he).1, rfl⟩

theorem mem_usedTypes_of_typesAt {slot : Slot} {place : Coordinate} {t : TypeRef}
    (ht : t ∈ s.typesAt slot place) : t.baseName ∈ s.usedTypes := by
  have hfield : ∀ {composite? : TypeDef → Option (TypeDef × CompositeBody)} {type field d},
      (∀ d x, composite? d = some x → d.body.fieldDefs = x.2.fields.values) →
        d ∈ (s.field? composite? type field).toList → d.type.baseName ∈ s.usedTypes := by
    intro composite? type field d hcomposite hd
    obtain ⟨t, ht, hd⟩ := exists_fieldDef_of_field? hcomposite (Option.mem_toList.1 hd)
    exact mem_usedTypes_of_field ht hd List.mem_cons_self
  unfold typesAt at ht
  rw [List.mem_append] at ht
  obtain ht | ht := ht <;> obtain ⟨d, hd, rfl⟩ := List.mem_map.1 ht
  . unfold fieldsAt at hd
    split at hd
    . exact hfield TypeDef.fieldDefs_of_object? hd
    . exact hfield TypeDef.fieldDefs_of_interface? hd
    . cases hd
  . unfold inputsAt at hd
    split at hd
    . exact mem_usedTypes_of_argument TypeDef.fieldDefs_of_object? hd
    . exact mem_usedTypes_of_argument TypeDef.fieldDefs_of_interface? hd
    . exact mem_usedTypes_of_inputField? (Option.mem_toList.1 hd)
    . exact mem_usedTypes_of_directiveArguments hd
    . cases hd

theorem mem_usedTypes_of_userType? {type : Name} {d : TypeDef} (hd : s.userType? type = some d)
    {name : Name} (hname : name ∈ d.interfaces ∨ name ∈ d.members) : name ∈ s.usedTypes := by
  obtain ⟨t, ht, rfl⟩ := exists_mem_types_of_userType? hd
  apply mem_usedTypes_of_type ht
  obtain ⟨description, directives, body⟩ := t
  cases body with
  | object | interface => exact List.mem_append_left _ (hname.resolve_right List.not_mem_nil)
  | union => exact hname.resolve_left List.not_mem_nil
  | _ => exact absurd hname (by rintro (h | h) <;> cases h)

end Schema

end GraphQL

def UsedInSome (subgraphs : List Subgraph) (name : Name) : Prop :=
  ∃ s ∈ subgraphs, name ∈ s.schema.usedTypes

theorem CompositeEntry.exists_of_usedTypes {a : Annotator} {e : CompositeEntry} {name : Name}
    (hname : name ∈ (e.body a).fields.values.flatMap (·.usedTypes))
    : ∃ field fe, e.fields.get? field = some fe
        ∧ (name = fe.type.baseName
          ∨ ∃ argument ie, fe.arguments.get? argument = some ie ∧ name = ie.type.baseName) := by
  obtain ⟨f, hf, hname⟩ := List.mem_flatMap.1 hname
  obtain ⟨field, hf⟩ := (OrderedMap.mem_values_iff _ _).1 hf
  obtain ⟨fe, hfe, rfl⟩ := CompositeEntry.exists_field_of_body (Option.mem_toList.2 hf)
  refine ⟨field, fe, hfe, ?_⟩
  cases List.mem_cons.1 hname with
  | inl hname => exact .inl hname
  | inr hname =>
    obtain ⟨⟨argument, d⟩, hd, rfl⟩ := List.mem_map.1 hname
    have hnamed : d ∈ named argument (fe.emit a e.byGraph.size).arguments :=
      List.mem_map.2 ⟨(argument, d), List.mem_filter.2 ⟨hd, decide_eq_true rfl⟩, rfl⟩
    obtain ⟨ie, hie, rfl⟩ := FieldEntry.exists_argument_of_emit hnamed
    exact .inr ⟨argument, ie, hie, rfl⟩

namespace Model

variable {subgraphs : List Subgraph} {graphs : Identities}
variable (h : Identities.resolve subgraphs = .ok graphs)

include h

theorem usedInSome_of_visit {v : Visit} (hv : v ∈ (ofSubgraphs graphs subgraphs).visits)
    {t : TypeRef} (ht : v.fieldEntry?.map (·.type) = some t ∨ v.inputEntry?.map (·.type) = some t)
    : UsedInSome subgraphs t.baseName := by
  have hdeclared : ∃ u ∈ subgraphs.flatMap (·.schema.typesAt v.slot v.place), u.SameNullable t := by
    cases ht with
    | inl ht =>
      obtain ⟨e, he, rfl⟩ := Option.map_eq_some_iff.1 ht
      exact (Rule.isElected_fieldEntry h hv he).exists_sameNullable
    | inr ht =>
      obtain ⟨e, he, rfl⟩ := Option.map_eq_some_iff.1 ht
      exact (Rule.isElected_inputEntry h hv he).exists_sameNullable
  obtain ⟨u, hu, hsame⟩ := hdeclared
  obtain ⟨s, hs, hu⟩ := List.mem_flatMap.1 hu
  rw [← hsame.baseName_eq]
  exact ⟨s, hs, Schema.mem_usedTypes_of_typesAt hu⟩

theorem usedInSome_of_interface {composite? : TypeDef → Option (TypeDef × CompositeBody)}
    (hcomposite : ∀ d x, composite? d = some x → d.interfaces = x.2.interfaces.toList)
    {type : Name} {e : CompositeEntry}
    (he : CompositeEntry.ofDeclared? (declared Schema.keeps (sources graphs subgraphs) fun s =>
      ((s.userType? type).bind composite?).toList) = some e)
    {a : Annotator} {name : Name} (hname : name ∈ (e.body a).interfaces.toList)
    : UsedInSome subgraphs name := by
  unfold CompositeEntry.body at hname
  rw [OrderedSet.mem_toList, OrderedSet.mem_ofList, (CompositeEntry.merges he).byGraph] at hname
  obtain ⟨recorded, hrecorded, hname⟩ := List.mem_flatMap.1 hname
  obtain ⟨schema, hschema, x, hx, rfl⟩ := (mem_values_records (nodup_sources h) _).1 hrecorded
  rw [map_snd_sources h] at hschema
  obtain ⟨s, hs, rfl⟩ := List.mem_map.1 hschema
  obtain ⟨d, hd, hx⟩ := Option.bind_eq_some_iff.1 (Option.mem_toList.1 (List.mem_of_getLast? hx))
  refine ⟨s, hs, Schema.mem_usedTypes_of_userType? hd (.inl ?_)⟩
  rw [hcomposite d x hx]
  exact hname

theorem usedInSome_of_composite {composite? : TypeDef → Option (TypeDef × CompositeBody)}
    (hcomposite : ∀ d x, composite? d = some x → d.interfaces = x.2.interfaces.toList)
    {type : Name} {e : CompositeEntry}
    (he : CompositeEntry.ofDeclared? (declared Schema.keeps (sources graphs subgraphs) fun s =>
      ((s.userType? type).bind composite?).toList) = some e)
    (hfields : ∀ field fe, e.fields.get? field = some fe → UsedInSome subgraphs fe.type.baseName
      ∧ ∀ argument ie, fe.arguments.get? argument = some ie →
        UsedInSome subgraphs ie.type.baseName)
    {a : Annotator} {name : Name} (hname : name ∈ (e.body a).usedTypes)
    : UsedInSome subgraphs name := by
  cases List.mem_append.1 hname with
  | inl hname => exact usedInSome_of_interface h hcomposite he hname
  | inr hname =>
    obtain ⟨field, fe, hfe, rfl | ⟨argument, ie, hie, rfl⟩⟩ :=
      CompositeEntry.exists_of_usedTypes hname
    . exact (hfields field fe hfe).1
    . exact (hfields field fe hfe).2 argument ie hie

theorem usedInSome_of_member {type : Name} {e : UnionEntry}
    (he : (ofSubgraphs graphs subgraphs).unions.get? type = some e) {name : Name}
    (hname : name ∈ e.members.keys) : UsedInSome subgraphs name := by
  rw [get?_unions] at he
  rw [UnionEntry.mem_keys_members he,
    exists_mem_declared_iff h fun x : TypeDef × OrderedSet Name => name ∈ x.2] at hname
  obtain ⟨s, hs, x, hx, hname⟩ := hname
  obtain ⟨d, hd, hx⟩ := Option.bind_eq_some_iff.1 (Option.mem_toList.1 hx)
  refine ⟨s, hs, Schema.mem_usedTypes_of_userType? hd (.inr ?_)⟩
  obtain ⟨description, directives, body⟩ := d
  cases body <;> cases hx
  exact hname

theorem usedInSome_of_emitType? {a : Annotator} {type : Name} {kind : TypeKind} {t : TypeDef}
    (ht : (ofSubgraphs graphs subgraphs).emitType? a type kind = some t) {name : Name}
    (hname : name ∈ t.body.usedTypes) : UsedInSome subgraphs name := by
  cases kind <;> obtain ⟨e, he, rfl⟩ := Option.map_eq_some_iff.1 ht
  case object =>
    refine usedInSome_of_composite h ?_ ((get?_objects _ _ _).symm.trans he) ?_ hname
    . rintro ⟨description, directives, body⟩ x hx
      cases body <;> cases hx
      rfl
    . intro field fe hfe
      constructor
      . exact usedInSome_of_visit h (v := .objectField type e field fe)
          ((mem_visits_iff _ _).2 ⟨he, hfe⟩) (.inl rfl)
      . intro argument ie hie
        exact usedInSome_of_visit h (v := .objectFieldArgument type e field fe argument ie)
          ((mem_visits_iff _ _).2 ⟨he, hfe, hie⟩) (.inr rfl)
  case interface =>
    refine usedInSome_of_composite h ?_ ((get?_interfaces _ _ _).symm.trans he) ?_ hname
    . rintro ⟨description, directives, body⟩ x hx
      cases body <;> cases hx
      rfl
    . intro field fe hfe
      constructor
      . exact usedInSome_of_visit h (v := .interfaceField type e field fe)
          ((mem_visits_iff _ _).2 ⟨he, hfe⟩) (.inl rfl)
      . intro argument ie hie
        exact usedInSome_of_visit h (v := .interfaceFieldArgument type e field fe argument ie)
          ((mem_visits_iff _ _).2 ⟨he, hfe, hie⟩) (.inr rfl)
  case inputObject =>
    obtain ⟨d, hd, rfl⟩ := List.mem_map.1 hname
    obtain ⟨field, hd⟩ := (OrderedMap.mem_values_iff _ _).1 hd
    obtain ⟨ie, hie, rfl⟩ := InputObjectEntry.exists_field_of_emit (Option.mem_toList.2 hd)
    exact usedInSome_of_visit h (v := .inputObjectField type e field ie)
      ((mem_visits_iff _ _).2 ⟨he, hie⟩) (.inr rfl)
  case union => exact usedInSome_of_member h he hname
  case enum => cases hname
  case scalar => cases hname

theorem usedInSome_of_retained {directive : Name} {retained : RetainedDirective}
    (hretained : (ofSubgraphs graphs subgraphs).retained.get? directive = some retained)
    {name : Name} (hname : name ∈ retained.definition.usedTypes) : UsedInSome subgraphs name := by
  obtain ⟨e, he, -, -, rfl⟩ := get?_retained_eq_some_iff.1 hretained
  obtain ⟨⟨argument, d⟩, hd, rfl⟩ := List.mem_map.1 hname
  have hnamed : d ∈ named argument e.mergedDef.arguments :=
    List.mem_map.2 ⟨(argument, d), List.mem_filter.2 ⟨hd, decide_eq_true rfl⟩, rfl⟩
  obtain ⟨ie, hie, rfl⟩ := exists_entry_of_shared (·.toDef []) hnamed
  exact usedInSome_of_visit h (v := .directiveArgument directive e argument ie)
    ((mem_visits_iff _ _).2 ⟨he, hie⟩) (.inr rfl)

end Model

def Federation.leavesOut (name : Name) : Bool := types.contains name.text || isNamespaced name

theorem Federation.isUserType_iff (name : Name) :
    isUserType name ↔ ¬ isBuiltInType name ∧ ¬ leavesOut name := by
  unfold isUserType leavesOut
  simp [and_assoc]

theorem Federation.not_leavesOut_of_isBuiltInType {name : Name} (h : isBuiltInType name) :
    ¬ leavesOut name := by
  have hnone : ∀ name ∈ BuiltIn.types.keys, ¬ leavesOut name := by decide
  exact hnone name ((OrderedMap.contains_iff _ _).1 h)

def Join.typeNames : List Name :=
  [.lit "link__Purpose", .lit "link__Import", fieldSet, graphType]

namespace Model

theorem contains_types_toSchema_iff (m : Model) (name : Name) :
    m.toSchema.types.contains name
      ↔
    (m.emitTypes.get? name).isSome ∨ isBuiltInType name ∨ name ∈ Join.typeNames := by
  have hgiven := mem_keys_givenTypes_iff m.graphs name
  rw [OrderedMap.mem_keys_iff] at hgiven
  unfold OrderedMap.contains
  rw [get?_types_toSchema, Option.isSome_or, Bool.or_eq_true]
  exact or_congr_right hgiven

section

variable {subgraphs : List Subgraph} {graphs : Identities}
variable (h : Identities.resolve subgraphs = .ok graphs) {name : Name}

include h

theorem isSome_emitTypes_iff :
    ((ofSubgraphs graphs subgraphs).emitTypes.get? name).isSome
      ↔
    ∃ s ∈ subgraphs, ∃ d, s.schema.userType? name = some d := by
  constructor
  . intro hemitted
    obtain ⟨t, ht⟩ := Option.isSome_iff_exists.1 hemitted
    rw [get?_emitTypes] at ht
    obtain ⟨kinds, hkinds, -⟩ := Option.bind_eq_some_iff.1 ht
    exact (isSome_kinds_iff h).1 (Option.isSome_of_eq_some hkinds)
  . rintro ⟨s, hs, d, hd⟩
    obtain ⟨t, ht, -⟩ := exists_emitTypes_of_userType? h hs hd
    exact Option.isSome_of_eq_some ht

theorem origin_of_usedTypes (hname : name ∈ (ofSubgraphs graphs subgraphs).toSchema.usedTypes) :
    UsedInSome subgraphs name ∨ isBuiltInType name ∨ name ∈ Join.typeNames := by
  cases List.mem_append.1 hname with
  | inl hname =>
    obtain ⟨t, ht, hname⟩ := List.mem_flatMap.1 hname
    obtain ⟨type, ht⟩ := (OrderedMap.mem_values_iff _ _).1 ht
    rw [get?_types_toSchema, Option.or_eq_some_iff] at ht
    cases ht with
    | inl ht =>
      obtain ⟨kind, ht⟩ := exists_emitType?_of_emitTypes ht
      exact .inl (usedInSome_of_emitType? h ht hname)
    | inr ht =>
      refine .inr (.inl (of_get?_givenTypes
        (p := fun t => ∀ name ∈ t.body.usedTypes, isBuiltInType name) ?_ ?_ ht.2 name hname))
      . decide
      . simp [Join.types, TypeBody.usedTypes]
  | inr hname =>
    obtain ⟨d, hd, hname⟩ := List.mem_flatMap.1 hname
    obtain ⟨directive, hd⟩ := (OrderedMap.mem_values_iff _ _).1 hd
    rw [get?_directiveDefs_toSchema, Option.or_eq_some_iff] at hd
    cases hd with
    | inl hd =>
      obtain ⟨retained, hretained, rfl⟩ := Option.map_eq_some_iff.1 hd
      exact .inl (usedInSome_of_retained h hretained hname)
    | inr hd =>
      have hgiven : ∀ d ∈ (Schema.builtIn.directiveDefs.insertMany Join.directiveDefs).values,
          ∀ name ∈ d.usedTypes, isBuiltInType name ∨ name ∈ Join.typeNames := by
        decide
      exact .inr (hgiven d ((OrderedMap.mem_values_iff _ _).2 ⟨directive, hd.2⟩) name hname)

end

end Model

theorem usedTypes_defined_iff {subgraphs : List Subgraph} {disabled : List String}
    {c : Composition} (hc : compose subgraphs disabled = .ok c)
    (hclosed : ∀ s ∈ subgraphs, ∀ name ∈ s.schema.usedTypes,
      s.schema.types.contains name ∨ isBuiltInType name)
    {name : Name} (hname : name ∈ c.schema.usedTypes)
    : c.schema.types.contains name
        ↔
      ¬ Federation.leavesOut name ∨ name ∈ Join.typeNames := by
  obtain ⟨graphs, h, -, rfl⟩ := (compose_eq_ok_iff _ _ _).1 hc
  dsimp only at hname ⊢
  rw [Model.contains_types_toSchema_iff, Model.isSome_emitTypes_iff h]
  constructor
  . rintro (⟨s, hs, d, hd⟩ | hbuiltIn | hjoin)
    . have huser := (Schema.exists_of_userType? hd).1
      exact .inl ((Federation.isUserType_iff name).1 huser).2
    . exact .inl (Federation.not_leavesOut_of_isBuiltInType hbuiltIn)
    . exact .inr hjoin
  . rintro (hkept | hjoin)
    -- A kept name that is used comes from a subgraph, which defines it.
    . obtain ⟨s, hs, hused⟩ | hgiven := Model.origin_of_usedTypes h hname
      . by_cases hbuiltIn : isBuiltInType name
        . exact .inr (.inl hbuiltIn)
        . have huser := (Federation.isUserType_iff name).2 ⟨hbuiltIn, hkept⟩
          have hdefined := (hclosed s hs name hused).resolve_right hbuiltIn
          obtain ⟨t, ht⟩ := Option.isSome_iff_exists.1 hdefined
          exact .inl ⟨s, hs, t.userPart, by rw [Schema.userType?_eq _ huser, ht]; rfl⟩
      . exact .inr hgiven
    . exact .inr (.inr hjoin)

def leftOutScalar : SubgraphText where
  name := "first"
  text := "scalar FieldSet type Query \x7b a: FieldSet \x7d"

theorem exists_used_not_defined :
    ∃ s c, Subgraph.parse leftOutScalar = .ok s ∧ compose [s] [] = .ok c
      ∧ (∀ name ∈ s.schema.usedTypes, s.schema.types.contains name ∨ isBuiltInType name)
      ∧ ∃ name ∈ c.schema.usedTypes, ¬ c.schema.types.contains name := by
  have hany : (Subgraph.parse leftOutScalar).toOption.any fun s =>
      (compose [s] []).toOption.any fun c =>
        (∀ name ∈ s.schema.usedTypes, s.schema.types.contains name ∨ isBuiltInType name)
          ∧ ∃ name ∈ c.schema.usedTypes, ¬ c.schema.types.contains name := by
    decide +kernel
  obtain ⟨s, hs, hany⟩ := Except.exists_ok_of_any hany
  obtain ⟨c, hc, hclosed⟩ := Except.exists_ok_of_any hany
  exact ⟨s, c, hs, hc, of_decide_eq_true hclosed⟩

theorem usedTypes_defined_leftOutScalar :
    ∃ s c, Subgraph.parse leftOutScalar = .ok s ∧ compose [s] [] = .ok c
      ∧ ∀ name ∈ c.schema.usedTypes, c.schema.types.contains name
        ↔ ¬ Federation.leavesOut name ∨ name ∈ Join.typeNames := by
  have hany : (Subgraph.parse leftOutScalar).toOption.any fun s =>
      (compose [s] []).toOption.any fun _ =>
        ∀ name ∈ s.schema.usedTypes, s.schema.types.contains name ∨ isBuiltInType name := by
    decide +kernel
  obtain ⟨s, hs, hany⟩ := Except.exists_ok_of_any hany
  obtain ⟨c, hc, hclosed⟩ := Except.exists_ok_of_any hany
  have hclosed := of_decide_eq_true hclosed
  refine ⟨s, c, hs, hc, ?_⟩
  intro name hname
  apply usedTypes_defined_iff hc ?_ hname
  intro s' hs' used hused
  cases List.mem_singleton.1 hs'
  exact hclosed used hused

end Supergraph
