import Supergraph.Proofs.Composition.Outcome

/-!
This module contains the theory of what emission drops. The emitter compares how many subgraphs
declare an input, the rules ask which ones do; both come to the same, so nothing required is lost
unnoticed.
-/

namespace Supergraph

open GraphQL

namespace GraphQL.TypeDef

def inputNames (d : TypeDef) : List Name :=
  match d.body with
  | .inputObject fields => fields.keys
  | _ => []

theorem kind_of_object? {d : TypeDef} (h : d.object?.isSome) : d.kind = .object := by
  obtain ⟨description, directives, body⟩ := d
  cases body <;> first | rfl | cases h

theorem kind_of_interface? {d : TypeDef} (h : d.interface?.isSome) : d.kind = .interface := by
  obtain ⟨description, directives, body⟩ := d
  cases body <;> first | rfl | cases h

theorem kind_of_inputObject? {d : TypeDef} (h : d.inputObject?.isSome) : d.kind = .inputObject := by
  obtain ⟨description, directives, body⟩ := d
  cases body <;> first | rfl | cases h

end GraphQL.TypeDef

def Visit.IsKept (a : Annotator) (v : Visit) : Prop :=
  match v with
  | .objectFieldArgument _ type _ field name _ =>
    name ∈ (field.emit a type.byGraph.size).arguments.map Prod.fst
  | .interfaceFieldArgument _ type _ field name _ =>
    name ∈ (field.emit a type.byGraph.size).arguments.map Prod.fst
  | .inputObjectField _ type name _ => name ∈ (type.emit a).inputNames
  | _ => False

namespace Model

structure KeepsShared (m : Model) (subgraphs : List Subgraph) : Prop where
  objectArguments : ∀ typeName type name field, .objectField typeName type name field ∈ m.visits →
    ∀ argument, argument ∈ (field.emit m.annotator type.byGraph.size).arguments.map Prod.fst
      ↔ ∀ s ∈ subgraphs, (s.schema.field? TypeDef.object? typeName name).isSome →
        s.schema.arguments TypeDef.object? typeName name argument ≠ []
  interfaceArguments : ∀ typeName type name field,
    .interfaceField typeName type name field ∈ m.visits →
    ∀ argument, argument ∈ (field.emit m.annotator type.byGraph.size).arguments.map Prod.fst
      ↔ ∀ s ∈ subgraphs, (s.schema.field? TypeDef.interface? typeName name).isSome →
        s.schema.arguments TypeDef.interface? typeName name argument ≠ []
  inputFields : ∀ name type, .inputObjectType name type ∈ m.visits →
    ∀ field, field ∈ (type.emit m.annotator).inputNames
      ↔ ∀ s ∈ subgraphs, ((s.schema.userType? name).bind TypeDef.inputObject?).isSome →
        (s.schema.inputField? name field).isSome

/--
Whether rules report exactly the inputs that are recorded as required by some subgraph and dropped,
and the input object types that are left without fields.
-/
structure GuardsDropped (m : Model) (graphs : Identities) : Prop where
  requiredArguments : ∀ v ∈ m.visits, v.slot ∈ [.objectFieldArgument, .interfaceFieldArgument] →
    ∀ e ∈ v.inputEntry?,
      (∃ c ∈ (Rule.requiredArguments.visitor graphs).visit v,
          c.code = .requiredArgumentMissingInSomeSubgraph ∧ c.place = v.place)
        ↔ (∃ d ∈ e.byGraph.values, d.isRequired) ∧ ¬ v.IsKept m.annotator
  requiredInputFields : ∀ v ∈ m.visits, v.slot = .inputObjectField → ∀ e ∈ v.inputEntry?,
      (∃ c ∈ (Rule.inputFields.visitor graphs).visit v,
          c.code = .requiredInputFieldMissingInSomeSubgraph ∧ c.place = v.place)
        ↔ (∃ d ∈ e.byGraph.values, d.isRequired) ∧ ¬ v.IsKept m.annotator
  emptyInputTypes : ∀ name type, .inputObjectType name type ∈ m.visits →
      ((∃ c ∈ (Rule.inputFields.visitor graphs).visit (.inputObjectType name type),
          c.code = .emptyMergedInputType ∧ c.place = .type name)
        ↔ (type.emit m.annotator).inputNames = [])

end Model

structure GraphQL.Schema.KeepsRequired (schema : Schema) (subgraphs : List Subgraph) : Prop where
  objectArgument : ∀ s ∈ subgraphs, ∀ type field argument,
    ∀ d ∈ (s.schema.arguments TypeDef.object? type field argument).getLast?,
      d.type.isNonNull → d.defaultValue.isNone → ∃ t ∈ schema.types.get? type,
        ∃ f ∈ t.field? field, argument ∈ f.arguments.map Prod.fst
  interfaceArgument : ∀ s ∈ subgraphs, ∀ type field argument,
    ∀ d ∈ (s.schema.arguments TypeDef.interface? type field argument).getLast?,
      d.type.isNonNull → d.defaultValue.isNone → ∃ t ∈ schema.types.get? type,
        ∃ f ∈ t.field? field, argument ∈ f.arguments.map Prod.fst
  inputField : ∀ s ∈ subgraphs, ∀ type field, ∀ d ∈ s.schema.inputField? type field,
    d.type.isNonNull → d.defaultValue.isNone → ∃ t ∈ schema.types.get? type, field ∈ t.inputNames
  inputType : ∀ type, ∀ t ∈ schema.types.get? type, t.kind = .inputObject → t.inputNames ≠ []

theorem Model.exists_inputObject_of_emitTypes {m : Model} {type : Name} {t : TypeDef}
    (h : m.emitTypes.get? type = some t) (hkind : t.kind = .inputObject)
    : ∃ e, m.inputObjects.get? type = some e ∧ e.emit m.annotator = t := by
  obtain ⟨kind, h⟩ := exists_emitType?_of_emitTypes h
  cases kind <;> obtain ⟨e, he, rfl⟩ := Option.map_eq_some_iff.1 h
  case inputObject => exact ⟨e, he, rfl⟩
  all_goals cases hkind

variable {subgraphs : List Subgraph} {graphs : Identities}

section

theorem map_fst_arguments_emit (a : Annotator) (subgraphs : Nat) (e : FieldEntry) :
    (e.emit a subgraphs).arguments.map Prod.fst
      =
    (sharedInputs e.byGraph.size e.arguments).keys := by
  unfold FieldEntry.emit OrderedMap.keys
  rw [List.map_map]
  rfl

theorem inputNames_emit (a : Annotator) (e : InputObjectEntry) :
    (e.emit a).inputNames = (sharedInputs e.byGraph.size e.fields).keys :=
  OrderedMap.keys_map _ _

variable (h : Identities.resolve subgraphs = .ok graphs)

include h

theorem keepsShared : (Model.ofSubgraphs graphs subgraphs).KeepsShared subgraphs where
  objectArguments := by
    intro typeName type name field hv argument
    rw [Model.mem_visits_iff] at hv
    rw [map_fst_arguments_emit]
    exact Rule.mem_keptArguments_iff h (Model.ofDeclared?_objectField hv.1 hv.2) argument
  interfaceArguments := by
    intro typeName type name field hv argument
    rw [Model.mem_visits_iff] at hv
    rw [map_fst_arguments_emit]
    exact Rule.mem_keptArguments_iff h (Model.ofDeclared?_interfaceField hv.1 hv.2) argument
  inputFields := by
    intro name type hv field
    rw [Model.mem_visits_iff] at hv
    rw [inputNames_emit]
    exact Rule.mem_keptFields_iff h ((Model.get?_inputObjects _ _ _).symm.trans hv) field

theorem not_isKept_iff {v : Visit} (hv : v ∈ (Model.ofSubgraphs graphs subgraphs).visits)
    (hslot : v.slot ∈ [.objectFieldArgument, .interfaceFieldArgument, .inputObjectField])
    (a : Annotator)
    : ¬ v.IsKept a ↔ Finding.dropped (schemaSet (subgraphs.map (·.schema))) v.slot v.place := by
  rw [Model.mem_visits_iff] at hv
  cases v with
  | objectFieldArgument typeName type fieldName field name argument =>
    change ¬ name ∈ (field.emit a type.byGraph.size).arguments.map Prod.fst ↔ _
    rw [map_fst_arguments_emit, Rule.mem_keptArguments_iff h
      (Model.ofDeclared?_objectField hv.1 hv.2.1) name]
    simp [Finding.dropped, Visit.slot, Visit.place, Schema.declaresParentAt, Schema.inputsAt]
  | interfaceFieldArgument typeName type fieldName field name argument =>
    change ¬ name ∈ (field.emit a type.byGraph.size).arguments.map Prod.fst ↔ _
    rw [map_fst_arguments_emit, Rule.mem_keptArguments_iff h
      (Model.ofDeclared?_interfaceField hv.1 hv.2.1) name]
    simp [Finding.dropped, Visit.slot, Visit.place, Schema.declaresParentAt, Schema.inputsAt]
  | inputObjectField typeName type name field =>
    change ¬ name ∈ (type.emit a).inputNames ↔ _
    rw [inputNames_emit, Rule.mem_keptFields_iff h
      ((Model.get?_inputObjects _ _ _).symm.trans hv.1) name]
    simp [Finding.dropped, Visit.slot, Visit.place, Schema.declaresParentAt, Schema.inputsAt]
  | _ => simp [Visit.slot] at hslot

theorem lost_iff {v : Visit} (hv : v ∈ (Model.ofSubgraphs graphs subgraphs).visits)
    (hslot : v.slot ∈ [.objectFieldArgument, .interfaceFieldArgument, .inputObjectField])
    {e : InputEntry} (he : v.inputEntry? = some e) (a : Annotator)
    : Finding.lost (schemaSet (subgraphs.map (·.schema))) v.slot v.place
        ↔
      (∃ d ∈ e.byGraph.values, d.isRequired) ∧ ¬ v.IsKept a := by
  rw [not_isKept_iff h hv hslot, Rule.exists_isRequired_iff h hv he]
  rfl

theorem guardsDropped : (Model.ofSubgraphs graphs subgraphs).GuardsDropped graphs where
  requiredArguments := by
    intro v hv hslot e he
    have hdroppable : v.slot ∈ [.objectFieldArgument, .interfaceFieldArgument, .inputObjectField] :=
      List.mem_append_left [Slot.inputObjectField] hslot
    rw [(Rule.reports_requiredArguments h hv).exists_mem_iff, and_iff_right hslot]
    exact lost_iff h hv hdroppable he _
  requiredInputFields := by
    intro v hv hslot e he
    have hdroppable :
        v.slot ∈ [.objectFieldArgument, .interfaceFieldArgument, .inputObjectField] := by
      simp [hslot]
    have hreports := Rule.reports_inputFields h hv
    rw [if_neg (by simp [hslot])] at hreports
    rw [hreports.exists_mem_iff, ← lost_iff h hv hdroppable he]
    simp [hslot]
  emptyInputTypes := by
    intro name type hv
    have htype := (Model.mem_visits_iff _ _).1 hv
    have hslot : (Visit.inputObjectType name type).slot = .inputObjectType := rfl
    have hreports := Rule.reports_inputFields h hv
    rw [if_pos hslot] at hreports
    have hnames : (type.emit (Model.ofSubgraphs graphs subgraphs).annotator).inputNames = []
        ↔ (sharedInputs type.byGraph.size type.fields).isEmpty := by
      rw [inputNames_emit]
      simp [OrderedMap.keys, OrderedMap.isEmpty]
    rw [hnames, Rule.isEmpty_sharedInputs_iff h htype]
    apply hreports.exists_mem_iff.trans
    simp [Visit.slot, Visit.place]

theorem exists_argument_entries {composite? : TypeDef → Option (TypeDef × CompositeBody)}
    {type field argument : Name} {entries : OrderedMap Name CompositeEntry}
    (hentries : entries.get? type = CompositeEntry.ofDeclared?
      (declared Schema.keeps (Model.sources graphs subgraphs) fun s =>
        ((s.userType? type).bind composite?).toList))
    {s : Subgraph} (hs : s ∈ subgraphs)
    (hdeclared : s.schema.arguments composite? type field argument ≠ [])
    : (∃ d, s.schema.userType? type = some d ∧ (composite? d).isSome)
        ∧ ∃ e fe ie, entries.get? type = some e ∧ e.fields.get? field = some fe
          ∧ fe.arguments.get? argument = some ie := by
  have hschema := Model.mem_map_snd_sources h hs
  have hfield := Schema.isSome_field?_of_arguments hdeclared
  have htype := Schema.isSome_composite_of_field? hfield
  have he : (entries.get? type).isSome := by
    rw [hentries]
    exact (isSome_merged?_declared_iff _).2 ⟨s.schema, hschema, (toList_ne_nil_iff _).2 htype⟩
  obtain ⟨e, he⟩ := Option.isSome_iff_exists.1 he
  rw [he] at hentries
  have hfe : (e.fields.get? field).isSome := by
    rw [CompositeEntry.get?_fields hentries.symm]
    exact (isSome_merged?_declared_iff _).2 ⟨s.schema, hschema, (toList_ne_nil_iff _).2 hfield⟩
  obtain ⟨fe, hfe⟩ := Option.isSome_iff_exists.1 hfe
  have hmerged := (CompositeEntry.get?_fields hentries.symm field).symm.trans hfe
  have hie : (fe.arguments.get? argument).isSome := by
    rw [FieldEntry.get?_arguments hmerged]
    exact (isSome_merged?_declared_iff _).2 ⟨s.schema, hschema, hdeclared⟩
  obtain ⟨ie, hie⟩ := Option.isSome_iff_exists.1 hie
  refine ⟨?_, e, fe, ie, he, hfe, hie⟩
  obtain ⟨x, hx⟩ := Option.isSome_iff_exists.1 htype
  obtain ⟨d, hd, hx⟩ := Option.bind_eq_some_iff.1 hx
  exact ⟨d, hd, Option.isSome_of_eq_some hx⟩

theorem exists_inputField_entries {type field : Name} {s : Subgraph} (hs : s ∈ subgraphs)
    (hdeclared : (s.schema.inputField? type field).isSome)
    : (∃ d, s.schema.userType? type = some d ∧ d.inputObject?.isSome)
        ∧ ∃ e ie, (Model.ofSubgraphs graphs subgraphs).inputObjects.get? type = some e
          ∧ e.fields.get? field = some ie := by
  have hschema := Model.mem_map_snd_sources h hs
  have htype := Schema.isSome_inputObject_of_inputField? hdeclared
  have he : ((Model.ofSubgraphs graphs subgraphs).inputObjects.get? type).isSome := by
    rw [Model.get?_inputObjects]
    exact (isSome_merged?_declared_iff _).2 ⟨s.schema, hschema, (toList_ne_nil_iff _).2 htype⟩
  obtain ⟨e, he⟩ := Option.isSome_iff_exists.1 he
  have hmerged := (Model.get?_inputObjects graphs subgraphs type).symm.trans he
  have hie : (e.fields.get? field).isSome := by
    rw [InputObjectEntry.get?_fields hmerged]
    exact (isSome_merged?_declared_iff _).2 ⟨s.schema, hschema, (toList_ne_nil_iff _).2 hdeclared⟩
  obtain ⟨ie, hie⟩ := Option.isSome_iff_exists.1 hie
  refine ⟨?_, e, ie, he, hie⟩
  obtain ⟨x, hx⟩ := Option.isSome_iff_exists.1 htype
  obtain ⟨d, hd, hx⟩ := Option.bind_eq_some_iff.1 hx
  exact ⟨d, hd, Option.isSome_of_eq_some hx⟩

variable {disabled : List String}
variable (hnone : ∀ v ∈ (Model.ofSubgraphs graphs subgraphs).visits, ∀ r ∈ Rule.enabled disabled,
  (r.visitor graphs).visit v = [])
variable (henabled : ∀ r ∈ [Rule.typeKinds, Rule.requiredArguments, Rule.inputFields],
  r.name ∉ disabled)

include hnone henabled

theorem not_kind_of_accepted (type : Name) :
    ¬ Finding.kind (schemaSet (subgraphs.map (·.schema))) .namedType (.type type) := by
  apply Model.not_kind_of_visits h
  intro v hv
  exact hnone v hv Rule.typeKinds
    ((Rule.mem_enabled_iff _ _).2 ⟨by simp [Rule.all], henabled _ (by simp)⟩)

theorem not_lost_of_accepted {v : Visit} (hv : v ∈ (Model.ofSubgraphs graphs subgraphs).visits)
    (hslot : v.slot ∈ [.objectFieldArgument, .interfaceFieldArgument, .inputObjectField])
    : ¬ Finding.lost (schemaSet (subgraphs.map (·.schema))) v.slot v.place := by
  have hrequired := hnone v hv Rule.requiredArguments
    ((Rule.mem_enabled_iff _ _).2 ⟨by simp [Rule.all], henabled _ (by simp)⟩)
  have hinput := hnone v hv Rule.inputFields
    ((Rule.mem_enabled_iff _ _).2 ⟨by simp [Rule.all], henabled _ (by simp)⟩)
  rw [(Rule.reports_requiredArguments h hv).eq_nil_iff] at hrequired
  rw [(Rule.reports_inputFields h hv).eq_nil_iff] at hinput
  intro hlost
  cases List.mem_append.1 (show v.slot ∈ [.objectFieldArgument, .interfaceFieldArgument]
      ++ [Slot.inputObjectField] from hslot) with
  | inl hslot => exact hrequired ⟨hslot, hlost⟩
  | inr hslot => exact hinput (.inr ⟨List.mem_singleton.1 hslot, hlost⟩)

theorem isKept_of_accepted {v : Visit} (hv : v ∈ (Model.ofSubgraphs graphs subgraphs).visits)
    (hslot : v.slot ∈ [.objectFieldArgument, .interfaceFieldArgument, .inputObjectField])
    {s : Subgraph} (hs : s ∈ subgraphs) (hrequires : s.schema.requiresAt v.slot v.place)
    (a : Annotator) : v.IsKept a := by
  -- An input that is dropped and required here is lost, and lost inputs are reported.
  apply Classical.byContradiction
  intro hnot
  rw [not_isKept_iff h hv hslot] at hnot
  have hschema : s.schema ∈ subgraphs.map (·.schema) := List.mem_map.2 ⟨s, hs, rfl⟩
  exact not_lost_of_accepted h hnone henabled hv hslot ⟨⟨s.schema, hschema, hrequires⟩, hnot⟩

theorem get?_types_of_accepted {type : Name} {s : Subgraph} (hs : s ∈ subgraphs) {d t : TypeDef}
    (hd : s.schema.userType? type = some d)
    (ht : (Model.ofSubgraphs graphs subgraphs).emitType?
      (Model.ofSubgraphs graphs subgraphs).annotator type d.kind = some t)
    : (Model.ofSubgraphs graphs subgraphs).toSchema.types.get? type = some t := by
  rw [Model.get?_types_toSchema,
    Model.get?_emitTypes_of_userType? h (not_kind_of_accepted h hnone henabled type) hs hd, ht]
  rfl

theorem exists_argument_of_accepted {type field argument : Name} {s : Subgraph} (hs : s ∈ subgraphs)
    {d t : TypeDef} (hd : s.schema.userType? type = some d)
    (ht : (Model.ofSubgraphs graphs subgraphs).emitType?
      (Model.ofSubgraphs graphs subgraphs).annotator type d.kind = some t)
    {e : CompositeEntry} {fe : FieldEntry} (hfe : e.fields.get? field = some fe)
    (hfield : t.field? field
      = (e.body (Model.ofSubgraphs graphs subgraphs).annotator).fields.get? field)
    (hkept : argument ∈ (fe.emit (Model.ofSubgraphs graphs subgraphs).annotator
      e.byGraph.size).arguments.map Prod.fst)
    : ∃ t ∈ (Model.ofSubgraphs graphs subgraphs).toSchema.types.get? type,
        ∃ f ∈ t.field? field, argument ∈ f.arguments.map Prod.fst := by
  refine ⟨t, get?_types_of_accepted h hnone henabled hs hd ht, fe.emit _ _, ?_, hkept⟩
  unfold CompositeEntry.body at hfield
  rw [hfield, OrderedMap.get?_map, hfe]
  rfl

theorem keepsRequired : (Model.ofSubgraphs graphs subgraphs).toSchema.KeepsRequired subgraphs where
  objectArgument := by
    intro s hs type field argument d hd hnonNull hdefault
    have hdeclared := List.ne_nil_of_mem (List.mem_of_getLast? hd)
    obtain ⟨⟨t, ht, htype⟩, e, fe, ie, he, hfe, hie⟩ :=
      exists_argument_entries h (Model.get?_objects graphs subgraphs type) hs hdeclared
    have hv : .objectFieldArgument type e field fe argument ie
        ∈ (Model.ofSubgraphs graphs subgraphs).visits :=
      (Model.mem_visits_iff _ _).2 ⟨he, hfe, hie⟩
    have hrequires : s.schema.requiresAt .objectFieldArgument
        (.argument type field argument) :=
      (s.schema.requiresAt_iff _ _).2 ⟨d, hd, hnonNull, hdefault⟩
    have hkept := isKept_of_accepted h hnone henabled hv (by simp [Visit.slot]) hs hrequires
      (Model.ofSubgraphs graphs subgraphs).annotator
    have hemit : (Model.ofSubgraphs graphs subgraphs).emitType?
        (Model.ofSubgraphs graphs subgraphs).annotator type t.kind
        = some (e.emitObject (Model.ofSubgraphs graphs subgraphs).annotator) := by
      rw [TypeDef.kind_of_object? htype]
      exact congrArg (Option.map _) he
    exact exists_argument_of_accepted h hnone henabled hs ht hemit hfe rfl hkept
  interfaceArgument := by
    intro s hs type field argument d hd hnonNull hdefault
    have hdeclared := List.ne_nil_of_mem (List.mem_of_getLast? hd)
    obtain ⟨⟨t, ht, htype⟩, e, fe, ie, he, hfe, hie⟩ :=
      exists_argument_entries h (Model.get?_interfaces graphs subgraphs type) hs hdeclared
    have hv : .interfaceFieldArgument type e field fe argument ie
        ∈ (Model.ofSubgraphs graphs subgraphs).visits :=
      (Model.mem_visits_iff _ _).2 ⟨he, hfe, hie⟩
    have hrequires : s.schema.requiresAt .interfaceFieldArgument
        (.argument type field argument) :=
      (s.schema.requiresAt_iff _ _).2 ⟨d, hd, hnonNull, hdefault⟩
    have hkept := isKept_of_accepted h hnone henabled hv (by simp [Visit.slot]) hs hrequires
      (Model.ofSubgraphs graphs subgraphs).annotator
    have hemit : (Model.ofSubgraphs graphs subgraphs).emitType?
        (Model.ofSubgraphs graphs subgraphs).annotator type t.kind
        = some (e.emitInterface (Model.ofSubgraphs graphs subgraphs).annotator) := by
      rw [TypeDef.kind_of_interface? htype]
      exact congrArg (Option.map _) he
    exact exists_argument_of_accepted h hnone henabled hs ht hemit hfe rfl hkept
  inputField := by
    intro s hs type field d hd hnonNull hdefault
    obtain ⟨⟨t, ht, htype⟩, e, ie, he, hie⟩ :=
      exists_inputField_entries h hs (Option.isSome_of_eq_some (Option.mem_def.1 hd))
    have hv : .inputObjectField type e field ie ∈ (Model.ofSubgraphs graphs subgraphs).visits :=
      (Model.mem_visits_iff _ _).2 ⟨he, hie⟩
    have hrequires : s.schema.requiresAt .inputObjectField (.member type field) := by
      refine (s.schema.requiresAt_iff _ _).2 ⟨d, ?_, hnonNull, hdefault⟩
      change d ∈ (s.schema.inputField? type field).toList.getLast?
      rw [Option.mem_def.1 hd]
      rfl
    have hkept := isKept_of_accepted h hnone henabled hv (by simp [Visit.slot]) hs hrequires
      (Model.ofSubgraphs graphs subgraphs).annotator
    refine ⟨e.emit (Model.ofSubgraphs graphs subgraphs).annotator,
      get?_types_of_accepted h hnone henabled hs ht ?_, hkept⟩
    rw [TypeDef.kind_of_inputObject? htype]
    exact congrArg (Option.map _) he
  inputType := by
    intro type t ht hkind
    rw [Option.mem_def, Model.get?_types_toSchema, Option.or_eq_some_iff] at ht
    cases ht with
    | inr ht => exact absurd hkind (Model.kind_ne_inputObject ht.2)
    | inl ht =>
      obtain ⟨e, he, rfl⟩ := Model.exists_inputObject_of_emitTypes ht hkind
      have hv : .inputObjectType type e ∈ (Model.ofSubgraphs graphs subgraphs).visits :=
        (Model.mem_visits_iff _ _).2 he
      have hvisit := hnone _ hv Rule.inputFields
        ((Rule.mem_enabled_iff _ _).2 ⟨by simp [Rule.all], henabled _ (by simp)⟩)
      intro hnames
      obtain ⟨c, hc, -⟩ := ((guardsDropped h).emptyInputTypes type e hv).2 hnames
      rw [hvisit] at hc
      cases hc

end

theorem dropped_guarded (h : Identities.resolve subgraphs = .ok graphs) :
    (Model.ofSubgraphs graphs subgraphs).KeepsShared subgraphs
      ∧ (Model.ofSubgraphs graphs subgraphs).GuardsDropped graphs
      ∧ ∀ disabled c, compose subgraphs disabled = .ok c →
        (∀ r ∈ [Rule.typeKinds, Rule.requiredArguments, Rule.inputFields], r.name ∉ disabled) →
        c.schema.KeepsRequired subgraphs := by
  refine ⟨keepsShared h, guardsDropped h, ?_⟩
  intro disabled c hc henabled
  -- Resolution has one result, so this is the model that was checked.
  obtain ⟨graphs', h', hnone, rfl⟩ := (compose_eq_ok_iff subgraphs disabled c).1 hc
  rw [h] at h'
  cases h'
  exact keepsRequired h hnone henabled

theorem dropped_guarded_sample :
    ∃ v ∈ (Model.ofSubgraphs sampleGraphs sampleSubgraphs).visits,
      v.place = .argument (.lit "Query") (.lit "a") (.lit "x")
        ∧ ¬ v.IsKept (Model.ofSubgraphs sampleGraphs sampleSubgraphs).annotator := by
  have hv := List.get_mem (Model.ofSubgraphs sampleGraphs sampleSubgraphs).visits ⟨3, by decide⟩
  have hguarded := (dropped_guarded resolve_sampleSubgraphs).2.1.requiredArguments _ hv
    List.mem_cons_self _ rfl
  refine ⟨_, hv, rfl, (hguarded.1 ⟨.requiredArgument _ ["first"] ["second"], ?_, rfl, rfl⟩).2⟩
  exact List.mem_singleton_self _

end Supergraph
