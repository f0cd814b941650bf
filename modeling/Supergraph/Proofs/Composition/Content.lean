import Supergraph.Proofs.Composition.Closure
import Supergraph.Proofs.Composition.Graphs
import Supergraph.Proofs.Composition.Kept
import Supergraph.Proofs.Composition.Order
import Supergraph.Proofs.Rule.Types

/-!
This module contains the proof that the order of subgraphs does not decide what a supergraph says,
apart from descriptions, default values, root types and the order of definitions.
-/

namespace Supergraph

open GraphQL

namespace GraphQL

structure FieldDef.SameContent (typed : Prop) (d d' : FieldDef) : Prop where
  type : d.type = d'.type
  arguments : ∀ name, name ∈ d.arguments.map Prod.fst ↔ name ∈ d'.arguments.map Prod.fst
  argumentTypes : typed → ∀ name a a', (name, a) ∈ d.arguments → (name, a') ∈ d'.arguments →
    a.type = a'.type

def TypeDef.inputField? (d : TypeDef) (name : Name) : Option InputValueDef :=
  match d.body with
  | .inputObject fields => fields.get? name
  | _ => none

structure TypeDef.SameContent (t t' : TypeDef) : Prop where
  kind : t.kind = t'.kind
  parts : ∀ name, name ∈ t.parts ↔ name ∈ t'.parts
  interfaces : ∀ name, name ∈ t.interfaces ↔ name ∈ t'.interfaces
  fields : ∀ name,
    Option.Rel (FieldDef.SameContent (t.kind = .object)) (t.field? name) (t'.field? name)
  inputFields : ∀ name,
    Option.Rel (fun d d' => d.type = d'.type) (t.inputField? name) (t'.inputField? name)

structure DirectiveDef.SameContent (d d' : DirectiveDef) : Prop where
  repeatable : d.repeatable = d'.repeatable
  locations : ∀ location, location ∈ d.locations ↔ location ∈ d'.locations
  arguments : ∀ name, name ∈ d.arguments.map Prod.fst ↔ name ∈ d'.arguments.map Prod.fst

namespace Schema

def mergedTypes (s : Schema) : OrderedMap Name TypeDef :=
  s.types.filter fun name _ => Join.isMerged name

/--
Whether two supergraphs have the same subgraphs by their display names, the same merged types with
the same keys in each subgraph, and the same directives.
-/
structure SameContent (s s' : Schema) : Prop where
  graphs : ∀ name, (∃ value, Join.graphName? s value = some name)
    ↔ ∃ value, Join.graphName? s' value = some name
  types : ∀ type,
    Option.Rel TypeDef.SameContent (s.mergedTypes.get? type) (s'.mergedTypes.get? type)
  keys : ∀ name value value', Join.graphName? s value = some name →
    Join.graphName? s' value' = some name →
      ∀ type t t', s.mergedTypes.get? type = some t → s'.mergedTypes.get? type = some t' →
        Join.keysIn value t.directives = Join.keysIn value' t'.directives
  directives : ∀ name,
    Option.Rel DirectiveDef.SameContent (s.userDirective? name) (s'.userDirective? name)

end Schema

end GraphQL

theorem Option.rel_of_isSome {α β : Type} {r : α → β → Prop} {o : Option α} {o' : Option β}
    (hsome : o.isSome ↔ o'.isSome) (h : ∀ a b, o = some a → o' = some b → r a b)
    : Option.Rel r o o' := by
  cases o with
  | none =>
    cases o' with
    | none => exact .none
    | some b => simp at hsome
  | some a =>
    cases o' with
    | none => simp at hsome
    | some b => exact .some (h a b rfl rfl)

namespace Model

section

variable {subgraphs : List Subgraph} {graphs : Identities}
variable (h : Identities.resolve subgraphs = .ok graphs)

include h

theorem mergedTypes_toSchema :
    (ofSubgraphs graphs subgraphs).toSchema.mergedTypes
      =
    (ofSubgraphs graphs subgraphs).emitTypes := by
  apply OrderedMap.ext_of_get?
  . rw [keys_emitTypes h, ← keys_types_toSchema h]
    unfold Schema.mergedTypes OrderedMap.keys
    rw [OrderedMap.toList_filter, List.filter_map]
    rfl
  . intro type
    unfold Schema.mergedTypes
    rw [OrderedMap.get?_filter]
    by_cases hmerged : Join.isMerged type
    . have hgiven : (givenTypes (ofSubgraphs graphs subgraphs).graphs).get? type = none := by
        rw [← Option.not_isSome_iff_eq_none, ← OrderedMap.mem_keys_iff, mem_keys_givenTypes_iff]
        rintro (hbuiltIn | hjoin)
        . simp [Join.isMerged, hbuiltIn] at hmerged
        . have hnone : ∀ name ∈ Join.typeNames, Join.isMerged name = false := by decide
          rw [hnone type hjoin] at hmerged
          cases hmerged
      unfold givenTypes at hgiven
      rw [get?_types_toSchema, hgiven, Option.or_none]
      cases (ofSubgraphs graphs subgraphs).emitTypes.get? type <;> simp [hmerged]
    . have hnone : (ofSubgraphs graphs subgraphs).emitTypes.get? type = none := by
        rw [← Option.not_isSome_iff_eq_none, isSome_emitTypes_iff h]
        rintro ⟨s, -, d, hd⟩
        exact hmerged (Join.isMerged_of_isUserType (Schema.exists_of_userType? hd).1)
      rw [hnone]
      cases (ofSubgraphs graphs subgraphs).toSchema.types.get? type <;> simp [hmerged]

theorem exists_tellsOf
    (hnone : ∀ v ∈ (ofSubgraphs graphs subgraphs).visits,
      (Rule.typeKinds.visitor graphs).visit v = [])
    {identity : Identity} (hidentity : identity ∈ graphs.values)
    : ∃ s ∈ subgraphs, s.name = identity.name
        ∧ ∀ type t, (ofSubgraphs graphs subgraphs).emitTypes.get? type = some t →
          t.TellsOf identity.enumValue (s.schema.types.get? type) := by
  obtain ⟨i, hi⟩ := List.getElem?_of_mem hidentity
  have hlength : i < subgraphs.length := by
    rw [← Identities.size_of_resolve h, ← OrderedMap.length_values]
    exact (List.getElem?_eq_some_iff.1 hi).1
  have hs := List.getElem?_eq_getElem hlength
  obtain ⟨id, _, hid, hrepresents⟩ := Identities.represents_of_getElem? h hs
  unfold OrderedMap.values at hi
  rw [List.getElem?_map, hid] at hi
  cases hi
  refine ⟨_, List.mem_of_getElem? hs, hrepresents.name.symm, ?_⟩
  intro type t ht
  obtain ⟨s, -, d, hd⟩ := (isSome_emitTypes_iff h).1 (Option.isSome_of_eq_some ht)
  obtain ⟨hemit, hkind⟩ := exists_kind_of_emitTypes h (not_kind_of_visits h hnone type) ht
  rw [← Identities.valueOf_eq ((OrderedMap.mem_toList_iff _ _ _).1 (List.mem_of_getElem? hid))]
  exact tellsOf_emitType? h (Schema.exists_of_userType? hd).1 hemit hkind
    (List.mem_of_getElem? (Identities.getElem?_sources hs hid))

omit h in
theorem userDirective?_toSchema (name : Name) :
    (ofSubgraphs graphs subgraphs).toSchema.userDirective? name
      =
    ((ofSubgraphs graphs subgraphs).retained.get? name).map (·.definition) := by
  apply Option.ext
  intro d
  rw [Schema.userDirective?_eq_some_iff, Option.map_eq_some_iff]
  constructor
  . rintro ⟨hd, huser⟩
    exact exists_retained_of_isUserDirective huser hd
  . rintro ⟨retained, hretained, rfl⟩
    obtain ⟨e, he, -⟩ := get?_retained_eq_some_iff.1 hretained
    refine ⟨?_, isUserDirective_of_get?_directives he⟩
    rw [get?_directiveDefs_toSchema, hretained]
    rfl

end

end Model

structure IsAccepted (subgraphs : List Subgraph) (graphs : Identities) : Prop where
  resolve : Identities.resolve subgraphs = .ok graphs
  visits : ∀ v ∈ (Model.ofSubgraphs graphs subgraphs).visits, ∀ r ∈ Rule.enabled [],
    (r.visitor graphs).visit v = []
  distinct : ∀ s ∈ subgraphs, s.schema.DistinctArguments

namespace IsAccepted

variable {subgraphs subgraphs' : List Subgraph} {graphs graphs' : Identities}

theorem typeKinds (h : IsAccepted subgraphs graphs) :
    ∀ v ∈ (Model.ofSubgraphs graphs subgraphs).visits,
      (Rule.typeKinds.visitor graphs).visit v = [] := by
  intro v hv
  exact h.visits v hv _ (by simp [Rule.enabled, Rule.all])

theorem sameNullable (h : IsAccepted subgraphs graphs) {v : Visit}
    (hv : v ∈ (Model.ofSubgraphs graphs subgraphs).visits)
    (hchecked : v.HasCheckedType subgraphs)
    : ∀ a ∈ subgraphs.flatMap (·.schema.typesAt v.slot v.place),
        ∀ b ∈ subgraphs.flatMap (·.schema.typesAt v.slot v.place), a.SameNullable b := by
  have henabled : ∀ r ∈ [Rule.fieldTypes, Rule.argumentTypes], r ∈ Rule.enabled [] := by
    simp [Rule.enabled, Rule.all]
  have hnone : v.typeConflicts graphs = [] := by
    unfold Visit.typeConflicts
    rw [List.flatMap_eq_nil_iff]
    intro r hr
    exact h.visits v hv r (henabled r hr)
  rw [(Rule.reports_typeConflicts h.resolve h.distinct hv hchecked).eq_nil_iff] at hnone
  intro a ha b hb
  obtain ⟨s, hs, ha⟩ := List.mem_flatMap.1 ha
  obtain ⟨s', hs', hb⟩ := List.mem_flatMap.1 hb
  apply Classical.byContradiction
  intro hne
  exact hnone ⟨s.schema, List.mem_map.2 ⟨s, hs, rfl⟩, a, ha, s'.schema,
    List.mem_map.2 ⟨s', hs', rfl⟩, b, hb, hne⟩

variable (hperm : subgraphs.Perm subgraphs')
variable (h : IsAccepted subgraphs graphs) (h' : IsAccepted subgraphs' graphs')

include hperm h h'

theorem emittedType?_eq {v w : Visit}
    (hv : v ∈ (Model.ofSubgraphs graphs subgraphs).visits)
    (hw : w ∈ (Model.ofSubgraphs graphs' subgraphs').visits) (hslot : v.slot = w.slot)
    (hplace : v.place = w.place) (houtput : v.isOutput = w.isOutput)
    (hchecked : v.HasCheckedType subgraphs) (hchecked' : w.HasCheckedType subgraphs')
    : v.emittedType? (Model.ofSubgraphs graphs subgraphs).annotator
        =
      w.emittedType? (Model.ofSubgraphs graphs' subgraphs').annotator := by
  obtain ⟨t, ht, helected⟩ := Rule.isElected_emittedType h.resolve hv hchecked _
  obtain ⟨t', ht', helected'⟩ := Rule.isElected_emittedType h'.resolve hw hchecked' _
  rw [← houtput, ← hslot, ← hplace] at helected'
  rw [ht, ht', helected.eq_of_mem_iff helected' ?_ (h.sameNullable hv hchecked)]
  intro d
  exact (hperm.flatMap_right _).mem_iff

theorem fieldDef_sameContent {composite? : TypeDef → Option (TypeDef × CompositeBody)}
    {type field : Name} {fe fe' : FieldEntry}
    (hfe : FieldEntry.ofDeclared? (declared Schema.keeps (Model.sources graphs subgraphs)
      fun s => (s.field? composite? type field).toList) = some fe)
    (hfe' : FieldEntry.ofDeclared? (declared Schema.keeps (Model.sources graphs' subgraphs')
      fun s => (s.field? composite? type field).toList) = some fe')
    (htype : fe.type = fe'.type) {typed : Prop}
    (hargument : typed → ∀ argument ie ie', fe.arguments.get? argument = some ie →
      fe'.arguments.get? argument = some ie' → ie.type = ie'.type)
    (a a' : Annotator) (n n' : Nat) : (fe.emit a n).SameContent typed (fe'.emit a' n') where
  type := htype
  arguments name := by
    rw [map_fst_arguments_emit, map_fst_arguments_emit, Rule.mem_keptArguments_iff h.resolve hfe,
      Rule.mem_keptArguments_iff h'.resolve hfe']
    simp only [hperm.mem_iff]
  argumentTypes ht name d d' hd hd' := by
    have hnamed : ∀ {d} {arguments : List (Name × InputValueDef)}, (name, d) ∈ arguments →
        d ∈ named name arguments := by
      intro d arguments hd
      exact List.mem_map.2 ⟨(name, d), List.mem_filter.2 ⟨hd, decide_eq_true rfl⟩, rfl⟩
    obtain ⟨ie, hie, rfl⟩ := FieldEntry.exists_argument_of_emit (hnamed hd)
    obtain ⟨ie', hie', rfl⟩ := FieldEntry.exists_argument_of_emit (hnamed hd')
    exact hargument ht name ie ie' hie hie'

theorem rel_fields {composite? : TypeDef → Option (TypeDef × CompositeBody)} {type : Name}
    {e e' : CompositeEntry}
    (he : CompositeEntry.ofDeclared? (declared Schema.keeps (Model.sources graphs subgraphs)
      fun s => ((s.userType? type).bind composite?).toList) = some e)
    (he' : CompositeEntry.ofDeclared? (declared Schema.keeps (Model.sources graphs' subgraphs')
      fun s => ((s.userType? type).bind composite?).toList) = some e')
    {typed : Prop}
    (hfields : ∀ field fe fe', e.fields.get? field = some fe → e'.fields.get? field = some fe' →
      fe.type = fe'.type
        ∧ (typed → ∀ argument ie ie', fe.arguments.get? argument = some ie →
          fe'.arguments.get? argument = some ie' → ie.type = ie'.type))
    (a a' : Annotator) (field : Name)
    : Option.Rel (FieldDef.SameContent typed) ((e.body a).fields.get? field)
        ((e'.body a').fields.get? field) := by
  apply Option.rel_of_isSome
  . unfold CompositeEntry.body
    rw [OrderedMap.get?_map, OrderedMap.get?_map, Option.isSome_map, Option.isSome_map,
      ← OrderedMap.mem_keys_iff, ← OrderedMap.mem_keys_iff]
    exact Model.mem_keys_perm hperm h.resolve h'.resolve (CompositeEntry.get?_fields he)
      (CompositeEntry.get?_fields he') field
  . intro d d' hd hd'
    obtain ⟨fe, hfe, rfl⟩ := CompositeEntry.exists_field_of_body (Option.mem_toList.2 hd)
    obtain ⟨fe', hfe', rfl⟩ := CompositeEntry.exists_field_of_body (Option.mem_toList.2 hd')
    obtain ⟨htype, hargument⟩ := hfields field fe fe' hfe hfe'
    exact fieldDef_sameContent hperm h h' ((CompositeEntry.get?_fields he field).symm.trans hfe)
      ((CompositeEntry.get?_fields he' field).symm.trans hfe') htype hargument _ _ _ _

section

variable {type : Name} {kind : TypeKind} {t t' : TypeDef}
variable (ht : (Model.ofSubgraphs graphs subgraphs).emitType?
  (Model.ofSubgraphs graphs subgraphs).annotator type kind = some t)
variable (ht' : (Model.ofSubgraphs graphs' subgraphs').emitType?
  (Model.ofSubgraphs graphs' subgraphs').annotator type kind = some t')

include ht ht'

theorem rel_field? (field : Name) :
    Option.Rel (FieldDef.SameContent (kind = .object)) (t.field? field) (t'.field? field) := by
  have hsame := @emittedType?_eq _ _ _ _ hperm h h'
  simp only [Model.mem_visits_iff] at hsame
  cases kind <;> obtain ⟨e, he, rfl⟩ := Option.map_eq_some_iff.1 ht <;>
    obtain ⟨e', he', rfl⟩ := Option.map_eq_some_iff.1 ht'
  case object =>
    refine rel_fields hperm h h' ((Model.get?_objects _ _ _).symm.trans he)
      ((Model.get?_objects _ _ _).symm.trans he') ?_ _ _ field
    intro field fe fe' hfe hfe'
    constructor
    . exact Option.some.inj (hsame (v := .objectField type e field fe)
        (w := .objectField type e' field fe') ⟨he, hfe⟩ ⟨he', hfe'⟩ rfl rfl rfl trivial trivial)
    . intro _ argument ie ie' hie hie'
      exact Option.some.inj (hsame (v := .objectFieldArgument type e field fe argument ie)
        (w := .objectFieldArgument type e' field fe' argument ie') ⟨he, hfe, hie⟩
        ⟨he', hfe', hie'⟩ rfl rfl rfl trivial trivial)
  case interface =>
    refine rel_fields hperm h h' ((Model.get?_interfaces _ _ _).symm.trans he)
      ((Model.get?_interfaces _ _ _).symm.trans he') ?_ _ _ field
    intro field fe fe' hfe hfe'
    constructor
    . exact Option.some.inj (hsame (v := .interfaceField type e field fe)
        (w := .interfaceField type e' field fe') ⟨he, hfe⟩ ⟨he', hfe'⟩ rfl rfl rfl trivial trivial)
    . exact fun hobject => nomatch hobject
  all_goals exact .none

theorem rel_inputField? (field : Name) :
    Option.Rel (fun d d' => d.type = d'.type) (t.inputField? field) (t'.inputField? field) := by
  cases kind <;> obtain ⟨e, he, rfl⟩ := Option.map_eq_some_iff.1 ht <;>
    obtain ⟨e', he', rfl⟩ := Option.map_eq_some_iff.1 ht'
  case inputObject =>
    apply Option.rel_of_isSome
    . change (OrderedMap.get? (OrderedMap.map _ _) _).isSome
        ↔ (OrderedMap.get? (OrderedMap.map _ _) _).isSome
      rw [OrderedMap.get?_map, OrderedMap.get?_map, Option.isSome_map, Option.isSome_map,
        ← OrderedMap.mem_keys_iff, ← OrderedMap.mem_keys_iff,
        Rule.mem_keptFields_iff h.resolve ((Model.get?_inputObjects _ _ _).symm.trans he),
        Rule.mem_keptFields_iff h'.resolve ((Model.get?_inputObjects _ _ _).symm.trans he')]
      simp only [hperm.mem_iff]
    . intro d d' hd hd'
      obtain ⟨ie, hie, rfl⟩ := InputObjectEntry.exists_field_of_emit (Option.mem_toList.2 hd)
      obtain ⟨ie', hie', rfl⟩ := InputObjectEntry.exists_field_of_emit (Option.mem_toList.2 hd')
      exact Option.some.inj (emittedType?_eq hperm h h' (v := .inputObjectField type e field ie)
        (w := .inputObjectField type e' field ie') ((Model.mem_visits_iff _ _).2 ⟨he, hie⟩)
        ((Model.mem_visits_iff _ _).2 ⟨he', hie'⟩) rfl rfl rfl trivial trivial)
  all_goals exact .none

end

theorem typeDef_sameContent {type : Name} {t t' : TypeDef}
    (ht : (Model.ofSubgraphs graphs subgraphs).emitTypes.get? type = some t)
    (ht' : (Model.ofSubgraphs graphs' subgraphs').emitTypes.get? type = some t')
    : t.SameContent t' := by
  obtain ⟨hemit, hkind⟩ := Model.exists_kind_of_emitTypes h.resolve
    (Model.not_kind_of_visits h.resolve h.typeKinds type) ht
  obtain ⟨hemit', hkind'⟩ := Model.exists_kind_of_emitTypes h'.resolve
    (Model.not_kind_of_visits h'.resolve h'.typeKinds type) ht'
  have hsame : t.kind = t'.kind := by
    obtain ⟨s, hs, d, hd⟩ :=
      (Model.isSome_emitTypes_iff h.resolve).1 (Option.isSome_of_eq_some ht)
    rw [← hkind s hs d hd, hkind' s (hperm.mem_iff.1 hs) d hd]
  constructor
  case kind => exact hsame
  case parts =>
    intro name
    rw [Model.mem_parts_emitType? h.resolve hemit hkind,
      Model.mem_parts_emitType? h'.resolve hemit' hkind']
    simp only [hperm.mem_iff]
  case interfaces =>
    intro name
    rw [Model.interfaces_emitType? h.resolve hemit hkind,
      Model.interfaces_emitType? h'.resolve hemit' hkind', OrderedSet.mem_toList,
      OrderedSet.mem_toList, OrderedSet.mem_ofList, OrderedSet.mem_ofList]
    exact (hperm.flatMap_right _).mem_iff
  case fields =>
    rw [← hsame] at hemit'
    exact rel_field? hperm h h' hemit hemit'
  case inputFields =>
    rw [← hsame] at hemit'
    exact rel_inputField? hperm h h' hemit hemit'

theorem exists_retained {name : Name} {d : RetainedDirective}
    (hd : (Model.ofSubgraphs graphs subgraphs).retained.get? name = some d)
    : ∃ d', (Model.ofSubgraphs graphs' subgraphs').retained.get? name = some d'
        ∧ d.definition.SameContent d'.definition := by
  have hlocations : ∀ location, MergesLocation subgraphs name location
      ↔ MergesLocation subgraphs' name location := by
    intro location
    unfold MergesLocation ComposedByAll
    simp only [hperm.mem_iff]
  obtain ⟨e, he, hsize, hne, rfl⟩ := Model.get?_retained_eq_some_iff.1 hd
  rw [Model.graphs_ofSubgraphs] at hsize
  obtain ⟨e', he', -⟩ := Model.exists_entry_of_subset h.resolve h'.resolve hperm.subset
    (Model.get?_directives graphs subgraphs name) (Model.get?_directives graphs' subgraphs' name) he
  have hsize' : e'.byGraph.size = graphs'.size := by
    rw [Model.size_byGraph_eq_size_graphs_iff h.resolve he] at hsize
    rw [Model.size_byGraph_eq_size_graphs_iff h'.resolve he']
    intro s hs
    exact hsize s (hperm.mem_iff.2 hs)
  have hmerged : ∀ location, location ∈ e.mergedLocations ↔ location ∈ e'.mergedLocations := by
    intro location
    rw [Model.mem_mergedLocations_iff h.resolve he hsize,
      Model.mem_mergedLocations_iff h'.resolve he' hsize', hlocations]
  have hne' : ¬ e'.mergedLocations.isEmpty := by
    unfold OrderedSet.isEmpty at hne ⊢
    rw [List.isEmpty_iff] at hne ⊢
    obtain ⟨location, hlocation⟩ := List.exists_mem_of_ne_nil _ hne
    exact List.ne_nil_of_mem ((hmerged location).1 hlocation)
  have hd' := Model.get?_retained_eq_some_iff.2
    ⟨e', he', by rw [Model.graphs_ofSubgraphs, hsize'], hne', rfl⟩
  refine ⟨_, hd', ?_, hmerged, ?_⟩
  . rw [Bool.eq_iff_iff, Model.repeatable_retained_iff h.resolve hd,
      Model.repeatable_retained_iff h'.resolve hd']
    simp only [hperm.mem_iff]
  . intro argument
    rw [Model.mem_arguments_retained_iff h.resolve hd,
      Model.mem_arguments_retained_iff h'.resolve hd']
    simp only [hperm.mem_iff]

theorem schema_sameContent :
    (Model.ofSubgraphs graphs subgraphs).toSchema.SameContent
      (Model.ofSubgraphs graphs' subgraphs').toSchema where
  graphs name := by
    have hnames : ∀ {subgraphs graphs}, Identities.resolve subgraphs = .ok graphs →
        ((∃ value, Join.graphName? (Model.ofSubgraphs graphs subgraphs).toSchema value = some name)
          ↔ name ∈ subgraphs.map (·.name)) := by
      intro subgraphs graphs h
      rw [← Identities.names_eq h]
      simp [Model.graphName?_eq_some_iff h, Identities.names]
    rw [hnames h.resolve, hnames h'.resolve]
    exact (hperm.map _).mem_iff
  types type := by
    rw [Model.mergedTypes_toSchema h.resolve, Model.mergedTypes_toSchema h'.resolve]
    apply Option.rel_of_isSome
    . rw [Model.isSome_emitTypes_iff h.resolve, Model.isSome_emitTypes_iff h'.resolve]
      simp only [hperm.mem_iff]
    . intro t t' ht ht'
      exact typeDef_sameContent hperm h h' ht ht'
  keys name value value' hname hname' type t t' ht ht' := by
    rw [Model.mergedTypes_toSchema h.resolve] at ht
    rw [Model.mergedTypes_toSchema h'.resolve] at ht'
    obtain ⟨identity, hidentity, rfl, rfl⟩ := (Model.graphName?_eq_some_iff h.resolve).1 hname
    obtain ⟨identity', hidentity', rfl, heq⟩ :=
      (Model.graphName?_eq_some_iff h'.resolve).1 hname'
    obtain ⟨s, hs, hsname, htells⟩ := Model.exists_tellsOf h.resolve h.typeKinds hidentity
    obtain ⟨s', hs', hsname', htells'⟩ := Model.exists_tellsOf h'.resolve h'.typeKinds hidentity'
    -- The names of subgraphs differ, so both runs tell of the same one.
    have hsame : s = s' := by
      apply List.inj_on_of_nodup_map ((Identities.resolve_eq_ok_iff _ _).1 h.resolve).1 hs
        (hperm.mem_iff.2 hs')
      rw [hsname, hsname', heq]
    rw [(htells type t ht).keys, (htells' type t' ht').keys, hsame]
  directives name := by
    rw [Model.userDirective?_toSchema, Model.userDirective?_toSchema]
    cases hd : (Model.ofSubgraphs graphs subgraphs).retained.get? name with
    | none =>
      cases hd' : (Model.ofSubgraphs graphs' subgraphs').retained.get? name with
      | none => exact .none
      | some d' =>
        obtain ⟨d, hsome, -⟩ := exists_retained hperm.symm h' h hd'
        rw [hd] at hsome
        cases hsome
    | some d =>
      obtain ⟨d', hd', hsame⟩ := exists_retained hperm h h' hd
      rw [hd']
      exact .some hsame

end IsAccepted

theorem compose_sameContent {subgraphs subgraphs' : List Subgraph}
    (hperm : subgraphs.Perm subgraphs') (hdistinct : ∀ s ∈ subgraphs, s.schema.DistinctArguments)
    {c : Composition} (hc : compose subgraphs [] = .ok c)
    : ∃ c', compose subgraphs' [] = .ok c' ∧ c.schema.SameContent c'.schema := by
  have hdistinct' : ∀ s ∈ subgraphs', s.schema.DistinctArguments := by
    intro s hs
    exact hdistinct s (hperm.mem_iff.2 hs)
  cases hc' : compose subgraphs' [] with
  | error errors =>
    obtain ⟨errors', herrors', -⟩ := exists_compose_error_of_perm hperm.symm hdistinct' hc'
    rw [hc] at herrors'
    cases herrors'
  | ok c' =>
    obtain ⟨graphs, hresolve, hnone, rfl⟩ := (compose_eq_ok_iff _ _ _).1 hc
    obtain ⟨graphs', hresolve', hnone', rfl⟩ := (compose_eq_ok_iff _ _ _).1 hc'
    exact ⟨_, rfl, IsAccepted.schema_sameContent hperm ⟨hresolve, hnone, hdistinct⟩
      ⟨hresolve', hnone', hdistinct'⟩⟩

theorem compose_sameContent_entities :
    compose entitySubgraphs [] = .ok (sampleResult entitySubgraphs)
      ∧ ∃ c', compose entitySubgraphs.reverse [] = .ok c'
        ∧ (sampleResult entitySubgraphs).schema.SameContent c'.schema := by
  have hc : compose entitySubgraphs [] = .ok (sampleResult entitySubgraphs) :=
    compose_eq_sampleResult rfl (by decide +kernel)
  exact ⟨hc, compose_sameContent (List.reverse_perm _).symm (by decide) hc⟩

end Supergraph
