import Supergraph.Composition
import Supergraph.Proofs.Rule.Finding

namespace Supergraph

open GraphQL

theorem Model.conflicts_eq_nil_iff (m : Model) (rules : List Rule) :
    m.conflicts rules = []
      ↔
    ∀ v ∈ m.visits, ∀ r ∈ rules, (r.visitor m.graphs).visit v = [] := by
  unfold conflicts walk
  simp only [List.flatMap_eq_nil_iff, List.mem_map, forall_exists_index, and_imp,
    forall_apply_eq_imp_iff₂]

theorem compose_eq_ok_iff (subgraphs : List Subgraph) (disabled : List String) (c : Composition) :
    compose subgraphs disabled = .ok c
      ↔
    ∃ graphs, Identities.resolve subgraphs = .ok graphs
      ∧ (∀ v ∈ (Model.ofSubgraphs graphs subgraphs).visits, ∀ r ∈ Rule.enabled disabled,
        (r.visitor graphs).visit v = [])
      ∧ c = { schema := (Model.ofSubgraphs graphs subgraphs).toSchema, graphs } := by
  unfold compose
  cases hresolve : Identities.resolve subgraphs with
  | error e => exact iff_of_false (by rintro ⟨⟩) (by rintro ⟨graphs, ⟨⟩, -⟩)
  | ok graphs =>
    have hnil := (Model.ofSubgraphs graphs subgraphs).conflicts_eq_nil_iff (Rule.enabled disabled)
    rw [Model.graphs_ofSubgraphs] at hnil
    dsimp only
    split
    . next hempty =>
      rw [List.isEmpty_iff] at hempty
      constructor
      . rintro ⟨⟩
        exact ⟨graphs, rfl, hnil.1 hempty, rfl⟩
      . rintro ⟨graphs', ⟨⟩, -, rfl⟩
        rfl
    . next hempty =>
      rw [List.isEmpty_iff] at hempty
      refine iff_of_false (by rintro ⟨⟩) ?_
      rintro ⟨graphs', ⟨⟩, hnone, -⟩
      exact hempty (hnil.2 hnone)

theorem Rule.mem_enabled_iff (disabled : List String) (r : Rule) :
    r ∈ enabled disabled ↔ r ∈ all ∧ r.name ∉ disabled := by
  simp [enabled]

theorem Except.exists_ok_of_any {ε α : Type} {e : Except ε α} {p : α → Bool}
    (h : e.toOption.any p) : ∃ a, e = .ok a ∧ p a := by
  cases e with
  | error _ => cases h
  | ok a => exact ⟨a, rfl, h⟩

def sampleResult (subgraphs : List Subgraph) : Composition where
  schema := (Model.ofSubgraphs sampleGraphs subgraphs).toSchema
  graphs := sampleGraphs

theorem compose_eq_sampleResult {subgraphs : List Subgraph}
    (h : Identities.resolve subgraphs = .ok sampleGraphs)
    (hnone : ∀ v ∈ (Model.ofSubgraphs sampleGraphs subgraphs).visits, ∀ r ∈ Rule.enabled [],
      (r.visitor sampleGraphs).visit v = [])
    : compose subgraphs [] = .ok (sampleResult subgraphs) :=
  (compose_eq_ok_iff _ _ _).2 ⟨sampleGraphs, h, hnone, rfl⟩

namespace Model

theorem get?_emitTypes (m : Model) (type : Name) :
    m.emitTypes.get? type
      =
    (m.kinds.get? type).bind fun kinds =>
      kinds.values.head?.bind (m.emitType? m.annotator type) := by
  simp [emitTypes]

theorem exists_emitType?_of_emitTypes {m : Model} {type : Name} {t : TypeDef}
    (h : m.emitTypes.get? type = some t) : ∃ kind, m.emitType? m.annotator type kind = some t := by
  rw [get?_emitTypes, Option.bind_eq_some_iff] at h
  obtain ⟨kinds, -, h⟩ := h
  obtain ⟨kind, -, h⟩ := Option.bind_eq_some_iff.1 h
  exact ⟨kind, h⟩

theorem get?_types_toSchema (m : Model) (type : Name) :
    m.toSchema.types.get? type
      =
    (m.emitTypes.get? type).or
      ((Schema.builtIn.types.insertMany (Join.types m.graphs)).get? type) :=
  OrderedMap.get?_insertMany_toList _ _ _

def givenTypes (graphs : Identities) : OrderedMap Name TypeDef :=
  Schema.builtIn.types.insertMany (Join.types graphs)

theorem mem_keys_givenTypes_iff (graphs : Identities) (type : Name) :
    type ∈ (givenTypes graphs).keys
      ↔
    isBuiltInType type
      ∨ type ∈ [.lit "link__Purpose", .lit "link__Import", Join.fieldSet, Join.graphType] := by
  unfold givenTypes
  rw [OrderedMap.mem_keys_insertMany, ← OrderedMap.contains_iff]
  rfl

theorem of_get?_givenTypes {graphs : Identities} {p : TypeDef → Prop}
    (hbuiltIn : ∀ d ∈ Schema.builtIn.types.values, p d) (hjoin : ∀ e ∈ Join.types graphs, p e.2)
    {type : Name} {d : TypeDef} (h : (givenTypes graphs).get? type = some d) : p d := by
  unfold givenTypes at h
  rw [OrderedMap.get?_insertMany, Option.or_eq_some_iff] at h
  cases h with
  | inl h =>
    obtain ⟨e, he, rfl⟩ := List.mem_map.1 (List.mem_of_getLast? h)
    exact hjoin e (List.mem_filter.1 he).1
  | inr h => exact hbuiltIn d ((OrderedMap.mem_values_iff _ _).2 ⟨type, h.2⟩)

theorem kind_ne_inputObject {graphs : Identities} {type : Name} {d : TypeDef}
    (h : (givenTypes graphs).get? type = some d) : d.kind ≠ .inputObject := by
  refine of_get?_givenTypes (p := (·.kind ≠ .inputObject)) (by decide) ?_ h
  simp [Join.types, TypeDef.kind, TypeBody.kind]

theorem not_mem_keys_givenTypes (graphs : Identities) {type : Name}
    (h : Federation.isUserType type) : type ∉ (givenTypes graphs).keys := by
  intro hmem
  cases (mem_keys_givenTypes_iff _ _).1 hmem with
  | inl hbuiltIn =>
    unfold Federation.isUserType at h
    rw [hbuiltIn] at h
    cases h
  | inr hjoin =>
    have hnone : ∀ name ∈ [Name.lit "link__Purpose", .lit "link__Import", Join.fieldSet,
        Join.graphType], Federation.isUserType name = false := by
      decide
    rw [hnone type hjoin] at h
    cases h

theorem get?_types_of_isUserType (m : Model) {type : Name} (h : Federation.isUserType type) :
    m.toSchema.types.get? type = m.emitTypes.get? type := by
  have hgiven := not_mem_keys_givenTypes m.graphs h
  rw [OrderedMap.mem_keys_iff, Bool.not_eq_true, Option.isSome_eq_false_iff,
    Option.isNone_iff_eq_none] at hgiven
  unfold givenTypes at hgiven
  rw [get?_types_toSchema, hgiven, Option.or_none]

theorem exists_emitType?_of_toSchema {m : Model} {type : Name} (huser : Federation.isUserType type)
    {t : TypeDef} (h : m.toSchema.types.get? type = some t)
    : ∃ kind, m.emitType? m.annotator type kind = some t := by
  rw [get?_types_of_isUserType m huser] at h
  exact exists_emitType?_of_emitTypes h

theorem kind_of_emitType? {m : Model} {a : Annotator} {type : Name} {kind : TypeKind} {t : TypeDef}
    (h : m.emitType? a type kind = some t) : t.kind = kind := by
  cases kind <;> obtain ⟨e, -, rfl⟩ := Option.map_eq_some_iff.1 h <;> rfl

variable {subgraphs : List Subgraph} {graphs : Identities}

section

variable (h : Identities.resolve subgraphs = .ok graphs) {type : Name}

include h

theorem isSome_kinds_iff :
    ((ofSubgraphs graphs subgraphs).kinds.get? type).isSome
      ↔
    ∃ s ∈ subgraphs, ∃ d, s.schema.userType? type = some d := by
  rw [get?_kinds, isSome_merged?_declared_iff, map_snd_sources h]
  simp [Option.toList_eq_nil_iff, Option.ne_none_iff_exists']

theorem head?_values_kinds {kinds : ByGraph TypeKind}
    (hkinds : (ofSubgraphs graphs subgraphs).kinds.get? type = some kinds)
    : kinds.values.head?
        =
      subgraphs.findSome? fun s => (s.schema.userType? type).map (·.kind) := by
  have hvalues : kinds.values.map id
      = (subgraphs.map (·.schema)).filterMap fun s =>
        ((s.userType? type).map (·.kind)).toList.getLast?.map id := by
    rw [kinds_eq_records graphs subgraphs hkinds, map_values_records (nodup_sources h),
      map_snd_sources h]
  have hlast : ∀ o : Option TypeKind, o.toList.getLast? = o := by
    intro o
    cases o <;> rfl
  simp only [hlast, List.map_id, Option.map_id, id, List.filterMap_map] at hvalues
  rw [hvalues, List.head?_filterMap]
  rfl

theorem exists_head?_kinds {kinds : ByGraph TypeKind}
    (hkinds : (ofSubgraphs graphs subgraphs).kinds.get? type = some kinds)
    : ∃ s ∈ subgraphs, ∃ d, s.schema.userType? type = some d
        ∧ kinds.values.head? = some d.kind := by
  obtain ⟨s, hs, d, hd⟩ := (isSome_kinds_iff h).1 (Option.isSome_of_eq_some hkinds)
  have hsome : (subgraphs.findSome? fun s => (s.schema.userType? type).map (·.kind)).isSome := by
    rw [List.findSome?_isSome_iff]
    exact ⟨s, hs, by rw [hd]; rfl⟩
  obtain ⟨kind, hkind⟩ := Option.isSome_iff_exists.1 hsome
  obtain ⟨first, hfirst, hdeclared⟩ := List.exists_of_findSome?_eq_some hkind
  obtain ⟨d', hd', rfl⟩ := Option.map_eq_some_iff.1 hdeclared
  exact ⟨first, hfirst, d', hd', (head?_values_kinds h hkinds).trans hkind⟩

theorem isSome_get?_register {δ ε : Type} (r : Register δ ε) {s : Subgraph} (hs : s ∈ subgraphs)
    {d : TypeDef} (hd : s.schema.userType? type = some d) (hcontent : (r.content? d).isSome)
    : ((r.entries (ofSubgraphs graphs subgraphs)).get? type).isSome := by
  rw [r.get?_ofSubgraphs, isSome_merged?_declared_iff]
  refine ⟨s.schema, mem_map_snd_sources h hs, ?_⟩
  unfold Register.contents
  rw [hd, Option.bind_some, toList_ne_nil_iff]
  exact hcontent

theorem isSome_emitType? (a : Annotator) {s : Subgraph} (hs : s ∈ subgraphs) {d : TypeDef}
    (hd : s.schema.userType? type = some d)
    : ((ofSubgraphs graphs subgraphs).emitType? a type d.kind).isSome := by
  obtain ⟨description, directives, body⟩ := d
  cases body with
  | object body =>
    exact Option.isSome_map.trans (isSome_get?_register h objectRegister hs hd rfl)
  | interface body =>
    exact Option.isSome_map.trans (isSome_get?_register h interfaceRegister hs hd rfl)
  | inputObject fields =>
    exact Option.isSome_map.trans (isSome_get?_register h inputObjectRegister hs hd rfl)
  | enum values =>
    exact Option.isSome_map.trans (isSome_get?_register h enumRegister hs hd rfl)
  | union members =>
    exact Option.isSome_map.trans (isSome_get?_register h unionRegister hs hd rfl)
  | scalar =>
    exact Option.isSome_map.trans (isSome_get?_register h scalarRegister hs hd rfl)

theorem exists_emitTypes_of_userType? {s : Subgraph} (hs : s ∈ subgraphs) {d : TypeDef}
    (hd : s.schema.userType? type = some d)
    : ∃ t, (ofSubgraphs graphs subgraphs).emitTypes.get? type = some t
        ∧ (subgraphs.findSome? fun s => (s.schema.userType? type).map (·.kind)) = some t.kind := by
  obtain ⟨kinds, hkinds⟩ := Option.isSome_iff_exists.1 ((isSome_kinds_iff h).2 ⟨s, hs, d, hd⟩)
  obtain ⟨first, hfirst, d', hd', hhead⟩ := exists_head?_kinds h hkinds
  obtain ⟨t, ht⟩ := Option.isSome_iff_exists.1
    (isSome_emitType? h (ofSubgraphs graphs subgraphs).annotator hfirst hd')
  refine ⟨t, ?_, ?_⟩
  . rw [get?_emitTypes, hkinds, Option.bind_some, hhead, Option.bind_some, ht]
  . rw [← head?_values_kinds h hkinds, hhead, kind_of_emitType? ht]

theorem not_kind_of_visits
    (hnone : ∀ v ∈ (ofSubgraphs graphs subgraphs).visits,
      (Rule.typeKinds.visitor graphs).visit v = [])
    (type : Name)
    : ¬ Finding.kind (schemaSet (subgraphs.map (·.schema))) .namedType (.type type) := by
  intro hfinding
  obtain ⟨schema, hschema, kind, hkind, -⟩ := id hfinding
  obtain ⟨s, hs, rfl⟩ := List.mem_map.1 hschema
  obtain ⟨d, hd, -⟩ := Option.map_eq_some_iff.1 (Option.mem_toList.1 hkind)
  obtain ⟨kinds, hkinds⟩ := Option.isSome_iff_exists.1 ((isSome_kinds_iff h).2 ⟨s, hs, d, hd⟩)
  have hv : .namedType type kinds ∈ (ofSubgraphs graphs subgraphs).visits :=
    (mem_visits_iff _ _).2 hkinds
  exact (Rule.reports_typeKinds h hv).eq_nil_iff.1 (hnone _ hv) hfinding

theorem get?_emitTypes_of_userType?
    (hkind : ¬ Finding.kind (schemaSet (subgraphs.map (·.schema))) .namedType (.type type))
    {s : Subgraph} (hs : s ∈ subgraphs) {d : TypeDef} (hd : s.schema.userType? type = some d)
    : (ofSubgraphs graphs subgraphs).emitTypes.get? type
        =
      (ofSubgraphs graphs subgraphs).emitType? (ofSubgraphs graphs subgraphs).annotator type
        d.kind := by
  have hkindsAt : ∀ s' ∈ subgraphs, ∀ d', s'.schema.userType? type = some d' →
      s'.schema ∈ schemaSet (subgraphs.map (·.schema))
        ∧ d'.kind ∈ s'.schema.kindsAt .namedType (.type type) := by
    intro s' hs' d' hd'
    refine ⟨List.mem_map.2 ⟨s', hs', rfl⟩, ?_⟩
    exact Option.mem_toList.2 (Option.map_eq_some_iff.2 ⟨d', hd', rfl⟩)
  obtain ⟨kinds, hkinds⟩ := Option.isSome_iff_exists.1 ((isSome_kinds_iff h).2 ⟨s, hs, d, hd⟩)
  -- Whichever subgraph comes first, it gives the type this kind.
  obtain ⟨first, hfirst, d', hd', hhead⟩ := exists_head?_kinds h hkinds
  have heq : d'.kind = d.kind := by
    apply Classical.byContradiction
    intro hne
    obtain ⟨hschema, hdeclared⟩ := hkindsAt s hs d hd
    obtain ⟨hschema', hdeclared'⟩ := hkindsAt first hfirst d' hd'
    exact hkind ⟨_, hschema', _, hdeclared', _, hschema, _, hdeclared, hne⟩
  rw [get?_emitTypes, hkinds, Option.bind_some, hhead, Option.bind_some, heq]

end

end Model

end Supergraph
