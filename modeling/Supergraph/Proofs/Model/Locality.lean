import Supergraph.Proofs.Model.Applications
import Supergraph.Proofs.Model.Ledger

/-!
This module contains the proof that a step is local to its subgraph: it writes under its own
identifier and leaves everything else as it is.
-/

namespace Supergraph

open GraphQL

@[ext]
structure Projection where
  kind : Name → Option TypeKind
  object : Name → Option CompositeInGraph
  objectField : Name → Name → Option FieldInGraph
  objectFieldArgument : Name → Name → Name → Option InputInGraph
  interface : Name → Option CompositeInGraph
  interfaceField : Name → Name → Option FieldInGraph
  interfaceFieldArgument : Name → Name → Name → Option InputInGraph
  inputObject : Name → Option (List Directive)
  inputField : Name → Name → Option InputInGraph
  enum : Name → Option (List Directive)
  enumValue : Name → Name → Option (List Directive)
  union : Name → Option (List Directive)
  isMember : Name → Name → Bool
  scalar : Name → Option (List Directive)
  directive : Name → Option DirectiveInGraph
  directiveArgument : Name → Name → Option InputInGraph

namespace Model

def projection (m : Model) (graph : GraphId) : Projection where
  kind type := (m.kinds.get? type).bind (·.get? graph)
  object type := (m.objects.get? type).bind (·.byGraph.get? graph)
  objectField type field :=
    ((m.objects.get? type).bind (·.fields.get? field)).bind (·.byGraph.get? graph)
  objectFieldArgument type field argument :=
    (((m.objects.get? type).bind (·.fields.get? field)).bind (·.arguments.get? argument)).bind
      (·.byGraph.get? graph)
  interface type := (m.interfaces.get? type).bind (·.byGraph.get? graph)
  interfaceField type field :=
    ((m.interfaces.get? type).bind (·.fields.get? field)).bind (·.byGraph.get? graph)
  interfaceFieldArgument type field argument :=
    (((m.interfaces.get? type).bind (·.fields.get? field)).bind (·.arguments.get? argument)).bind
      (·.byGraph.get? graph)
  inputObject type := (m.inputObjects.get? type).bind (·.byGraph.get? graph)
  inputField type field :=
    ((m.inputObjects.get? type).bind (·.fields.get? field)).bind (·.byGraph.get? graph)
  enum type := (m.enums.get? type).bind (·.byGraph.get? graph)
  enumValue type value :=
    ((m.enums.get? type).bind (·.values.get? value)).bind (·.byGraph.get? graph)
  union type := (m.unions.get? type).bind (·.byGraph.get? graph)
  isMember type member := ((m.unions.get? type).bind (·.members.get? member)).any (graph ∈ ·)
  scalar type := (m.scalars.get? type).bind (·.byGraph.get? graph)
  directive name := (m.directives.get? name).bind (·.byGraph.get? graph)
  directiveArgument directive argument :=
    ((m.directives.get? directive).bind (·.arguments.get? argument)).bind (·.byGraph.get? graph)

end Model

section

variable {δ ε ρ : Type} {site : Site δ ε} {byGraph : ε → ByGraph ρ}
variable {record : (Directive → Bool) → δ → ρ}
variable {hrecord : ∀ d e, byGraph (site.declare d e)
  = ((e.map byGraph).getD ∅).insert d.1.graph (record d.1.keeps d.2)}

theorem Site.bind_get?_eq_of_record? {m m' : Model} {graph : GraphId}
    (h : (site.ledger byGraph record hrecord).record? m graph
      = (site.ledger byGraph record hrecord).record? m' graph)
    : (site.entryIn? m).bind (fun e => (byGraph e).get? graph)
        =
      (site.entryIn? m').bind (fun e => (byGraph e).get? graph) := by
  unfold Ledger.record? ledger at h
  rw [Option.bind_map, Option.bind_map] at h
  exact h

end

theorem OrderedSet.isSome_get?_toMap {α : Type} [DecidableEq α] (s : OrderedSet α) (a : α) :
    (s.toMap.get? a).isSome = decide (a ∈ s) := by
  rw [Bool.eq_iff_iff, decide_eq_true_iff, ← OrderedMap.mem_keys_iff, keys_toMap, mem_toList]

namespace Model

theorem isMember_projection (m : Model) (graph : GraphId) (type member : Name) :
    (m.projection graph).isMember type member
      =
    ((memberLedger type member).record? m graph).isSome := by
  change Option.any _ _ = ((((m.unions.get? type).bind (·.members.get? member)).map (·.toMap)).bind
    (·.get? graph)).isSome
  cases (m.unions.get? type).bind (·.members.get? member) with
  | none => rfl
  | some graphs => exact (OrderedSet.isSome_get?_toMap graphs graph).symm

theorem projection_congr {m m' : Model} {graph : GraphId}
    (h : ∀ {ρ : Type} (ledger : Ledger ρ), ledger.record? m graph = ledger.record? m' graph)
    : m.projection graph = m'.projection graph := by
  apply Projection.ext
  case kind => exact funext fun type => Site.bind_get?_eq_of_record? (h (kindLedger type))
  case object => exact funext fun type => Site.bind_get?_eq_of_record? (h (objectLedger type))
  case objectField =>
    exact funext₂ fun type field => Site.bind_get?_eq_of_record? (h (objectFieldLedger type field))
  case objectFieldArgument =>
    exact funext₃ fun type field argument =>
      Site.bind_get?_eq_of_record? (h (objectFieldArgumentLedger type field argument))
  case interface =>
    exact funext fun type => Site.bind_get?_eq_of_record? (h (interfaceLedger type))
  case interfaceField =>
    exact funext₂ fun type field =>
      Site.bind_get?_eq_of_record? (h (interfaceFieldLedger type field))
  case interfaceFieldArgument =>
    exact funext₃ fun type field argument =>
      Site.bind_get?_eq_of_record? (h (interfaceFieldArgumentLedger type field argument))
  case inputObject =>
    exact funext fun type => Site.bind_get?_eq_of_record? (h (inputObjectLedger type))
  case inputField =>
    exact funext₂ fun type field => Site.bind_get?_eq_of_record? (h (inputFieldLedger type field))
  case enum => exact funext fun type => Site.bind_get?_eq_of_record? (h (enumLedger type))
  case enumValue =>
    exact funext₂ fun type value => Site.bind_get?_eq_of_record? (h (enumValueLedger type value))
  case union => exact funext fun type => Site.bind_get?_eq_of_record? (h (unionLedger type))
  case isMember =>
    funext type member
    rw [isMember_projection, isMember_projection, h]
  case scalar => exact funext fun type => Site.bind_get?_eq_of_record? (h (scalarLedger type))
  case directive => exact funext fun name => Site.bind_get?_eq_of_record? (h (directiveLedger name))
  case directiveArgument =>
    exact funext₂ fun directive argument =>
      Site.bind_get?_eq_of_record? (h (directiveArgumentLedger directive argument))

theorem projection_absorb_of_ne (m : Model) {graph graph' : GraphId} (hne : graph' ≠ graph)
    (s : Schema) : (m.absorb graph s).projection graph' = m.projection graph' := by
  apply projection_congr
  intro ρ ledger
  rw [ledger.record?_absorb, if_neg hne]

end Model

namespace Visit

def applications : Visit → ByGraph (List Directive)
  | .namedType _ kinds => kinds.map fun _ _ => []
  | .objectType _ type => type.byGraph.map fun _ d => d.directives
  | .objectField _ _ _ field => field.byGraph.map fun _ d => d.directives
  | .objectFieldArgument _ _ _ _ _ argument => argument.byGraph.map fun _ d => d.directives
  | .interfaceType _ type => type.byGraph.map fun _ d => d.directives
  | .interfaceField _ _ _ field => field.byGraph.map fun _ d => d.directives
  | .interfaceFieldArgument _ _ _ _ _ argument => argument.byGraph.map fun _ d => d.directives
  | .inputObjectType _ type => type.byGraph
  | .inputObjectField _ _ _ field => field.byGraph.map fun _ d => d.directives
  | .enumType _ type => type.byGraph
  | .enumValue _ _ _ value => value.byGraph
  | .unionType _ type => type.byGraph
  | .scalarType _ type => type.byGraph
  | .directive _ entry => entry.byGraph.map fun _ _ => []
  | .directiveArgument _ _ _ argument => argument.byGraph.map fun _ d => d.directives

def ledger : Visit → Ledger (List Directive)
  | .namedType name _ => (Model.kindLedger name).map fun _ => []
  | .objectType name _ => (Model.objectLedger name).map (·.directives)
  | .objectField typeName _ name _ => (Model.objectFieldLedger typeName name).map (·.directives)
  | .objectFieldArgument typeName _ fieldName _ name _ =>
    (Model.objectFieldArgumentLedger typeName fieldName name).map (·.directives)
  | .interfaceType name _ => (Model.interfaceLedger name).map (·.directives)
  | .interfaceField typeName _ name _ =>
    (Model.interfaceFieldLedger typeName name).map (·.directives)
  | .interfaceFieldArgument typeName _ fieldName _ name _ =>
    (Model.interfaceFieldArgumentLedger typeName fieldName name).map (·.directives)
  | .inputObjectType name _ => Model.inputObjectLedger name
  | .inputObjectField typeName _ name _ =>
    (Model.inputFieldLedger typeName name).map (·.directives)
  | .enumType name _ => Model.enumLedger name
  | .enumValue typeName _ name _ => Model.enumValueLedger typeName name
  | .unionType name _ => Model.unionLedger name
  | .scalarType name _ => Model.scalarLedger name
  | .directive name _ => (Model.directiveLedger name).map fun _ => []
  | .directiveArgument directiveName _ name _ =>
    (Model.directiveArgumentLedger directiveName name).map (·.directives)

theorem byGraph?_applications {m : Model} {v : Visit} (hv : v.IsPartOf m) :
    v.ledger.byGraph? m = some v.applications := by
  cases v with
  | namedType | objectType | interfaceType | directive =>
    refine Ledger.byGraph?_map (Site.byGraph?_ledger ?_) _
    exact hv
  | objectField | interfaceField | inputObjectField | directiveArgument =>
    refine Ledger.byGraph?_map (Site.byGraph?_ledger ?_) _
    exact Option.bind_eq_some_iff.2 ⟨_, hv⟩
  | objectFieldArgument | interfaceFieldArgument =>
    obtain ⟨htype, hfield, hargument⟩ := hv
    refine Ledger.byGraph?_map (Site.byGraph?_ledger ?_) _
    exact Option.bind_eq_some_iff.2 ⟨_, Option.bind_eq_some_iff.2 ⟨_, htype, hfield⟩, hargument⟩
  | inputObjectType | enumType | unionType | scalarType =>
    exact Option.map_eq_some_iff.2 ⟨_, hv, rfl⟩
  | enumValue =>
    exact Option.map_eq_some_iff.2 ⟨_, Option.bind_eq_some_iff.2 ⟨_, hv⟩, rfl⟩

theorem records_ledger (v : Visit) (s : Schema) {location : DirectiveLocation}
    (hlocation : v.slot.location? = some location)
    : v.ledger.records s = (s.appliedAt v.slot v.place).map (·.filter s.keeps) := by
  cases v
  case namedType | directive | directiveArgument => cases hlocation
  all_goals
    simp only [slot, place, Schema.appliedAt, Coordinate.type?, Option.bind_some, ledger,
      Ledger.map, Site.ledger, Site.part, Register.site, Register.contents,
      Model.objectLedger, Model.objectFieldLedger, Model.objectFieldArgumentLedger,
      Model.interfaceLedger, Model.interfaceFieldLedger, Model.interfaceFieldArgumentLedger,
      Model.inputObjectLedger, Model.inputFieldLedger, Model.enumLedger, Model.enumValueLedger,
      Model.unionLedger, Model.scalarLedger,
      Model.objectFieldSite, Model.objectFieldArgumentSite, Model.interfaceFieldSite,
      Model.interfaceFieldArgumentSite, Model.inputFieldSite, Model.enumValueSite,
      Model.objectRegister, Model.interfaceRegister, Model.inputObjectRegister,
      Model.enumRegister, Model.unionRegister, Model.scalarRegister]
    generalize s.userType? _ = t
    cases t with
    | none => rfl
    | some t =>
      obtain ⟨description, directives, body⟩ := t
      cases body <;>
        simp only [TypeDef.object?, TypeDef.interface?, TypeDef.inputObject?, TypeDef.enum?,
          TypeDef.union?, TypeDef.scalar?, TypeDef.appliedAt, Option.bind_some, Option.elim_some,
          Option.toList_some, Option.toList_none, List.flatMap_cons, List.flatMap_nil,
          List.append_nil, List.map_map, List.map_cons, List.map_nil] <;>
        rfl

theorem eq_nil_of_mem_records_ledger (v : Visit) (s : Schema) (hlocation : v.slot.location? = none)
    {ds : List Directive} (hds : ds ∈ v.ledger.records s) : ds = [] := by
  cases v with
  | namedType | directive =>
    obtain ⟨d, -, rfl⟩ := List.mem_map.1 hds
    rfl
  | directiveArgument =>
    obtain ⟨d, hd, rfl⟩ := List.mem_map.1 hds
    obtain ⟨a, -, rfl⟩ := List.mem_map.1 hd
    exact List.filter_eq_nil_iff.2 fun _ _ h => Bool.noConfusion h
  | _ => cases hlocation

theorem mem_recordedAt_of_records {v : Visit} {s : Schema} {ds : List Directive}
    (hds : (v.ledger.records s).getLast? = some ds) {d : Directive} (hd : d ∈ ds)
    : (∃ location, v.slot.location? = some location) ∧ d ∈ s.recordedAt v.slot v.place := by
  cases hlocation : v.slot.location? with
  | none =>
    rw [eq_nil_of_mem_records_ledger v s hlocation (List.mem_of_getLast? hds)] at hd
    cases hd
  | some location =>
    refine ⟨⟨location, rfl⟩, ?_⟩
    rw [records_ledger v s hlocation, List.getLast?_map, Option.map_eq_some_iff] at hds
    obtain ⟨applied, happlied, rfl⟩ := hds
    unfold Schema.recordedAt
    rw [happlied]
    exact hd

end Visit

namespace Model

section

variable {subgraphs : List Subgraph} {graphs : Identities}
variable (h : Identities.resolve subgraphs = .ok graphs)

include h

theorem exists_mem_sources_of_getElem? {i : Nat} {s : Subgraph} (hs : subgraphs[i]? = some s) :
    ∃ graph, graphs.keys[i]? = some graph ∧ (graph, s.schema) ∈ sources graphs subgraphs := by
  obtain ⟨hi, -⟩ := List.getElem?_eq_some_iff.1 hs
  have hlength : i < graphs.keys.length := by
    rw [OrderedMap.length_keys, Identities.size_of_resolve h]
    exact hi
  have hgraph := List.getElem?_eq_getElem hlength
  refine ⟨graphs.keys[i], hgraph, ?_⟩
  unfold sources
  apply List.mem_of_getElem? (i := i)
  rw [List.getElem?_zip_eq_some, List.getElem?_map, hs]
  exact ⟨hgraph, rfl⟩

theorem record?_ofSubgraphs {ρ : Type} (ledger : Ledger ρ) {graph : GraphId} {s : Schema}
    (hmem : (graph, s) ∈ sources graphs subgraphs)
    : ledger.record? (ofSubgraphs graphs subgraphs) graph = (ledger.records s).getLast? :=
  ledger.record?_foldl_absorb (nodup_sources h) hmem (ledger.record?_empty graphs graph)

theorem projection_of_mem_sources {graph : GraphId} {s : Schema}
    (hmem : (graph, s) ∈ sources graphs subgraphs)
    : (ofSubgraphs graphs subgraphs).projection graph
        =
      (({ graphs } : Model).absorb graph s).projection graph := by
  apply projection_congr
  intro ρ ledger
  rw [record?_ofSubgraphs h ledger hmem, ledger.record?_absorb, if_pos rfl, ledger.record?_empty,
    Option.or_none]

theorem keeps_of_applications {v : Visit} (hv : v ∈ (ofSubgraphs graphs subgraphs).visits)
    {graph : GraphId} {s : Schema} (hmem : (graph, s) ∈ sources graphs subgraphs)
    {ds : List Directive} (hds : v.applications.get? graph = some ds) {d : Directive} (hd : d ∈ ds)
    : s.keeps d := by
  have hrecord := record?_ofSubgraphs h v.ledger hmem
  unfold Ledger.record? at hrecord
  rw [Visit.byGraph?_applications ((mem_visits_iff _ v).1 hv), Option.bind_some, hds] at hrecord
  exact (Schema.exists_appliedAt_of_recordedAt
    (Visit.mem_recordedAt_of_records hrecord.symm hd).2).1

end

theorem projection_isLocal {subgraphs : List Subgraph} {graphs : Identities}
    (h : Identities.resolve subgraphs = .ok graphs)
    : (∀ (i : Nat) (s : Subgraph), subgraphs[i]? = some s → ∃ graph, graphs.keys[i]? = some graph
        ∧ (ofSubgraphs graphs subgraphs).projection graph
          = (({ graphs } : Model).absorb graph s.schema).projection graph
        ∧ ∀ v ∈ (ofSubgraphs graphs subgraphs).visits, ∀ ds,
          v.applications.get? graph = some ds → ∀ d ∈ ds,
            Federation.isUserDirective d.name ∧ s.schema.directiveDefs.contains d.name)
        ∧ ∀ (m : Model) (graph graph' : GraphId) (s : Schema), graph' ≠ graph →
          (m.absorb graph s).projection graph' = m.projection graph' := by
  refine ⟨?_, fun m graph graph' s hne => projection_absorb_of_ne m hne s⟩
  intro i s hs
  obtain ⟨graph, hgraph, hmem⟩ := exists_mem_sources_of_getElem? h hs
  refine ⟨graph, hgraph, projection_of_mem_sources h hmem, ?_⟩
  intro v hv ds hds d hd
  have hkeeps := keeps_of_applications h hv hmem hds hd
  unfold Schema.keeps at hkeeps
  rwa [Bool.and_eq_true] at hkeeps

end Model

def applyingSchema (directiveDefs : OrderedMap Name DirectiveDef) : Schema where
  directiveDefs := directiveDefs
  types := .ofList [
    (.lit "Query", {
      directives := [{ name := .lit "a" }]
      body := .object {
        interfaces := ∅
        fields := .ofList [(.lit "f", { type := .named (.lit "Int") false })] } })]

def borrowingSubgraphs : List Subgraph := [
  { name := "first", schema := applyingSchema ∅ },
  { name := "second", schema := applyingSchema (.ofList [(.lit "a", { locations := [.object] })]) }]

theorem Model.projection_isLocal_borrowing :
    Identities.resolve borrowingSubgraphs = .ok sampleGraphs
      ∧ ∃ graph, sampleGraphs.keys[0]? = some graph
        ∧ (ofSubgraphs sampleGraphs borrowingSubgraphs).projection graph
          = (({ graphs := sampleGraphs } : Model).absorb graph (applyingSchema ∅)).projection
            graph := by
  have h : Identities.resolve borrowingSubgraphs = .ok sampleGraphs := rfl
  obtain ⟨graph, hgraph, hprojection, -⟩ := (projection_isLocal h).1 0 _ rfl
  exact ⟨h, graph, hgraph, hprojection⟩

end Supergraph
