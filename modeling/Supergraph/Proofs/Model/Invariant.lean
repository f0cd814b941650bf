import Supergraph.Proofs.Model.Locality

/-!
This module contains the invariant of merging: the maps of a model agree with each other on who
declares what.
-/

namespace Supergraph

open GraphQL

namespace Visit

def graphs : Visit → List GraphId
  | .namedType _ kinds => kinds.keys
  | .objectType _ type => type.byGraph.keys
  | .objectField _ _ _ field => field.byGraph.keys
  | .objectFieldArgument _ _ _ _ _ argument => argument.byGraph.keys
  | .interfaceType _ type => type.byGraph.keys
  | .interfaceField _ _ _ field => field.byGraph.keys
  | .interfaceFieldArgument _ _ _ _ _ argument => argument.byGraph.keys
  | .inputObjectType _ type => type.byGraph.keys
  | .inputObjectField _ _ _ field => field.byGraph.keys
  | .enumType _ type => type.byGraph.keys
  | .enumValue _ _ _ value => value.byGraph.keys
  | .unionType _ type => type.byGraph.keys
  | .scalarType _ type => type.byGraph.keys
  | .directive _ entry => entry.byGraph.keys
  | .directiveArgument _ _ _ argument => argument.byGraph.keys

def parent? : Visit → Option Visit
  | .objectField typeName type _ _ => some (.objectType typeName type)
  | .objectFieldArgument typeName type fieldName field _ _ =>
    some (.objectField typeName type fieldName field)
  | .interfaceField typeName type _ _ => some (.interfaceType typeName type)
  | .interfaceFieldArgument typeName type fieldName field _ _ =>
    some (.interfaceField typeName type fieldName field)
  | .inputObjectField typeName type _ _ => some (.inputObjectType typeName type)
  | .enumValue typeName type _ _ => some (.enumType typeName type)
  | .directiveArgument directiveName entry _ _ => some (.directive directiveName entry)
  | .namedType .. | .objectType .. | .interfaceType .. | .inputObjectType .. | .enumType ..
  | .unionType .. | .scalarType .. | .directive .. => none

theorem keys_applications (v : Visit) : v.applications.keys = v.graphs := by
  cases v <;> simp [applications, graphs]

theorem isPartOf_parent {m : Model} {v parent : Visit} (hv : v.IsPartOf m)
    (hparent : v.parent? = some parent) : parent.IsPartOf m := by
  cases v with
  | objectField | interfaceField | inputObjectField | enumValue | directiveArgument =>
    cases hparent
    exact hv.1
  | objectFieldArgument | interfaceFieldArgument =>
    cases hparent
    exact ⟨hv.1, hv.2.1⟩
  | _ => cases hparent

end Visit

namespace Model

def graphsOfKind (m : Model) (kind : TypeKind) (type : Name) : List GraphId :=
  match kind with
  | .object => (m.objects.get? type).elim [] (·.byGraph.keys)
  | .interface => (m.interfaces.get? type).elim [] (·.byGraph.keys)
  | .union => (m.unions.get? type).elim [] (·.byGraph.keys)
  | .enum => (m.enums.get? type).elim [] (·.byGraph.keys)
  | .inputObject => (m.inputObjects.get? type).elim [] (·.byGraph.keys)
  | .scalar => (m.scalars.get? type).elim [] (·.byGraph.keys)

structure IsCoherent (m : Model) (extracted : List GraphId) : Prop where
  graphs : ∀ v ∈ m.visits, v.graphs ≠ [] ∧ v.graphs.Sublist extracted
  members : ∀ type e, m.unions.get? type = some e →
    ∀ member graphs, e.members.get? member = some graphs →
      graphs.toList ≠ [] ∧ graphs.toList.Sublist extracted ∧ graphs.toList ⊆ e.byGraph.keys
  kinds : ∀ type graph kind, (m.kinds.get? type).bind (·.get? graph) = some kind
    ↔ graph ∈ m.graphsOfKind kind type
  kind_unique : ∀ type graph kind kind', graph ∈ m.graphsOfKind kind type →
    graph ∈ m.graphsOfKind kind' type → kind = kind'
  parts : ∀ v ∈ m.visits, ∀ parent, v.parent? = some parent → v.graphs ⊆ parent.graphs
  applications : ∀ v ∈ m.visits, ∀ graph ds, v.applications.get? graph = some ds → ∀ d ∈ ds,
    ∃ location e r, v.slot.location? = some location ∧ m.directives.get? d.name = some e
      ∧ e.byGraph.get? graph = some r ∧ location ∈ r.usedLocations
  usedLocations : ∀ name e, m.directives.get? name = some e →
    ∀ graph r, e.byGraph.get? graph = some r →
      ∀ location ∈ r.usedLocations, location.isExecutable = false

end Model

theorem Site.records_part_eq_nil {δ ε κ π ρ : Type} {site : Site δ ε} {part? : ε → Option π}
    {parts : δ → List κ} {declarePart : Declared κ → Option π → π} {hpart}
    {byGraph : π → ByGraph ρ} {record : (Directive → Bool) → κ → ρ} {hrecord} {s : Schema}
    (h : site.contents s = [])
    : ((site.part part? parts declarePart hpart).ledger byGraph record hrecord).records s = [] := by
  unfold ledger part
  dsimp only
  rw [h]
  rfl

theorem Visit.records_eq_nil_of_parent {v parent : Visit} (hparent : v.parent? = some parent)
    {s : Schema} (h : parent.ledger.records s = []) : v.ledger.records s = [] := by
  cases v with
  | objectField | objectFieldArgument | interfaceField | interfaceFieldArgument
  | directiveArgument =>
    cases hparent
    have hcontents := List.map_eq_nil_iff.1 (List.map_eq_nil_iff.1 h)
    exact List.map_eq_nil_iff.2 (Site.records_part_eq_nil hcontents)
  | inputObjectField =>
    cases hparent
    exact List.map_eq_nil_iff.2 (Site.records_part_eq_nil (List.map_eq_nil_iff.1 h))
  | enumValue typeName type name value =>
    cases hparent
    change (Model.enumValueLedger typeName name).records s = []
    exact Site.records_part_eq_nil (List.map_eq_nil_iff.1 h)
  | _ => cases hparent

theorem Model.records_memberLedger_eq_nil {type member : Name} {s : Schema}
    (h : (unionLedger type).records s = []) : (memberLedger type member).records s = [] :=
  Site.records_part_eq_nil (List.map_eq_nil_iff.1 h)

namespace GraphQL.TypeDef

theorem isSome_object?_iff (t : TypeDef) : t.object?.isSome ↔ t.kind = .object := by
  obtain ⟨description, directives, body⟩ := t
  cases body <;> simp [object?, kind, TypeBody.kind]

theorem isSome_interface?_iff (t : TypeDef) : t.interface?.isSome ↔ t.kind = .interface := by
  obtain ⟨description, directives, body⟩ := t
  cases body <;> simp [interface?, kind, TypeBody.kind]

theorem isSome_inputObject?_iff (t : TypeDef) : t.inputObject?.isSome ↔ t.kind = .inputObject := by
  obtain ⟨description, directives, body⟩ := t
  cases body <;> simp [inputObject?, kind, TypeBody.kind]

theorem isSome_enum?_iff (t : TypeDef) : t.enum?.isSome ↔ t.kind = .enum := by
  obtain ⟨description, directives, body⟩ := t
  cases body <;> simp [enum?, kind, TypeBody.kind]

theorem isSome_union?_iff (t : TypeDef) : t.union?.isSome ↔ t.kind = .union := by
  obtain ⟨description, directives, body⟩ := t
  cases body <;> simp [union?, kind, TypeBody.kind]

theorem isSome_scalar?_iff (t : TypeDef) : t.scalar?.isSome ↔ t.kind = .scalar := by
  obtain ⟨description, directives, body⟩ := t
  cases body <;> simp [scalar?, kind, TypeBody.kind]

end GraphQL.TypeDef

namespace Ledger

variable {ρ : Type} (ledger : Ledger ρ)

theorem mem_keys_iff_isSome_record? (m : Model) (graph : GraphId) :
    graph ∈ (ledger.byGraph? m).elim [] (·.keys) ↔ (ledger.record? m graph).isSome := by
  unfold record?
  cases ledger.byGraph? m with
  | none => simp
  | some b => exact OrderedMap.mem_keys_iff b graph

variable {sources : List (GraphId × Schema)} (hnodup : (sources.map Prod.fst).Nodup)

include hnodup

theorem mem_keys_ofSources_iff (graphs : Identities) (graph : GraphId) :
    graph ∈ (ledger.byGraph? (.ofSources graphs sources)).elim [] (·.keys)
      ↔
    ∃ s, (graph, s) ∈ sources ∧ ledger.records s ≠ [] := by
  rw [mem_keys_iff_isSome_record?, Option.isSome_iff_exists]
  simp only [ledger.record?_ofSources_eq_some_iff hnodup]
  constructor
  . rintro ⟨r, s, hmem, hr⟩
    exact ⟨s, hmem, List.ne_nil_of_mem (List.mem_of_getLast? hr)⟩
  . rintro ⟨s, hmem, hne⟩
    exact ⟨_, s, hmem, List.getLast?_eq_some_getLast hne⟩

end Ledger

namespace Model

section

variable {sources : List (GraphId × Schema)} (hnodup : (sources.map Prod.fst).Nodup)
variable (graphs : Identities)

include hnodup

theorem mem_graphs_iff {v : Visit} (hv : v.IsPartOf (ofSources graphs sources)) (graph : GraphId) :
    graph ∈ v.graphs ↔ ∃ s, (graph, s) ∈ sources ∧ v.ledger.records s ≠ [] := by
  have hmem := v.ledger.mem_keys_ofSources_iff hnodup graphs graph
  rw [Visit.byGraph?_applications hv, Option.elim_some, Visit.keys_applications] at hmem
  exact hmem

theorem exists_records_of_applications {v : Visit} (hv : v.IsPartOf (ofSources graphs sources))
    {graph : GraphId} {ds : List Directive} (hds : v.applications.get? graph = some ds)
    : ∃ s, (graph, s) ∈ sources ∧ (v.ledger.records s).getLast? = some ds := by
  apply (v.ledger.record?_ofSources_eq_some_iff hnodup graphs graph ds).1
  unfold Ledger.record?
  rw [Visit.byGraph?_applications hv]
  exact hds

theorem kind_eq_some_iff (type : Name) (graph : GraphId) (kind : TypeKind) :
    ((ofSources graphs sources).kinds.get? type).bind (·.get? graph) = some kind
      ↔
    ∃ s, (graph, s) ∈ sources ∧ ∃ t, s.userType? type = some t ∧ t.kind = kind := by
  have hrecord := (kindLedger type).record?_ofSources_eq_some_iff hnodup graphs graph kind
  have hbyGraph : (kindLedger type).byGraph? (ofSources graphs sources)
      = (ofSources graphs sources).kinds.get? type := Option.map_id'
  have hrecords : ∀ s : Schema, ((kindLedger type).records s).getLast? = some kind
      ↔ ∃ t, s.userType? type = some t ∧ t.kind = kind := by
    intro s
    change ((((s.userType? type).bind fun t => some t.kind).toList).map fun kind => kind).getLast?
      = some kind ↔ _
    cases s.userType? type <;> simp
  unfold Ledger.record? at hrecord
  rw [hbyGraph] at hrecord
  simp only [hrecord, hrecords]

theorem mem_keys_entries_iff {δ ε ρ : Type} (ledger : Ledger ρ) {r : Register δ ε}
    {kind : TypeKind} (hkind : ∀ t, (r.content? t).isSome ↔ t.kind = kind) {type : Name}
    {byGraph : ε → ByGraph ρ}
    (hbyGraph : ∀ m, ledger.byGraph? m = ((r.entries m).get? type).map byGraph)
    (hrecords : ∀ s, ledger.records s = [] ↔ r.contents type s = []) (graph : GraphId)
    : graph ∈ ((r.entries (ofSources graphs sources)).get? type).elim [] (fun e => (byGraph e).keys)
        ↔
      ∃ s, (graph, s) ∈ sources ∧ ∃ t, s.userType? type = some t ∧ t.kind = kind := by
  have hmem := ledger.mem_keys_ofSources_iff hnodup graphs graph
  have hcontents : ∀ s, ledger.records s ≠ [] ↔ ∃ t, s.userType? type = some t ∧ t.kind = kind := by
    intro s
    rw [Ne, hrecords, ← Ne, Register.contents, toList_ne_nil_iff, Option.isSome_bind,
      Option.any_eq_true]
    simp only [hkind]
  rw [hbyGraph, Option.elim_map] at hmem
  simp only [hcontents] at hmem
  exact hmem

theorem mem_graphsOfKind_iff (kind : TypeKind) (type : Name) (graph : GraphId) :
    graph ∈ (ofSources graphs sources).graphsOfKind kind type
      ↔
    ∃ s, (graph, s) ∈ sources ∧ ∃ t, s.userType? type = some t ∧ t.kind = kind := by
  cases kind with
  | object =>
    exact mem_keys_entries_iff hnodup graphs (objectLedger type) TypeDef.isSome_object?_iff
      (fun _ => rfl) (fun _ => List.map_eq_nil_iff) graph
  | interface =>
    exact mem_keys_entries_iff hnodup graphs (interfaceLedger type) TypeDef.isSome_interface?_iff
      (fun _ => rfl) (fun _ => List.map_eq_nil_iff) graph
  | union =>
    exact mem_keys_entries_iff hnodup graphs (unionLedger type) TypeDef.isSome_union?_iff
      (fun _ => rfl) (fun _ => List.map_eq_nil_iff) graph
  | enum =>
    exact mem_keys_entries_iff hnodup graphs (enumLedger type) TypeDef.isSome_enum?_iff
      (fun _ => rfl) (fun _ => List.map_eq_nil_iff) graph
  | inputObject =>
    exact mem_keys_entries_iff hnodup graphs (inputObjectLedger type)
      TypeDef.isSome_inputObject?_iff (fun _ => rfl) (fun _ => List.map_eq_nil_iff) graph
  | scalar =>
    exact mem_keys_entries_iff hnodup graphs (scalarLedger type) TypeDef.isSome_scalar?_iff
      (fun _ => rfl) (fun _ => List.map_eq_nil_iff) graph

theorem exists_use_of_directive {name : Name} {e : DirectiveEntry}
    (he : (ofSources graphs sources).directives.get? name = some e) {graph : GraphId}
    {r : DirectiveInGraph} (hr : e.byGraph.get? graph = some r)
    : ∃ s, (graph, s) ∈ sources ∧ ∃ use, s.directiveUse? name = some use
        ∧ r = .ofUse (fun _ => false) use := by
  have hrecord : (directiveLedger name).record? (ofSources graphs sources) graph = some r := by
    refine Option.bind_eq_some_iff.2 ⟨e.byGraph, ?_, hr⟩
    exact Option.map_eq_some_iff.2 ⟨e, he, rfl⟩
  obtain ⟨s, hmem, hlast⟩ :=
    ((directiveLedger name).record?_ofSources_eq_some_iff hnodup graphs graph r).1 hrecord
  obtain ⟨use, huse, rfl⟩ := List.mem_map.1 (List.mem_of_getLast? hlast)
  exact ⟨s, hmem, use, Option.mem_toList.1 huse, rfl⟩

theorem exists_directive_of_keeps {graph : GraphId} {s : Schema} (hmem : (graph, s) ∈ sources)
    {d : Directive} (hd : s.keeps d)
    : ∃ e r, (ofSources graphs sources).directives.get? d.name = some e
        ∧ e.byGraph.get? graph = some r ∧ r.usedLocations = s.usedLocations d.name := by
  unfold Schema.keeps at hd
  rw [Bool.and_eq_true] at hd
  obtain ⟨definition, hdefinition⟩ :=
    Option.isSome_iff_exists.1 ((s.isSome_userDirective?_iff d.name).2 hd)
  have huse : s.directiveUse? d.name = some ⟨definition, s.composedDirectives.contains d.name,
      s.usedLocations d.name⟩ := by
    unfold Schema.directiveUse?
    rw [hdefinition]
    rfl
  have hlast : ((directiveLedger d.name).records s).getLast?
      = some (.ofUse (fun _ => false) ⟨definition, s.composedDirectives.contains d.name,
        s.usedLocations d.name⟩) := by
    change ((s.directiveUse? d.name).toList.map _).getLast? = _
    rw [huse]
    rfl
  have hrecord := ((directiveLedger d.name).record?_ofSources_eq_some_iff hnodup graphs graph _).2
    ⟨s, hmem, hlast⟩
  obtain ⟨byGraph, hbyGraph, hr⟩ := Option.bind_eq_some_iff.1 hrecord
  obtain ⟨e, he, rfl⟩ := Option.map_eq_some_iff.1 hbyGraph
  exact ⟨e, _, he, hr, rfl⟩

theorem isCoherent_ofSources : (ofSources graphs sources).IsCoherent (sources.map Prod.fst) where
  graphs v hv := by
    have hfilled : v.ledger.IsFilledBy (ofSources graphs sources) (sources.map Prod.fst) :=
      Ledger.isFilledBy_ofSources hnodup graphs
    have hv := Visit.byGraph?_applications ((mem_visits_iff _ v).1 hv)
    rw [← Visit.keys_applications]
    exact hfilled v.applications hv
  members type e he member graphs' hgraphs' := by
    have hbyGraph : (memberLedger type member).byGraph? (ofSources graphs sources)
        = some graphs'.toMap :=
      Option.map_eq_some_iff.2 ⟨graphs', Option.bind_eq_some_iff.2 ⟨e, he, hgraphs'⟩, rfl⟩
    have hfilled := Ledger.isFilledBy_ofSources hnodup graphs _ hbyGraph
    rw [OrderedSet.keys_toMap] at hfilled
    refine ⟨hfilled.1, hfilled.2, ?_⟩
    intro graph hgraph
    have hmember := (memberLedger type member).mem_keys_ofSources_iff hnodup graphs graph
    have hunion := mem_graphs_iff hnodup graphs (v := .unionType type e) he graph
    rw [hbyGraph, Option.elim_some, OrderedSet.keys_toMap] at hmember
    obtain ⟨s, hmem, hne⟩ := hmember.1 hgraph
    exact hunion.2 ⟨s, hmem, fun hnil => hne (records_memberLedger_eq_nil hnil)⟩
  kinds type graph kind := by
    rw [kind_eq_some_iff hnodup, mem_graphsOfKind_iff hnodup]
  kind_unique type graph kind kind' h h' := by
    rw [mem_graphsOfKind_iff hnodup, ← kind_eq_some_iff hnodup graphs] at h h'
    exact Option.some.inj (h.symm.trans h')
  parts v hv parent hparent graph hgraph := by
    have hv := (mem_visits_iff _ v).1 hv
    obtain ⟨s, hmem, hne⟩ := (mem_graphs_iff hnodup graphs hv graph).1 hgraph
    apply (mem_graphs_iff hnodup graphs (Visit.isPartOf_parent hv hparent) graph).2
    exact ⟨s, hmem, fun hnil => hne (Visit.records_eq_nil_of_parent hparent hnil)⟩
  applications v hv graph ds hds d hd := by
    obtain ⟨s, hmem, hlast⟩ :=
      exists_records_of_applications hnodup graphs ((mem_visits_iff _ v).1 hv) hds
    obtain ⟨⟨location, hlocation⟩, hrecorded⟩ := Visit.mem_recordedAt_of_records hlast hd
    obtain ⟨e, r, he, hr, hused⟩ := exists_directive_of_keeps hnodup graphs hmem
      (Schema.exists_appliedAt_of_recordedAt hrecorded).1
    refine ⟨location, e, r, hlocation, he, hr, ?_⟩
    rw [hused]
    exact Schema.mem_usedLocations_of_recordedAt hlocation hrecorded
  usedLocations name e he graph r hr location hlocation := by
    obtain ⟨s, -, use, huse, rfl⟩ := exists_use_of_directive hnodup graphs he hr
    obtain ⟨definition, -, rfl⟩ := Option.map_eq_some_iff.1 huse
    exact Schema.isExecutable_of_mem_usedLocations hlocation

end

theorem getElem?_history {m m' : Model} {sources : List (GraphId × Schema)} {i : Nat}
    {graph : GraphId} (h : (history m sources)[i]? = some (graph, m'))
    : m' = (sources.take (i + 1)).foldl (fun m (graph, s) => m.absorb graph s) m := by
  induction sources generalizing m i with
  | nil => cases h
  | cons source rest ih =>
    cases i with
    | zero =>
      cases h
      rfl
    | succ i => exact ih h

theorem history_isCoherent {subgraphs : List Subgraph} {graphs : Identities}
    (h : Identities.resolve subgraphs = .ok graphs) {i : Nat} {graph : GraphId} {m : Model}
    (hm : (history { graphs } (sources graphs subgraphs))[i]? = some (graph, m))
    : m.IsCoherent (graphs.keys.take (i + 1)) := by
  have hnodup := (nodup_sources h).sublist ((List.take_sublist (i + 1) _).map Prod.fst)
  have hcoherent := isCoherent_ofSources hnodup graphs
  rw [List.map_take, map_fst_sources h] at hcoherent
  rw [getElem?_history hm]
  exact hcoherent

theorem history_isCoherent_borrowing :
    ∃ m, (history { graphs := sampleGraphs } (sources sampleGraphs borrowingSubgraphs))[1]?
        = some (⟨"second"⟩, m)
      ∧ m.IsCoherent (sampleGraphs.keys.take 2) := by
  have h : Identities.resolve borrowingSubgraphs = .ok sampleGraphs := rfl
  exact ⟨_, rfl, history_isCoherent h (i := 1) rfl⟩

end Model

end Supergraph
