import Supergraph.Composition
import Supergraph.Proofs.Composition.Outcome
import Supergraph.Proofs.Model.Emission

/-!
This module contains the proof that a supergraph determines which subgraphs declare a field, and
how. Facts that are left out are regained from the type of the field.
-/

namespace Supergraph

open GraphQL

theorem mapM_map_eq_some {α β γ : Type} {f : β → Option γ} {g : α → β} {k : α → γ} {xs : List α}
    (h : ∀ x ∈ xs, f (g x) = some (k x)) : (xs.map g).mapM f = some (xs.map k) := by
  induction xs with
  | nil => rfl
  | cons x rest ih =>
    rw [List.map_cons, List.mapM_cons, h x List.mem_cons_self,
      ih fun y hy => h y (List.mem_cons_of_mem x hy)]
    rfl

theorem find?_eq_some_of_nodup_map {α β : Type} [DecidableEq β] {f : α → β} {xs : List α}
    (hnodup : (xs.map f).Nodup) {x : α} (hx : x ∈ xs) : xs.find? (f · = f x) = some x := by
  have hsome : (xs.find? (f · = f x)).isSome := by
    rw [List.find?_isSome]
    exact ⟨x, hx, decide_eq_true rfl⟩
  obtain ⟨y, hy⟩ := Option.isSome_iff_exists.1 hsome
  have hfy : f y = f x := by simpa using List.find?_some hy
  rw [hy, List.inj_on_of_nodup_map hnodup (List.mem_of_find?_eq_some hy) hx hfy]

theorem GraphQL.Schema.userType?_eq_none (s : Schema) {name : Name}
    (h : Federation.isUserType name = false) : s.userType? name = none := by
  unfold userType? userTypeMap
  rw [OrderedMap.get?_map, OrderedMap.get?_filter]
  cases s.types.get? name <;> simp [h]

def Identities.ofName? (ids : Identities) (name : String) : Option GraphId :=
  (ids.toList.find? (·.2.name = name)).map (·.1)

def Join.translate (schema : Schema) (ids : Identities) (enumValue : Name) : Option GraphId :=
  (Join.graphName? schema enumValue).bind ids.ofName?

/--
Whether the directives of an emitted type and its fields say which subgraphs declare a field, in
their order, and how each declares it.
-/
def CompositeEntry.IsAttributed (schema : Schema) (graphs : Identities) (e : CompositeEntry)
    (t : TypeDef) : Prop :=
  ∀ field fe, e.fields.get? field = some fe → ∃ d, t.field? field = some d
    ∧ Join.attributions? (Join.translate schema graphs) t.directives d
      = some (fe.byGraph.toList.map fun (graph, d) => (graph, d.attribution))

namespace Model

variable {subgraphs : List Subgraph} {graphs : Identities}

theorem get?_graphType (graphs : Identities) (subgraphs : List Subgraph) :
    (ofSubgraphs graphs subgraphs).toSchema.types.get? Join.graphType
      =
    some { body := .enum (.ofList (graphs.values.map Join.graphValue)) } := by
  -- A type of that name in a subgraph is not merged.
  have hkinds : (ofSubgraphs graphs subgraphs).kinds.get? Join.graphType = none := by
    rw [get?_kinds, merged?_eq_none_iff, declared_eq_nil_iff]
    intro source _
    rw [Schema.userType?_eq_none source.2 (by decide)]
    rfl
  have htypes : (Join.types graphs).filter (·.1 = Join.graphType)
      = [(Join.graphType, { body := .enum (.ofList (graphs.values.map Join.graphValue)) })] :=
    rfl
  rw [get?_types_toSchema, get?_emitTypes, hkinds, graphs_ofSubgraphs, OrderedMap.get?_insertMany,
    htypes]
  rfl

variable (h : Identities.resolve subgraphs = .ok graphs)

include h

theorem toList_graphValues :
    (OrderedMap.ofList (graphs.values.map Join.graphValue)).toList
      =
    graphs.values.map Join.graphValue := by
  apply OrderedMap.toList_ofList_of_nodup
  unfold OrderedMap.values
  rw [List.map_map, List.map_map]
  exact ((Identities.resolve_eq_ok_iff subgraphs graphs).1 h).2.2

theorem graphName?_eq_some_iff {value : Name} {name : String} :
    Join.graphName? (ofSubgraphs graphs subgraphs).toSchema value = some name
      ↔
    ∃ identity ∈ graphs.values, identity.enumValue = value ∧ identity.name = name := by
  unfold Join.graphName?
  rw [get?_graphType]
  dsimp only
  rw [Option.bind_eq_some_iff]
  simp only [← OrderedMap.mem_toList_iff, toList_graphValues h, List.mem_map]
  constructor
  . rintro ⟨_, ⟨identity, hidentity, heq⟩, hname⟩
    cases heq
    exact ⟨identity, hidentity, rfl, Option.some.inj hname⟩
  . rintro ⟨identity, hidentity, rfl, rfl⟩
    exact ⟨_, ⟨identity, hidentity, rfl⟩, rfl⟩

theorem translate_valueOf {graph : GraphId} (hgraph : graph ∈ graphs.keys) :
    Join.translate (ofSubgraphs graphs subgraphs).toSchema graphs (graphs.valueOf graph)
      =
    some graph := by
  obtain ⟨identity, hidentity⟩ := OrderedMap.exists_get?_of_mem_keys hgraph
  have hmem := (OrderedMap.mem_toList_iff graphs graph identity).2 hidentity
  have hresolve := (Identities.resolve_eq_ok_iff subgraphs graphs).1 h
  have hvalue := Identities.valueOf_eq hidentity
  have hname : Join.graphName? (ofSubgraphs graphs subgraphs).toSchema identity.enumValue
      = some identity.name :=
    (graphName?_eq_some_iff h).2 ⟨identity, List.mem_map.2 ⟨_, hmem, rfl⟩, rfl, rfl⟩
  have hid : graphs.ofName? identity.name = some graph := by
    have hnames : (graphs.toList.map (·.2.name)).Nodup := by
      rw [Identities.names_of_resolve h]
      exact hresolve.1
    unfold Identities.ofName?
    rw [find?_eq_some_of_nodup_map hnames hmem]
    rfl
  unfold Join.translate
  rw [hvalue, hname, Option.bind_some, hid]

theorem nodup_map_valueOf {byGraph : List GraphId} (hnodup : byGraph.Nodup)
    (hgraphs : ∀ graph ∈ byGraph, graph ∈ graphs.keys)
    : (byGraph.map graphs.valueOf).Nodup := by
  apply hnodup.map_on
  intro graph hgraph graph' hgraph' heq
  have htranslate := translate_valueOf h (hgraphs graph hgraph)
  rw [heq, translate_valueOf h (hgraphs graph' hgraph')] at htranslate
  exact (Option.some.inj htranslate).symm

theorem mem_keys_of_declaredWhere {p : Schema → Prop} {declaring : List GraphId}
    (hwhere : DeclaredWhere (sources graphs subgraphs) p declaring) {graph : GraphId}
    (hgraph : graph ∈ declaring) : graph ∈ graphs.keys := by
  obtain ⟨s, hmem, -⟩ := (hwhere graph).1 hgraph
  exact mem_keys_of_mem_sources h hmem

section

variable {composite? : TypeDef → Option (TypeDef × CompositeBody)} {type field : Name}
variable {e : CompositeEntry} {fe : FieldEntry}
variable (he : CompositeEntry.ofDeclared? (declared Schema.keeps (sources graphs subgraphs) fun s =>
  ((s.userType? type).bind composite?).toList) = some e)

include he

theorem typeGraphs_directives (location : DirectiveLocation) :
    Join.typeGraphs (e.directives (ofSubgraphs graphs subgraphs).annotator location)
      =
    e.byGraph.keys.map graphs.valueOf := by
  have hannotator : (ofSubgraphs graphs subgraphs).annotator.graphs = graphs :=
    graphs_ofSubgraphs graphs subgraphs
  have hgraphs : ∀ graph ∈ e.byGraph.keys, graph ∈ graphs.keys := by
    intro graph hgraph
    exact mem_keys_of_declaredWhere h (CompositeEntry.declaredWhere he) hgraph
  have hcopied : Join.typeGraphs (e.directives (ofSubgraphs graphs subgraphs).annotator location)
      = Join.typeGraphs (e.facts (ofSubgraphs graphs subgraphs).annotator) := by
    unfold Join.typeGraphs CompositeEntry.directives
    rw [List.filter_append, filter_copied (by decide), List.nil_append]
  rw [hcopied, CompositeEntry.typeGraphs_facts, hannotator]
  . rw [hannotator]
    exact hgraphs
  . rw [hannotator]
    exact nodup_map_valueOf h e.byGraph.keys_nodup hgraphs

variable (hfe : e.fields.get? field = some fe)

include hfe

theorem keys_byGraph_sublist : fe.byGraph.keys.Sublist e.byGraph.keys := by
  have hfield := (CompositeEntry.get?_fields he field).symm.trans hfe
  rw [(FieldEntry.merges hfield).byGraph, (CompositeEntry.merges he).byGraph]
  exact keys_records_sublist (nodup_sources h) fun s => Schema.isSome_composite_of_field?

theorem mem_keys_of_field {graph : GraphId} (hgraph : graph ∈ fe.byGraph.keys) :
    graph ∈ graphs.keys := by
  have hfield := (CompositeEntry.get?_fields he field).symm.trans hfe
  exact mem_keys_of_declaredWhere h (FieldEntry.declaredWhere hfield) hgraph

omit h in
theorem byGraph_ne_nil : fe.byGraph.toList ≠ [] := by
  have hfield := (CompositeEntry.get?_fields he field).symm.trans hfe
  obtain ⟨s, hs, hdeclared⟩ := (isSome_merged?_declared_iff _).1 (Option.isSome_of_eq_some hfield)
  obtain ⟨⟨graph, s⟩, hmem, rfl⟩ := List.mem_map.1 hs
  have hgraph : graph ∈ fe.byGraph.keys := by
    rw [FieldEntry.declaredWhere hfield]
    exact ⟨s, hmem, (toList_ne_nil_iff _).1 hdeclared⟩
  obtain ⟨entry, hentry, -⟩ := List.mem_map.1 hgraph
  exact List.ne_nil_of_mem hentry

theorem filter_directives_emit (size : Nat) :
    (fe.emit (ofSubgraphs graphs subgraphs).annotator size).directives.filter
        (·.name = Join.fieldName)
      =
    if fe.needsFacts size then fe.facts (ofSubgraphs graphs subgraphs).annotator else [] := by
  have hgraphs : ∀ graph ∈ fe.byGraph.keys,
      graph ∈ (ofSubgraphs graphs subgraphs).annotator.graphs.keys := by
    intro graph hgraph
    change graph ∈ (ofSubgraphs graphs subgraphs).graphs.keys
    rw [graphs_ofSubgraphs]
    exact mem_keys_of_field h he hfe hgraph
  unfold FieldEntry.emit
  dsimp only
  rw [List.filter_append, filter_copied (by decide), List.nil_append]
  split
  . rw [List.filter_eq_self, FieldEntry.facts_eq hgraphs]
    intro d hd
    obtain ⟨entry, -, rfl⟩ := List.mem_map.1 hd
    rfl
  . rfl

theorem attributions?_emit (location : DirectiveLocation) :
    Join.attributions? (Join.translate (ofSubgraphs graphs subgraphs).toSchema graphs)
        (e.directives (ofSubgraphs graphs subgraphs).annotator location)
        (fe.emit (ofSubgraphs graphs subgraphs).annotator e.byGraph.size)
      =
    some (fe.byGraph.toList.map fun (graph, d) => (graph, d.attribution)) := by
  have hannotator : (ofSubgraphs graphs subgraphs).annotator.graphs = graphs :=
    graphs_ofSubgraphs graphs subgraphs
  have hgraphs : ∀ entry ∈ fe.byGraph.toList, entry.1 ∈ graphs.keys := by
    intro entry hentry
    exact mem_keys_of_field h he hfe (List.mem_map.2 ⟨entry, hentry, rfl⟩)
  have hfilter := filter_directives_emit h he hfe e.byGraph.size
  cases hneeds : fe.needsFacts e.byGraph.size with
  | true =>
    rw [if_pos hneeds, FieldEntry.facts_eq (by simpa [hannotator, OrderedMap.keys] using hgraphs),
      hannotator] at hfilter
    have hne := byGraph_ne_nil he hfe
    rw [Join.attributions?_of_ne_nil hfilter (by simpa using hne)]
    apply mapM_map_eq_some
    intro entry hentry
    rw [JoinFact.graph?_toDirective]
    change ((Join.translate _ graphs (graphs.valueOf entry.1)).bind _) = _
    rw [translate_valueOf h (hgraphs entry hentry), Option.bind_some]
    change (Join.attribution? fe.type _).map _ = _
    rw [JoinFact.attribution?_toDirective]
    rfl
  | false =>
    rw [hneeds, if_neg (by decide)] at hfilter
    obtain ⟨hsize, hplain⟩ := FieldEntry.attribution_of_not_needsFacts hneeds
    -- The subgraphs of the field are among those of the type, and there are equally many.
    have hkeys : fe.byGraph.keys = e.byGraph.keys := by
      apply (keys_byGraph_sublist h he hfe).eq_of_length
      rw [OrderedMap.length_keys, OrderedMap.length_keys, hsize]
    rw [Join.attributions?_of_eq_nil hfilter, typeGraphs_directives h he location, ← hkeys]
    unfold OrderedMap.keys
    rw [List.map_map]
    apply mapM_map_eq_some
    intro entry hentry
    rw [Function.comp_apply, translate_valueOf h (hgraphs entry hentry)]
    change _ = some (entry.1, entry.2.attribution)
    rw [hplain entry.2 (List.mem_map.2 ⟨entry, hentry, rfl⟩)]
    rfl

omit hfe in
theorem isAttributed_emit {t : TypeDef} {location : DirectiveLocation}
    (hdirectives : t.directives
      = e.directives (ofSubgraphs graphs subgraphs).annotator location)
    (hfield : ∀ field, t.field? field
      = (e.body (ofSubgraphs graphs subgraphs).annotator).fields.get? field)
    : e.IsAttributed (ofSubgraphs graphs subgraphs).toSchema graphs t := by
  intro field fe hfe
  refine ⟨fe.emit (ofSubgraphs graphs subgraphs).annotator e.byGraph.size, ?_, ?_⟩
  . rw [hfield]
    unfold CompositeEntry.body
    rw [OrderedMap.get?_map, hfe]
    rfl
  . rw [hdirectives]
    exact attributions?_emit h he hfe location

end

theorem isAttributed_ofSubgraphs :
    (∀ type e, (ofSubgraphs graphs subgraphs).objects.get? type = some e →
      e.IsAttributed (ofSubgraphs graphs subgraphs).toSchema graphs
        (e.emitObject (ofSubgraphs graphs subgraphs).annotator))
      ∧ ∀ type e, (ofSubgraphs graphs subgraphs).interfaces.get? type = some e →
        e.IsAttributed (ofSubgraphs graphs subgraphs).toSchema graphs
          (e.emitInterface (ofSubgraphs graphs subgraphs).annotator) := by
  constructor
  . intro type e he
    rw [get?_objects] at he
    exact isAttributed_emit h he rfl fun _ => rfl
  . intro type e he
    rw [get?_interfaces] at he
    exact isAttributed_emit h he rfl fun _ => rfl

omit h in
theorem isAttributed_sample :
    ∃ e t d, (ofSubgraphs sampleGraphs sampleSubgraphs).objects.get? (.lit "Query") = some e
      ∧ e.emitObject (ofSubgraphs sampleGraphs sampleSubgraphs).annotator = t
      ∧ t.field? (.lit "a") = some d
      ∧ Join.attributions?
          (Join.translate (ofSubgraphs sampleGraphs sampleSubgraphs).toSchema sampleGraphs)
          t.directives d
        = some [
          (⟨"first"⟩, .plain (.named (.lit "Int") true)),
          (⟨"second"⟩, .plain (.named (.lit "Int") false))] := by
  have hattributed := isAttributed_ofSubgraphs resolve_sampleSubgraphs
  obtain ⟨d, hd, hattributions⟩ := hattributed.1 (.lit "Query") _ rfl (.lit "a") _ rfl
  exact ⟨_, _, d, rfl, rfl, hd, hattributions⟩

end Model

end Supergraph
