import Supergraph.Model.Emission
import Supergraph.Proofs.Join
import Supergraph.Proofs.Model.Run
import Supergraph.Proofs.OrderedSet

namespace Supergraph

open GraphQL

theorem Model.isUserDirective_of_mem_copied {graphs : Identities} {subgraphs : List Subgraph}
    {location : DirectiveLocation} {applications : List (List Directive)} {d : Directive}
    (h : d ∈ (ofSubgraphs graphs subgraphs).annotator.copied location applications)
    : Federation.isUserDirective d.name := by
  unfold Annotator.copied at h
  rw [OrderedSet.mem_toList, OrderedSet.mem_ofList, List.mem_filter, Option.any_eq_true] at h
  obtain ⟨-, retained, hretained, -⟩ := h
  change (ofSubgraphs graphs subgraphs).retained.get? d.name = some retained at hretained
  unfold Model.retained at hretained
  rw [OrderedMap.get?_filterMap, Option.bind_eq_some_iff] at hretained
  obtain ⟨e, he, -⟩ := hretained
  exact isUserDirective_of_get?_directives he

theorem Model.filter_copied {graphs : Identities} {subgraphs : List Subgraph} {name : Name}
    (hname : Federation.isUserDirective name = false) (location : DirectiveLocation)
    (applications : List (List Directive))
    : ((ofSubgraphs graphs subgraphs).annotator.copied location applications).filter
        (·.name = name) = [] := by
  rw [List.filter_eq_nil_iff]
  intro d hd hdname
  have huser := isUserDirective_of_mem_copied hd
  rw [of_decide_eq_true hdname, hname] at huser
  cases huser

theorem Model.facts_copied {graphs : Identities} {subgraphs : List Subgraph}
    (location : DirectiveLocation) (applications : List (List Directive))
    : Join.facts ((ofSubgraphs graphs subgraphs).annotator.copied location applications) = [] := by
  unfold Join.facts
  rw [List.filterMap_eq_nil_iff]
  intro d hd
  exact Join.fact?_eq_none_of_isUserDirective (isUserDirective_of_mem_copied hd)

def Identities.valueOf (ids : Identities) (id : GraphId) : Name := (ids.enumValue? id).getD default

theorem Identities.valueOf_eq {ids : Identities} {id : GraphId} {identity : Identity}
    (h : ids.get? id = some identity) : ids.valueOf id = identity.enumValue := by
  unfold valueOf enumValue?
  rw [h]
  rfl

theorem Identities.enumValue?_of_mem_keys {ids : Identities} {id : GraphId} (h : id ∈ ids.keys) :
    ids.enumValue? id = some (ids.valueOf id) := by
  obtain ⟨identity, hidentity⟩ := OrderedMap.exists_get?_of_mem_keys h
  unfold valueOf enumValue?
  rw [hidentity]
  rfl

theorem Annotator.facts_eq {δ : Type} {a : Annotator} {byGraph : ByGraph δ}
    (h : ∀ graph ∈ byGraph.keys, graph ∈ a.graphs.keys) (contribute : Name → δ → List JoinFact)
    : a.facts byGraph contribute
        =
      byGraph.toList.flatMap fun (graph, d) =>
        (contribute (a.graphs.valueOf graph) d).map (·.toDirective) := by
  unfold facts
  apply List.flatMap_congr
  intro e he
  have hgraph := h e.1 (List.mem_map.2 ⟨e, he, rfl⟩)
  dsimp only
  rw [Identities.enumValue?_of_mem_keys hgraph]
  simp

theorem flatMap_ite_eq {α β γ : Type} [DecidableEq α] (k : α) (f : β → List γ)
    (entries : List (α × β))
    : (entries.flatMap fun e => if e.1 = k then f e.2 else [])
        =
      ((entries.filter (·.1 = k)).map (·.2)).flatMap f := by
  induction entries with
  | nil => rfl
  | cons e rest ih =>
    by_cases h : e.1 = k
    . simp [h, ih]
    . simp [h, ih]

theorem Annotator.factsOn_facts {δ : Type} {a : Annotator} {byGraph : ByGraph δ}
    (h : ∀ graph ∈ byGraph.keys, graph ∈ a.graphs.keys)
    (hnodup : (a.graphs.keys.map a.graphs.valueOf).Nodup) {contribute : Name → δ → List JoinFact}
    (hcontribute : ∀ value d, ∀ f ∈ contribute value d, f.graph = value) {graph : GraphId}
    (hgraph : graph ∈ a.graphs.keys)
    : Join.factsOn (a.graphs.valueOf graph) (a.facts byGraph contribute)
        =
      (byGraph.get? graph).toList.flatMap (contribute (a.graphs.valueOf graph)) := by
  have hfacts : Join.facts (a.facts byGraph contribute)
      = byGraph.toList.flatMap fun e => contribute (a.graphs.valueOf e.1) e.2 := by
    unfold Join.facts
    rw [facts_eq h, List.filterMap_flatMap]
    apply List.flatMap_congr
    intro e _
    exact Join.facts_map_toDirective _
  unfold Join.factsOn
  rw [hfacts, List.filter_flatMap, ← OrderedMap.map_filter_toList, ← flatMap_ite_eq]
  apply List.flatMap_congr
  intro e he
  have hmem := h e.1 (List.mem_map.2 ⟨e, he, rfl⟩)
  split
  . next heq =>
    rw [heq, List.filter_eq_self]
    intro f hf
    exact decide_eq_true (hcontribute _ _ f hf)
  . next hne =>
    rw [List.filter_eq_nil_iff]
    intro f hf hvalue
    rw [decide_eq_true_eq, hcontribute _ _ f hf] at hvalue
    exact hne (List.inj_on_of_nodup_map hnodup hmem hgraph hvalue)

theorem FieldEntry.facts_eq {a : Annotator} {e : FieldEntry}
    (h : ∀ graph ∈ e.byGraph.keys, graph ∈ a.graphs.keys)
    : e.facts a
        =
      e.byGraph.toList.map fun (graph, d) => (JoinFact.field (a.graphs.valueOf graph) d.requires
        d.provides (if d.type = e.type then none else some d.type) d.external).toDirective := by
  unfold facts
  rw [Annotator.facts_eq h, List.map_eq_flatMap]
  rfl

def CompositeInGraph.typeFacts (graph : Name) (d : CompositeInGraph) : List JoinFact :=
  if d.keys.isEmpty then [.type graph none] else d.keys.map fun key => .type graph (some key)

theorem CompositeInGraph.typeFacts_ne_nil (graph : Name) (d : CompositeInGraph) :
    d.typeFacts graph ≠ [] := by
  unfold typeFacts
  cases d.keys <;> simp

theorem CompositeInGraph.exists_key_of_mem_typeFacts {graph : Name} {d : CompositeInGraph}
    {f : JoinFact} (h : f ∈ d.typeFacts graph) : ∃ key, f = .type graph key := by
  unfold typeFacts at h
  split at h
  . exact ⟨none, List.mem_singleton.1 h⟩
  . obtain ⟨key, -, rfl⟩ := List.mem_map.1 h
    exact ⟨some key, rfl⟩

theorem CompositeEntry.facts_eq {a : Annotator} {e : CompositeEntry}
    (h : ∀ graph ∈ e.byGraph.keys, graph ∈ a.graphs.keys)
    : e.facts a
        =
      (e.byGraph.toList.flatMap fun (graph, d) =>
          (d.typeFacts (a.graphs.valueOf graph)).map (·.toDirective))
        ++ e.byGraph.toList.flatMap fun (graph, d) =>
          (d.interfaces.toList.map (.implements (a.graphs.valueOf graph))).map
            JoinFact.toDirective := by
  unfold facts
  rw [Annotator.facts_eq h, Annotator.facts_eq h]
  rfl

theorem CompositeEntry.typeGraphs_facts {a : Annotator} {e : CompositeEntry}
    (h : ∀ graph ∈ e.byGraph.keys, graph ∈ a.graphs.keys)
    (hnodup : (e.byGraph.keys.map a.graphs.valueOf).Nodup)
    : Join.typeGraphs (e.facts a) = e.byGraph.keys.map a.graphs.valueOf := by
  have htype : (e.byGraph.toList.flatMap fun (graph, d) =>
      (d.typeFacts (a.graphs.valueOf graph)).map (·.toDirective)).filter
        (·.name = Join.typeName)
      = e.byGraph.toList.flatMap fun (graph, d) =>
        (d.typeFacts (a.graphs.valueOf graph)).map (·.toDirective) := by
    rw [List.filter_eq_self]
    intro d hd
    obtain ⟨entry, -, hd⟩ := List.mem_flatMap.1 hd
    obtain ⟨f, hf, rfl⟩ := List.mem_map.1 hd
    obtain ⟨key, rfl⟩ := CompositeInGraph.exists_key_of_mem_typeFacts hf
    rfl
  have himplements : (e.byGraph.toList.flatMap fun (graph, d) =>
      (d.interfaces.toList.map (.implements (a.graphs.valueOf graph))).map
        JoinFact.toDirective).filter (·.name = Join.typeName) = [] := by
    rw [List.filter_eq_nil_iff]
    intro d hd
    obtain ⟨entry, -, hd⟩ := List.mem_flatMap.1 hd
    obtain ⟨f, hf, rfl⟩ := List.mem_map.1 hd
    obtain ⟨interface, -, rfl⟩ := List.mem_map.1 hf
    have hne : Name.lit "join__implements" ≠ Join.typeName := by decide
    rw [decide_eq_true_eq]
    exact hne
  have hgraphs : ∀ facts : List JoinFact,
      (facts.map (·.toDirective)).filterMap Join.graph? = facts.map (·.graph) := by
    intro facts
    rw [List.filterMap_map, ← List.filterMap_eq_map]
    congr 1
    funext f
    exact f.graph?_toDirective
  unfold Join.typeGraphs
  rw [CompositeEntry.facts_eq h, List.filter_append, htype, himplements, List.append_nil,
    List.filterMap_flatMap]
  simp only [hgraphs]
  -- A type with several keys in a subgraph names that subgraph several times in a row.
  unfold OrderedMap.keys at hnodup ⊢
  rw [List.map_map] at hnodup ⊢
  apply OrderedSet.toList_ofList_flatMap _ _ hnodup
  . intro entry _ hnil
    exact CompositeInGraph.typeFacts_ne_nil _ _ (List.map_eq_nil_iff.1 hnil)
  . intro entry _ graph hgraph
    obtain ⟨f, hf, rfl⟩ := List.mem_map.1 hgraph
    obtain ⟨key, rfl⟩ := CompositeInGraph.exists_key_of_mem_typeFacts hf
    rfl

theorem FieldEntry.attribution_of_not_needsFacts {e : FieldEntry} {subgraphs : Nat}
    (h : e.needsFacts subgraphs = false)
    : e.byGraph.size = subgraphs
        ∧ ∀ d ∈ e.byGraph.values, d.attribution = .plain e.type := by
  unfold needsFacts at h
  simp only [Bool.or_eq_false_iff, bne_eq_false_iff_eq, List.any_eq_false, Bool.or_eq_true,
    not_or] at h
  refine ⟨h.1, ?_⟩
  intro d hd
  obtain ⟨⟨⟨hexternal, hrequires⟩, hprovides⟩, htype⟩ := h.2 d hd
  simp only [bne_iff_ne, ne_eq, not_not] at htype
  simp only [Option.isSome_iff_ne_none, ne_eq, not_not] at hrequires hprovides
  simp only [Bool.not_eq_true] at hexternal
  unfold FieldInGraph.attribution Attribution.plain
  rw [hexternal, hrequires, hprovides, htype]

end Supergraph
