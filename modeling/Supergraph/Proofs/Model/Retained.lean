import Supergraph.Model.Emission
import Supergraph.Proofs.Rule.Report

/-!
This module contains the directives that a run retains and the locations at which their applications
are copied, in terms of what the schemas declare.
-/

namespace Supergraph

open GraphQL

def ComposedByAll (subgraphs : List Subgraph) (name : Name) : Prop :=
  Federation.isUserDirective name
    ∧ ∀ s ∈ subgraphs, s.schema.directiveDefs.contains name ∧ name ∈ s.schema.composedDirectives

instance (subgraphs : List Subgraph) (name : Name) : Decidable (ComposedByAll subgraphs name) :=
  inferInstanceAs (Decidable (_ ∧ _))

def MergesLocation (subgraphs : List Subgraph) (name : Name) (location : DirectiveLocation) : Prop :=
  (∀ s ∈ subgraphs, ∀ u ∈ s.schema.userDirective? name, location ∈ u.locations)
      ∧ (location.isExecutable ∨ ComposedByAll subgraphs name)
    ∨ ComposedByAll subgraphs name ∧ location.isExecutable = false
      ∧ ∃ s ∈ subgraphs, location ∈ s.schema.usedLocations name

namespace DirectiveEntry

theorem mem_locations_of_mem_commonLocations {e : DirectiveEntry} {location : DirectiveLocation}
    (h : location ∈ e.commonLocations) : ∃ d ∈ e.byGraph.values, location ∈ d.locations := by
  unfold commonLocations at h
  split at h
  . cases h
  . next first rest hvalues =>
    rw [OrderedSet.mem_filter] at h
    exact ⟨first, by rw [hvalues]; exact List.mem_cons_self, h.1⟩

theorem isExecutable_of_not_isComposed {e : DirectiveEntry} (hcomposed : ¬ e.isComposed)
    (hlocations : ¬ e.mergedLocations.isEmpty) : e.isExecutable := by
  unfold mergedLocations at hlocations
  rw [if_neg hcomposed] at hlocations
  unfold OrderedSet.isEmpty at hlocations
  rw [List.isEmpty_iff] at hlocations
  obtain ⟨location, hlocation⟩ := List.exists_mem_of_ne_nil _ hlocations
  rw [OrderedSet.mem_toList, OrderedSet.mem_filter] at hlocation
  obtain ⟨d, hd, hmem⟩ := mem_locations_of_mem_commonLocations hlocation.1
  unfold isExecutable
  rw [List.any_eq_true]
  exact ⟨d, hd, List.any_eq_true.2 ⟨location, hmem, hlocation.2⟩⟩

section

variable {sources : List (GraphId × Schema)} (hnodup : (sources.map Prod.fst).Nodup)
variable {name : Name} {e : DirectiveEntry}
variable (he : DirectiveEntry.ofDeclared? (declared (fun _ _ => false) sources fun s =>
  (s.directiveUse? name).toList) = some e)

include hnodup he

theorem values_ne_nil : e.byGraph.values ≠ [] := by
  have hvalues := Rule.mem_recorded_directive hnodup he (·.composed) (·.composed) fun _ _ => rfl
  obtain ⟨s, hs, hne⟩ := (isSome_merged?_declared_iff _).1 (Option.isSome_of_eq_some he)
  obtain ⟨u, hu⟩ := List.exists_mem_of_ne_nil _ hne
  have hmem := (hvalues u.composed).2 (List.mem_flatMap.2 ⟨s, hs, List.mem_map.2 ⟨u, hu, rfl⟩⟩)
  obtain ⟨d, hd, -⟩ := List.mem_map.1 hmem
  exact List.ne_nil_of_mem hd

theorem isComposed_iff :
    e.isComposed
      ↔
    ∀ s ∈ sources.map Prod.snd, (s.userDirective? name).isSome → name ∈ s.composedDirectives := by
  have hvalues := Rule.mem_recorded_directive hnodup he (·.composed) (·.composed) fun _ _ => rfl
  have hdeclared := values_ne_nil hnodup he
  have hall : e.isComposed ↔ false ∉ e.byGraph.values.map (·.composed) := by
    unfold isComposed OrderedMap.isEmpty
    unfold OrderedMap.values at hdeclared ⊢
    rw [Ne, List.map_eq_nil_iff] at hdeclared
    simp [hdeclared]
  rw [hall, hvalues]
  simp [Schema.directiveUse?, Option.isSome_iff_exists]

theorem mem_commonLocations_iff (location : DirectiveLocation) :
    location ∈ e.commonLocations
      ↔
    ∀ s ∈ sources.map Prod.snd, ∀ u ∈ s.userDirective? name, location ∈ u.locations := by
  have hvalues := Rule.mem_recorded_directive hnodup he (fun d => decide (location ∈ d.locations))
    (fun u => decide (location ∈ u.definition.locations))
    (by intro _ u; simp [DirectiveInGraph.ofUse])
  have hall : location ∈ e.commonLocations
      ↔ false ∉ e.byGraph.values.map fun d => decide (location ∈ d.locations) := by
    have hdeclared := values_ne_nil hnodup he
    unfold commonLocations
    cases h : e.byGraph.values with
    | nil => exact absurd h hdeclared
    | cons first rest => simp
  rw [hall, hvalues]
  simp [Schema.directiveUse?]

theorem mem_appliedLocations_iff (location : DirectiveLocation) :
    location ∈ e.appliedLocations
      ↔
    (∃ s ∈ sources.map Prod.snd, (s.userDirective? name).isSome ∧ location ∈ s.usedLocations name)
      ∧ location.isExecutable = false := by
  have hvalues := Rule.mem_recorded_directive hnodup he (·.usedLocations) (·.usedLocations)
    fun _ _ => rfl
  unfold appliedLocations
  rw [List.mem_filter, Bool.not_eq_true', ← List.flatMap_map, List.mem_flatMap]
  apply and_congr_left
  intro _
  simp only [hvalues]
  simp [Schema.directiveUse?, Option.isSome_iff_exists, and_assoc]

end

end DirectiveEntry

namespace Model

theorem get?_retained_eq_some_iff {m : Model} {name : Name} {d : RetainedDirective} :
    m.retained.get? name = some d
      ↔
    ∃ e, m.directives.get? name = some e ∧ e.byGraph.size = m.graphs.size
      ∧ ¬ e.mergedLocations.isEmpty ∧ d = { definition := e.mergedDef, composed := e.isComposed } := by
  unfold retained
  rw [OrderedMap.get?_filterMap, Option.bind_eq_some_iff]
  apply exists_congr
  intro e
  apply and_congr_right
  intro _
  unfold DirectiveEntry.retain? subgraphCount
  split
  . next h => simp [h, eq_comm]
  . next h =>
    refine iff_of_false (by simp) ?_
    rintro ⟨hsize, hlocations, -⟩
    exact h ⟨hsize, hlocations⟩

theorem get?_directiveDefs_toSchema (m : Model) (name : Name) :
    m.toSchema.directiveDefs.get? name
      =
    ((m.retained.get? name).map (·.definition)).or
      ((Schema.builtIn.directiveDefs.insertMany Join.directiveDefs).get? name) := by
  have h := OrderedMap.get?_insertMany_toList
    (Schema.builtIn.directiveDefs.insertMany Join.directiveDefs)
    (m.retained.map fun _ d => d.definition) name
  rw [OrderedMap.get?_map] at h
  exact h

theorem exists_retained_of_isUserDirective {m : Model} {name : Name}
    (hname : Federation.isUserDirective name) {d : DirectiveDef}
    (hd : m.toSchema.directiveDefs.get? name = some d)
    : ∃ retained, m.retained.get? name = some retained ∧ retained.definition = d := by
  have hgiven : ∀ name ∈ (Schema.builtIn.directiveDefs.insertMany Join.directiveDefs).keys,
      Federation.isUserDirective name = false := by
    decide
  rw [get?_directiveDefs_toSchema, Option.or_eq_some_iff] at hd
  cases hd with
  | inl hd => exact Option.map_eq_some_iff.1 hd
  | inr hd =>
    rw [hgiven name (OrderedMap.mem_keys_of_get? hd.2)] at hname
    cases hname

section

variable {subgraphs : List Subgraph} {graphs : Identities}
variable (h : Identities.resolve subgraphs = .ok graphs)
variable {name : Name} {e : DirectiveEntry}
variable (he : (ofSubgraphs graphs subgraphs).directives.get? name = some e)

include h he

theorem size_byGraph_eq_size_graphs_iff :
    e.byGraph.size = graphs.size ↔ ∀ s ∈ subgraphs, (s.schema.userDirective? name).isSome := by
  rw [get?_directives] at he
  rw [← OrderedMap.length_keys graphs, ← map_fst_sources h, List.length_map,
    Rule.size_byGraph_eq_length_iff (nodup_sources h) he, map_snd_sources h]
  exact List.forall_mem_map

theorem mem_keys_sharedArguments_iff (hsize : e.byGraph.size = graphs.size) (argument : Name) :
    argument ∈ (sharedInputs e.byGraph.size e.arguments).keys
      ↔
    ∀ s ∈ subgraphs, s.schema.directiveArguments name argument ≠ [] := by
  have hdefined := (size_byGraph_eq_size_graphs_iff h he).1 hsize
  rw [get?_directives] at he
  rw [Rule.mem_keys_sharedInputs (nodup_sources h) (DirectiveEntry.get?_arguments he argument)
    (DirectiveEntry.declaredWhere he) (fun _ => Schema.isSome_userDirective?_of_directiveArguments)
    (DirectiveEntry.exists_userDirective? he), map_snd_sources h, List.forall_mem_map]
  constructor
  . intro hall s hs
    exact hall s hs (hdefined s hs)
  . intro hall s hs _
    exact hall s hs

theorem isComposed_iff_composedByAll (hsize : e.byGraph.size = graphs.size) :
    e.isComposed ↔ ComposedByAll subgraphs name := by
  have hdeclared := (size_byGraph_eq_size_graphs_iff h he).1 hsize
  have huser := isUserDirective_of_get?_directives he
  rw [get?_directives] at he
  rw [DirectiveEntry.isComposed_iff (nodup_sources h) he, map_snd_sources h, List.forall_mem_map]
  constructor
  . intro hall
    refine ⟨huser, ?_⟩
    intro s hs
    exact ⟨((Schema.isSome_userDirective?_iff _ _).1 (hdeclared s hs)).2, hall s hs (hdeclared s hs)⟩
  . intro hcomposed s hs _
    exact (hcomposed.2 s hs).2

theorem mem_mergedLocations_iff (hsize : e.byGraph.size = graphs.size)
    (location : DirectiveLocation)
    : location ∈ e.mergedLocations ↔ MergesLocation subgraphs name location := by
  have hcomposed := isComposed_iff_composedByAll h he hsize
  have hdeclared := (size_byGraph_eq_size_graphs_iff h he).1 hsize
  rw [get?_directives] at he
  have hcommon := DirectiveEntry.mem_commonLocations_iff (nodup_sources h) he location
  have happlied := DirectiveEntry.mem_appliedLocations_iff (nodup_sources h) he location
  rw [map_snd_sources h, List.forall_mem_map] at hcommon
  rw [map_snd_sources h] at happlied
  simp only [List.mem_map, exists_exists_and_eq_and] at happlied
  have hused : (∃ s ∈ subgraphs, (s.schema.userDirective? name).isSome
        ∧ location ∈ s.schema.usedLocations name)
      ↔ ∃ s ∈ subgraphs, location ∈ s.schema.usedLocations name := by
    apply exists_congr
    intro s
    apply and_congr_right
    intro hs
    exact and_iff_right (hdeclared s hs)
  unfold DirectiveEntry.mergedLocations MergesLocation
  split
  . next hall =>
    rw [hcomposed] at hall
    rw [OrderedSet.mem_insertMany, hcommon, happlied, hused]
    simp [hall, and_comm]
  . next hnot =>
    rw [hcomposed] at hnot
    rw [OrderedSet.mem_filter, hcommon]
    simp [hnot]

end

section

variable {subgraphs : List Subgraph} {graphs : Identities}
variable (h : Identities.resolve subgraphs = .ok graphs)
variable {name : Name} {d : RetainedDirective}
variable (hd : (ofSubgraphs graphs subgraphs).retained.get? name = some d)

include h hd

theorem mem_arguments_retained_iff (argument : Name) :
    argument ∈ d.definition.arguments.map Prod.fst
      ↔
    ∀ s ∈ subgraphs, s.schema.directiveArguments name argument ≠ [] := by
  obtain ⟨e, he, hsize, -, rfl⟩ := get?_retained_eq_some_iff.1 hd
  rw [graphs_ofSubgraphs] at hsize
  have hkeys : e.mergedDef.arguments.map Prod.fst
      = (sharedInputs e.byGraph.size e.arguments).keys := by
    unfold DirectiveEntry.mergedDef OrderedMap.keys
    rw [List.map_map]
    rfl
  rw [hkeys]
  exact mem_keys_sharedArguments_iff h he hsize argument

theorem repeatable_retained_iff :
    d.definition.repeatable
      ↔
    ∀ s ∈ subgraphs, ∀ u ∈ s.schema.userDirective? name, u.repeatable := by
  obtain ⟨e, he, -, -, rfl⟩ := get?_retained_eq_some_iff.1 hd
  rw [get?_directives] at he
  have hvalues := Rule.mem_recorded_directive (nodup_sources h) he (·.repeatable)
    (·.definition.repeatable) (fun _ _ => rfl) false
  have hall : e.mergedDef.repeatable ↔ false ∉ e.byGraph.values.map (·.repeatable) := by
    simp [DirectiveEntry.mergedDef]
  rw [hall, hvalues, map_snd_sources h]
  simp [Schema.directiveUse?]

end

variable {subgraphs : List Subgraph} {graphs : Identities}
variable (h : Identities.resolve subgraphs = .ok graphs)

include h

theorem copiesAt_iff {name : Name} {location : DirectiveLocation}
    (hlocation : location.isExecutable = false) {s : Subgraph} (hs : s ∈ subgraphs)
    (hused : location ∈ s.schema.usedLocations name)
    : ((ofSubgraphs graphs subgraphs).retained.get? name).any (·.copiesAt location)
        ↔
      ComposedByAll subgraphs name := by
  rw [Option.any_eq_true]
  constructor
  . rintro ⟨d, hd, hcopies⟩
    obtain ⟨e, he, hsize, -, rfl⟩ := get?_retained_eq_some_iff.1 hd
    rw [graphs_ofSubgraphs] at hsize
    rw [← isComposed_iff_composedByAll h he hsize]
    exact (Bool.and_eq_true_iff.1 hcopies).1
  . intro hcomposed
    have hdeclared : ∀ s ∈ subgraphs, (s.schema.userDirective? name).isSome := by
      intro s hs
      exact (Schema.isSome_userDirective?_iff _ _).2 ⟨hcomposed.1, (hcomposed.2 s hs).1⟩
    have hschema := mem_map_snd_sources h hs
    have hsome : ((ofSubgraphs graphs subgraphs).directives.get? name).isSome := by
      rw [get?_directives]
      refine (isSome_merged?_declared_iff _).2 ⟨s.schema, hschema, ?_⟩
      rw [toList_ne_nil_iff]
      unfold Schema.directiveUse?
      rw [Option.isSome_map]
      exact hdeclared s hs
    obtain ⟨e, he⟩ := Option.isSome_iff_exists.1 hsome
    have hsize := (size_byGraph_eq_size_graphs_iff h he).2 hdeclared
    have hisComposed := (isComposed_iff_composedByAll h he hsize).2 hcomposed
    have hmerged : location ∈ e.mergedLocations := by
      rw [get?_directives] at he
      unfold DirectiveEntry.mergedLocations
      rw [if_pos hisComposed, OrderedSet.mem_insertMany]
      exact .inr ((DirectiveEntry.mem_appliedLocations_iff (nodup_sources h) he _).2
        ⟨⟨s.schema, hschema, hdeclared s hs, hused⟩, hlocation⟩)
    refine ⟨_, get?_retained_eq_some_iff.2 ⟨e, he, by rw [graphs_ofSubgraphs, hsize], ?_, rfl⟩, ?_⟩
    . unfold OrderedSet.isEmpty
      rw [List.isEmpty_iff]
      exact List.ne_nil_of_mem hmerged
    . unfold RetainedDirective.copiesAt
      rw [Bool.and_eq_true_iff, List.contains_iff_mem]
      exact ⟨hisComposed, hmerged⟩

end Model

def Subgraph.composing (name : String) (location : DirectiveLocation) (type : TypeRef)
    (applied : List Directive) : Subgraph where
  name := name
  schema := {
    directives := [{
      name := .lit "composeDirective"
      arguments := [(.lit "name", .string "@a")] }]
    directiveDefs := .ofList [
      (.lit "a", { arguments := [(.lit "n", { type })], locations := [location] })]
    types := .ofList [
      (.lit "Query", {
        directives := applied
        body := .object { interfaces := ∅, fields := .ofList [
          (.lit "a", { type := .named (.lit "Int") false })] } })] }

end Supergraph
