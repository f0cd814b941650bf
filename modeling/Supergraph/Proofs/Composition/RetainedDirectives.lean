import Supergraph.Proofs.Composition.Content
import Supergraph.Proofs.Composition.Copies

/-!
This module contains the theory of the directives that the supergraph defines. Clients may do with
them only what every subgraph declares.
-/

namespace Supergraph

open GraphQL

namespace GraphQL.Schema

def DeclaresAt (s : Schema) (name : Name) (location : DirectiveLocation) : Prop :=
  ∃ u ∈ s.userDirective? name, location ∈ u.locations

def AppliesAt (s : Schema) (name : Name) (location : DirectiveLocation) : Prop :=
  ∃ t ∈ s.userTypes, ∃ d, (location, d) ∈ t.2.applications ∧ d.name = name

theorem mem_usedLocations_iff (s : Schema) (name : Name) (location : DirectiveLocation) :
    location ∈ s.usedLocations name ↔ s.AppliesAt name location := by
  unfold usedLocations AppliesAt
  rw [OrderedSet.mem_ofList]
  simp only [List.mem_map, List.mem_filter, List.mem_flatMap, decide_eq_true_eq]
  constructor
  . rintro ⟨⟨_, d⟩, ⟨⟨t, ht, hd⟩, hname⟩, rfl⟩
    exact ⟨t, ht, d, hd, hname⟩
  . rintro ⟨t, ht, d, hd, hname⟩
    exact ⟨(location, d), ⟨⟨t, ht, hd⟩, hname⟩, rfl⟩

end GraphQL.Schema

/--
Whether the supergraph defines a directive for a location: for clients where every subgraph does,
and elsewhere if all subgraphs compose it, and either all declare the location or one applies it
there.
-/
def Qualifies (subgraphs : List Subgraph) (name : Name) (location : DirectiveLocation) : Prop :=
  if location.isExecutable then ∀ s ∈ subgraphs, s.schema.DeclaresAt name location
  else
    ComposedByAll subgraphs name
      ∧ ((∀ s ∈ subgraphs, s.schema.DeclaresAt name location)
        ∨ ∃ s ∈ subgraphs, s.schema.AppliesAt name location)

theorem mergesLocation_iff_qualifies {subgraphs : List Subgraph} {name : Name}
    (hdeclared : ∀ s ∈ subgraphs, (s.schema.userDirective? name).isSome)
    (location : DirectiveLocation)
    : MergesLocation subgraphs name location ↔ Qualifies subgraphs name location := by
  have hall : (∀ s ∈ subgraphs, ∀ u ∈ s.schema.userDirective? name, location ∈ u.locations)
      ↔ ∀ s ∈ subgraphs, s.schema.DeclaresAt name location := by
    apply forall₂_congr
    intro s hs
    obtain ⟨u, hu⟩ := Option.isSome_iff_exists.1 (hdeclared s hs)
    simp [Schema.DeclaresAt, hu]
  unfold MergesLocation Qualifies
  simp only [hall, Schema.mem_usedLocations_iff]
  split
  . next hexecutable => simp [hexecutable]
  . next hnot => grind

structure GraphQL.DirectiveDef.IsShared (d : DirectiveDef) (subgraphs : List Subgraph)
    (name : Name) : Prop where
  nodup_locations : d.locations.Nodup
  mem_locations_iff : ∀ location, location ∈ d.locations ↔ Qualifies subgraphs name location
  nodup_arguments : (d.arguments.map Prod.fst).Nodup
  mem_arguments_iff : ∀ argument, argument ∈ d.arguments.map Prod.fst
    ↔ ∀ s ∈ subgraphs, ∃ u ∈ s.schema.userDirective? name, argument ∈ u.arguments.map Prod.fst
  repeatable_iff : d.repeatable
    ↔ ∀ s ∈ subgraphs, ∃ u ∈ s.schema.userDirective? name, u.repeatable

structure GraphQL.DirectiveDef.Covers (u d : DirectiveDef) : Prop where
  locations : ∀ location ∈ d.locations, location.isExecutable → location ∈ u.locations
  arguments : ∀ argument ∈ d.arguments.map Prod.fst, argument ∈ u.arguments.map Prod.fst
  repeatable : d.repeatable → u.repeatable

theorem GraphQL.DirectiveDef.IsShared.covers {d : DirectiveDef} {subgraphs : List Subgraph}
    {name : Name} (h : d.IsShared subgraphs name) {s : Subgraph} (hs : s ∈ subgraphs)
    {u : DirectiveDef} (hu : s.schema.userDirective? name = some u) : u.Covers d where
  locations location hlocation hexecutable := by
    have hqualifies := (h.mem_locations_iff location).1 hlocation
    unfold Qualifies at hqualifies
    rw [if_pos hexecutable] at hqualifies
    obtain ⟨u', hu', hmem⟩ := hqualifies s hs
    cases hu.symm.trans hu'
    exact hmem
  arguments argument hargument := by
    obtain ⟨u', hu', hmem⟩ := (h.mem_arguments_iff argument).1 hargument s hs
    cases hu.symm.trans hu'
    exact hmem
  repeatable hrepeatable := by
    obtain ⟨u', hu', hmem⟩ := h.repeatable_iff.1 hrepeatable s hs
    cases hu.symm.trans hu'
    exact hmem

namespace Model

section

variable {subgraphs : List Subgraph} {graphs : Identities}
variable (h : Identities.resolve subgraphs = .ok graphs) {name : Name}

include h

theorem isShared_retained {d : RetainedDirective}
    (hd : (ofSubgraphs graphs subgraphs).retained.get? name = some d)
    : (∀ s ∈ subgraphs, (s.schema.userDirective? name).isSome)
        ∧ d.definition.IsShared subgraphs name := by
  have harguments := mem_arguments_retained_iff h hd
  have hrepeatable := repeatable_retained_iff h hd
  obtain ⟨e, he, hsize, -, rfl⟩ := get?_retained_eq_some_iff.1 hd
  rw [graphs_ofSubgraphs] at hsize
  have hdeclared := (size_byGraph_eq_size_graphs_iff h he).1 hsize
  refine ⟨hdeclared, e.mergedLocations.nodup, ?_, ?_, ?_, ?_⟩
  . intro location
    rw [← mergesLocation_iff_qualifies hdeclared, ← mem_mergedLocations_iff h he hsize]
    rfl
  . have hkeys := (sharedInputs e.byGraph.size e.arguments).keys_nodup
    simpa [DirectiveEntry.mergedDef, OrderedMap.keys, Function.comp_def] using hkeys
  . intro argument
    rw [harguments]
    simp only [Schema.directiveArguments_ne_nil_iff]
  . rw [hrepeatable]
    apply forall₂_congr
    intro s hs
    obtain ⟨u, hu⟩ := Option.isSome_iff_exists.1 (hdeclared s hs)
    simp [hu]

theorem isSome_retained_iff {e : DirectiveEntry}
    (he : (ofSubgraphs graphs subgraphs).directives.get? name = some e)
    : ((ofSubgraphs graphs subgraphs).retained.get? name).isSome
        ↔
      (∀ s ∈ subgraphs, (s.schema.userDirective? name).isSome)
        ∧ ∃ location, Qualifies subgraphs name location := by
  constructor
  . intro hsome
    obtain ⟨d, hd⟩ := Option.isSome_iff_exists.1 hsome
    obtain ⟨hdeclared, hshared⟩ := isShared_retained h hd
    obtain ⟨e', -, -, hlocations, rfl⟩ := get?_retained_eq_some_iff.1 hd
    obtain ⟨location, hlocation⟩ := List.exists_mem_of_ne_nil _ (mt List.isEmpty_iff.2 hlocations)
    exact ⟨hdeclared, location, (hshared.mem_locations_iff location).1 hlocation⟩
  . rintro ⟨hdeclared, location, hqualifies⟩
    have hsize := (size_byGraph_eq_size_graphs_iff h he).2 hdeclared
    rw [← mergesLocation_iff_qualifies hdeclared, ← mem_mergedLocations_iff h he hsize]
      at hqualifies
    have hlocations : ¬ e.mergedLocations.isEmpty :=
      mt List.isEmpty_iff.1 (List.ne_nil_of_mem hqualifies)
    exact Option.isSome_of_eq_some (get?_retained_eq_some_iff.2
      ⟨e, he, by rw [graphs_ofSubgraphs, hsize], hlocations, rfl⟩)

end

theorem retained_exact {subgraphs : List Subgraph} {graphs : Identities}
    (h : Identities.resolve subgraphs = .ok graphs) {name : Name} {e : DirectiveEntry}
    (he : (ofSubgraphs graphs subgraphs).directives.get? name = some e)
    : let m := ofSubgraphs graphs subgraphs
      ((m.retained.get? name).isSome
          ↔
        (∀ s ∈ subgraphs, (s.schema.userDirective? name).isSome)
          ∧ ∃ location, Qualifies subgraphs name location)
        ∧ m.toSchema.userDirective? name = (m.retained.get? name).map (·.definition)
        ∧ (∀ d ∈ m.toSchema.userDirective? name,
          d.IsShared subgraphs name
            ∧ ∀ s ∈ subgraphs, ∃ u ∈ s.schema.userDirective? name, u.Covers d)
        ∧ (ComposedByAll subgraphs name →
          (∃ s ∈ subgraphs, ∃ location, s.schema.AppliesAt name location) →
            (m.retained.get? name).isSome) := by
  intro m
  have hretained := isSome_retained_iff h he
  refine ⟨hretained, userDirective?_toSchema name, ?_, ?_⟩
  . intro d hd
    rw [userDirective?_toSchema] at hd
    obtain ⟨retained, hget, rfl⟩ := Option.map_eq_some_iff.1 hd
    obtain ⟨hdeclared, hshared⟩ := isShared_retained h hget
    refine ⟨hshared, ?_⟩
    intro s hs
    obtain ⟨u, hu⟩ := Option.isSome_iff_exists.1 (hdeclared s hs)
    exact ⟨u, hu, hshared.covers hs hu⟩
  . rintro hcomposed ⟨s, hs, location, happlied⟩
    rw [hretained]
    constructor
    . intro s hs
      exact (Schema.isSome_userDirective?_iff _ _).2 ⟨hcomposed.1, (hcomposed.2 s hs).1⟩
    . refine ⟨location, ?_⟩
      have hlocation := Schema.isExecutable_of_mem_usedLocations
        ((Schema.mem_usedLocations_iff _ _ _).2 happlied)
      unfold Qualifies
      rw [if_neg (by simp [hlocation])]
      exact ⟨hcomposed, .inr ⟨s, hs, happlied⟩⟩

def locatedSubgraphs : List Subgraph := [
  .composing "first" .field (.named (.lit "String") false) [.sample "x"],
  .composing "second" .enum (.named (.lit "String") false) []]

theorem retained_exact_located :
    Identities.resolve locatedSubgraphs = .ok sampleGraphs
      ∧ ∃ e, (ofSubgraphs sampleGraphs locatedSubgraphs).directives.get? (.lit "a") = some e
        ∧ ∃ d ∈ (ofSubgraphs sampleGraphs locatedSubgraphs).toSchema.userDirective? (.lit "a"),
          d.locations = [.object]
            ∧ ∀ s ∈ locatedSubgraphs, ∃ u ∈ s.schema.userDirective? (.lit "a"), u.Covers d := by
  have h : Identities.resolve locatedSubgraphs = .ok sampleGraphs := rfl
  have hsome : ((ofSubgraphs sampleGraphs locatedSubgraphs).directives.get? (.lit "a")).isSome := by
    decide +kernel
  have hlocations : ((ofSubgraphs sampleGraphs locatedSubgraphs).toSchema.userDirective?
      (.lit "a")).any (·.locations = [.object]) := by
    decide +kernel
  obtain ⟨e, he⟩ := Option.isSome_iff_exists.1 hsome
  obtain ⟨d, hd, hlocations⟩ := (Option.any_eq_true _ _).1 hlocations
  obtain ⟨-, -, hshared, -⟩ := retained_exact h he
  exact ⟨h, e, he, d, hd, of_decide_eq_true hlocations, (hshared d hd).2⟩

end Model

end Supergraph
