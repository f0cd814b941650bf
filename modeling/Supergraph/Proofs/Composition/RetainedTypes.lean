import Supergraph.Proofs.Composition.Outcome
import Supergraph.Proofs.Model.Retained

/-!
This module contains the promises that arguments of retained directives make to subgraphs. A
directive that all subgraphs compose and none declares for clients is retained with arguments that
no rule has looked at.
-/

namespace Supergraph

open GraphQL

/--
Whether the rule about argument types looks at a directive that is retained: clients can use it in
some subgraph, or not all subgraphs compose it.
-/
def HasCheckedArguments (subgraphs : List Subgraph) (directive : Name) : Prop :=
  (∃ s ∈ subgraphs, ∃ d ∈ s.schema.userDirective? directive, ∃ location ∈ d.locations,
      location.isExecutable)
    ∨ ¬ ComposedByAll subgraphs directive

section

variable {subgraphs : List Subgraph} {graphs : Identities}
variable (h : Identities.resolve subgraphs = .ok graphs)
variable {directive argument : Name} {e : DirectiveEntry} {ie : InputEntry}
variable (he : (Model.ofSubgraphs graphs subgraphs).directives.get? directive = some e)
variable (hsize : e.byGraph.size = graphs.size)

include h he hsize

theorem isExecutable_of_hasCheckedArguments (hlocations : ¬ e.mergedLocations.isEmpty)
    (hchecked : HasCheckedArguments subgraphs directive) : e.isExecutable := by
  cases hchecked with
  | inl husable =>
    rw [Model.get?_directives] at he
    rw [Rule.isExecutable_iff (Model.nodup_sources h) he, Model.map_snd_sources h]
    obtain ⟨s, hs, husable⟩ := husable
    exact ⟨s.schema, List.mem_map.2 ⟨s, hs, rfl⟩, husable⟩
  | inr hcomposed =>
    rw [← Model.isComposed_iff_composedByAll h he hsize] at hcomposed
    exact DirectiveEntry.isExecutable_of_not_isComposed hcomposed hlocations

variable (hie : (argument, ie) ∈ (sharedInputs e.byGraph.size e.arguments).toList)

include hie

theorem directiveArguments_ne_nil_of_shared {s : Subgraph} (hs : s ∈ subgraphs) :
    s.schema.directiveArguments directive argument ≠ [] := by
  have hkey := OrderedMap.mem_keys_of_get? ((OrderedMap.mem_toList_iff _ _ _).1 hie)
  exact (Model.mem_keys_sharedArguments_iff h he hsize argument).1 hkey s hs

theorem sameNullable_of_shared (hexecutable : e.isExecutable)
    (hnone : ∀ v ∈ (Model.ofSubgraphs graphs subgraphs).visits,
      (Rule.argumentTypes.visitor graphs).visit v = [])
    (hsingle : ∀ s ∈ subgraphs, (s.schema.directiveArguments directive argument).length ≤ 1)
    {s : Subgraph} (hs : s ∈ subgraphs) {t : InputValueDef}
    (ht : t ∈ s.schema.directiveArguments directive argument) : t.type.SameNullable ie.type := by
  have hget := (OrderedMap.mem_toList_iff _ _ _).1 hie
  unfold sharedInputs at hget
  rw [OrderedMap.get?_filter, Option.filter_eq_some_iff] at hget
  have hv : .directiveArgument directive e argument ie
      ∈ (Model.ofSubgraphs graphs subgraphs).visits :=
    (Model.mem_visits_iff _ _).2 ⟨he, hget.1⟩
  obtain ⟨keeps, hmerged⟩ := Visit.ofDeclared?_inputEntry hv rfl
  change InputEntry.ofDeclared? (declared keeps _ (·.directiveArguments directive argument))
    = some ie at hmerged
  have hsides : ¬ (Rule.sides? graphs (Rule.inputTypes ie)).isSome := by
    have hvisit := hnone _ hv
    change ((Rule.sides? graphs (if e.isExecutable && e.byGraph.size == graphs.size then
      Rule.inputTypes ie else [])).map _).toList = [] at hvisit
    rw [if_pos (by simp [hexecutable, hsize]), Option.toList_eq_nil_iff,
      Option.map_eq_none_iff] at hvisit
    simp [hvisit]
  have hschemas : ∀ s ∈ (Model.sources graphs subgraphs).map Prod.snd,
      (s.directiveArguments directive argument).length ≤ 1 := by
    rw [Model.map_snd_sources h]
    exact List.forall_mem_map.2 hsingle
  rw [Rule.isSome_inputTypes_iff graphs (Model.nodup_sources h) hmerged hschemas,
    differ_schemaSet_iff] at hsides
  push Not at hsides
  apply TypeRef.SameNullable.symm
  apply (Rule.isElected_input hmerged).sameNullable_of_all hsides
  rw [Model.map_snd_sources h]
  exact List.mem_flatMap.2
    ⟨s.schema, List.mem_map.2 ⟨s, hs, rfl⟩, List.mem_map.2 ⟨t, ht, rfl⟩⟩

end

theorem retained_arguments_sameNullable {subgraphs : List Subgraph} {disabled : List String}
    {c : Composition} (hc : compose subgraphs disabled = .ok c)
    (henabled : Rule.argumentTypes.name ∉ disabled) {directive : Name}
    (huser : Federation.isUserDirective directive) {d : DirectiveDef}
    (hd : c.schema.directiveDefs.get? directive = some d)
    (hchecked : HasCheckedArguments subgraphs directive) {argument : Name} {a : InputValueDef}
    (ha : (argument, a) ∈ d.arguments)
    (hsingle : ∀ s ∈ subgraphs, (s.schema.directiveArguments directive argument).length ≤ 1)
    : ∀ s ∈ subgraphs, ∃ t, s.schema.directiveArguments directive argument = [t]
        ∧ t.type.SameNullable a.type := by
  obtain ⟨graphs, h, hnone, rfl⟩ := (compose_eq_ok_iff subgraphs disabled c).1 hc
  obtain ⟨retained, hretained, rfl⟩ := Model.exists_retained_of_isUserDirective huser hd
  obtain ⟨e, he, hsize, hlocations, rfl⟩ := Model.get?_retained_eq_some_iff.1 hretained
  rw [Model.graphs_ofSubgraphs] at hsize
  obtain ⟨⟨_, ie⟩, hie, heq⟩ := List.mem_map.1 ha
  cases heq
  have hexecutable := isExecutable_of_hasCheckedArguments h he hsize hlocations hchecked
  have hrule : Rule.argumentTypes ∈ Rule.enabled disabled :=
    (Rule.mem_enabled_iff _ _).2 ⟨by simp [Rule.all], henabled⟩
  intro s hs
  have hne := directiveArguments_ne_nil_of_shared h he hsize hie hs
  have hlength : (s.schema.directiveArguments directive argument).length = 1 :=
    Nat.le_antisymm (hsingle s hs) (List.length_pos_iff.2 hne)
  obtain ⟨t, ht⟩ := List.length_eq_one_iff.1 hlength
  refine ⟨t, ht, ?_⟩
  exact sameNullable_of_shared h he hsize hie hexecutable (fun v hv => hnone v hv _ hrule) hsingle
    hs (by rw [ht]; exact List.mem_singleton_self t)

def clientSubgraphs : List Subgraph := [
  .composing "first" .field (.named (.lit "Int") true) [],
  .composing "second" .field (.named (.lit "Int") false) []]

def schemaOnlySubgraphs : List Subgraph := [
  .composing "first" .object (.named (.lit "Int") false) [],
  .composing "second" .object (.named (.lit "String") false) []]

theorem compose_clientSubgraphs :
    compose clientSubgraphs [] = .ok (sampleResult clientSubgraphs) :=
  compose_eq_sampleResult rfl (by decide +kernel)

theorem compose_schemaOnlySubgraphs :
    compose schemaOnlySubgraphs [] = .ok (sampleResult schemaOnlySubgraphs) :=
  compose_eq_sampleResult rfl (by decide +kernel)

theorem exists_argument_of_any {o : Option DirectiveDef} {argument : Name} {type : TypeRef}
    (h : o.any fun d => d.arguments.any fun a => a.1 = argument && a.2.type = type)
    : ∃ d, o = some d ∧ ∃ a, (argument, a) ∈ d.arguments ∧ a.type = type := by
  rw [Option.any_eq_true] at h
  obtain ⟨d, hd, hany⟩ := h
  obtain ⟨⟨name, a⟩, ha, heq⟩ := List.any_eq_true.1 hany
  rw [Bool.and_eq_true, decide_eq_true_eq, decide_eq_true_eq] at heq
  obtain ⟨rfl, htype⟩ := heq
  exact ⟨d, hd, a, ha, htype⟩

theorem retained_arguments_sameNullable_client :
    ∃ d a, (sampleResult clientSubgraphs).schema.directiveDefs.get? (.lit "a") = some d
      ∧ (.lit "n", a) ∈ d.arguments
      ∧ ∀ s ∈ clientSubgraphs, ∃ t, s.schema.directiveArguments (.lit "a") (.lit "n") = [t]
        ∧ t.type.SameNullable a.type := by
  have hany : ((sampleResult clientSubgraphs).schema.directiveDefs.get? (.lit "a")).any fun d =>
      d.arguments.any fun a => a.1 = .lit "n" && a.2.type = .named (.lit "Int") true := by
    decide +kernel
  obtain ⟨d, hd, a, ha, -⟩ := exists_argument_of_any hany
  refine ⟨d, a, hd, ha, ?_⟩
  exact retained_arguments_sameNullable compose_clientSubgraphs (by decide) (by decide) hd
    (.inl (by decide)) ha (by decide)

theorem exists_retained_argument_not_sameNullable :
    compose schemaOnlySubgraphs [] = .ok (sampleResult schemaOnlySubgraphs)
      ∧ Federation.isUserDirective (.lit "a")
      ∧ (∀ s ∈ schemaOnlySubgraphs,
        (s.schema.directiveArguments (.lit "a") (.lit "n")).length ≤ 1)
      ∧ ∃ d a, (sampleResult schemaOnlySubgraphs).schema.directiveDefs.get? (.lit "a") = some d
        ∧ (.lit "n", a) ∈ d.arguments
        ∧ ∃ s ∈ schemaOnlySubgraphs, ∃ t ∈ s.schema.directiveArguments (.lit "a") (.lit "n"),
          ¬ t.type.SameNullable a.type := by
  refine ⟨compose_schemaOnlySubgraphs, by decide, by decide, ?_⟩
  have hany : ((sampleResult schemaOnlySubgraphs).schema.directiveDefs.get? (.lit "a")).any
      fun d => d.arguments.any fun a => a.1 = .lit "n" && a.2.type = .named (.lit "Int") false := by
    decide +kernel
  obtain ⟨d, hd, a, ha, htype⟩ := exists_argument_of_any hany
  refine ⟨d, a, hd, ha, schemaOnlySubgraphs[1], by simp [schemaOnlySubgraphs], ?_⟩
  rw [htype]
  decide

end Supergraph
