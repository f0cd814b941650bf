import Mathlib.Data.Finset.Card
import Supergraph.Proofs.Composition.Copies

/-!
This module contains the uses that copied applications make of the definition of their directive. An
application is copied as it stands, while the definition has only what all subgraphs declare.
-/

namespace Supergraph

open GraphQL

theorem OrderedSet.size_le_one_iff {α : Type} (s : OrderedSet α) :
    s.size ≤ 1 ↔ ∀ a ∈ s, ∀ b ∈ s, a = b := by
  have hnodup := Multiset.coe_nodup.2 s.nodup
  exact Finset.card_le_one (s := Finset.mk _ hnodup)

theorem Join.not_isJoin_of_isUserDirective {name : Name} (h : Federation.isUserDirective name) :
    ¬ IsJoin name := by
  intro hjoin
  have hnamespaced : Federation.isNamespaced name := by
    unfold Federation.isNamespaced
    rw [List.any_eq_true]
    exact ⟨"join__", by simp [Federation.namespaces], hjoin⟩
  unfold Federation.isUserDirective at h
  rw [hnamespaced] at h
  simp at h

namespace GraphQL

def TypeDef.applied (t : TypeDef) : List (List Directive) :=
  t.directives :: match t.body with
    | .object body | .interface body =>
      body.fields.values.flatMap fun d => d.directives :: d.arguments.map (·.2.directives)
    | .enum values => values.values.map (·.directives)
    | .inputObject fields => fields.values.map (·.directives)
    | .union _ | .scalar => []

theorem TypeDef.mem_applied_of_appliedAt {t : TypeDef} {slot : Slot} {place : Coordinate}
    {ds : List Directive} (hds : ds ∈ t.appliedAt slot place) : ds ∈ t.applied := by
  have hargument : ∀ (d : FieldDef) (argument : Name), ∀ a ∈ named argument d.arguments,
      a.directives ∈ d.arguments.map (·.2.directives) := by
    intro d argument a ha
    obtain ⟨entry, hentry, rfl⟩ := List.mem_map.1 ha
    exact List.mem_map.2 ⟨entry, (List.mem_filter.1 hentry).1, rfl⟩
  obtain ⟨description, directives, body⟩ := t
  unfold appliedAt at hds
  unfold applied
  split at hds
  case h_13 => cases hds
  all_goals
    rename TypeDef.body _ = _ => hbody
    cases hbody
    rw [List.mem_cons]
  case h_1 | h_4 | h_7 | h_9 | h_11 | h_12 => exact .inl (List.mem_singleton.1 hds)
  case h_2 | h_5 =>
    obtain ⟨d, hd, rfl⟩ := List.mem_map.1 hds
    exact .inr (mem_flatMap_values hd List.mem_cons_self)
  case h_3 | h_6 =>
    obtain ⟨a, ha, rfl⟩ := List.mem_map.1 hds
    obtain ⟨d, hd, ha⟩ := List.mem_flatMap.1 ha
    exact .inr (mem_flatMap_values hd (List.mem_cons_of_mem _ (hargument d _ a ha)))
  case h_8 | h_10 =>
    obtain ⟨d, hd, rfl⟩ := List.mem_map.1 hds
    have hvalue := (OrderedMap.mem_values_iff _ d).2 ⟨_, Option.mem_toList.1 hd⟩
    exact .inr (List.mem_map.2 ⟨d, hvalue, rfl⟩)

namespace Schema

def AppliesDeclaredArguments (s : Schema) : Prop :=
  ∀ slot place, ∀ ds ∈ s.appliedAt slot place, ∀ d ∈ ds,
    ∀ definition ∈ s.userDirective? d.name, ∀ a ∈ d.arguments,
      a.1 ∈ definition.arguments.map Prod.fst

def RepeatsRepeatable (s : Schema) : Prop :=
  ∀ slot place, ∀ ds ∈ s.appliedAt slot place, ∀ d ∈ ds,
    ∀ definition ∈ s.userDirective? d.name, ¬ definition.repeatable →
      (ds.filter (·.name = d.name)).length ≤ 1

theorem forall_appliedAt_of_applied {s : Schema} {p : List Directive → Prop}
    (h : ∀ t ∈ s.userTypes, ∀ ds ∈ t.2.applied, p ds)
    : ∀ slot place, ∀ ds ∈ s.appliedAt slot place, p ds := by
  intro slot place ds hds
  obtain ⟨t, ht, hds⟩ := exists_userType_of_appliedAt hds
  exact h t ht ds (TypeDef.mem_applied_of_appliedAt hds)

theorem AppliesDeclaredArguments.directiveArguments_ne_nil {s : Schema}
    (hs : s.AppliesDeclaredArguments) {slot : Slot} {place : Coordinate} {d : Directive}
    (hd : d ∈ s.recordedAt slot place) {a : Name × Value} (ha : a ∈ d.arguments)
    : s.directiveArguments d.name a.1 ≠ [] := by
  obtain ⟨hkeeps, ds, hds, hd⟩ := exists_appliedAt_of_recordedAt hd
  have hdefined : (s.userDirective? d.name).isSome :=
    (isSome_userDirective?_iff s d.name).2 (Bool.and_eq_true_iff.1 hkeeps)
  obtain ⟨definition, hdefinition⟩ := Option.isSome_iff_exists.1 hdefined
  rw [directiveArguments_ne_nil_iff]
  exact ⟨definition, hdefinition, hs slot place ds hds d hd definition hdefinition a ha⟩

end Schema

end GraphQL

def AppliedAlike (name : Name) (ds : List Directive) : Prop :=
  ∀ d ∈ ds, ∀ d' ∈ ds, d.name = name → d'.name = name → d = d'

namespace CopiesComposed

variable {schema : Schema} {subgraphs : List Subgraph} {location : DirectiveLocation}
variable {recorded carried : List Directive}
variable (h : CopiesComposed schema subgraphs location recorded carried)
variable {name : Name} (hname : Federation.isUserDirective name)

include h hname

theorem filter_name_carried :
    carried.filter (·.name = name)
      =
    ((OrderedSet.ofList (recorded.filter fun d => ComposedByAll subgraphs d.name)).filter
      (·.name = name)).toList := by
  obtain ⟨joins, hjoins, hcarried⟩ := h.carried_eq
  -- Statements about subgraphs have names that no author's directive has.
  have hnone : joins.filter (·.name = name) = [] := by
    rw [List.filter_eq_nil_iff]
    intro d hd heq
    rw [decide_eq_true_eq] at heq
    apply Join.not_isJoin_of_isUserDirective hname
    rw [← heq]
    exact hjoins d hd
  rw [hcarried, List.filter_append, hnone, List.append_nil]
  rfl

theorem length_filter_name_le_one_iff :
    (carried.filter (·.name = name)).length ≤ 1
      ↔
    (ComposedByAll subgraphs name → AppliedAlike name recorded) := by
  rw [h.filter_name_carried hname]
  refine (OrderedSet.size_le_one_iff _).trans ?_
  simp only [OrderedSet.mem_filter, OrderedSet.mem_ofList, List.mem_filter, decide_eq_true_eq]
  constructor
  . intro heq hcomposed d hd d' hd' hdname hdname'
    refine heq d ⟨⟨hd, ?_⟩, hdname⟩ d' ⟨⟨hd', ?_⟩, hdname'⟩
    . rwa [hdname]
    . rwa [hdname']
  . rintro heq d ⟨⟨hd, hcomposed⟩, hdname⟩ d' ⟨⟨hd', -⟩, hdname'⟩
    rw [hdname] at hcomposed
    exact heq hcomposed d hd d' hd' hdname hdname'

end CopiesComposed

section

variable {subgraphs : List Subgraph} {disabled : List String} {c : Composition}
variable (hc : compose subgraphs disabled = .ok c)

include hc

theorem exists_copiesComposed {type : Name} (huser : Federation.isUserType type) {t : TypeDef}
    (ht : c.schema.types.get? type = some t) {slot : Slot} {place : Coordinate}
    (hplace : place.type? = some type) {carried : List Directive}
    (hcarried : carried ∈ t.appliedAt slot place)
    : ∃ location, CopiesComposed c.schema subgraphs location
        (subgraphs.flatMap (·.schema.recordedAt slot place)) carried := by
  obtain ⟨location, hlocation⟩ := TypeDef.exists_location_of_appliedAt hcarried
  obtain ⟨graphs, h, -, rfl⟩ := (compose_eq_ok_iff subgraphs disabled c).1 hc
  obtain ⟨kind, ht⟩ := Model.exists_emitType?_of_toSchema huser ht
  obtain ⟨v, hv, rfl, rfl, rfl⟩ := Model.exists_visit_of_emitType? ht hplace hcarried
  exact ⟨location, v.copiesComposed h hv hlocation⟩

theorem exists_retained_of_compose {name : Name} (hname : Federation.isUserDirective name)
    {definition : DirectiveDef} (hdefinition : c.schema.directiveDefs.get? name = some definition)
    : ∃ graphs, Identities.resolve subgraphs = .ok graphs
        ∧ ∃ d, (Model.ofSubgraphs graphs subgraphs).retained.get? name = some d
          ∧ d.definition = definition := by
  obtain ⟨graphs, h, -, rfl⟩ := (compose_eq_ok_iff subgraphs disabled c).1 hc
  exact ⟨graphs, h, Model.exists_retained_of_isUserDirective hname hdefinition⟩

theorem copied_arguments_declared_iff
    (hdeclared : ∀ s ∈ subgraphs, s.schema.AppliesDeclaredArguments) {type : Name}
    (huser : Federation.isUserType type) {t : TypeDef} (ht : c.schema.types.get? type = some t)
    {slot : Slot} {place : Coordinate} (hplace : place.type? = some type)
    {carried : List Directive} (hcarried : carried ∈ t.appliedAt slot place) {d : Directive}
    (hd : d ∈ carried) (hcopied : ¬ Join.IsJoin d.name)
    : ∃ definition, c.schema.directiveDefs.get? d.name = some definition
        ∧ ∀ a ∈ d.arguments, (∃ s ∈ subgraphs, s.schema.directiveArguments d.name a.1 ≠ [])
          ∧ (a.1 ∈ definition.arguments.map Prod.fst
              ↔
            ∀ s ∈ subgraphs, s.schema.directiveArguments d.name a.1 ≠ []) := by
  obtain ⟨location, hcopies⟩ := exists_copiesComposed hc huser ht hplace hcarried
  obtain ⟨hrecorded, hcomposed⟩ := (hcopies.only d hd).resolve_left hcopied
  obtain ⟨definition, hdefinition, -⟩ := hcopies.defined d hrecorded hcomposed
  obtain ⟨graphs, h, retained, hretained, rfl⟩ :=
    exists_retained_of_compose hc hcomposed.1 hdefinition
  refine ⟨_, hdefinition, ?_⟩
  intro a ha
  constructor
  -- The subgraph that the copy comes from declares the argument itself.
  . obtain ⟨s, hs, hd⟩ := List.mem_flatMap.1 hrecorded
    exact ⟨s, hs, (hdeclared s hs).directiveArguments_ne_nil hd ha⟩
  . exact Model.mem_arguments_retained_iff h hretained a.1

end

theorem GraphQL.TypeDef.directives_mem_appliedAt {t : TypeDef} (h : t.kind = .object)
    (type : Name) : t.directives ∈ t.appliedAt .objectType (.type type) := by
  obtain ⟨description, directives, body⟩ := t
  cases body <;> cases h
  exact List.mem_singleton_self _

theorem exists_query_of_any {o : Option TypeDef} {ds : List Directive}
    (h : o.any fun t => t.kind = .object && t.directives.filter (·.name = .lit "a") = ds)
    : ∃ t, o = some t ∧ t.directives ∈ t.appliedAt .objectType (.type (.lit "Query"))
        ∧ t.directives.filter (·.name = .lit "a") = ds := by
  obtain ⟨t, ht, hany⟩ := (Option.any_eq_true _ _).1 h
  rw [Bool.and_eq_true, decide_eq_true_eq, decide_eq_true_eq] at hany
  exact ⟨t, ht, TypeDef.directives_mem_appliedAt hany.1 _, hany.2⟩

def Subgraph.withoutArguments (s : Subgraph) : Subgraph :=
  { s with
    schema := { s.schema with
      directiveDefs := s.schema.directiveDefs.map fun _ d => { d with arguments := [] } } }

def differingSubgraphs : List Subgraph := [
  .composing "first" .object (.named (.lit "String") false) [.sample "x"],
  .composing "second" .object (.named (.lit "String") false) [.sample "y"]]

def undeclaringSubgraphs : List Subgraph := [
  .composing "first" .object (.named (.lit "String") false) [.sample "x"],
  (Subgraph.composing "second" .object (.named (.lit "String") false) []).withoutArguments]

theorem compose_differingSubgraphs :
    compose differingSubgraphs [] = .ok (sampleResult differingSubgraphs) :=
  compose_eq_sampleResult rfl (by decide +kernel)

theorem compose_undeclaringSubgraphs :
    compose undeclaringSubgraphs [] = .ok (sampleResult undeclaringSubgraphs) :=
  compose_eq_sampleResult rfl (by decide +kernel)

theorem exists_query_differingSubgraphs :
    ∃ t, (sampleResult differingSubgraphs).schema.types.get? (.lit "Query") = some t
      ∧ t.directives ∈ t.appliedAt .objectType (.type (.lit "Query"))
      ∧ t.directives.filter (·.name = .lit "a") = [.sample "x", .sample "y"] :=
  exists_query_of_any (by decide +kernel)

theorem appliesDeclaredArguments_differingSubgraphs :
    ∀ s ∈ differingSubgraphs, s.schema.AppliesDeclaredArguments := by
  intro s hs
  apply Schema.forall_appliedAt_of_applied
  revert s
  decide

theorem appliesDeclaredArguments_undeclaringSubgraphs :
    ∀ s ∈ undeclaringSubgraphs, s.schema.AppliesDeclaredArguments := by
  intro s hs
  apply Schema.forall_appliedAt_of_applied
  revert s
  decide

theorem copied_arguments_declared_differing :
    ∃ definition, (sampleResult differingSubgraphs).schema.directiveDefs.get? (.lit "a")
        = some definition
      ∧ ∀ a ∈ (Directive.sample "x").arguments,
        (∃ s ∈ differingSubgraphs, s.schema.directiveArguments (.lit "a") a.1 ≠ [])
          ∧ (a.1 ∈ definition.arguments.map Prod.fst
              ↔
            ∀ s ∈ differingSubgraphs, s.schema.directiveArguments (.lit "a") a.1 ≠ []) := by
  obtain ⟨t, ht, hcarried, hfilter⟩ := exists_query_differingSubgraphs
  have hmem : .sample "x" ∈ t.directives.filter (·.name = .lit "a") := by
    rw [hfilter]
    exact List.mem_cons_self
  exact copied_arguments_declared_iff compose_differingSubgraphs
    appliesDeclaredArguments_differingSubgraphs (by decide) ht rfl hcarried
    (List.mem_filter.1 hmem).1 (by decide)

theorem exists_copied_argument_not_declared :
    compose undeclaringSubgraphs [] = .ok (sampleResult undeclaringSubgraphs)
      ∧ (∀ s ∈ undeclaringSubgraphs, s.schema.AppliesDeclaredArguments)
      ∧ ∃ t, (sampleResult undeclaringSubgraphs).schema.types.get? (.lit "Query") = some t
        ∧ .sample "x" ∈ t.directives
        ∧ ∃ definition,
          (sampleResult undeclaringSubgraphs).schema.directiveDefs.get? (.lit "a")
            = some definition
          ∧ ∃ a ∈ (Directive.sample "x").arguments,
            a.1 ∉ definition.arguments.map Prod.fst := by
  have hquery : ((sampleResult undeclaringSubgraphs).schema.types.get? (.lit "Query")).any fun t =>
      t.kind = .object && t.directives.filter (·.name = .lit "a") = [.sample "x"] := by
    decide +kernel
  have hdefinition : ((sampleResult undeclaringSubgraphs).schema.directiveDefs.get?
      (.lit "a")).any fun d => d.arguments.map Prod.fst = [] := by
    decide +kernel
  obtain ⟨t, ht, -, hfilter⟩ := exists_query_of_any hquery
  obtain ⟨definition, hget, hnone⟩ := (Option.any_eq_true _ _).1 hdefinition
  rw [decide_eq_true_eq] at hnone
  have hmem : .sample "x" ∈ t.directives.filter (·.name = .lit "a") := by
    rw [hfilter]
    exact List.mem_cons_self
  refine ⟨compose_undeclaringSubgraphs, appliesDeclaredArguments_undeclaringSubgraphs, t, ht,
    (List.mem_filter.1 hmem).1, definition, hget, _, List.mem_cons_self, ?_⟩
  rw [hnone]
  exact List.not_mem_nil

theorem carried_at_most_once_iff {subgraphs : List Subgraph} {disabled : List String}
    {c : Composition} (hc : compose subgraphs disabled = .ok c) {name : Name}
    (hname : Federation.isUserDirective name) {definition : DirectiveDef}
    (hdefinition : c.schema.directiveDefs.get? name = some definition) {type : Name}
    (huser : Federation.isUserType type) {t : TypeDef} (ht : c.schema.types.get? type = some t)
    {slot : Slot} {place : Coordinate} (hplace : place.type? = some type)
    {carried : List Directive} (hcarried : carried ∈ t.appliedAt slot place)
    : (definition.repeatable
          ↔
        ∀ s ∈ subgraphs, ∀ d ∈ s.schema.userDirective? name, d.repeatable)
      ∧ ((carried.filter (·.name = name)).length ≤ 1
          ↔
        (ComposedByAll subgraphs name →
          AppliedAlike name (subgraphs.flatMap (·.schema.recordedAt slot place)))) := by
  obtain ⟨location, hcopies⟩ := exists_copiesComposed hc huser ht hplace hcarried
  obtain ⟨graphs, h, retained, hretained, rfl⟩ := exists_retained_of_compose hc hname hdefinition
  constructor
  . exact Model.repeatable_retained_iff h hretained
  . exact hcopies.length_filter_name_le_one_iff hname

theorem carried_at_most_once_differing :
    ∃ definition t, (sampleResult differingSubgraphs).schema.directiveDefs.get? (.lit "a")
        = some definition
      ∧ (sampleResult differingSubgraphs).schema.types.get? (.lit "Query") = some t
      ∧ (definition.repeatable
          ↔
        ∀ s ∈ differingSubgraphs, ∀ d ∈ s.schema.userDirective? (.lit "a"), d.repeatable)
      ∧ ((t.directives.filter (·.name = .lit "a")).length ≤ 1
          ↔
        (ComposedByAll differingSubgraphs (.lit "a") → AppliedAlike (.lit "a")
          (differingSubgraphs.flatMap
            (·.schema.recordedAt .objectType (.type (.lit "Query")))))) := by
  obtain ⟨t, ht, hcarried, -⟩ := exists_query_differingSubgraphs
  have hdefined : ((sampleResult differingSubgraphs).schema.directiveDefs.get?
      (.lit "a")).isSome := by
    decide +kernel
  obtain ⟨definition, hdefinition⟩ := Option.isSome_iff_exists.1 hdefined
  exact ⟨definition, t, hdefinition, ht, carried_at_most_once_iff compose_differingSubgraphs
    (by decide) hdefinition (by decide) ht rfl hcarried⟩

theorem exists_carried_twice_not_repeatable :
    compose differingSubgraphs [] = .ok (sampleResult differingSubgraphs)
      ∧ (∀ s ∈ differingSubgraphs, s.schema.RepeatsRepeatable)
      ∧ ∃ t, (sampleResult differingSubgraphs).schema.types.get? (.lit "Query") = some t
        ∧ t.directives ∈ t.appliedAt .objectType (.type (.lit "Query"))
        ∧ ∃ definition,
          (sampleResult differingSubgraphs).schema.directiveDefs.get? (.lit "a") = some definition
          ∧ ¬ definition.repeatable
          ∧ (t.directives.filter (·.name = .lit "a")).length = 2 := by
  have hrepeats : ∀ s ∈ differingSubgraphs, s.schema.RepeatsRepeatable := by
    intro s hs
    apply Schema.forall_appliedAt_of_applied
    revert s
    decide
  have hdefinition : ((sampleResult differingSubgraphs).schema.directiveDefs.get?
      (.lit "a")).any fun d => ¬ d.repeatable := by
    decide +kernel
  obtain ⟨definition, hget, hrepeatable⟩ := (Option.any_eq_true _ _).1 hdefinition
  obtain ⟨t, ht, hcarried, hfilter⟩ := exists_query_differingSubgraphs
  refine ⟨compose_differingSubgraphs, hrepeats, t, ht, hcarried, definition, hget,
    of_decide_eq_true hrepeatable, ?_⟩
  rw [hfilter]
  rfl

end Supergraph
