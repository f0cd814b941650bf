import Supergraph.Proofs.Composition.Order

/-!
This module contains the effect of disabling rules on a run: it drops the errors with their codes
from the report and moves no other.
-/

namespace Supergraph

open GraphQL

def ErrorCode.rule? : ErrorCode → Option Rule
  | .typeKindMismatch => some .typeKinds
  | .fieldTypeMismatch => some .fieldTypes
  | .fieldArgumentTypeMismatch => some .argumentTypes
  | .requiredArgumentMissingInSomeSubgraph => some .requiredArguments
  | .fieldArgumentDefaultMismatch => some .argumentDefaults
  | .requiredInputFieldMissingInSomeSubgraph => some .inputFields
  | .emptyMergedInputType => some .inputFields
  | .duplicateSubgraphName => none
  | .invalidSubgraphName => none
  | .invalidGraphQL => none

def CompositionError.isDropped (disabled disabled' : List String) (e : CompositionError) : Bool :=
  e.code.rule?.any fun r => r.name ∉ disabled && r.name ∈ disabled'

namespace Rule

theorem rule?_code_of_mem_visit {r : Rule} (hr : r ∈ all) {graphs : Identities} {v : Visit}
    {c : Conflict} (hc : c ∈ (r.visitor graphs).visit v) : c.code.rule? = some r := by
  have hmap : ∀ {α : Type} {o : Option α} {f : α → Conflict}, c ∈ (o.map f).toList →
      ∃ a, f a = c := by
    intro α o f h
    obtain ⟨a, -, ha⟩ := Option.map_eq_some_iff.1 (Option.mem_toList.1 h)
    exact ⟨a, ha⟩
  unfold Visitor.visit at hc
  split at hc
  . simp only [all, List.mem_cons, List.not_mem_nil, or_false] at hr
    obtain rfl | rfl | rfl | rfl | rfl | rfl := hr
    . dsimp only [typeKinds] at hc
      split at hc
      . obtain ⟨_, rfl⟩ := hmap hc
        rfl
      . cases hc
    . obtain ⟨_, rfl⟩ := hmap hc
      rfl
    . obtain ⟨_, rfl⟩ := hmap hc
      rfl
    . obtain ⟨_, rfl⟩ := hmap hc
      rfl
    . dsimp only [argumentDefaults] at hc
      split at hc
      . obtain ⟨_, rfl⟩ := hmap hc
        rfl
      . cases hc
    . dsimp only [inputFields] at hc
      split at hc
      . split at hc
        . cases List.mem_singleton.1 hc
          rfl
        . cases hc
      . obtain ⟨_, rfl⟩ := hmap hc
        rfl
      . cases hc
  . cases hc

theorem flatMap_visit_filter (graphs : Identities) (v : Visit) (p : Rule → Bool)
    {rules : List Rule} (hrules : ∀ r ∈ rules, r ∈ all)
    : (rules.filter p).flatMap (fun r => (r.visitor graphs).visit v)
        =
      (rules.flatMap fun r => (r.visitor graphs).visit v).filter fun c => c.code.rule?.any p := by
  induction rules with
  | nil => rfl
  | cons r rest ih =>
    have hcode : ∀ c ∈ (r.visitor graphs).visit v, c.code.rule?.any p = p r := by
      intro c hc
      rw [rule?_code_of_mem_visit (hrules r List.mem_cons_self) hc]
      rfl
    rw [List.flatMap_cons, List.filter_append,
      ← ih fun r' hr' => hrules r' (List.mem_cons_of_mem r hr')]
    by_cases hp : p r
    . have hall : ((r.visitor graphs).visit v).filter (fun c => c.code.rule?.any p)
          = (r.visitor graphs).visit v := by
        rw [List.filter_eq_self]
        intro c hc
        rw [hcode c hc, hp]
      rw [List.filter_cons_of_pos hp, List.flatMap_cons, hall]
    . have hnone : ((r.visitor graphs).visit v).filter (fun c => c.code.rule?.any p) = [] := by
        rw [List.filter_eq_nil_iff]
        intro c hc
        rwa [hcode c hc]
      rw [List.filter_cons_of_neg hp, hnone, List.nil_append]

theorem enabled_of_subset {disabled disabled' : List String}
    (hsub : ∀ r ∈ all, r.name ∈ disabled → r.name ∈ disabled')
    : enabled disabled' = (enabled disabled).filter (·.name ∉ disabled') := by
  unfold enabled
  rw [List.filter_filter]
  apply List.filter_congr
  intro r hr
  have := hsub r hr
  grind

end Rule

namespace Model

theorem conflicts_filter (m : Model) (p : Rule → Bool) {rules : List Rule}
    (hrules : ∀ r ∈ rules, r ∈ Rule.all)
    : m.conflicts (rules.filter p) = (m.conflicts rules).filter fun c => c.code.rule?.any p := by
  unfold conflicts walk
  rw [List.filter_flatMap]
  apply List.flatMap_congr
  intro v _
  rw [List.flatMap_map, List.flatMap_map]
  exact Rule.flatMap_visit_filter m.graphs v p hrules

theorem exists_rule_of_mem_conflicts {m : Model} {rules : List Rule}
    (hrules : ∀ r ∈ rules, r ∈ Rule.all) {c : Conflict} (hc : c ∈ m.conflicts rules)
    : ∃ r ∈ rules, c.code.rule? = some r := by
  unfold conflicts walk at hc
  obtain ⟨v, -, hc⟩ := List.mem_flatMap.1 hc
  obtain ⟨_, hvisitor, hc⟩ := List.mem_flatMap.1 hc
  obtain ⟨r, hr, rfl⟩ := List.mem_map.1 hvisitor
  exact ⟨r, hr, Rule.rule?_code_of_mem_visit (hrules r hr) hc⟩

theorem map_conflicts_of_subset (m : Model) {disabled disabled' : List String}
    (hsub : ∀ r ∈ Rule.all, r.name ∈ disabled → r.name ∈ disabled')
    : (m.conflicts (Rule.enabled disabled')).map CompositionError.conflict
        =
      ((m.conflicts (Rule.enabled disabled)).map CompositionError.conflict).filter
        (!·.isDropped disabled disabled') := by
  have henabled : ∀ r ∈ Rule.enabled disabled, r ∈ Rule.all := by
    intro r hr
    exact ((Rule.mem_enabled_iff _ _).1 hr).1
  rw [Rule.enabled_of_subset hsub, conflicts_filter m _ henabled, List.filter_map]
  apply congrArg
  apply List.filter_congr
  intro c hc
  obtain ⟨r, hr, hrule⟩ := exists_rule_of_mem_conflicts henabled hc
  have hname := ((Rule.mem_enabled_iff _ _).1 hr).2
  simp [CompositionError.isDropped, CompositionError.code, hrule, hname]

end Model

def GraphQL.TypeBody.ofField (field : FieldDef) : TypeBody :=
  .object { interfaces := ∅, fields := .ofList [(.lit "a", field)] }

def GraphQL.TypeBody.ofInput (name : Name) (nonNull : Bool) : TypeBody :=
  .inputObject (.ofList [(name, { type := .named (.lit "Int") nonNull })])

def conflictingSubgraphs : List Subgraph := [
  { name := "first"
    schema := {
      directiveDefs := ∅
      types := .ofList [
        (.lit "Query", { body := .ofField {
          arguments := [
            (.lit "x", { type := .named (.lit "Int") true }),
            (.lit "y", { type := .named (.lit "Int") false, defaultValue := some (.boolean true) }),
            (.lit "z", { type := .named (.lit "Int") false })]
          type := .named (.lit "Int") false } }),
        (.lit "Node", { body := .scalar }),
        (.lit "Filter", { body := .ofInput (.lit "name") true })] } },
  { name := "second"
    schema := {
      directiveDefs := ∅
      types := .ofList [
        (.lit "Query", { body := .ofField {
          arguments := [
            (.lit "y", { type := .named (.lit "Int") false, defaultValue := some (.boolean false) }),
            (.lit "z", { type := .named (.lit "String") false })]
          type := .named (.lit "String") false } }),
        (.lit "Node", { body := .union ∅ }),
        (.lit "Filter", { body := .ofInput (.lit "age") false })] } }]

def Rule.CanReport (r : Rule) (code : ErrorCode) : Prop :=
  ∃ subgraphs graphs, Identities.resolve subgraphs = .ok graphs
    ∧ ∃ c ∈ (Model.ofSubgraphs graphs subgraphs).conflicts [r], c.code = code

theorem Rule.canReport_iff {r : Rule} (hr : r ∈ all) (code : ErrorCode) :
    r.CanReport code ↔ code.rule? = some r := by
  constructor
  -- The code of a conflict tells which rule it is from.
  . rintro ⟨subgraphs, graphs, -, c, hc, rfl⟩
    have hrules : ∀ r' ∈ [r], r' ∈ all := by simpa using hr
    obtain ⟨r', hr', hrule⟩ := Model.exists_rule_of_mem_conflicts hrules hc
    rwa [List.mem_singleton.1 hr'] at hrule
  . intro hrule
    refine ⟨conflictingSubgraphs, sampleGraphs, rfl, ?_⟩
    cases code <;> cases hrule <;> decide +kernel

theorem compose_disabled {disabled disabled' : List String}
    (hsub : ∀ r ∈ Rule.all, r.name ∈ disabled → r.name ∈ disabled') (subgraphs : List Subgraph)
    : (∀ e, Identities.resolve subgraphs = .error e →
          compose subgraphs disabled = .error [e] ∧ compose subgraphs disabled' = .error [e])
        ∧ (∀ graphs, Identities.resolve subgraphs = .ok graphs →
          ∀ errors, compose subgraphs disabled = .error errors →
            compose subgraphs disabled'
              =
            if (errors.filter (!·.isDropped disabled disabled')).isEmpty then
              .ok { schema := (Model.ofSubgraphs graphs subgraphs).toSchema, graphs }
            else
              .error (errors.filter (!·.isDropped disabled disabled')))
        ∧ (∀ c, compose subgraphs disabled = .ok c → compose subgraphs disabled' = .ok c)
        ∧ ((∀ r ∈ Rule.all, r.name ∈ disabled' → r.name ∈ disabled) →
          compose subgraphs disabled' = compose subgraphs disabled)
        ∧ ∀ r ∈ Rule.all, ∀ code, r.CanReport code ↔ code.rule? = some r := by
  refine ⟨?_, ?_, ?_, ?_, fun r hr => Rule.canReport_iff hr⟩
  . intro e he
    unfold compose
    rw [he]
    exact ⟨rfl, rfl⟩
  . intro graphs h errors herrors
    rw [compose_of_resolve h] at herrors ⊢
    split at herrors
    . cases herrors
    . cases herrors
      rw [← Model.map_conflicts_of_subset _ hsub, List.isEmpty_map]
  . intro c hc
    obtain ⟨graphs, h, hnone, rfl⟩ := (compose_eq_ok_iff _ _ _).1 hc
    refine (compose_eq_ok_iff _ _ _).2 ⟨graphs, h, ?_, rfl⟩
    intro v hv r hr
    rw [Rule.enabled_of_subset hsub] at hr
    exact hnone v hv r (List.mem_filter.1 hr).1
  -- Only the names of rules matter, and both lists have the same ones.
  . intro hsup
    have henabled : Rule.enabled disabled' = Rule.enabled disabled := by
      apply List.filter_congr
      intro r hr
      rw [decide_eq_decide]
      exact not_congr ⟨hsup r hr, hsub r hr⟩
    unfold compose
    rw [henabled]

theorem compose_disabled_conflicting :
    (∀ r ∈ Rule.all, r.name ∈ ["InputObjectFieldsRule"]
        → r.name ∈ ["NoRule", "FieldsOfTheSameTypeRule", "InputObjectFieldsRule"])
      ∧ ∃ errors errors',
        compose conflictingSubgraphs ["InputObjectFieldsRule"] = .error errors
          ∧ errors.map CompositionError.code = [.typeKindMismatch, .fieldTypeMismatch,
            .requiredArgumentMissingInSomeSubgraph, .fieldArgumentDefaultMismatch,
            .fieldArgumentTypeMismatch]
          ∧ compose conflictingSubgraphs
              ["NoRule", "FieldsOfTheSameTypeRule", "InputObjectFieldsRule"] = .error errors'
          ∧ errors'.map CompositionError.code = [.typeKindMismatch,
            .requiredArgumentMissingInSomeSubgraph, .fieldArgumentDefaultMismatch,
            .fieldArgumentTypeMismatch] := by
  have hsub : ∀ r ∈ Rule.all, r.name ∈ ["InputObjectFieldsRule"]
      → r.name ∈ ["NoRule", "FieldsOfTheSameTypeRule", "InputObjectFieldsRule"] := by
    decide
  have h : Identities.resolve conflictingSubgraphs = .ok sampleGraphs := rfl
  have herrors : compose conflictingSubgraphs ["InputObjectFieldsRule"] = .error
      (((Model.ofSubgraphs sampleGraphs conflictingSubgraphs).conflicts
        (Rule.enabled ["InputObjectFieldsRule"])).map .conflict) := by
    rw [compose_of_resolve h, if_neg (by decide +kernel)]
  have herrors' := (compose_disabled hsub conflictingSubgraphs).2.1 _ h _ herrors
  rw [if_neg (by decide +kernel)] at herrors'
  exact ⟨hsub, _, _, herrors, by decide +kernel, herrors', by decide +kernel⟩

end Supergraph
