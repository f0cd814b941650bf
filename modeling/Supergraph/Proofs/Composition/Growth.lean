import Supergraph.Proofs.Composition.Order

/-!
This module contains the proof that adding subgraphs hides no conflict, except about the arguments
of directives: their types are compared only as long as every subgraph declares the directive.
-/

namespace Supergraph

open GraphQL

theorem Differ.mono {α : Type} {S S' : Set Schema} {locals : Schema → List α} {r : α → α → Prop}
    (hsub : S ⊆ S') (h : Differ S locals r) : Differ S' locals r := by
  obtain ⟨s, hs, a, ha, s', hs', b, hb, hr⟩ := h
  exact ⟨s, hsub hs, a, ha, s', hsub hs', b, hb, hr⟩

namespace Finding

section

variable {S S' : Set Schema} {slot : Slot} {place : Coordinate} (hsub : S ⊆ S')

include hsub

theorem dropped_mono (h : dropped S slot place) : dropped S' slot place := by
  obtain ⟨s, hs, hdropped⟩ := h
  exact ⟨s, hsub hs, hdropped⟩

theorem lost_mono (h : lost S slot place) : lost S' slot place := by
  obtain ⟨⟨s, hs, hrequires⟩, hdropped⟩ := h
  exact ⟨⟨s, hsub hs, hrequires⟩, dropped_mono hsub hdropped⟩

theorem empty_mono (h : empty S place) : empty S' place := by
  cases place with
  | type type => exact fun field => dropped_mono hsub (h field)
  | _ => exact h

end

theorem mismatch_append {preferred : Bool} {schemas : List Schema} {slot : Slot}
    {place : Coordinate} (h : mismatch preferred schemas slot place) (others : List Schema)
    : mismatch preferred (schemas ++ others) slot place := by
  obtain ⟨t, ht, a, ha, b, hb, hne⟩ := h
  have hdeclared : ∀ u ∈ schemas.flatMap (·.recordedTypesAt slot place),
      u ∈ schemas.flatMap (·.typesAt slot place) := by
    intro u hu
    obtain ⟨s, hs, hu⟩ := List.mem_flatMap.1 hu
    exact List.mem_flatMap.2 ⟨s, hs, s.recordedTypesAt_subset slot place hu⟩
  unfold mismatch
  rw [List.flatMap_append, List.flatMap_append]
  -- Another type may be elected now, but it reads no two types alike that were told apart.
  obtain ⟨t', ht'⟩ := TypeRef.IsElected.exists_of_mem preferred
    (List.mem_append_left (others.flatMap (·.typesAt slot place)) (hdeclared a ha))
  exact ⟨t', ht', a, List.mem_append_left _ ha, b, List.mem_append_left _ hb,
    ht.normalize_ne_of_append ht' (hdeclared a ha) (hdeclared b hb) hne⟩

end Finding

theorem Reports.exists_mem_of_imp {conflicts conflicts' : List Conflict} {code : ErrorCode}
    {place : Coordinate} {finding finding' : Prop} (h : Reports conflicts code place finding)
    (h' : Reports conflicts' code place finding') (himp : finding → finding') {c : Conflict}
    (hc : c ∈ conflicts) : ∃ c' ∈ conflicts', c'.code = c.code ∧ c'.place = c.place := by
  -- A rule reports only what it finds, and what it finds stays there.
  have hfinding : finding := by
    by_contra hnot
    rw [h.of_false hnot] at hc
    cases hc
  obtain ⟨c₀, rfl, hcode, hplace⟩ := h.of_true hfinding
  obtain ⟨c', rfl, hcode', hplace'⟩ := h'.of_true (himp hfinding)
  cases List.mem_singleton.1 hc
  exact ⟨c', List.mem_singleton_self c', hcode'.trans hcode.symm, hplace'.trans hplace.symm⟩

namespace Rule

theorem code_of_mem_argumentTypes {graphs : Identities} {v : Visit} {c : Conflict}
    (hc : c ∈ (argumentTypes.visitor graphs).visit v)
    : c.code = .fieldArgumentTypeMismatch ∧ c.place = v.place := by
  unfold Visitor.visit at hc
  split at hc
  . obtain ⟨groups, -, rfl⟩ := Option.map_eq_some_iff.1 (Option.mem_toList.1 hc)
    exact ⟨rfl, rfl⟩
  . cases hc

variable {subgraphs added : List Subgraph} {graphs graphs' : Identities}

theorem exists_mem_visit_append (h : Identities.resolve subgraphs = .ok graphs)
    (h' : Identities.resolve (subgraphs ++ added) = .ok graphs') {v v' : Visit}
    (hv : v ∈ (Model.ofSubgraphs graphs subgraphs).visits)
    (hv' : v' ∈ (Model.ofSubgraphs graphs' (subgraphs ++ added)).visits)
    (hslot : v'.slot = v.slot) (hplace : v'.place = v.place) {r : Rule} (hr : r ∈ all)
    {c : Conflict} (hc : c ∈ (r.visitor graphs).visit v)
    (hkept : c.code = .fieldArgumentTypeMismatch →
      ∀ directive argument, c.place ≠ .directiveArgument directive argument)
    : ∃ c' ∈ (r.visitor graphs').visit v', c'.code = c.code ∧ c'.place = c.place := by
  have hsub : schemaSet (subgraphs.map (·.schema))
      ⊆ schemaSet ((subgraphs ++ added).map (·.schema)) := by
    intro s hs
    rw [mem_schemaSet, List.map_append]
    exact List.mem_append_left _ hs
  have hmismatch : ∀ {preferred slot place},
      Finding.mismatch preferred (subgraphs.map (·.schema)) slot place →
        Finding.mismatch preferred ((subgraphs ++ added).map (·.schema)) slot place := by
    intro preferred slot place hfinding
    rw [List.map_append]
    exact Finding.mismatch_append hfinding _
  simp only [all, List.mem_cons, List.not_mem_nil, or_false] at hr
  obtain rfl | rfl | rfl | rfl | rfl | rfl := hr
  . have hreports' := reports_typeKinds h' hv'
    rw [hslot, hplace] at hreports'
    exact (reports_typeKinds h hv).exists_mem_of_imp hreports' (Differ.mono hsub) hc
  . have hreports' := reports_fieldTypes_mismatch h' hv'
    rw [hslot, hplace] at hreports'
    exact (reports_fieldTypes_mismatch h hv).exists_mem_of_imp hreports'
      (Or.imp (And.imp_right hmismatch) (And.imp_right hmismatch)) hc
  -- Whether every subgraph declares a directive can change, for other places nothing does.
  . obtain ⟨hcode, hplaced⟩ := code_of_mem_argumentTypes hc
    have hchecked : v.slot ≠ .directiveArgument := by
      intro hdirective
      cases v with
      | directiveArgument => exact hkept hcode _ _ hplaced
      | _ => cases hdirective
    have hreports' := reports_argumentTypes_mismatch h' hv'
    rw [hslot, hplace] at hreports'
    exact (reports_argumentTypes_mismatch h hv).exists_mem_of_imp hreports'
      (And.imp (Or.imp_right fun hdirective => absurd hdirective.1 hchecked) hmismatch) hc
  . have hreports' := reports_requiredArguments h' hv'
    rw [hslot, hplace] at hreports'
    exact (reports_requiredArguments h hv).exists_mem_of_imp hreports'
      (And.imp_right (Finding.lost_mono hsub)) hc
  . have hreports' := reports_argumentDefaults h' hv'
    rw [hslot, hplace] at hreports'
    exact (reports_argumentDefaults h hv).exists_mem_of_imp hreports'
      (And.imp_right (Differ.mono hsub)) hc
  . have hreports' := reports_inputFields h' hv'
    rw [hslot, hplace] at hreports'
    exact (reports_inputFields h hv).exists_mem_of_imp hreports'
      (Or.imp (And.imp_right (Finding.empty_mono hsub)) (And.imp_right (Finding.lost_mono hsub))) hc

end Rule

def CompositionError.ConcernsDirectiveArgument (e : CompositionError) : Prop :=
  e.code = .fieldArgumentTypeMismatch
    ∧ ∃ directive argument, e.place? = some (.directiveArgument directive argument)

theorem Model.mem_conflicts_iff (m : Model) (disabled : List String) (c : Conflict) :
    c ∈ m.conflicts (Rule.enabled disabled)
      ↔
    ∃ v ∈ m.visits, ∃ r ∈ Rule.enabled disabled, c ∈ (r.visitor m.graphs).visit v := by
  rw [Model.conflicts_enabled]
  simp only [List.mem_flatMap]

section

variable {subgraphs added : List Subgraph} {graphs graphs' : Identities}
variable (h : Identities.resolve subgraphs = .ok graphs)
variable (h' : Identities.resolve (subgraphs ++ added) = .ok graphs') (disabled : List String)

include h h'

theorem exists_mem_conflicts_append {c : Conflict}
    (hc : c ∈ (Model.ofSubgraphs graphs subgraphs).conflicts (Rule.enabled disabled))
    (hkept : ¬ (CompositionError.conflict c).ConcernsDirectiveArgument)
    : ∃ c' ∈ (Model.ofSubgraphs graphs' (subgraphs ++ added)).conflicts (Rule.enabled disabled),
        c'.signature = c.signature := by
  rw [Model.mem_conflicts_iff, Model.graphs_ofSubgraphs] at hc
  obtain ⟨v, hv, r, hr, hc⟩ := hc
  obtain ⟨v', hv', hslot, hplace⟩ :=
    Model.exists_visit_of_subset h h' (List.subset_append_left subgraphs added) hv
  have hnone : c.code = .fieldArgumentTypeMismatch →
      ∀ directive argument, c.place ≠ .directiveArgument directive argument := by
    intro hcode directive argument hplaced
    exact hkept ⟨hcode, directive, argument, congrArg some hplaced⟩
  obtain ⟨c', hc', hcode, hplaced⟩ := Rule.exists_mem_visit_append h h' hv hv' hslot hplace
    ((Rule.mem_enabled_iff _ _).1 hr).1 hc hnone
  refine ⟨c', ?_, Prod.ext hcode hplaced⟩
  rw [Model.mem_conflicts_iff, Model.graphs_ofSubgraphs]
  exact ⟨v', hv', r, hr, hc'⟩

theorem compose_append :
    (∀ errors, compose subgraphs disabled = .error errors →
        ∀ e ∈ errors, ¬ e.ConcernsDirectiveArgument →
          ∃ errors', compose (subgraphs ++ added) disabled = .error errors'
            ∧ ∃ e' ∈ errors', e'.signature = e.signature)
      ∧ ((∃ c, compose (subgraphs ++ added) disabled = .ok c) →
        ∀ errors, compose subgraphs disabled = .error errors →
          ∀ e ∈ errors, e.ConcernsDirectiveArgument) := by
  have hkept : ∀ errors, compose subgraphs disabled = .error errors →
      ∀ e ∈ errors, ¬ e.ConcernsDirectiveArgument →
        ∃ errors', compose (subgraphs ++ added) disabled = .error errors'
          ∧ ∃ e' ∈ errors', e'.signature = e.signature := by
    intro errors herrors e he hconcerns
    rw [compose_of_resolve h] at herrors
    split at herrors
    . cases herrors
    . cases herrors
      obtain ⟨c, hc, rfl⟩ := List.mem_map.1 he
      obtain ⟨c', hc', hsignature⟩ := exists_mem_conflicts_append h h' disabled hc hconcerns
      have hne : ¬ ((Model.ofSubgraphs graphs' (subgraphs ++ added)).conflicts
          (Rule.enabled disabled)).isEmpty := by
        rw [List.isEmpty_iff]
        exact List.ne_nil_of_mem hc'
      refine ⟨_, by rw [compose_of_resolve h', if_neg hne], .conflict c', ?_, ?_⟩
      . exact List.mem_map.2 ⟨c', hc', rfl⟩
      . obtain ⟨hcode, hplace⟩ := Prod.ext_iff.1 hsignature
        exact Prod.ext hcode (congrArg some hplace)
  refine ⟨hkept, ?_⟩
  rintro ⟨c, hc⟩ errors herrors e he
  by_contra hconcerns
  obtain ⟨errors', herrors', -⟩ := hkept errors herrors e he hconcerns
  rw [hc] at herrors'
  cases herrors'

end

def sampleError : CompositionError :=
  .conflict (.requiredArgument (.argument (.lit "Query") (.lit "a") (.lit "x")) ["first"] ["second"])

def grownSample : List Subgraph :=
  sampleSubgraphs ++ [.sample "third" { type := .named (.lit "Int") true }]

theorem compose_append_sample :
    (∃ graphs, Identities.resolve grownSample = .ok graphs)
      ∧ compose sampleSubgraphs [] = .error [sampleError]
      ∧ ∃ errors, compose grownSample [] = .error errors
        ∧ ∃ e ∈ errors, e.signature = sampleError.signature := by
  have hany : (Identities.resolve grownSample).toOption.any fun _ => true := by decide
  obtain ⟨graphs, hgraphs, -⟩ := Except.exists_ok_of_any hany
  have herror : compose sampleSubgraphs [] = .error [sampleError] := rfl
  have hconcerns : ¬ sampleError.ConcernsDirectiveArgument := by
    rintro ⟨⟨⟩, -⟩
  exact ⟨⟨graphs, hgraphs⟩, herror, (compose_append resolve_sampleSubgraphs hgraphs []).1 _ herror
    sampleError List.mem_cons_self hconcerns⟩

end Supergraph
