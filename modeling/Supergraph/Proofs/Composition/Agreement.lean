import Supergraph.Proofs.Composition.Arguments

/-!
This module contains the comparison of what is elected for an input with what is recorded of it. The
two agree unless a subgraph lists an argument more than once, as only the last one is recorded then.
-/

namespace Supergraph

open GraphQL

def recordedInputs (subgraphs : List Subgraph) (slot : Slot) (place : Coordinate) :
    List InputValueDef :=
  subgraphs.filterMap fun s => (s.schema.inputsAt slot place).getLast?

theorem recordedInputs_eq_inputsOf {subgraphs : List Subgraph} {slot : Slot} {place : Coordinate}
    (hsingle : ∀ s ∈ subgraphs, (s.schema.inputsAt slot place).length ≤ 1)
    : recordedInputs subgraphs slot place = inputsOf subgraphs slot place := by
  unfold recordedInputs inputsOf
  rw [List.filterMap_eq_flatMap_toList]
  exact List.flatMap_congr fun s hs => toList_getLast?_of_length_le (hsingle s hs)

structure InputEntry.AgreesWithRecorded (e : InputEntry) : Prop where
  type : ∃ d ∈ e.byGraph.values.head?, e.type.SameNullable d.type
  defaultValue : e.defaultValue = e.byGraph.values.findSome? (·.defaultValue)

section

variable {subgraphs : List Subgraph} {graphs : Identities}
variable (h : Identities.resolve subgraphs = .ok graphs)
variable {v : Visit} (hv : v ∈ (Model.ofSubgraphs graphs subgraphs).visits)
variable {e : InputEntry} (he : v.inputEntry? = some e)

include h hv he

theorem map_values_visit {σ : Type} (f : InputInGraph → σ) (g : InputValueDef → σ)
    (hfg : ∀ keeps d, f (.ofDef keeps d) = g d)
    : e.byGraph.values.map f = (recordedInputs subgraphs v.slot v.place).map g := by
  obtain ⟨keeps, hmerged⟩ := Visit.ofDeclared?_inputEntry hv he
  rw [(InputEntry.merges hmerged).byGraph, map_values_records (Model.nodup_sources h),
    Model.map_snd_sources h, List.filterMap_map]
  unfold recordedInputs
  rw [List.map_filterMap]
  simp only [hfg, Function.comp_def]

theorem sameNullable_recorded_iff :
    (∃ d ∈ e.byGraph.values.head?, e.type.SameNullable d.type)
      ↔
    ∃ first ∈ (inputsOf subgraphs v.slot v.place).head?,
      ∃ last ∈ (recordedInputs subgraphs v.slot v.place).head?,
        first.type.SameNullable last.type := by
  have hvalues := congrArg List.head? (map_values_visit h hv he (·.type) (·.type) fun _ _ => rfl)
  rw [List.head?_map, List.head?_map] at hvalues
  simp only [sameNullable_inputEntry_iff h hv he]
  constructor
  . rintro ⟨d, hd, first, hfirst, hsame⟩
    obtain ⟨last, hlast, htype⟩ := Option.map_eq_some_iff.1
      (hvalues.symm.trans (congrArg (Option.map (·.type)) hd))
    exact ⟨first, hfirst, last, hlast, htype ▸ hsame⟩
  . rintro ⟨first, hfirst, last, hlast, hsame⟩
    obtain ⟨d, hd, htype⟩ := Option.map_eq_some_iff.1
      (hvalues.trans (congrArg (Option.map (·.type)) hlast))
    exact ⟨d, hd, first, hfirst, htype ▸ hsame⟩

theorem defaultValue_recorded :
    e.byGraph.values.findSome? (·.defaultValue)
      =
    (recordedInputs subgraphs v.slot v.place).findSome? (·.defaultValue) := by
  have hvalues := map_values_visit h hv he (·.defaultValue) (·.defaultValue) fun _ _ => rfl
  have hfind := congrArg (List.findSome? id) hvalues
  rwa [List.findSome?_map, List.findSome?_map] at hfind

end

theorem agreesWithRecorded_exact {subgraphs : List Subgraph} {graphs : Identities}
    (h : Identities.resolve subgraphs = .ok graphs) {v : Visit}
    (hv : v ∈ (Model.ofSubgraphs graphs subgraphs).visits) {e : InputEntry}
    (he : v.inputEntry? = some e)
    : (e.AgreesWithRecorded
          ↔
        (∃ first ∈ (inputsOf subgraphs v.slot v.place).head?,
            ∃ last ∈ (recordedInputs subgraphs v.slot v.place).head?,
              first.type.SameNullable last.type)
          ∧ (inputsOf subgraphs v.slot v.place).findSome? (·.defaultValue)
            = (recordedInputs subgraphs v.slot v.place).findSome? (·.defaultValue))
        ∧ ((∀ s ∈ subgraphs, (s.schema.inputsAt v.slot v.place).length ≤ 1) →
          e.AgreesWithRecorded)
        ∧ (v.slot = .inputObjectField → e.AgreesWithRecorded) := by
  have hiff : e.AgreesWithRecorded
      ↔ (∃ first ∈ (inputsOf subgraphs v.slot v.place).head?,
          ∃ last ∈ (recordedInputs subgraphs v.slot v.place).head?,
            first.type.SameNullable last.type)
        ∧ (inputsOf subgraphs v.slot v.place).findSome? (·.defaultValue)
          = (recordedInputs subgraphs v.slot v.place).findSome? (·.defaultValue) := by
    rw [← sameNullable_recorded_iff h hv he, ← defaultValue_recorded h hv he]
    have hdefault := Rule.defaultValue_inputEntry h hv he
    constructor
    . intro hagrees
      exact ⟨hagrees.type, hdefault.symm.trans hagrees.defaultValue⟩
    . rintro ⟨htype, heq⟩
      exact ⟨htype, hdefault.trans heq⟩
  have hsingle : (∀ s ∈ subgraphs, (s.schema.inputsAt v.slot v.place).length ≤ 1) →
      e.AgreesWithRecorded := by
    intro hsingle
    rw [hiff, recordedInputs_eq_inputsOf hsingle]
    obtain ⟨first, hfirst, -⟩ := (sameNullable_inputEntry_iff h hv he e.type).1 (.refl _)
    exact ⟨⟨first, hfirst, first, hfirst, .refl _⟩, rfl⟩
  refine ⟨hiff, hsingle, ?_⟩
  intro hslot
  apply hsingle
  intro s _
  cases v <;> cases hslot
  exact Option.length_toList_le

def repeatingSubgraphs : List SubgraphText := [
  { name := "first", text := "type Query \x7b a(x: Int = 1, x: String): Int \x7d" }]

theorem exists_not_agreesWithRecorded :
    ∃ subgraphs graphs, Subgraph.parseAll repeatingSubgraphs = .ok subgraphs
      ∧ Identities.resolve subgraphs = .ok graphs
      ∧ ∃ v ∈ (Model.ofSubgraphs graphs subgraphs).visits, ∃ e, v.inputEntry? = some e
        ∧ (¬ ∃ d ∈ e.byGraph.values.head?, e.type.SameNullable d.type)
        ∧ e.defaultValue ≠ e.byGraph.values.findSome? (·.defaultValue) := by
  have hany : (Subgraph.parseAll repeatingSubgraphs).toOption.any fun subgraphs =>
      (Identities.resolve subgraphs).toOption.any fun graphs =>
        ∃ v ∈ (Model.ofSubgraphs graphs subgraphs).visits, v.inputEntry?.any fun e =>
          (¬ e.byGraph.values.head?.any fun d => e.type.SameNullable d.type)
            ∧ e.defaultValue ≠ e.byGraph.values.findSome? (·.defaultValue) := by
    decide +kernel
  obtain ⟨subgraphs, hsubgraphs, hany⟩ := Except.exists_ok_of_any hany
  obtain ⟨graphs, hgraphs, hany⟩ := Except.exists_ok_of_any hany
  obtain ⟨v, hv, hany⟩ := of_decide_eq_true hany
  obtain ⟨e, he, hany⟩ := (Option.any_eq_true _ _).1 hany
  obtain ⟨htype, hdefault⟩ := of_decide_eq_true hany
  refine ⟨subgraphs, graphs, hsubgraphs, hgraphs, v, hv, e, he, ?_, hdefault⟩
  rintro ⟨d, hd, hsame⟩
  exact htype ((Option.any_eq_true _ _).2 ⟨d, hd, decide_eq_true hsame⟩)

theorem agreesWithRecorded_exact_sample :
    ∃ v ∈ (Model.ofSubgraphs sampleGraphs sampleSubgraphs).visits,
      v.place = .argument (.lit "Query") (.lit "a") (.lit "x")
        ∧ ∃ e, v.inputEntry? = some e ∧ e.AgreesWithRecorded := by
  have hv := List.get_mem (Model.ofSubgraphs sampleGraphs sampleSubgraphs).visits ⟨3, by decide⟩
  refine ⟨_, hv, rfl, _, rfl, (agreesWithRecorded_exact resolve_sampleSubgraphs hv rfl).2.1 ?_⟩
  intro s hs
  exact (distinctArguments_sampleSubgraphs s hs).length_inputsAt_le_one _ _

end Supergraph
