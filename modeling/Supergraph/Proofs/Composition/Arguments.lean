import Supergraph.Proofs.Composition.Inputs

/-!
This module contains what a supergraph keeps of the arguments that subgraphs declare. Rules compare
those of object fields only; of an argument of an interface field the first subgraph decides on the
type.
-/

namespace Supergraph

open GraphQL

def inputsOf (subgraphs : List Subgraph) (slot : Slot) (place : Coordinate) : List InputValueDef :=
  subgraphs.flatMap (·.schema.inputsAt slot place)

structure GraphQL.InputValueDef.IsMerged (d : InputValueDef) (declared : List InputValueDef) :
    Prop where
  type : ∃ first ∈ declared.head?, d.type.SameNullable first.type
  isNonNull_iff : d.type.isNonNull
    ↔ ∃ d' ∈ declared, d'.type.SameNullable d.type ∧ d'.type.isNonNull
  defaultValue : d.defaultValue = declared.findSome? (·.defaultValue)

theorem GraphQL.InputValueDef.IsMerged.sameNullable_iff {d : InputValueDef}
    {declared : List InputValueDef} (h : d.IsMerged declared)
    : (∀ d' ∈ declared, d'.type.SameNullable d.type)
        ↔
      ∀ a ∈ declared, ∀ b ∈ declared, a.type.SameNullable b.type := by
  constructor
  . intro hall a ha b hb
    exact (hall a ha).trans (hall b hb).symm
  . intro hall d' hd'
    obtain ⟨first, hfirst, hsame⟩ := h.type
    exact (hall d' hd' first (List.mem_of_mem_head? hfirst)).trans hsame.symm

section

variable {subgraphs : List Subgraph} {graphs : Identities}
variable (h : Identities.resolve subgraphs = .ok graphs)

include h

theorem sameNullable_inputEntry_iff {v : Visit}
    (hv : v ∈ (Model.ofSubgraphs graphs subgraphs).visits) {e : InputEntry}
    (he : v.inputEntry? = some e) (t : TypeRef)
    : e.type.SameNullable t
        ↔
      ∃ first ∈ (inputsOf subgraphs v.slot v.place).head?, first.type.SameNullable t := by
  have htypes : subgraphs.flatMap (·.schema.typesAt v.slot v.place)
      = (inputsOf subgraphs v.slot v.place).map (·.type) := by
    unfold inputsOf
    rw [List.map_flatMap]
    exact List.flatMap_congr fun s _ => congrFun (Rule.typesAt_of_inputEntry he) s.schema
  rw [(Rule.isElected_inputEntry h hv he).sameNullable_iff, htypes, List.head?_map]
  simp

theorem isMerged_of_inputsAt {slot : Slot} {place : Coordinate} {d : InputValueDef}
    (hd : d ∈ (Model.ofSubgraphs graphs subgraphs).toSchema.inputsAt slot place)
    : d.IsMerged (inputsOf subgraphs slot place) := by
  obtain ⟨hnonNull, hdefault⟩ := Model.inputsAt_toSchema h hd
  obtain ⟨v, hv, rfl, rfl, e, directives, he, rfl⟩ := Model.exists_entry_of_inputsAt hd
  refine ⟨?_, hnonNull.trans ?_, hdefault⟩
  . obtain ⟨first, hfirst, hsame⟩ := (sameNullable_inputEntry_iff h hv he e.type).1 (.refl _)
    exact ⟨first, hfirst, hsame.symm⟩
  . simp only [inputsOf, List.mem_flatMap]
    constructor
    . rintro ⟨s, hs, d', hd', hnonNull⟩
      exact ⟨d', ⟨s, hs, hd'⟩, hnonNull⟩
    . rintro ⟨d', ⟨s, hs, hd'⟩, hnonNull⟩
      exact ⟨s, hs, d', hd', hnonNull⟩

variable {v : Visit} (hv : v ∈ (Model.ofSubgraphs graphs subgraphs).visits)
variable (hslot : v.slot = .objectFieldArgument)

include hv hslot

theorem agree_of_visits
    (hnone : ∀ r ∈ Rule.enabled [], (r.visitor graphs).visit v = [])
    (hsingle : ∀ s ∈ subgraphs, (s.schema.inputsAt v.slot v.place).length ≤ 1)
    : ∀ a ∈ inputsOf subgraphs v.slot v.place, ∀ b ∈ inputsOf subgraphs v.slot v.place,
        a.type.SameNullable b.type
          ∧ ∀ x ∈ a.defaultValue, ∀ y ∈ b.defaultValue, x.render 0 = y.render 0 := by
  have htype := (Rule.reports_argumentTypes_mismatch h hv).eq_nil_iff.1
    (hnone _ ((Rule.mem_enabled_iff _ _).2 ⟨by simp [Rule.all], List.not_mem_nil⟩))
  have hdefault := (Rule.reports_argumentDefaults h hv).eq_nil_iff.1
    (hnone _ ((Rule.mem_enabled_iff _ _).2 ⟨by simp [Rule.all], List.not_mem_nil⟩))
  rw [hslot] at htype hdefault hsingle ⊢
  rw [Finding.mismatch_iff] at htype
  . intro a ha b hb
    obtain ⟨s, hs, ha⟩ := List.mem_flatMap.1 ha
    obtain ⟨s', hs', hb⟩ := List.mem_flatMap.1 hb
    have hmem : ∀ {s}, s ∈ subgraphs → s.schema ∈ schemaSet (subgraphs.map (·.schema)) :=
      fun hs => List.mem_map.2 ⟨_, hs, rfl⟩
    constructor
    . by_contra hdiffer
      exact htype ⟨.inl rfl, s.schema, hmem hs, a.type, List.mem_map.2 ⟨a, ha, rfl⟩, s'.schema,
        hmem hs', b.type, List.mem_map.2 ⟨b, hb, rfl⟩, hdiffer⟩
    . intro x hx y hy
      have hprinted : ∀ {s : Subgraph} {d : InputValueDef} {z : Value}, s ∈ subgraphs →
          d ∈ s.schema.inputsAt .objectFieldArgument v.place → z ∈ d.defaultValue →
            z.render 0 ∈ s.schema.defaultsAt .objectFieldArgument v.place := by
        intro s d z hs hd hz
        -- What is recorded is the last declaration in a schema, and here the only one.
        unfold Schema.defaultsAt
        rw [toList_getLast?_of_length_le (hsingle s hs)]
        exact List.mem_filterMap.2 ⟨d, hd, Option.map_eq_some_iff.2 ⟨z, hz, rfl⟩⟩
      by_contra hdiffer
      exact hdefault ⟨rfl, s.schema, hmem hs, _, hprinted hs ha hx, s'.schema, hmem hs', _,
        hprinted hs' hb hy, hdiffer⟩
  . intro schema hschema
    obtain ⟨s, hs, rfl⟩ := List.mem_map.1 hschema
    have htypes : s.schema.typesAt .objectFieldArgument v.place
        = (s.schema.inputsAt .objectFieldArgument v.place).map (·.type) := rfl
    rw [htypes, List.length_map]
    exact hsingle s hs

end

theorem compose_inputs {subgraphs : List Subgraph} {c : Composition}
    (hc : compose subgraphs [] = .ok c) {slot : Slot} {place : Coordinate} {d : InputValueDef}
    (hd : d ∈ c.schema.inputsAt slot place)
    (hsingle : ∀ s ∈ subgraphs, (s.schema.inputsAt slot place).length ≤ 1)
    : d.IsMerged (inputsOf subgraphs slot place)
        ∧ ((∀ d' ∈ inputsOf subgraphs slot place, d'.type.SameNullable d.type)
          ↔ ∀ a ∈ inputsOf subgraphs slot place, ∀ b ∈ inputsOf subgraphs slot place,
            a.type.SameNullable b.type)
        ∧ (slot = .objectFieldArgument →
          (∀ d' ∈ inputsOf subgraphs slot place, d'.type.SameNullable d.type)
            ∧ ∀ a ∈ inputsOf subgraphs slot place, ∀ b ∈ inputsOf subgraphs slot place,
              ∀ x ∈ a.defaultValue, ∀ y ∈ b.defaultValue, x.render 0 = y.render 0) := by
  obtain ⟨graphs, h, hnone, rfl⟩ := (compose_eq_ok_iff _ _ _).1 hc
  have hmerged := isMerged_of_inputsAt h hd
  refine ⟨hmerged, hmerged.sameNullable_iff, ?_⟩
  intro hslot
  obtain ⟨v, hv, rfl, rfl, -⟩ := Model.exists_entry_of_inputsAt hd
  have hagree := agree_of_visits h hv hslot (hnone v hv) hsingle
  exact ⟨hmerged.sameNullable_iff.2 fun a ha b hb => (hagree a ha b hb).1,
    fun a ha b hb => (hagree a ha b hb).2⟩

def interfaceArgument : Coordinate := .argument (.lit "I") (.lit "f") (.lit "x")

def differingInterfaces : List SubgraphText := [
  { name := "first"
    text := "interface I \x7b f(x: Int = 1): Int \x7d type Query \x7b a: Int \x7d" },
  { name := "second"
    text := "interface I \x7b f(x: Float = 2): Int \x7d type Query \x7b a: Int \x7d" }]

theorem exists_differingInterfaces :
    ∃ subgraphs c, Subgraph.parseAll differingInterfaces = .ok subgraphs
      ∧ compose subgraphs [] = .ok c ∧ (∀ s ∈ subgraphs, s.schema.DistinctArguments)
      ∧ (c.schema.inputsAt .interfaceFieldArgument interfaceArgument).map (·.type)
        = [.named (.lit "Int") false]
      ∧ (inputsOf subgraphs .interfaceFieldArgument interfaceArgument).map
          (fun d => (d.type, d.defaultValue.map (·.render 0)))
        = [(.named (.lit "Int") false, some "1"), (.named (.lit "Float") false, some "2")] := by
  have hany : (Subgraph.parseAll differingInterfaces).toOption.any fun subgraphs =>
      (compose subgraphs []).toOption.any fun c =>
        (∀ s ∈ subgraphs, s.schema.DistinctArguments)
          ∧ (c.schema.inputsAt .interfaceFieldArgument interfaceArgument).map (·.type)
            = [.named (.lit "Int") false]
          ∧ (inputsOf subgraphs .interfaceFieldArgument interfaceArgument).map
              (fun d => (d.type, d.defaultValue.map (·.render 0)))
            = [(.named (.lit "Int") false, some "1"), (.named (.lit "Float") false, some "2")] := by
    decide +kernel
  obtain ⟨subgraphs, hsubgraphs, hany⟩ := Except.exists_ok_of_any hany
  obtain ⟨c, hc, hinputs⟩ := Except.exists_ok_of_any hany
  exact ⟨subgraphs, c, hsubgraphs, hc, of_decide_eq_true hinputs⟩

theorem exists_interface_argument_not_sameNullable :
    ∃ subgraphs c, Subgraph.parseAll differingInterfaces = .ok subgraphs
      ∧ compose subgraphs [] = .ok c ∧ (∀ s ∈ subgraphs, s.schema.DistinctArguments)
      ∧ ∃ d ∈ c.schema.inputsAt .interfaceFieldArgument interfaceArgument,
        (∃ d' ∈ inputsOf subgraphs .interfaceFieldArgument interfaceArgument,
          ¬ d'.type.SameNullable d.type)
        ∧ ∃ a ∈ inputsOf subgraphs .interfaceFieldArgument interfaceArgument,
          ∃ b ∈ inputsOf subgraphs .interfaceFieldArgument interfaceArgument,
            ∃ x ∈ a.defaultValue, ∃ y ∈ b.defaultValue, x.render 0 ≠ y.render 0 := by
  obtain ⟨subgraphs, c, hsubgraphs, hc, hdistinct, hmerged, hdeclared⟩ := exists_differingInterfaces
  obtain ⟨d, hd, htype⟩ := List.mem_map.1 (hmerged ▸ List.mem_cons_self)
  obtain ⟨a, ha, hfirst⟩ := List.mem_map.1 (hdeclared ▸ List.mem_cons_self)
  obtain ⟨b, hb, hsecond⟩ := List.mem_map.1 (hdeclared ▸ List.mem_cons_of_mem _ List.mem_cons_self)
  obtain ⟨-, hfirst⟩ := Prod.mk.inj hfirst
  obtain ⟨htype', hsecond⟩ := Prod.mk.inj hsecond
  obtain ⟨x, hx, hone⟩ := Option.map_eq_some_iff.1 hfirst
  obtain ⟨y, hy, htwo⟩ := Option.map_eq_some_iff.1 hsecond
  have hsame : ¬ b.type.SameNullable d.type := by
    rw [htype, htype']
    decide
  have hprinted : x.render 0 ≠ y.render 0 := by
    rw [hone, htwo]
    decide
  exact ⟨subgraphs, c, hsubgraphs, hc, hdistinct, d, hd, ⟨b, hb, hsame⟩, a, ha, b, hb, x, hx, y, hy,
    hprinted⟩

theorem compose_inputs_interface :
    ∃ subgraphs c, Subgraph.parseAll differingInterfaces = .ok subgraphs
      ∧ compose subgraphs [] = .ok c
      ∧ ∃ d ∈ c.schema.inputsAt .interfaceFieldArgument interfaceArgument,
        d.IsMerged (inputsOf subgraphs .interfaceFieldArgument interfaceArgument) := by
  obtain ⟨subgraphs, c, hsubgraphs, hc, hdistinct, hmerged, -⟩ := exists_differingInterfaces
  obtain ⟨d, hd, -⟩ := List.mem_map.1 (hmerged ▸ List.mem_cons_self)
  exact ⟨subgraphs, c, hsubgraphs, hc, d, hd,
    (compose_inputs hc hd fun s hs => (hdistinct s hs).length_inputsAt_le_one _ _).1⟩

end Supergraph
