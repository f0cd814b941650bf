import Supergraph.Proofs.Composition.Inputs
import Supergraph.Proofs.GraphQL.ValueText

/-!
This module contains the proof that the rule about default values compares values, though it looks
at the texts that they are printed as.
-/

namespace Supergraph

open GraphQL

def InputEntry.HasDefault (e : InputEntry) (graph : GraphId) (x : Value) : Prop :=
  ∃ d, e.byGraph.get? graph = some d ∧ d.defaultValue = some x

theorem InputEntry.exists_hasDefault_iff (e : InputEntry) (x : Value) :
    (∃ graph, e.HasDefault graph x) ↔ some x ∈ e.byGraph.values.map (·.defaultValue) := by
  simp only [HasDefault, List.mem_map, OrderedMap.mem_values_iff]
  constructor
  . rintro ⟨graph, d, hd, hx⟩
    exact ⟨d, ⟨graph, hd⟩, hx⟩
  . rintro ⟨d, ⟨graph, hd⟩, hx⟩
    exact ⟨graph, d, hd, hx⟩

namespace Rule

theorem mem_defaults_iff (e : InputEntry) (text : String) (graph : GraphId) :
    (text, graph) ∈ defaults e ↔ ∃ x, e.HasDefault graph x ∧ x.render 0 = text := by
  simp only [defaults, InputEntry.HasDefault, List.mem_filterMap, Prod.exists,
    OrderedMap.mem_toList_iff, Option.map_eq_some_iff, Prod.mk.injEq]
  constructor
  . rintro ⟨_, d, hd, x, hx, rfl, rfl⟩
    exact ⟨x, ⟨d, hd, hx⟩, rfl⟩
  . rintro ⟨x, ⟨d, hd, hx⟩, rfl⟩
    exact ⟨graph, d, hd, x, hx, rfl, rfl⟩

theorem mem_group_defaults_iff (e : InputEntry) (x : Value) (graph : GraphId) :
    graph ∈ ((OrderedMap.group (defaults e)).get? (x.render 0)).getD [] ↔ e.HasDefault graph x := by
  rw [OrderedMap.get?_group_getD, List.mem_map]
  constructor
  . rintro ⟨⟨text, _⟩, hmem, rfl⟩
    obtain ⟨hmem, htext⟩ := List.mem_filter.1 hmem
    obtain ⟨y, hy, hrender⟩ := (mem_defaults_iff _ _ _).1 hmem
    have heq : y = x := Value.render_injective 0 (hrender.trans (by simpa using htext))
    rwa [← heq]
  . intro hx
    refine ⟨(x.render 0, graph), List.mem_filter.2 ⟨?_, by simp⟩, rfl⟩
    exact (mem_defaults_iff _ _ _).2 ⟨x, hx, rfl⟩

theorem isSome_sides?_defaults_iff (ids : Identities) (e : InputEntry) :
    (sides? ids (defaults e)).isSome
      ↔
    ∃ graph x graph' y, e.HasDefault graph x ∧ e.HasDefault graph' y ∧ x ≠ y := by
  rw [isSome_sides?_iff]
  constructor
  . rintro ⟨⟨text, graph⟩, h, ⟨text', graph'⟩, h', hne⟩
    obtain ⟨x, hx, rfl⟩ := (mem_defaults_iff _ _ _).1 h
    obtain ⟨y, hy, rfl⟩ := (mem_defaults_iff _ _ _).1 h'
    refine ⟨graph, x, graph', y, hx, hy, ?_⟩
    rintro rfl
    exact hne rfl
  . rintro ⟨graph, x, graph', y, hx, hy, hne⟩
    exact ⟨(x.render 0, graph), (mem_defaults_iff _ _ _).2 ⟨x, hx, rfl⟩, (y.render 0, graph'),
      (mem_defaults_iff _ _ _).2 ⟨y, hy, rfl⟩, fun heq => hne (Value.render_injective 0 heq)⟩

end Rule

namespace Model

theorem eq_of_mem_visits {m : Model} {v v' : Visit} (hv : v ∈ m.visits) (hv' : v' ∈ m.visits)
    (hslot : v'.slot = v.slot) (hplace : v'.place = v.place) : v' = v := by
  rw [mem_visits_iff] at hv hv'
  cases v <;> cases v' <;> cases hslot <;> cases hplace <;> simp_all [Visit.IsPartOf]

theorem mem_conflicts_singleton (m : Model) (r : Rule) (c : Conflict) :
    c ∈ m.conflicts [r] ↔ ∃ v ∈ m.visits, c ∈ (r.visitor m.graphs).visit v := by
  simp [conflicts, walk]

end Model

namespace Rule

section

variable {subgraphs : List Subgraph} {graphs : Identities}
variable (h : Identities.resolve subgraphs = .ok graphs)
variable {v : Visit} (hv : v ∈ (Model.ofSubgraphs graphs subgraphs).visits)
variable {e : InputEntry} (he : v.inputEntry? = some e)

include h hv he

theorem exists_hasDefault_visit (x : Value) :
    (∃ graph, e.HasDefault graph x)
      ↔
    ∃ s ∈ subgraphs, ∃ d ∈ (s.schema.inputsAt v.slot v.place).getLast?,
      d.defaultValue = some x := by
  obtain ⟨keeps, hmerged⟩ := Visit.ofDeclared?_inputEntry hv he
  rw [InputEntry.exists_hasDefault_iff, mem_recorded_input (Model.nodup_sources h) hmerged
    (·.defaultValue) (·.defaultValue) (fun _ _ => rfl), Model.map_snd_sources h]
  simp

theorem exists_hasDefault_of_defaultValue
    (hsingle : ∀ s ∈ subgraphs, (s.schema.inputsAt v.slot v.place).length ≤ 1) {x : Value}
    (hx : e.defaultValue = some x) : ∃ graph, e.HasDefault graph x := by
  rw [defaultValue_inputEntry h hv he] at hx
  obtain ⟨d, hd, hx⟩ := List.exists_of_findSome?_eq_some hx
  obtain ⟨s, hs, hd⟩ := List.mem_flatMap.1 hd
  rw [exists_hasDefault_visit h hv he]
  rw [← toList_getLast?_of_length_le (hsingle s hs), Option.mem_toList] at hd
  exact ⟨s, hs, d, hd, hx⟩

theorem exists_defaultValue_of_hasDefault {graph : GraphId} {x : Value}
    (hx : e.HasDefault graph x) : ∃ y, e.defaultValue = some y := by
  obtain ⟨s, hs, d, hd, hx⟩ := (exists_hasDefault_visit h hv he x).1 ⟨graph, hx⟩
  rw [← Option.isSome_iff_exists, defaultValue_inputEntry h hv he, List.findSome?_isSome_iff]
  exact ⟨d, List.mem_flatMap.2 ⟨s, hs, List.mem_of_getLast? hd⟩, Option.isSome_of_eq_some hx⟩

end

theorem exists_sides?_of_mem_visit {ids : Identities} {v : Visit} {c : Conflict}
    (hc : c ∈ (argumentDefaults.visitor ids).visit v)
    : v.slot = .objectFieldArgument ∧ c.place = v.place
        ∧ ∀ e ∈ v.inputEntry?, (sides? ids (defaults e)).isSome := by
  cases v with
  | objectFieldArgument typeName type fieldName field name argument =>
    obtain ⟨groups, hgroups, rfl⟩ := Option.map_eq_some_iff.1 (Option.mem_toList.1 hc)
    refine ⟨rfl, rfl, ?_⟩
    rintro e ⟨⟩
    exact Option.isSome_of_eq_some hgroups
  | _ => cases hc

section

variable {subgraphs : List Subgraph} {graphs : Identities}
variable {typeName fieldName name : Name} {type : CompositeEntry} {field : FieldEntry}
variable {argument : InputEntry}
variable (hv : .objectFieldArgument typeName type fieldName field name argument
  ∈ (Model.ofSubgraphs graphs subgraphs).visits)

include hv

theorem exists_argumentDefaults_iff :
    (∃ c ∈ (Model.ofSubgraphs graphs subgraphs).conflicts [argumentDefaults],
        c.place = .argument typeName fieldName name)
      ↔
    ∃ graph x graph' y,
      argument.HasDefault graph x ∧ argument.HasDefault graph' y ∧ x ≠ y := by
  rw [← isSome_sides?_defaults_iff graphs]
  simp only [Model.mem_conflicts_singleton, Model.graphs_ofSubgraphs]
  constructor
  . rintro ⟨c, ⟨v, hv', hc⟩, hplaced⟩
    obtain ⟨hslot, hplace, hsides⟩ := exists_sides?_of_mem_visit hc
    cases Model.eq_of_mem_visits hv hv' hslot (hplace.symm.trans hplaced)
    exact hsides _ rfl
  . intro hsides
    obtain ⟨groups, hgroups⟩ := Option.isSome_iff_exists.1 hsides
    refine ⟨.argumentDefault (.argument typeName fieldName name) groups, ⟨_, hv, ?_⟩, rfl⟩
    exact Option.mem_toList.2 (Option.map_eq_some_iff.2 ⟨groups, hgroups, rfl⟩)

theorem defaultValue_of_inputsAt {d : InputValueDef}
    (hd : d ∈ (Model.ofSubgraphs graphs subgraphs).toSchema.inputsAt .objectFieldArgument
      (.argument typeName fieldName name))
    : d.defaultValue = argument.defaultValue := by
  obtain ⟨v, hv', hslot, hplace, e, directives, he, rfl⟩ := Model.exists_entry_of_inputsAt hd
  cases Model.eq_of_mem_visits hv hv' hslot hplace
  cases he
  rfl

end

theorem argumentDefaults_exact {subgraphs : List Subgraph} {graphs : Identities}
    (h : Identities.resolve subgraphs = .ok graphs) {typeName fieldName name : Name}
    {type : CompositeEntry} {field : FieldEntry} {argument : InputEntry}
    (hv : .objectFieldArgument typeName type fieldName field name argument
      ∈ (Model.ofSubgraphs graphs subgraphs).visits)
    : let m := Model.ofSubgraphs graphs subgraphs
      let place := .argument typeName fieldName name
      ((∃ c ∈ m.conflicts [argumentDefaults], c.place = place)
          ↔
        ∃ graph x graph' y,
          argument.HasDefault graph x ∧ argument.HasDefault graph' y ∧ x ≠ y)
        ∧ (∀ x graph, graph ∈ ((OrderedMap.group (defaults argument)).get? (x.render 0)).getD []
          ↔ argument.HasDefault graph x)
        ∧ ((¬ ∃ c ∈ m.conflicts [argumentDefaults], c.place = place) →
          (∀ s ∈ subgraphs, (s.schema.inputsAt .objectFieldArgument place).length ≤ 1) →
            (∀ graph x, argument.HasDefault graph x → argument.defaultValue = some x)
              ∧ (argument.defaultValue = none ↔ ∀ graph x, ¬ argument.HasDefault graph x)
              ∧ ∀ d ∈ m.toSchema.inputsAt .objectFieldArgument place,
                d.defaultValue = argument.defaultValue) := by
  intro m place
  have hreported := exists_argumentDefaults_iff hv
  refine ⟨hreported, mem_group_defaults_iff argument, ?_⟩
  intro hnone hsingle
  have hall : ∀ graph x, argument.HasDefault graph x → argument.defaultValue = some x := by
    intro graph x hx
    obtain ⟨y, hy⟩ := exists_defaultValue_of_hasDefault h hv rfl hx
    obtain ⟨graph', hy'⟩ := exists_hasDefault_of_defaultValue h hv rfl hsingle hy
    rw [hreported] at hnone
    rw [hy]
    by_contra hne
    exact hnone ⟨graph', y, graph, x, hy', hx, fun heq => hne (congrArg some heq)⟩
  refine ⟨hall, ?_, fun d hd => defaultValue_of_inputsAt hv hd⟩
  constructor
  . intro hdefault graph x hx
    rw [hall graph x hx] at hdefault
    cases hdefault
  . intro hrecorded
    cases hx : argument.defaultValue with
    | none => rfl
    | some x =>
      obtain ⟨graph, hx⟩ := exists_hasDefault_of_defaultValue h hv rfl hsingle hx
      exact absurd hx (hrecorded graph x)

def differingSpellings : List SubgraphText := [
  { name := "first"
    text := "type Query \x7b a(x: String = \"\"\"\n  one\n  two\n\"\"\"): Int \x7d" },
  { name := "second"
    text := "type Query \x7b a(x: String = \"one\\ntwo\"): Int \x7d" }]

def spelledArgument : Coordinate := .argument (.lit "Query") (.lit "a") (.lit "x")

theorem exists_differingSpellings :
    ∃ subgraphs graphs, Subgraph.parseAll differingSpellings = .ok subgraphs
      ∧ Identities.resolve subgraphs = .ok graphs
      ∧ (∀ s ∈ subgraphs, (s.schema.inputsAt .objectFieldArgument spelledArgument).length ≤ 1)
      ∧ (Model.ofSubgraphs graphs subgraphs).conflicts [argumentDefaults] = []
      ∧ ∃ v ∈ (Model.ofSubgraphs graphs subgraphs).visits,
        v.slot = .objectFieldArgument ∧ v.place = spelledArgument
          ∧ v.inputEntry?.any fun e =>
            e.byGraph.size = 2 ∧ e.defaultValue = some (.string "one\ntwo") := by
  have hany : (Subgraph.parseAll differingSpellings).toOption.any fun subgraphs =>
      (Identities.resolve subgraphs).toOption.any fun graphs =>
        (∀ s ∈ subgraphs, (s.schema.inputsAt .objectFieldArgument spelledArgument).length ≤ 1)
          ∧ (Model.ofSubgraphs graphs subgraphs).conflicts [argumentDefaults] = []
          ∧ ∃ v ∈ (Model.ofSubgraphs graphs subgraphs).visits,
            v.slot = .objectFieldArgument ∧ v.place = spelledArgument
              ∧ v.inputEntry?.any fun e =>
                e.byGraph.size = 2 ∧ e.defaultValue = some (.string "one\ntwo") := by
    decide +kernel
  obtain ⟨subgraphs, hsubgraphs, hany⟩ := Except.exists_ok_of_any hany
  obtain ⟨graphs, hgraphs, hany⟩ := Except.exists_ok_of_any hany
  exact ⟨subgraphs, graphs, hsubgraphs, hgraphs, of_decide_eq_true hany⟩

theorem argumentDefaults_exact_spellings :
    ∃ subgraphs graphs typeName type fieldName field name argument,
      Subgraph.parseAll differingSpellings = .ok subgraphs
        ∧ Identities.resolve subgraphs = .ok graphs
        ∧ .objectFieldArgument typeName type fieldName field name argument
          ∈ (Model.ofSubgraphs graphs subgraphs).visits
        ∧ Coordinate.argument typeName fieldName name = spelledArgument
        ∧ argument.byGraph.size = 2 ∧ argument.defaultValue = some (.string "one\ntwo")
        ∧ ∀ graph x, argument.HasDefault graph x → x = .string "one\ntwo" := by
  obtain ⟨subgraphs, graphs, hparse, h, hsingle, hnone, v, hv, hslot, hplace, hdefault⟩ :=
    exists_differingSpellings
  cases v with
  | objectFieldArgument typeName type fieldName field name argument =>
    obtain ⟨hsize, hdefault⟩ : argument.byGraph.size = 2
        ∧ argument.defaultValue = some (.string "one\ntwo") := of_decide_eq_true hdefault
    have hexact := argumentDefaults_exact h hv
    obtain ⟨hall, -, -⟩ := hexact.2.2 (by simp [hnone]) (by rwa [← hplace] at hsingle)
    refine ⟨_, _, _, _, _, _, _, _, hparse, h, hv, hplace, hsize, hdefault, ?_⟩
    intro graph x hx
    rw [hall graph x hx] at hdefault
    exact Option.some.inj hdefault
  | _ => cases hslot

end Rule

end Supergraph
