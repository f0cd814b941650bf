import Mathlib.Data.Set.Defs
import Supergraph.Rule
import Supergraph.Proofs.Grouping
import Supergraph.Proofs.GraphQL.TypeText
import Supergraph.Proofs.Model.Place

/-!
This module contains the conditions under which rules report an entry, in terms of what the schemas
of a run declare at its place.
-/

namespace Supergraph

open GraphQL

def schemaSet (schemas : List Schema) : Set Schema := {s | s ∈ schemas}

@[simp]
theorem mem_schemaSet (schemas : List Schema) (s : Schema) : s ∈ schemaSet schemas ↔ s ∈ schemas :=
  Iff.rfl

def Differ {α : Type} (S : Set Schema) (locals : Schema → List α) (r : α → α → Prop) : Prop :=
  ∃ s ∈ S, ∃ a ∈ locals s, ∃ s' ∈ S, ∃ b ∈ locals s', r a b

theorem differ_schemaSet_iff {α : Type} (schemas : List Schema) (locals : Schema → List α)
    (r : α → α → Prop)
    : Differ (schemaSet schemas) locals r
        ↔
      ∃ a ∈ schemas.flatMap locals, ∃ b ∈ schemas.flatMap locals, r a b := by
  simp only [Differ, mem_schemaSet, List.mem_flatMap]
  constructor
  . rintro ⟨s, hs, a, ha, s', hs', b, hb, hr⟩
    exact ⟨a, ⟨s, hs, ha⟩, b, ⟨s', hs', hb⟩, hr⟩
  . rintro ⟨a, ⟨s, hs, ha⟩, b, ⟨s', hs', hb⟩, hr⟩
    exact ⟨s, hs, a, ha, s', hs', b, hb, hr⟩

section

variable {δ ρ : Type} {keeps : Schema → Directive → Bool} {sources : List (GraphId × Schema)}
variable {contents : Schema → List δ} {record : (Directive → Bool) → δ → ρ}

theorem toList_getLast?_of_length_le {α : Type} {xs : List α} (h : xs.length ≤ 1) :
    xs.getLast?.toList = xs := by
  match xs, h with
  | [], _ => rfl
  | [x], _ => rfl

theorem mem_map_values_records {σ : Type} (hnodup : (sources.map Prod.fst).Nodup) {f : ρ → σ}
    {g : δ → σ} (hfg : ∀ keeps d, f (record keeps d) = g d) (y : σ)
    : y ∈ (Declared.records (declared keeps sources contents) record).values.map f
        ↔
      y ∈ (sources.map Prod.snd).flatMap fun s => (contents s).getLast?.toList.map g := by
  simp only [List.mem_map, List.mem_flatMap, mem_values_records hnodup, Option.mem_toList]
  constructor
  . rintro ⟨v, ⟨s, hs, d, hd, rfl⟩, rfl⟩
    exact ⟨s, hs, d, hd, (hfg _ _).symm⟩
  . rintro ⟨s, hs, d, hd, rfl⟩
    exact ⟨_, ⟨s, hs, d, hd, rfl⟩, hfg _ _⟩

end

namespace Rule

theorem isSome_sides?_iff {ν : Type} [DecidableEq ν] (ids : Identities)
    (declared : List (ν × GraphId))
    : (sides? ids declared).isSome ↔ ∃ a ∈ declared, ∃ b ∈ declared, a.1 ≠ b.1 := by
  rw [← OrderedMap.two_le_size_group_iff]
  unfold sides?
  dsimp only
  split
  . next h => exact iff_of_false (by simp) (Nat.not_le.2 h)
  . next h => exact iff_of_true rfl (Nat.not_lt.1 h)

theorem isSome_sides?_render_iff {ρ : Type} (ids : Identities) (preferred : Bool) (t : TypeRef)
    (byGraph : ByGraph ρ) (typeOf : ρ → TypeRef)
    : (sides? ids (byGraph.toList.map fun (graph, d) =>
        ((t.normalize preferred (typeOf d)).render, graph))).isSome
        ↔
      ∃ a ∈ byGraph.values.map typeOf, ∃ b ∈ byGraph.values.map typeOf,
        t.normalize preferred a ≠ t.normalize preferred b := by
  simp only [isSome_sides?_iff, OrderedMap.values, List.map_map, List.mem_map]
  constructor
  . rintro ⟨_, ⟨a, ha, rfl⟩, _, ⟨b, hb, rfl⟩, hne⟩
    exact ⟨_, ⟨a, ha, rfl⟩, _, ⟨b, hb, rfl⟩, fun heq => hne (congrArg TypeRef.render heq)⟩
  . rintro ⟨_, ⟨a, ha, rfl⟩, _, ⟨b, hb, rfl⟩, hne⟩
    exact ⟨_, ⟨a, ha, rfl⟩, _, ⟨b, hb, rfl⟩, fun heq => hne (TypeRef.render_injective heq)⟩

theorem isSome_sides?_normalize_iff {ρ : Type} (ids : Identities) {preferred : Bool}
    {types : List TypeRef} {t : TypeRef} (helected : TypeRef.IsElected preferred types t)
    {byGraph : ByGraph ρ} {typeOf : ρ → TypeRef}
    (hrecorded : ∀ u, u ∈ byGraph.values.map typeOf ↔ u ∈ types)
    : (sides? ids (byGraph.toList.map fun (graph, d) =>
        ((t.normalize preferred (typeOf d)).render, graph))).isSome
        ↔
      ∃ a ∈ types, ∃ b ∈ types, ¬ a.SameNullable b := by
  -- Reading against the elected type forgets the outermost mark and nothing else.
  have hall := not_congr helected.normalize_eq_iff
  push Not at hall
  rw [isSome_sides?_render_iff]
  simpa only [hrecorded] using hall

section

variable {keeps : Schema → Directive → Bool} {sources : List (GraphId × Schema)}

theorem isElected_output {contents : Schema → List FieldDef} {e : FieldEntry}
    (he : FieldEntry.ofDeclared? (declared keeps sources contents) = some e)
    : TypeRef.IsElected false
        ((sources.map Prod.snd).flatMap fun s => (contents s).map (·.type)) e.type := by
  have h := (FieldEntry.merges he).type
  rw [map_declared] at h
  rwa [List.flatMap_map]

variable (ids : Identities) (hnodup : (sources.map Prod.fst).Nodup)

section

variable {contents : Schema → List InputValueDef} {e : InputEntry}
variable (he : InputEntry.ofDeclared? (declared keeps sources contents) = some e)

include he

theorem isElected_input :
    TypeRef.IsElected true
      ((sources.map Prod.snd).flatMap fun s => (contents s).map (·.type)) e.type := by
  have h := (InputEntry.merges he).type
  rw [map_declared] at h
  rwa [List.flatMap_map]

theorem defaultValue_input :
    e.defaultValue = ((sources.map Prod.snd).flatMap contents).findSome? (·.defaultValue) := by
  have hcontents : (declared keeps sources contents).map Prod.snd
      = (sources.map Prod.snd).flatMap contents := by
    rw [map_declared, List.flatMap_map]
    exact List.flatMap_congr fun _ _ => List.map_id _
  rw [(InputEntry.merges he).defaultValue, ← hcontents, List.findSome?_map]
  rfl

include hnodup

theorem mem_recorded_input {σ : Type} (f : InputInGraph → σ) (g : InputValueDef → σ)
    (hfg : ∀ keeps d, f (.ofDef keeps d) = g d) (y : σ)
    : y ∈ e.byGraph.values.map f
        ↔
      y ∈ (sources.map Prod.snd).flatMap fun s => (contents s).getLast?.toList.map g := by
  rw [(InputEntry.merges he).byGraph]
  exact mem_map_values_records hnodup hfg y

theorem isSome_inputTypes_iff (hsingle : ∀ s ∈ sources.map Prod.snd, (contents s).length ≤ 1) :
    (sides? ids (inputTypes e)).isSome
      ↔
    Differ (schemaSet (sources.map Prod.snd)) (fun s => (contents s).map (·.type))
      fun a b => ¬ a.SameNullable b := by
  unfold inputTypes
  rw [TypeRef.normalizeInput_eq, differ_schemaSet_iff]
  apply isSome_sides?_normalize_iff ids (isElected_input he)
  intro u
  rw [mem_recorded_input hnodup he (·.type) (·.type) fun _ _ => rfl]
  rw [List.flatMap_congr fun s hs => by rw [toList_getLast?_of_length_le (hsingle s hs)]]

theorem isSome_defaults_iff :
    (sides? ids (defaults e)).isSome
      ↔
    Differ (schemaSet (sources.map Prod.snd))
      (fun s => (contents s).getLast?.toList.filterMap fun d => d.defaultValue.map (·.render 0))
      (· ≠ ·) := by
  have hmem : ∀ text, (∃ graph, (text, graph) ∈ defaults e)
      ↔ text ∈ (sources.map Prod.snd).flatMap fun s =>
        (contents s).getLast?.toList.filterMap fun d => d.defaultValue.map (·.render 0) := by
    intro text
    have h := mem_recorded_input hnodup he (fun d => d.defaultValue.map (·.render 0))
      (fun d => d.defaultValue.map (·.render 0)) (fun _ _ => rfl) (some text)
    simpa [defaults, OrderedMap.values] using h
  rw [isSome_sides?_iff, differ_schemaSet_iff]
  constructor
  . rintro ⟨⟨a, graph⟩, ha, ⟨b, graph'⟩, hb, hne⟩
    exact ⟨a, (hmem a).1 ⟨graph, ha⟩, b, (hmem b).1 ⟨graph', hb⟩, hne⟩
  . rintro ⟨a, ha, b, hb, hne⟩
    obtain ⟨graph, ha⟩ := (hmem a).2 ha
    obtain ⟨graph', hb⟩ := (hmem b).2 hb
    exact ⟨_, ha, _, hb, hne⟩

theorem isSome_missing?_iff {whole : Schema → Prop} {parents : List GraphId}
    (hparents : DeclaredWhere sources whole parents)
    : (missing? ids parents e).isSome
        ↔
      (∃ d ∈ e.byGraph.values, d.isRequired)
        ∧ ∃ s ∈ sources.map Prod.snd, whole s ∧ contents s = [] := by
  have habsent := hparents.exists_not_mem_iff hnodup (InputEntry.declaredWhere he)
  simp only [ne_eq, not_not] at habsent
  rw [← habsent]
  have hrequired : (e.byGraph.filter fun _ d => d.isRequired).keys = []
      ↔ ¬ ∃ d ∈ e.byGraph.values, d.isRequired := by
    simp only [OrderedMap.keys, OrderedMap.values, OrderedMap.toList_filter, List.map_eq_nil_iff,
      List.filter_eq_nil_iff, List.mem_map]
    grind
  have hmissing : parents.filter (!e.byGraph.contains ·) = []
      ↔ ¬ ∃ graph ∈ parents, graph ∉ e.byGraph.keys := by
    simp [List.filter_eq_nil_iff, ← OrderedMap.contains_iff]
  unfold missing?
  dsimp only
  split
  . next h =>
    rw [Bool.or_eq_true, List.isEmpty_iff, List.isEmpty_iff, hrequired, hmissing] at h
    refine iff_of_false (by simp) ?_
    rintro ⟨hr, hm⟩
    exact h.elim (· hr) (· hm)
  . next h =>
    rw [Bool.or_eq_true, List.isEmpty_iff, List.isEmpty_iff, hrequired, hmissing, not_or, not_not,
      not_not] at h
    exact iff_of_true rfl h

end

end

section

variable {sources : List (GraphId × Schema)} (hnodup : (sources.map Prod.fst).Nodup)
variable {name : Name} {e : DirectiveEntry}
variable (he : DirectiveEntry.ofDeclared? (declared (fun _ _ => false) sources fun s =>
  (s.directiveUse? name).toList) = some e)

include hnodup he

theorem mem_recorded_directive {σ : Type} (f : DirectiveInGraph → σ) (g : DirectiveUse → σ)
    (hfg : ∀ keeps d, f (.ofUse keeps d) = g d) (y : σ)
    : y ∈ e.byGraph.values.map f
        ↔
      y ∈ (sources.map Prod.snd).flatMap fun s => (s.directiveUse? name).toList.map g := by
  rw [(DirectiveEntry.merges he).byGraph, mem_map_values_records hnodup hfg]
  rw [List.flatMap_congr fun s _ => by
    rw [toList_getLast?_of_length_le (by cases s.directiveUse? name <;> simp)]]

theorem isExecutable_iff :
    e.isExecutable
      ↔
    ∃ s ∈ sources.map Prod.snd, ∃ d ∈ s.userDirective? name, ∃ location ∈ d.locations,
      location.isExecutable := by
  have hvalues := mem_recorded_directive hnodup he
    (fun d => d.locations.toList.any (·.isExecutable))
    (fun d => d.definition.locations.any (·.isExecutable))
    (by intro _ d; rw [Bool.eq_iff_iff]; simp [DirectiveInGraph.ofUse]) true
  have hexecutable : e.isExecutable
      ↔ true ∈ e.byGraph.values.map fun d => d.locations.toList.any (·.isExecutable) := by
    simp [DirectiveEntry.isExecutable]
  rw [hexecutable, hvalues]
  simp only [List.mem_flatMap, List.mem_map]
  apply exists_congr
  intro s
  apply and_congr_right
  intro _
  unfold Schema.directiveUse?
  cases s.userDirective? name <;> simp

theorem size_byGraph_eq_length_iff :
    e.byGraph.size = sources.length
      ↔
    ∀ s ∈ sources.map Prod.snd, (s.userDirective? name).isSome := by
  rw [← OrderedMap.length_keys]
  exact DeclaredWhere.length_eq_iff hnodup e.byGraph.keys_nodup (DirectiveEntry.declaredWhere he)

end

theorem mem_keys_sharedInputs {ρ : Type} {keeps : Schema → Directive → Bool}
    {sources : List (GraphId × Schema)} (hnodup : (sources.map Prod.fst).Nodup)
    {inputs : OrderedMap Name InputEntry} {name : Name} {contents : Schema → List InputValueDef}
    (hinputs : inputs.get? name = InputEntry.ofDeclared? (declared keeps sources contents))
    {byGraph : ByGraph ρ} {whole : Schema → Prop}
    (hparents : DeclaredWhere sources whole byGraph.keys)
    (hsub : ∀ s, contents s ≠ [] → whole s) (hdeclared : ∃ s ∈ sources.map Prod.snd, whole s)
    : name ∈ (sharedInputs byGraph.size inputs).keys
        ↔
      ∀ s ∈ sources.map Prod.snd, whole s → contents s ≠ [] := by
  unfold sharedInputs
  rw [OrderedMap.mem_keys_iff, OrderedMap.get?_filter, hinputs]
  cases h : InputEntry.ofDeclared? (declared keeps sources contents) with
  | none =>
    obtain ⟨s, hs, hwhole⟩ := hdeclared
    refine iff_of_false (by simp) ?_
    intro hall
    have hsome : (InputEntry.ofDeclared? (declared keeps sources contents)).isSome :=
      (isSome_merged?_declared_iff _).2 ⟨s, hs, hall s hs hwhole⟩
    rw [h] at hsome
    cases hsome
  | some e =>
    rw [← DeclaredWhere.length_eq_length_iff hnodup e.byGraph.keys_nodup byGraph.keys_nodup
      (InputEntry.declaredWhere h) hparents hsub, OrderedMap.length_keys, OrderedMap.length_keys]
    simp [Option.filter]

end Rule

end Supergraph
