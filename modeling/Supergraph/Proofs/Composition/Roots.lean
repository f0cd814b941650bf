import Supergraph.Proofs.Composition.Outcome

/-!
This module contains the theory of root types. The first subgraph that has a type for an operation
decides, also by a type with the default name that its schema definition leaves out.
-/

namespace Supergraph

open GraphQL

namespace Model

theorem roots_declareDirective (graph : GraphId) (s : Schema) (m : Model) (name : Name)
    (d : DirectiveDef) : (m.declareDirective graph s name d).roots = m.roots :=
  rfl

theorem roots_foldl_declareDirective (graph : GraphId) (s : Schema)
    (ds : List (Name × DirectiveDef)) (m : Model)
    : (ds.foldl (fun m (name, d) => m.declareDirective graph s name d) m).roots = m.roots :=
  foldl_eq_of_step (fun m d => m.roots_declareDirective graph s d.1 d.2) ds m

theorem roots_declareType (declarer : Declarer) (m : Model) (name : Name) (d : TypeDef) :
    (m.declareType declarer name d).roots = m.roots := by
  obtain ⟨description, directives, body⟩ := d
  cases body <;> rfl

theorem roots_foldl_declareType (declarer : Declarer) (ds : List (Name × TypeDef)) (m : Model) :
    (ds.foldl (fun m (name, d) => m.declareType declarer name d) m).roots = m.roots :=
  foldl_eq_of_step (fun m d => m.roots_declareType declarer d.1 d.2) ds m

theorem roots_absorb (m : Model) (graph : GraphId) (s : Schema) (operation : Operation) :
    (m.absorb graph s).roots operation = (m.roots operation).or (localRoot? s operation) := by
  unfold absorb
  dsimp only
  rw [roots_foldl_declareType, roots_foldl_declareDirective]

theorem roots_foldl_absorb (sources : List (GraphId × Schema)) (m : Model) (operation : Operation) :
    (sources.foldl (fun m (graph, s) => m.absorb graph s) m).roots operation
      =
    (m.roots operation).or ((sources.map Prod.snd).findSome? (localRoot? · operation)) := by
  induction sources generalizing m with
  | nil => exact Option.or_none.symm
  | cons source rest ih =>
    rw [List.foldl_cons, ih, roots_absorb, Option.or_assoc, List.map_cons, List.findSome?_cons]
    cases localRoot? source.2 operation <;> rfl

theorem localRoot?_eq_roots {s : Schema} {operation : Operation}
    (h : s.roots operation = none → ¬ s.types.contains operation.defaultTypeName)
    : localRoot? s operation = s.roots operation := by
  unfold localRoot?
  cases hroot : s.roots operation with
  | none => rw [if_neg (h hroot), Option.or_none]
  | some root => rfl

section

variable {subgraphs : List Subgraph} {graphs : Identities}
variable (h : Identities.resolve subgraphs = .ok graphs) (operation : Operation)

include h

theorem roots_ofSubgraphs :
    (ofSubgraphs graphs subgraphs).roots operation
      =
    subgraphs.findSome? fun s => localRoot? s.schema operation := by
  unfold ofSubgraphs
  rw [roots_foldl_absorb, map_snd_sources h, List.findSome?_map]
  exact Option.none_or

theorem roots_toSchema :
    (ofSubgraphs graphs subgraphs).toSchema.roots operation
        = (subgraphs.findSome? fun s => localRoot? s.schema operation).filter
          (ofSubgraphs graphs subgraphs).objects.contains
      ∧ ((∀ s ∈ subgraphs, s.schema.roots operation = none →
          ¬ s.schema.types.contains operation.defaultTypeName) →
        (ofSubgraphs graphs subgraphs).toSchema.roots operation
          = (subgraphs.findSome? (·.schema.roots operation)).filter
            (ofSubgraphs graphs subgraphs).objects.contains) := by
  have hroots : (ofSubgraphs graphs subgraphs).toSchema.roots operation
      = (subgraphs.findSome? fun s => localRoot? s.schema operation).filter
        (ofSubgraphs graphs subgraphs).objects.contains := by
    rw [← roots_ofSubgraphs h operation]
    rfl
  refine ⟨hroots, ?_⟩
  intro hnamed
  have hlocal : subgraphs.filterMap (fun s => localRoot? s.schema operation)
      = subgraphs.filterMap (·.schema.roots operation) := by
    apply List.filterMap_congr
    intro s hs
    exact localRoot?_eq_roots (hnamed s hs)
  -- The first answer is the head of all answers, and these are the same.
  rw [hroots, ← List.head?_filterMap, ← List.head?_filterMap, hlocal]

end

theorem roots_toSchema_sample :
    Identities.resolve sampleSubgraphs = .ok sampleGraphs
      ∧ (ofSubgraphs sampleGraphs sampleSubgraphs).toSchema.roots .query = some (.lit "Query")
      ∧ (ofSubgraphs sampleGraphs sampleSubgraphs).toSchema.roots .mutation = none := by
  have hnamed : ∀ s ∈ sampleSubgraphs, s.schema.roots .mutation = none →
      ¬ s.schema.types.contains Operation.mutation.defaultTypeName := by
    decide
  refine ⟨resolve_sampleSubgraphs, ?_, ?_⟩
  . rw [(roots_toSchema resolve_sampleSubgraphs .query).1]
    decide
  . rw [(roots_toSchema resolve_sampleSubgraphs .mutation).2 hnamed]
    decide

end Model

def unnamedMutation : SubgraphText where
  name := "first"
  text := "schema \x7b query: Query \x7d type Query \x7b a: Int \x7d type Mutation \x7b b: Int \x7d"

theorem exists_root_not_named :
    ∃ s c, Subgraph.parse unnamedMutation = .ok s ∧ compose [s] [] = .ok c
      ∧ s.schema.roots .mutation = none ∧ c.schema.roots .mutation = some (.lit "Mutation") := by
  have hany : (Subgraph.parse unnamedMutation).toOption.any fun s =>
      (compose [s] []).toOption.any fun c =>
        s.schema.roots .mutation = none && c.schema.roots .mutation = some (.lit "Mutation") := by
    decide +kernel
  obtain ⟨s, hs, hany⟩ := Except.exists_ok_of_any hany
  obtain ⟨c, hc, hroots⟩ := Except.exists_ok_of_any hany
  obtain ⟨hnone, hsome⟩ := Bool.and_eq_true_iff.1 hroots
  exact ⟨s, c, hs, hc, of_decide_eq_true hnone, of_decide_eq_true hsome⟩

namespace Model

variable {subgraphs : List Subgraph} {graphs : Identities}
variable (h : Identities.resolve subgraphs = .ok graphs) {type : Name}

include h

theorem exists_object_of_contains
    (hobject : (ofSubgraphs graphs subgraphs).objects.contains type)
    : ∃ s ∈ subgraphs, ∃ d, s.schema.userType? type = some d ∧ d.kind = .object := by
  unfold OrderedMap.contains at hobject
  rw [get?_objects, CompositeEntry.ofDeclared?, isSome_merged?_declared_iff,
    map_snd_sources h] at hobject
  obtain ⟨schema, hschema, hne⟩ := hobject
  obtain ⟨s, hs, rfl⟩ := List.mem_map.1 hschema
  obtain ⟨x, hx⟩ := Option.isSome_iff_exists.1 ((toList_ne_nil_iff _).1 hne)
  obtain ⟨d, hd, hx⟩ := Option.bind_eq_some_iff.1 hx
  refine ⟨s, hs, d, hd, ?_⟩
  obtain ⟨description, directives, body⟩ := d
  cases body with
  | object => rfl
  | _ => cases hx

end Model

theorem exists_type_of_root {subgraphs : List Subgraph} {disabled : List String} {c : Composition}
    (hc : compose subgraphs disabled = .ok c) {operation : Operation} {type : Name}
    (hroot : c.schema.roots operation = some type)
    : (∃ s ∈ subgraphs, ∃ d, s.schema.userType? type = some d ∧ d.kind = .object)
        ∧ ∃ t, c.schema.types.get? type = some t
          ∧ (subgraphs.findSome? fun s => (s.schema.userType? type).map (·.kind)) = some t.kind
          ∧ (Rule.typeKinds.name ∉ disabled → t.kind = .object) := by
  obtain ⟨graphs, h, hnone, rfl⟩ := (compose_eq_ok_iff _ _ _).1 hc
  have hobject : (Model.ofSubgraphs graphs subgraphs).objects.contains type :=
    (Option.filter_eq_some_iff.1 hroot).2
  obtain ⟨s, hs, d, hd, hkind⟩ := Model.exists_object_of_contains h hobject
  obtain ⟨t, ht, hfirst⟩ := Model.exists_emitTypes_of_userType? h hs hd
  refine ⟨⟨s, hs, d, hd, hkind⟩, t, ?_, hfirst, ?_⟩
  . rw [Model.get?_types_toSchema, ht]
    rfl
  . intro henabled
    have hagree := Model.not_kind_of_visits h (fun v hv => hnone v hv _
      ((Rule.mem_enabled_iff _ _).2 ⟨List.mem_cons_self, henabled⟩)) type
    rw [Model.get?_emitTypes_of_userType? h hagree hs hd] at ht
    rw [Model.kind_of_emitType? ht, hkind]

theorem exists_type_of_root_mutation :
    ∃ s c, Subgraph.parse unnamedMutation = .ok s ∧ compose [s] [] = .ok c
      ∧ c.schema.roots .mutation = some (.lit "Mutation")
      ∧ ∃ t, c.schema.types.get? (.lit "Mutation") = some t ∧ t.kind = .object := by
  have hany : (Subgraph.parse unnamedMutation).toOption.any fun s =>
      (compose [s] []).toOption.any fun c =>
        c.schema.roots .mutation = some (.lit "Mutation") := by
    decide +kernel
  obtain ⟨s, hs, hany⟩ := Except.exists_ok_of_any hany
  obtain ⟨c, hc, hroot⟩ := Except.exists_ok_of_any hany
  have hroot := of_decide_eq_true hroot
  obtain ⟨-, t, ht, -, hkind⟩ := exists_type_of_root hc hroot
  exact ⟨s, c, hs, hc, hroot, t, ht, hkind (by decide)⟩

def interfaceRoot : List SubgraphText := [
  { name := "first", text := "interface Query \x7b a: Int \x7d" },
  { name := "second", text := "type Query \x7b a: Int \x7d" }]

theorem exists_interface_root :
    ∃ subgraphs c, Subgraph.parseAll interfaceRoot = .ok subgraphs
      ∧ compose subgraphs ["TypesOfTheSameKindRule"] = .ok c
      ∧ c.schema.roots .query = some (.lit "Query")
      ∧ (c.schema.types.get? (.lit "Query")).map (·.kind) = some .interface := by
  have hany : (Subgraph.parseAll interfaceRoot).toOption.any fun subgraphs =>
      (compose subgraphs ["TypesOfTheSameKindRule"]).toOption.any fun c =>
        c.schema.roots .query = some (.lit "Query")
          && (c.schema.types.get? (.lit "Query")).map (·.kind) = some .interface := by
    decide +kernel
  obtain ⟨subgraphs, hsubgraphs, hany⟩ := Except.exists_ok_of_any hany
  obtain ⟨c, hc, hroot⟩ := Except.exists_ok_of_any hany
  obtain ⟨hroot, hkind⟩ := Bool.and_eq_true_iff.1 hroot
  exact ⟨subgraphs, c, hsubgraphs, hc, of_decide_eq_true hroot, of_decide_eq_true hkind⟩

end Supergraph
