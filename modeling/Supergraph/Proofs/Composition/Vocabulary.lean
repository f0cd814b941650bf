import Supergraph.Proofs.Composition.Declarations
import Supergraph.Proofs.Model.Retained

/-!
This module contains the proof that subgraphs cannot alter the vocabulary of a supergraph: no name
that belongs to it passes for one of the authors' own.
-/

namespace Supergraph

open GraphQL

/--
The part of a schema that is not merged from subgraphs: the applications on the schema definition,
and the definitions under names that are built in or belong to a specification that is linked.
-/
structure Vocabulary where
  links : List Directive
  directiveDefs : List (Name × DirectiveDef)
  types : List (Name × TypeDef)

def Join.isMergedDirective (name : Name) : Bool :=
  !isBuiltInDirective name && name != .lit "link" && !isMerged.beginnings.any fun beginning =>
    beginning.toList.isPrefixOf name.text.toList

def GraphQL.Schema.vocabulary (s : Schema) : Vocabulary where
  links := s.directives
  directiveDefs := s.directiveDefs.toList.filter (!Join.isMergedDirective ·.1)
  types := s.types.toList.filter (!Join.isMerged ·.1)

def Vocabulary.ofGraphs (graphs : Identities) : Vocabulary where
  links := Join.links
  directiveDefs := Schema.builtIn.directiveDefs.toList ++ Join.directiveDefs
  types := Schema.builtIn.types.toList ++ Join.types graphs

def Subgraph.served (s : Subgraph) : String × Option String := (s.name, s.url)

def Subgraph.ofServed (served : String × Option String) : Subgraph where
  name := served.1
  url := served.2
  schema := { directiveDefs := ∅, types := ∅ }

namespace Subgraph

theorem name_ofServed (s : Subgraph) : (ofServed s.served).name = s.name := rfl

theorem url_ofServed (s : Subgraph) : (ofServed s.served).url = s.url := rfl

end Subgraph

namespace Identities

theorem add_ofServed_served (ids : Identities) (id : GraphId) (s : Subgraph)
    : ids.add id (.ofServed s.served) = ids.add id s := by
  unfold add
  rw [Subgraph.name_ofServed, Subgraph.url_ofServed]

theorem foldlM_add_congr (assign : String → GraphId) {subgraphs subgraphs' : List Subgraph}
    (h : subgraphs.map Subgraph.served = subgraphs'.map Subgraph.served) (ids : Identities)
    : subgraphs.foldlM (fun ids s => ids.add (assign s.name) s) ids
        =
      subgraphs'.foldlM (fun ids s => ids.add (assign s.name) s) ids := by
  have hserved : (fun (ids : Identities) s => ids.add (assign s.name) s)
      = fun ids s => ids.add (assign s.served.1) (.ofServed s.served) := by
    funext ids s
    exact (add_ofServed_served ids (assign s.name) s).symm
  rw [hserved, ← List.foldlM_map (f := Subgraph.served)
    (g := fun (ids : Identities) served => ids.add (assign served.1) (.ofServed served)), h,
    List.foldlM_map]

theorem resolve_congr {subgraphs subgraphs' : List Subgraph}
    (h : subgraphs.map Subgraph.served = subgraphs'.map Subgraph.served)
    : resolve subgraphs = resolve subgraphs' := by
  have hnames : subgraphs.map (·.name) = subgraphs'.map (·.name) := by
    have hfst := congrArg (List.map Prod.fst) h
    rwa [List.map_map, List.map_map] at hfst
  unfold resolve
  rw [hnames]
  dsimp only
  rw [foldlM_add_congr _ h]

theorem resolve_ofServed (subgraphs : List Subgraph)
    : resolve ((subgraphs.map Subgraph.served).map .ofServed) = resolve subgraphs := by
  apply resolve_congr
  rw [List.map_map, List.map_map]
  rfl

end Identities

theorem Join.isMergedDirective_of_isUserDirective {name : Name}
    (h : Federation.isUserDirective name) : isMergedDirective name := by
  have hgiven : ∀ name ∈ Schema.builtIn.directiveDefs.keys,
      Federation.isUserDirective name = false := by
    decide
  have hbuiltIn : isBuiltInDirective name = false := by
    rw [Bool.eq_false_iff]
    intro hbuiltIn
    rw [hgiven name ((OrderedMap.contains_iff _ _).1 hbuiltIn)] at h
    cases h
  have hlink : name ≠ .lit "link" := by
    rintro rfl
    revert h
    decide
  unfold Federation.isUserDirective Federation.isNamespaced Federation.namespaces at h
  unfold isMergedDirective isMerged.beginnings
  simp only [Bool.and_eq_true, Bool.not_eq_true', List.any_cons, Bool.or_eq_false_iff] at h ⊢
  exact ⟨⟨hbuiltIn, bne_iff_ne.2 hlink⟩, h.2.2⟩

theorem toList_givenTypes (graphs : Identities) :
    (Model.givenTypes graphs).toList = Schema.builtIn.types.toList ++ Join.types graphs := by
  apply OrderedMap.toList_insertMany_of_nodup
  have hnames : (Join.types graphs).map Prod.fst
      = [.lit "link__Purpose", .lit "link__Import", Join.fieldSet, Join.graphType] :=
    rfl
  rw [hnames]
  decide

namespace Model

variable {subgraphs : List Subgraph} {graphs : Identities}

theorem directiveDefs_vocabulary_toSchema :
    (ofSubgraphs graphs subgraphs).toSchema.vocabulary.directiveDefs
      =
    Schema.builtIn.directiveDefs.toList ++ Join.directiveDefs := by
  have hmerged : ∀ e ∈ (ofSubgraphs graphs subgraphs).retained.toList.map
      fun e => (e.1, e.2.definition), (!Join.isMergedDirective e.1) = false := by
    intro e he
    obtain ⟨⟨name, d⟩, hmem, rfl⟩ := List.mem_map.1 he
    obtain ⟨entry, hentry, -⟩ :=
      get?_retained_eq_some_iff.1 ((OrderedMap.mem_toList_iff _ _ _).1 hmem)
    have huser := isUserDirective_of_get?_directives hentry
    rw [Join.isMergedDirective_of_isUserDirective huser]
    rfl
  refine (OrderedMap.filter_toList_insertMany (p := (!Join.isMergedDirective ·)) hmerged).trans ?_
  rw [OrderedMap.toList_insertMany_of_nodup (by decide), List.filter_eq_self]
  decide

theorem types_vocabulary_toSchema (h : Identities.resolve subgraphs = .ok graphs) :
    (ofSubgraphs graphs subgraphs).toSchema.vocabulary.types
      =
    Schema.builtIn.types.toList ++ Join.types graphs := by
  have hmerged : ∀ e ∈ (ofSubgraphs graphs subgraphs).emitTypes.toList,
      (!Join.isMerged e.1) = false := by
    intro e he
    have hname : e.1 ∈ (ofSubgraphs graphs subgraphs).emitTypes.keys := List.mem_map_of_mem he
    rw [keys_emitTypes h, OrderedSet.mem_toList, OrderedSet.mem_ofList] at hname
    obtain ⟨s, -, hname⟩ := List.mem_flatMap.1 hname
    rw [Join.isMerged_of_isUserType (List.mem_filter.1 hname).2]
    rfl
  refine (OrderedMap.filter_toList_insertMany (p := (!Join.isMerged ·)) hmerged).trans ?_
  rw [graphs_ofSubgraphs]
  change (givenTypes graphs).toList.filter (!Join.isMerged ·.1) = _
  rw [List.filter_eq_self.2, toList_givenTypes]
  intro e he
  rw [isMerged_of_mem_givenTypes (List.mem_map_of_mem he)]
  rfl

end Model

theorem compose_vocabulary {subgraphs : List Subgraph} {disabled : List String} {c : Composition}
    (hc : compose subgraphs disabled = .ok c)
    : (∃ graphs, Identities.resolve ((subgraphs.map Subgraph.served).map .ofServed) = .ok graphs
          ∧ c.schema.vocabulary = .ofGraphs graphs)
        ∧ ∀ subgraphs' disabled' c',
          subgraphs'.map Subgraph.served = subgraphs.map Subgraph.served →
            compose subgraphs' disabled' = .ok c' → c'.schema.vocabulary = c.schema.vocabulary := by
  have hvocabulary : ∀ {subgraphs disabled c}, compose subgraphs disabled = .ok c →
      ∃ graphs, Identities.resolve subgraphs = .ok graphs
        ∧ c.schema.vocabulary = .ofGraphs graphs := by
    intro subgraphs disabled c hc
    obtain ⟨graphs, h, -, rfl⟩ := (compose_eq_ok_iff _ _ _).1 hc
    refine ⟨graphs, h, ?_⟩
    unfold Vocabulary.ofGraphs
    rw [← Model.directiveDefs_vocabulary_toSchema, ← Model.types_vocabulary_toSchema h]
    rfl
  obtain ⟨graphs, h, hgraphs⟩ := hvocabulary hc
  constructor
  . exact ⟨graphs, (Identities.resolve_ofServed subgraphs).trans h, hgraphs⟩
  . intro subgraphs' disabled' c' hserved hc'
    obtain ⟨graphs', h', hgraphs'⟩ := hvocabulary hc'
    rw [Identities.resolve_congr hserved, h] at h'
    cases h'
    rw [hgraphs', hgraphs]

def posingSubgraphs : List Subgraph := ["first", "second"].map fun name => {
  name
  schema := {
    directives := [{ name := .lit "link", arguments := [(.lit "url", .string name)] }]
    directiveDefs := .ofList [
      (.lit "link", { repeatable := true, locations := [.object] }),
      (.lit "join__type", { locations := [.object] })]
    types := .ofList [
      (.lit "join__Graph", { body := .scalar }),
      (.lit "link__Purpose", { body := .union ∅ }),
      (.lit "String", { body := .inputObject ∅ }),
      (.lit "Query", { body := .object { interfaces := ∅, fields := ∅ } })] } }

def bareSubgraphs : List Subgraph := ["first", "second"].map fun name => .ofServed (name, none)

theorem compose_vocabulary_posing :
    compose posingSubgraphs [] = .ok (sampleResult posingSubgraphs)
      ∧ compose bareSubgraphs [] = .ok (sampleResult bareSubgraphs)
      ∧ (sampleResult bareSubgraphs).schema.vocabulary
        = (sampleResult posingSubgraphs).schema.vocabulary := by
  have hc : compose posingSubgraphs [] = .ok (sampleResult posingSubgraphs) :=
    compose_eq_sampleResult rfl (by decide +kernel)
  have hc' : compose bareSubgraphs [] = .ok (sampleResult bareSubgraphs) :=
    compose_eq_sampleResult rfl (by decide +kernel)
  exact ⟨hc, hc', (compose_vocabulary hc).2 bareSubgraphs [] _ rfl hc'⟩

end Supergraph
