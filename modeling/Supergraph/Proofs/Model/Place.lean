import Mathlib.Data.List.Perm.Subperm
import Supergraph.Proofs.Model.Run

namespace Supergraph

open GraphQL

namespace GraphQL.Schema

def kindsAt (s : Schema) (slot : Slot) (place : Coordinate) : List TypeKind :=
  match slot, place with
  | .namedType, .type type => ((s.userType? type).map (·.kind)).toList
  | _, _ => []

def fieldsAt (s : Schema) (slot : Slot) (place : Coordinate) : List FieldDef :=
  match slot, place with
  | .objectField, .member type field => (s.field? TypeDef.object? type field).toList
  | .interfaceField, .member type field => (s.field? TypeDef.interface? type field).toList
  | _, _ => []

def inputsAt (s : Schema) (slot : Slot) (place : Coordinate) : List InputValueDef :=
  match slot, place with
  | .objectFieldArgument, .argument type field argument =>
    s.arguments TypeDef.object? type field argument
  | .interfaceFieldArgument, .argument type field argument =>
    s.arguments TypeDef.interface? type field argument
  | .inputObjectField, .member type field => (s.inputField? type field).toList
  | .directiveArgument, .directiveArgument directive argument =>
    s.directiveArguments directive argument
  | _, _ => []

def declaresParentAt (s : Schema) (slot : Slot) (place : Coordinate) : Bool :=
  match slot, place with
  | .objectFieldArgument, .argument type field _ => (s.field? TypeDef.object? type field).isSome
  | .interfaceFieldArgument, .argument type field _ =>
    (s.field? TypeDef.interface? type field).isSome
  | .inputObjectField, .member type _ => ((s.userType? type).bind TypeDef.inputObject?).isSome
  | .directiveArgument, .directiveArgument directive _ => (s.userDirective? directive).isSome
  | _, _ => false

theorem length_kindsAt_le_one (s : Schema) (slot : Slot) (place : Coordinate) :
    (s.kindsAt slot place).length ≤ 1 := by
  unfold kindsAt
  split
  . exact Option.length_toList_le
  . exact Nat.zero_le 1

theorem length_fieldsAt_le_one (s : Schema) (slot : Slot) (place : Coordinate) :
    (s.fieldsAt slot place).length ≤ 1 := by
  unfold fieldsAt
  split
  . exact Option.length_toList_le
  . exact Option.length_toList_le
  . exact Nat.zero_le 1

theorem DistinctArguments.length_inputsAt_le_one {s : Schema} (hs : s.DistinctArguments)
    (slot : Slot) (place : Coordinate) : (s.inputsAt slot place).length ≤ 1 := by
  unfold inputsAt
  split
  . exact hs.length_arguments_le_one TypeDef.fieldDefs_of_object? _ _ _
  . exact hs.length_arguments_le_one TypeDef.fieldDefs_of_interface? _ _ _
  . exact Option.length_toList_le
  . exact hs.length_directiveArguments_le_one _ _
  . exact Nat.zero_le 1

end GraphQL.Schema

namespace Visit

def fieldEntry? (v : Visit) : Option FieldEntry :=
  match v with
  | .objectField _ _ _ field => some field
  | .interfaceField _ _ _ field => some field
  | _ => none

def inputEntry? (v : Visit) : Option InputEntry :=
  match v with
  | .objectFieldArgument _ _ _ _ _ argument => some argument
  | .interfaceFieldArgument _ _ _ _ _ argument => some argument
  | .inputObjectField _ _ _ field => some field
  | .directiveArgument _ _ _ argument => some argument
  | _ => none

def parentGraphs (v : Visit) : List GraphId :=
  match v with
  | .objectFieldArgument _ _ _ field _ _ => field.byGraph.keys
  | .interfaceFieldArgument _ _ _ field _ _ => field.byGraph.keys
  | .inputObjectField _ type _ _ => type.byGraph.keys
  | .directiveArgument _ entry _ _ => entry.byGraph.keys
  | _ => []

end Visit

def DeclaredWhere (sources : List (GraphId × Schema)) (p : Schema → Prop) (graphs : List GraphId) :
    Prop :=
  ∀ graph, graph ∈ graphs ↔ ∃ s, (graph, s) ∈ sources ∧ p s

namespace DeclaredWhere

theorem records {δ ρ : Type} (keeps : Schema → Directive → Bool)
    (sources : List (GraphId × Schema)) (contents : Schema → List δ)
    (record : (Directive → Bool) → δ → ρ)
    : DeclaredWhere sources (fun s => contents s ≠ [])
        (Declared.records (declared keeps sources contents) record).keys :=
  fun graph => mem_keys_records graph

theorem congr {sources : List (GraphId × Schema)} {p q : Schema → Prop} {graphs : List GraphId}
    (h : DeclaredWhere sources p graphs) (hpq : ∀ s, p s ↔ q s)
    : DeclaredWhere sources q graphs := by
  intro graph
  simp only [h graph, hpq]

variable {sources : List (GraphId × Schema)} (hnodup : (sources.map Prod.fst).Nodup)
variable {whole part : Schema → Prop}

include hnodup

theorem exists_not_mem_iff {graphs graphs' : List GraphId} (h : DeclaredWhere sources whole graphs)
    (h' : DeclaredWhere sources part graphs')
    : (∃ graph ∈ graphs, graph ∉ graphs')
        ↔
      ∃ s ∈ sources.map Prod.snd, whole s ∧ ¬ part s := by
  simp only [h _, h' _, List.mem_map, Prod.exists, exists_eq_right, not_exists, not_and]
  constructor
  . rintro ⟨graph, ⟨s, hmem, hwhole⟩, hnone⟩
    exact ⟨s, ⟨graph, hmem⟩, hwhole, hnone s hmem⟩
  . rintro ⟨s, ⟨graph, hmem⟩, hwhole, hnone⟩
    refine ⟨graph, ⟨s, hmem, hwhole⟩, ?_⟩
    intro s' hmem'
    have heq : (graph, s) = (graph, s') := List.inj_on_of_nodup_map hnodup hmem hmem' rfl
    cases heq
    exact hnone

theorem length_eq_length_iff {graphs graphs' : List GraphId} (hgraphs : graphs.Nodup)
    (hgraphs' : graphs'.Nodup) (h : DeclaredWhere sources part graphs)
    (h' : DeclaredWhere sources whole graphs') (hsub : ∀ s, part s → whole s)
    : graphs.length = graphs'.length ↔ ∀ s ∈ sources.map Prod.snd, whole s → part s := by
  have hsubperm : graphs.Subperm graphs' := by
    apply List.subperm_of_subset hgraphs
    intro graph hgraph
    rw [h graph] at hgraph
    rw [h' graph]
    obtain ⟨s, hmem, hs⟩ := hgraph
    exact ⟨s, hmem, hsub s hs⟩
  -- One list is part of the other, so equal lengths leave nothing out.
  have hsubset : graphs.length = graphs'.length ↔ graphs' ⊆ graphs := by
    constructor
    . intro hlength
      exact (hsubperm.perm_of_length_le (Nat.le_of_eq hlength.symm)).symm.subset
    . intro hsubset
      exact Nat.le_antisymm hsubperm.length_le (List.subperm_of_subset hgraphs' hsubset).length_le
  rw [hsubset, ← not_iff_not, List.subset_def]
  simp only [not_forall, exists_prop]
  exact exists_not_mem_iff hnodup h' h

theorem length_eq_iff {graphs : List GraphId} (hgraphs : graphs.Nodup)
    (h : DeclaredWhere sources part graphs)
    : graphs.length = sources.length ↔ ∀ s ∈ sources.map Prod.snd, part s := by
  have hall : DeclaredWhere sources (fun _ => True) (sources.map Prod.fst) := by
    intro graph
    simp
  have hlength := length_eq_length_iff hnodup hgraphs hnodup h hall fun _ _ => trivial
  simpa using hlength

end DeclaredWhere

section

variable {keeps : Schema → Directive → Bool} {sources : List (GraphId × Schema)}

theorem InputEntry.declaredWhere {contents : Schema → List InputValueDef} {e : InputEntry}
    (h : ofDeclared? (declared keeps sources contents) = some e)
    : DeclaredWhere sources (fun s => contents s ≠ []) e.byGraph.keys := by
  rw [(merges h).byGraph]
  exact .records _ _ _ _

theorem FieldEntry.declaredWhere {content? : Schema → Option FieldDef} {e : FieldEntry}
    (h : ofDeclared? (declared keeps sources fun s => (content? s).toList) = some e)
    : DeclaredWhere sources (fun s => (content? s).isSome) e.byGraph.keys := by
  rw [(merges h).byGraph]
  exact (DeclaredWhere.records _ _ _ _).congr fun s => toList_ne_nil_iff _

theorem CompositeEntry.declaredWhere {content? : Schema → Option (TypeDef × CompositeBody)}
    {e : CompositeEntry}
    (h : ofDeclared? (declared keeps sources fun s => (content? s).toList) = some e)
    : DeclaredWhere sources (fun s => (content? s).isSome) e.byGraph.keys := by
  rw [(merges h).byGraph]
  exact (DeclaredWhere.records _ _ _ _).congr fun s => toList_ne_nil_iff _

theorem InputObjectEntry.declaredWhere
    {content? : Schema → Option (TypeDef × OrderedMap Name InputValueDef)} {e : InputObjectEntry}
    (h : ofDeclared? (declared keeps sources fun s => (content? s).toList) = some e)
    : DeclaredWhere sources (fun s => (content? s).isSome) e.byGraph.keys := by
  rw [(merges h).byGraph]
  exact (DeclaredWhere.records _ _ _ _).congr fun s => toList_ne_nil_iff _

theorem DirectiveEntry.declaredWhere {name : Name} {e : DirectiveEntry}
    (h : ofDeclared? (declared keeps sources fun s => (s.directiveUse? name).toList) = some e)
    : DeclaredWhere sources (fun s => (s.userDirective? name).isSome) e.byGraph.keys := by
  rw [(merges h).byGraph]
  apply (DeclaredWhere.records _ _ _ _).congr
  intro s
  rw [toList_ne_nil_iff]
  unfold Schema.directiveUse?
  rw [Option.isSome_map]

end

section

variable {subgraphs : List Subgraph} {graphs : Identities} {v : Visit}
variable (hv : v ∈ (Model.ofSubgraphs graphs subgraphs).visits)

include hv

theorem Visit.ofDeclared?_fieldEntry {e : FieldEntry} (he : v.fieldEntry? = some e) :
    FieldEntry.ofDeclared? (declared Schema.keeps (Model.sources graphs subgraphs)
      (·.fieldsAt v.slot v.place)) = some e := by
  rw [Model.mem_visits_iff] at hv
  cases v with
  | objectField typeName type name field =>
    cases he
    exact Model.ofDeclared?_objectField hv.1 hv.2
  | interfaceField typeName type name field =>
    cases he
    exact Model.ofDeclared?_interfaceField hv.1 hv.2
  | _ => cases he

theorem Visit.ofDeclared?_inputEntry {e : InputEntry} (he : v.inputEntry? = some e) :
    ∃ keeps, InputEntry.ofDeclared? (declared keeps (Model.sources graphs subgraphs)
      (·.inputsAt v.slot v.place)) = some e := by
  rw [Model.mem_visits_iff] at hv
  cases v with
  | objectFieldArgument typeName type fieldName field name argument =>
    cases he
    obtain ⟨htype, hfield, hargument⟩ := hv
    rw [FieldEntry.get?_arguments (Model.ofDeclared?_objectField htype hfield)] at hargument
    exact ⟨_, hargument⟩
  | interfaceFieldArgument typeName type fieldName field name argument =>
    cases he
    obtain ⟨htype, hfield, hargument⟩ := hv
    rw [FieldEntry.get?_arguments (Model.ofDeclared?_interfaceField htype hfield)] at hargument
    exact ⟨_, hargument⟩
  | inputObjectField typeName type name field =>
    cases he
    obtain ⟨htype, hfield⟩ := hv
    rw [Model.get?_inputObjects] at htype
    rw [InputObjectEntry.get?_fields htype] at hfield
    exact ⟨_, hfield⟩
  | directiveArgument directiveName entry name argument =>
    cases he
    obtain ⟨hdirective, hargument⟩ := hv
    rw [Model.get?_directives] at hdirective
    rw [DirectiveEntry.get?_arguments hdirective] at hargument
    exact ⟨_, hargument⟩
  | _ => cases he

theorem Visit.declaredWhere_parentGraphs :
    DeclaredWhere (Model.sources graphs subgraphs) (fun s => s.declaresParentAt v.slot v.place)
      v.parentGraphs := by
  rw [Model.mem_visits_iff] at hv
  cases v with
  | objectFieldArgument typeName type fieldName field name argument =>
    exact FieldEntry.declaredWhere (Model.ofDeclared?_objectField hv.1 hv.2.1)
  | interfaceFieldArgument typeName type fieldName field name argument =>
    exact FieldEntry.declaredWhere (Model.ofDeclared?_interfaceField hv.1 hv.2.1)
  | inputObjectField typeName type name field =>
    have htype := hv.1
    rw [Model.get?_inputObjects] at htype
    exact InputObjectEntry.declaredWhere htype
  | directiveArgument directiveName entry name argument =>
    have hentry := hv.1
    rw [Model.get?_directives] at hentry
    exact DirectiveEntry.declaredWhere hentry
  | _ =>
    intro graph
    simp [Visit.parentGraphs, Visit.slot, Schema.declaresParentAt]

end

end Supergraph
