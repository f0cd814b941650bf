import Supergraph.Visit
import Supergraph.Proofs.Identity.Acceptance
import Supergraph.Proofs.Model.Recorded

namespace Supergraph

open GraphQL

namespace Model

section

variable {subgraphs : List Subgraph} {graphs : Identities}
variable (h : Identities.resolve subgraphs = .ok graphs)

include h

theorem map_fst_sources : (sources graphs subgraphs).map Prod.fst = graphs.keys := by
  unfold sources
  apply List.map_fst_zip
  apply Nat.le_of_eq
  rw [OrderedMap.length_keys, Identities.size_of_resolve h, List.length_map]

theorem nodup_sources : ((sources graphs subgraphs).map Prod.fst).Nodup := by
  rw [map_fst_sources h]
  exact graphs.keys_nodup

theorem map_snd_sources :
    (sources graphs subgraphs).map Prod.snd = subgraphs.map (·.schema) := by
  unfold sources
  apply List.map_snd_zip
  apply Nat.le_of_eq
  rw [OrderedMap.length_keys, Identities.size_of_resolve h, List.length_map]

theorem mem_map_snd_sources {s : Subgraph} (hs : s ∈ subgraphs) :
    s.schema ∈ (sources graphs subgraphs).map Prod.snd := by
  rw [map_snd_sources h]
  exact List.mem_map.2 ⟨s, hs, rfl⟩

theorem mem_keys_of_mem_sources {graph : GraphId} {s : Schema}
    (hmem : (graph, s) ∈ sources graphs subgraphs) : graph ∈ graphs.keys := by
  rw [← map_fst_sources h]
  exact List.mem_map.2 ⟨_, hmem, rfl⟩

omit h in
theorem exists_of_mem_sources {graph : GraphId} {schema : Schema}
    (hmem : (graph, schema) ∈ sources graphs subgraphs) : ∃ s ∈ subgraphs, s.schema = schema :=
  List.mem_map.1 (List.of_mem_zip hmem).2

end

theorem graphs_declareDirective (graph : GraphId) (s : Schema) (m : Model) (name : Name)
    (d : DirectiveDef) : (m.declareDirective graph s name d).graphs = m.graphs :=
  rfl

theorem graphs_foldl_declareDirective (graph : GraphId) (s : Schema)
    (ds : List (Name × DirectiveDef)) (m : Model)
    : (ds.foldl (fun m (name, d) => m.declareDirective graph s name d) m).graphs = m.graphs :=
  foldl_eq_of_step (fun m d => m.graphs_declareDirective graph s d.1 d.2) ds m

theorem graphs_declareType (declarer : Declarer) (m : Model) (name : Name) (d : TypeDef) :
    (m.declareType declarer name d).graphs = m.graphs := by
  obtain ⟨description, directives, body⟩ := d
  cases body <;> rfl

theorem graphs_foldl_declareType (declarer : Declarer) (ds : List (Name × TypeDef)) (m : Model) :
    (ds.foldl (fun m (name, d) => m.declareType declarer name d) m).graphs = m.graphs :=
  foldl_eq_of_step (fun m d => m.graphs_declareType declarer d.1 d.2) ds m

@[simp]
theorem graphs_absorb (m : Model) (graph : GraphId) (s : Schema) :
    (m.absorb graph s).graphs = m.graphs := by
  unfold absorb
  dsimp only
  rw [graphs_foldl_declareType, graphs_foldl_declareDirective]

theorem graphs_foldl_absorb (sources : List (GraphId × Schema)) (m : Model) :
    (sources.foldl (fun m (graph, s) => m.absorb graph s) m).graphs = m.graphs :=
  foldl_eq_of_step (fun m source => m.graphs_absorb source.1 source.2) sources m

@[simp]
theorem graphs_ofSubgraphs (graphs : Identities) (subgraphs : List Subgraph) :
    (ofSubgraphs graphs subgraphs).graphs = graphs := by
  unfold ofSubgraphs
  rw [graphs_foldl_absorb]

section

variable (graphs : Identities) (subgraphs : List Subgraph)

theorem get?_kinds (type : Name) :
    (ofSubgraphs graphs subgraphs).kinds.get? type
      =
    merged? kindRegister.declare (declared Schema.keeps (sources graphs subgraphs) fun s =>
      ((s.userType? type).map (·.kind)).toList) := by
  have h := kindRegister.get?_ofSubgraphs graphs subgraphs type
  have hcontents : kindRegister.contents type
      = fun s => ((s.userType? type).map (·.kind)).toList := by
    funext s
    unfold Register.contents
    cases s.userType? type <;> rfl
  rw [hcontents] at h
  exact h

theorem kinds_eq_records {type : Name} {kinds : ByGraph TypeKind}
    (h : (ofSubgraphs graphs subgraphs).kinds.get? type = some kinds)
    : kinds = Declared.records (declared Schema.keeps (sources graphs subgraphs) fun s =>
        ((s.userType? type).map (·.kind)).toList) fun _ kind => kind := by
  rw [get?_kinds] at h
  have hdeclare : ∀ d kinds, id (kindRegister.declare d kinds)
      = (kinds.elim ∅ id).insert d.1.graph d.2 := by
    intro d kinds
    cases kinds <;> rfl
  exact @byGraph_merged? _ _ _ _ id (fun _ kind => kind) hdeclare _ _ h

theorem get?_objects (type : Name) :
    (ofSubgraphs graphs subgraphs).objects.get? type
      =
    CompositeEntry.ofDeclared? (declared Schema.keeps (sources graphs subgraphs) fun s =>
      ((s.userType? type).bind TypeDef.object?).toList) :=
  objectRegister.get?_ofSubgraphs graphs subgraphs type

theorem get?_interfaces (type : Name) :
    (ofSubgraphs graphs subgraphs).interfaces.get? type
      =
    CompositeEntry.ofDeclared? (declared Schema.keeps (sources graphs subgraphs) fun s =>
      ((s.userType? type).bind TypeDef.interface?).toList) :=
  interfaceRegister.get?_ofSubgraphs graphs subgraphs type

theorem get?_inputObjects (type : Name) :
    (ofSubgraphs graphs subgraphs).inputObjects.get? type
      =
    InputObjectEntry.ofDeclared? (declared Schema.keeps (sources graphs subgraphs) fun s =>
      ((s.userType? type).bind TypeDef.inputObject?).toList) :=
  inputObjectRegister.get?_ofSubgraphs graphs subgraphs type

theorem get?_enums (type : Name) :
    (ofSubgraphs graphs subgraphs).enums.get? type
      =
    EnumEntry.ofDeclared? (declared Schema.keeps (sources graphs subgraphs) fun s =>
      ((s.userType? type).bind TypeDef.enum?).toList) :=
  enumRegister.get?_ofSubgraphs graphs subgraphs type

theorem get?_unions (type : Name) :
    (ofSubgraphs graphs subgraphs).unions.get? type
      =
    UnionEntry.ofDeclared? (declared Schema.keeps (sources graphs subgraphs) fun s =>
      ((s.userType? type).bind TypeDef.union?).toList) :=
  unionRegister.get?_ofSubgraphs graphs subgraphs type

theorem get?_scalars (type : Name) :
    (ofSubgraphs graphs subgraphs).scalars.get? type
      =
    ScalarEntry.ofDeclared? (declared Schema.keeps (sources graphs subgraphs) fun s =>
      ((s.userType? type).bind TypeDef.scalar?).toList) :=
  scalarRegister.get?_ofSubgraphs graphs subgraphs type

end

theorem isUserDirective_of_get?_directives {graphs : Identities} {subgraphs : List Subgraph}
    {name : Name} {e : DirectiveEntry}
    (he : (ofSubgraphs graphs subgraphs).directives.get? name = some e)
    : Federation.isUserDirective name := by
  rw [get?_directives] at he
  obtain ⟨s, -, hdefined⟩ := DirectiveEntry.exists_userDirective? he
  exact ((Schema.isSome_userDirective?_iff s name).1 hdefined).1

section

variable {graphs : Identities} {subgraphs : List Subgraph} {type field : Name}
variable {e : CompositeEntry} {fe : FieldEntry}

theorem ofDeclared?_objectField (he : (ofSubgraphs graphs subgraphs).objects.get? type = some e)
    (hfe : e.fields.get? field = some fe)
    : FieldEntry.ofDeclared? (declared Schema.keeps (sources graphs subgraphs) fun s =>
        (s.field? TypeDef.object? type field).toList) = some fe := by
  rw [get?_objects] at he
  rw [← CompositeEntry.get?_fields he field]
  exact hfe

theorem ofDeclared?_interfaceField
    (he : (ofSubgraphs graphs subgraphs).interfaces.get? type = some e)
    (hfe : e.fields.get? field = some fe)
    : FieldEntry.ofDeclared? (declared Schema.keeps (sources graphs subgraphs) fun s =>
        (s.field? TypeDef.interface? type field).toList) = some fe := by
  rw [get?_interfaces] at he
  rw [← CompositeEntry.get?_fields he field]
  exact hfe

end

end Model

def Subgraph.sample (name : String) (field : FieldDef) : Subgraph where
  name := name
  schema := {
    directiveDefs := ∅
    types := .ofList [
      (.lit "Query", {
        body := .object { interfaces := ∅, fields := .ofList [(.lit "a", field)] } })] }

def sampleSubgraphs : List Subgraph := [
  .sample "first" {
    arguments := [(.lit "x", { type := .named (.lit "Int") true })]
    type := .named (.lit "Int") true },
  .sample "second" { type := .named (.lit "Int") false }]

def sampleGraphs : Identities where
  toList := [
    (⟨"first"⟩, { name := "first", url := none, enumValue := .lit "FIRST" }),
    (⟨"second"⟩, { name := "second", url := none, enumValue := .lit "SECOND" })]
  nodup_keys := by decide

theorem resolve_sampleSubgraphs : Identities.resolve sampleSubgraphs = .ok sampleGraphs := rfl

theorem distinctArguments_sampleSubgraphs :
    ∀ s ∈ sampleSubgraphs, s.schema.DistinctArguments := by
  decide

def Visit.IsPartOf (m : Model) (v : Visit) : Prop :=
  match v with
  | .namedType name kinds => m.kinds.get? name = some kinds
  | .objectType name type => m.objects.get? name = some type
  | .objectField typeName type name field =>
    m.objects.get? typeName = some type ∧ type.fields.get? name = some field
  | .objectFieldArgument typeName type fieldName field name argument =>
    m.objects.get? typeName = some type ∧ type.fields.get? fieldName = some field
      ∧ field.arguments.get? name = some argument
  | .interfaceType name type => m.interfaces.get? name = some type
  | .interfaceField typeName type name field =>
    m.interfaces.get? typeName = some type ∧ type.fields.get? name = some field
  | .interfaceFieldArgument typeName type fieldName field name argument =>
    m.interfaces.get? typeName = some type ∧ type.fields.get? fieldName = some field
      ∧ field.arguments.get? name = some argument
  | .inputObjectType name type => m.inputObjects.get? name = some type
  | .inputObjectField typeName type name field =>
    m.inputObjects.get? typeName = some type ∧ type.fields.get? name = some field
  | .enumType name type => m.enums.get? name = some type
  | .enumValue typeName type name value =>
    m.enums.get? typeName = some type ∧ type.values.get? name = some value
  | .unionType name type => m.unions.get? name = some type
  | .scalarType name type => m.scalars.get? name = some type
  | .directive name entry => m.directives.get? name = some entry
  | .directiveArgument directiveName entry name argument =>
    m.directives.get? directiveName = some entry ∧ entry.arguments.get? name = some argument

theorem Model.mem_visits_iff (m : Model) (v : Visit) : v ∈ m.visits ↔ v.IsPartOf m := by
  unfold visits objectVisits interfaceVisits inputObjectVisits enumVisits directiveVisits
  cases v <;> simp [Visit.IsPartOf, OrderedMap.mem_toList_iff]

end Supergraph
