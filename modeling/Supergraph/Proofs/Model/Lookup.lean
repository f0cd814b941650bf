import Supergraph.Proofs.Model.Entry

/-!
This module contains what a merged model holds of a list of subgraphs: a look-up in the model is a
look-up in the schemas.
-/

namespace Supergraph

open GraphQL

namespace GraphQL

namespace TypeDef

def object? (d : TypeDef) : Option (TypeDef × CompositeBody) :=
  match d.body with
  | .object body => some (d, body)
  | _ => none

def interface? (d : TypeDef) : Option (TypeDef × CompositeBody) :=
  match d.body with
  | .interface body => some (d, body)
  | _ => none

def inputObject? (d : TypeDef) : Option (TypeDef × OrderedMap Name InputValueDef) :=
  match d.body with
  | .inputObject fields => some (d, fields)
  | _ => none

def enum? (d : TypeDef) : Option (TypeDef × OrderedMap Name EnumValueDef) :=
  match d.body with
  | .enum values => some (d, values)
  | _ => none

def union? (d : TypeDef) : Option (TypeDef × OrderedSet Name) :=
  match d.body with
  | .union members => some (d, members)
  | _ => none

def field? (d : TypeDef) (name : Name) : Option FieldDef :=
  match d.body with
  | .object body => body.fields.get? name
  | .interface body => body.fields.get? name
  | _ => none

def scalar? (d : TypeDef) : Option TypeDef :=
  match d.body with
  | .scalar => some d
  | _ => none

end TypeDef

namespace Schema

def userTypeMap (s : Schema) : OrderedMap Name TypeDef :=
  (s.types.filter fun name _ => Federation.isUserType name).map fun _ d =>
    { d with body := d.body.userPart }

theorem toList_userTypeMap (s : Schema) : s.userTypeMap.toList = s.userTypes := rfl

def userDirectiveMap (s : Schema) : OrderedMap Name DirectiveDef :=
  s.directiveDefs.filter fun name _ => Federation.isUserDirective name

theorem toList_userDirectiveMap (s : Schema) : s.userDirectiveMap.toList = s.userDirectives := rfl

def userType? (s : Schema) (name : Name) : Option TypeDef := s.userTypeMap.get? name

def userDirective? (s : Schema) (name : Name) : Option DirectiveDef := s.userDirectiveMap.get? name

def field? (s : Schema) (composite? : TypeDef → Option (TypeDef × CompositeBody))
    (type field : Name) : Option FieldDef :=
  ((s.userType? type).bind composite?).bind fun d => d.2.fields.get? field

def arguments (s : Schema) (composite? : TypeDef → Option (TypeDef × CompositeBody))
    (type field argument : Name) : List InputValueDef :=
  (s.field? composite? type field).toList.flatMap fun d => named argument d.arguments

def inputField? (s : Schema) (type field : Name) : Option InputValueDef :=
  ((s.userType? type).bind TypeDef.inputObject?).bind fun d => d.2.get? field

def enumValue? (s : Schema) (type value : Name) : Option EnumValueDef :=
  ((s.userType? type).bind TypeDef.enum?).bind fun d => d.2.get? value

def directiveUse? (s : Schema) (name : Name) : Option DirectiveUse :=
  (s.userDirective? name).map fun d =>
    ⟨d, s.composedDirectives.contains name, s.usedLocations name⟩

def directiveArguments (s : Schema) (directive argument : Name) : List InputValueDef :=
  (s.userDirective? directive).toList.flatMap fun d => named argument d.arguments

theorem isSome_userDirective?_iff (s : Schema) (name : Name) :
    (s.userDirective? name).isSome
      ↔
    Federation.isUserDirective name ∧ s.directiveDefs.contains name := by
  unfold userDirective? userDirectiveMap OrderedMap.contains
  rw [OrderedMap.get?_filter]
  cases s.directiveDefs.get? name <;> simp

theorem userDirective?_eq_some_iff {s : Schema} {name : Name} {d : DirectiveDef} :
    s.userDirective? name = some d
      ↔
    s.directiveDefs.get? name = some d ∧ Federation.isUserDirective name := by
  unfold userDirective? userDirectiveMap
  rw [OrderedMap.get?_filter, Option.filter_eq_some_iff]

theorem directiveArguments_ne_nil_iff (s : Schema) (directive argument : Name) :
    s.directiveArguments directive argument ≠ []
      ↔
    ∃ d ∈ s.userDirective? directive, argument ∈ d.arguments.map Prod.fst := by
  unfold directiveArguments named
  cases s.userDirective? directive with
  | none => simp
  | some d => simp [List.filter_eq_nil_iff]

variable {s : Schema} {composite? : TypeDef → Option (TypeDef × CompositeBody)}
variable {type field argument : Name}

theorem isSome_composite_of_field? (h : (s.field? composite? type field).isSome) :
    ((s.userType? type).bind composite?).isSome := by
  unfold field? at h
  cases htype : (s.userType? type).bind composite? with
  | none => simp [htype] at h
  | some d => rfl

theorem isSome_field?_of_arguments (h : s.arguments composite? type field argument ≠ []) :
    (s.field? composite? type field).isSome := by
  unfold arguments at h
  cases hfield : s.field? composite? type field with
  | none => simp [hfield] at h
  | some d => rfl

theorem isSome_inputObject_of_inputField? (h : (s.inputField? type field).isSome) :
    ((s.userType? type).bind TypeDef.inputObject?).isSome := by
  unfold inputField? at h
  cases htype : (s.userType? type).bind TypeDef.inputObject? with
  | none => simp [htype] at h
  | some d => rfl

theorem isSome_userDirective?_of_directiveArguments {directive : Name}
    (h : s.directiveArguments directive argument ≠ []) : (s.userDirective? directive).isSome := by
  obtain ⟨d, hd, -⟩ := (directiveArguments_ne_nil_iff s directive argument).1 h
  exact Option.isSome_of_mem hd

end Schema

end GraphQL

theorem length_named_le_one {δ : Type} {entries : List (Name × δ)}
    (h : (entries.map Prod.fst).Nodup) (name : Name) : (named name entries).length ≤ 1 := by
  have := OrderedMap.map_filter_toList ⟨entries, h⟩ name
  unfold named
  rw [this]
  cases OrderedMap.get? ⟨entries, h⟩ name <;> simp

namespace GraphQL

def TypeBody.fieldDefs : TypeBody → List FieldDef
  | .object body => body.fields.values
  | .interface body => body.fields.values
  | _ => []

namespace Schema

def DistinctArguments (s : Schema) : Prop :=
  (∀ d ∈ s.types.values, ∀ field ∈ d.body.fieldDefs, (field.arguments.map Prod.fst).Nodup)
    ∧ ∀ d ∈ s.directiveDefs.values, (d.arguments.map Prod.fst).Nodup

instance (s : Schema) : Decidable s.DistinctArguments := inferInstanceAs (Decidable (_ ∧ _))

theorem exists_mem_types_of_userType? {s : Schema} {name : Name} {d : TypeDef}
    (h : s.userType? name = some d)
    : ∃ d' ∈ s.types.values, d = { d' with body := d'.body.userPart } := by
  unfold userType? userTypeMap at h
  rw [OrderedMap.get?_map, OrderedMap.get?_filter, Option.map_eq_some_iff] at h
  obtain ⟨d', hd', rfl⟩ := h
  rw [Option.filter_eq_some_iff] at hd'
  exact ⟨d', (OrderedMap.mem_values_iff _ _).2 ⟨name, hd'.1⟩, rfl⟩

theorem mem_fieldDefs_of_userPart {body : TypeBody} {field : FieldDef}
    (h : field ∈ body.userPart.fieldDefs) : field ∈ body.fieldDefs := by
  cases body with
  | object body =>
    obtain ⟨e, he, rfl⟩ := List.mem_map.1 h
    exact List.mem_map.2 ⟨e, (List.mem_filter.1 he).1, rfl⟩
  | interface body =>
    obtain ⟨e, he, rfl⟩ := List.mem_map.1 h
    exact List.mem_map.2 ⟨e, (List.mem_filter.1 he).1, rfl⟩
  | union members => cases h
  | enum values => cases h
  | inputObject fields => cases h
  | scalar => cases h

theorem exists_fieldDef_of_field? {s : Schema}
    {composite? : TypeDef → Option (TypeDef × CompositeBody)}
    (hcomposite : ∀ d x, composite? d = some x → d.body.fieldDefs = x.2.fields.values)
    {type field : Name} {d : FieldDef} (hd : s.field? composite? type field = some d)
    : ∃ t ∈ s.types.values, d ∈ t.body.fieldDefs := by
  obtain ⟨x, hx, hd⟩ := Option.bind_eq_some_iff.1 hd
  obtain ⟨userType, huserType, hx⟩ := Option.bind_eq_some_iff.1 hx
  obtain ⟨t, ht, rfl⟩ := exists_mem_types_of_userType? huserType
  refine ⟨t, ht, mem_fieldDefs_of_userPart ?_⟩
  rw [hcomposite _ x hx, OrderedMap.mem_values_iff]
  exact ⟨field, hd⟩

variable {s : Schema} (hs : s.DistinctArguments)

include hs

theorem DistinctArguments.length_arguments_le_one
    {composite? : TypeDef → Option (TypeDef × CompositeBody)}
    (hcomposite : ∀ d x, composite? d = some x → d.body.fieldDefs = x.2.fields.values)
    (type field argument : Name) : (s.arguments composite? type field argument).length ≤ 1 := by
  unfold arguments
  cases hfield : s.field? composite? type field with
  | none => simp
  | some d =>
    obtain ⟨t, ht, hmem⟩ := exists_fieldDef_of_field? hcomposite hfield
    simpa using length_named_le_one (hs.1 t ht d hmem) argument

theorem DistinctArguments.length_directiveArguments_le_one (directive argument : Name) :
    (s.directiveArguments directive argument).length ≤ 1 := by
  unfold directiveArguments
  cases h : s.userDirective? directive with
  | none => simp
  | some d =>
    unfold userDirective? userDirectiveMap at h
    rw [OrderedMap.get?_filter, Option.filter_eq_some_iff] at h
    have hmem := (OrderedMap.mem_values_iff _ _).2 ⟨directive, h.1⟩
    simpa using length_named_le_one (hs.2 d hmem) argument

end Schema

theorem TypeDef.fieldDefs_of_object? (d : TypeDef) (x : TypeDef × CompositeBody)
    (h : d.object? = some x) : d.body.fieldDefs = x.2.fields.values := by
  unfold object? at h
  split at h
  . next heq =>
    cases h
    rw [heq]
    rfl
  . cases h

theorem TypeDef.fieldDefs_of_interface? (d : TypeDef) (x : TypeDef × CompositeBody)
    (h : d.interface? = some x) : d.body.fieldDefs = x.2.fields.values := by
  unfold interface? at h
  split at h
  . next heq =>
    cases h
    rw [heq]
    rfl
  . cases h

end GraphQL

def declared {δ : Type} (keeps : Schema → Directive → Bool) (sources : List (GraphId × Schema))
    (contents : Schema → List δ) : List (Declared δ) :=
  sources.flatMap fun (graph, s) => (contents s).map (⟨graph, keeps s⟩, ·)

theorem parts_declared {δ π : Type} (keeps : Schema → Directive → Bool)
    (sources : List (GraphId × Schema)) (contents : Schema → List δ) (parts : δ → List π)
    : Declared.parts (declared keeps sources contents) parts
        =
      declared keeps sources fun s => (contents s).flatMap parts := by
  unfold Declared.parts declared
  rw [List.flatMap_assoc]
  apply List.flatMap_congr
  intro source _
  simp [List.flatMap_map, List.map_flatMap]

theorem declared_eq_nil_iff {δ : Type} (keeps : Schema → Directive → Bool)
    (sources : List (GraphId × Schema)) (contents : Schema → List δ)
    : declared keeps sources contents = [] ↔ ∀ source ∈ sources, contents source.2 = [] := by
  unfold declared
  simp

theorem mem_declared {δ : Type} {keeps : Schema → Directive → Bool}
    {sources : List (GraphId × Schema)} {contents : Schema → List δ} {d : Declared δ}
    : d ∈ declared keeps sources contents
        ↔
      ∃ graph s, (graph, s) ∈ sources ∧ d.1 = ⟨graph, keeps s⟩ ∧ d.2 ∈ contents s := by
  unfold declared
  simp only [List.mem_flatMap, List.mem_map, Prod.exists]
  constructor
  . rintro ⟨graph, s, hmem, x, hx, rfl⟩
    exact ⟨graph, s, hmem, rfl, hx⟩
  . rintro ⟨graph, s, hmem, hdeclarer, hx⟩
    exact ⟨graph, s, hmem, d.2, hx, by rw [← hdeclarer]⟩

/--
A map of the model from type names to entries, with what it takes up of a type definition. Nothing
else that a subgraph declares changes it.
-/
structure Register (δ ε : Type) where
  entries : Model → OrderedMap Name ε
  content? : TypeDef → Option δ
  declare : Declared δ → Option ε → ε
  get?_empty : ∀ graphs name, (entries { graphs }).get? name = none
  entries_roots : ∀ m roots, entries { m with roots } = entries m
  entries_declareDirective : ∀ m graph s name d,
    entries (m.declareDirective graph s name d) = entries m
  entries_declareType : ∀ m declarer name d, entries (m.declareType declarer name d)
    = (content? d).elim (entries m) fun x => (entries m).upsert name (declare (declarer, x))

namespace Register

variable {δ ε : Type} (r : Register δ ε)

def contents (type : Name) (s : Schema) : List δ := ((s.userType? type).bind r.content?).toList

theorem entries_foldl_declareDirective (graph : GraphId) (s : Schema)
    (ds : List (Name × DirectiveDef)) (m : Model)
    : r.entries (ds.foldl (fun m (name, d) => m.declareDirective graph s name d) m)
        =
      r.entries m :=
  foldl_eq_of_step (fun m d => r.entries_declareDirective m graph s d.1 d.2) ds m

theorem entries_foldl_declareType (declarer : Declarer) (ds : List (Name × TypeDef)) (m : Model) :
    r.entries (ds.foldl (fun m (name, d) => m.declareType declarer name d) m)
      =
    (ds.filterMap fun (name, d) => (r.content? d).map (name, ·)).foldl
      (fun es (name, x) => es.upsert name (r.declare (declarer, x))) (r.entries m) := by
  induction ds generalizing m with
  | nil => rfl
  | cons d rest ih =>
    obtain ⟨name, d⟩ := d
    rw [List.foldl_cons, ih, r.entries_declareType]
    cases h : r.content? d <;> simp [h]

theorem get?_absorb (m : Model) (graph : GraphId) (s : Schema) (type : Name) :
    (r.entries (m.absorb graph s)).get? type
      =
    (r.contents type s).foldl (fun e x => some (r.declare (⟨graph, s.keeps⟩, x) e))
      ((r.entries m).get? type) := by
  unfold Model.absorb
  dsimp only
  rw [r.entries_foldl_declareType, r.entries_foldl_declareDirective, r.entries_roots,
    ← s.toList_userTypeMap, ← OrderedMap.toList_filterMap fun _ d => r.content? d]
  -- A schema defines a type once, so the fold touches its entry at most once.
  rw [OrderedMap.get?_foldl_upsert fun x => r.declare (⟨graph, s.keeps⟩, x),
    OrderedMap.map_filter_toList, OrderedMap.get?_filterMap]
  rfl

theorem get?_foldl_absorb (sources : List (GraphId × Schema)) (m : Model) (type : Name) :
    (r.entries (sources.foldl (fun m (graph, s) => m.absorb graph s) m)).get? type
      =
    (declared Schema.keeps sources (r.contents type)).foldl
      (fun e d => some (r.declare d e)) ((r.entries m).get? type) := by
  induction sources generalizing m with
  | nil => rfl
  | cons source rest ih =>
    obtain ⟨graph, s⟩ := source
    rw [List.foldl_cons, ih, r.get?_absorb]
    unfold declared
    rw [List.flatMap_cons, List.foldl_append, List.foldl_map]

theorem get?_ofSubgraphs (graphs : Identities) (subgraphs : List Subgraph) (type : Name) :
    (r.entries (Model.ofSubgraphs graphs subgraphs)).get? type
      =
    merged? r.declare
      (declared Schema.keeps (Model.sources graphs subgraphs) (r.contents type)) := by
  unfold Model.ofSubgraphs
  rw [r.get?_foldl_absorb, r.get?_empty]
  rfl

end Register

namespace Model

def kindRegister : Register TypeKind (ByGraph TypeKind) where
  entries := kinds
  content? d := some d.kind
  declare d kinds := (kinds.getD ∅).insert d.1.graph d.2
  get?_empty _ _ := rfl
  entries_roots _ _ := rfl
  entries_declareDirective _ _ _ _ _ := rfl
  entries_declareType m declarer name d := by
    obtain ⟨description, directives, body⟩ := d
    cases body <;> rfl

def objectRegister : Register (TypeDef × CompositeBody) CompositeEntry where
  entries := objects
  content? := TypeDef.object?
  declare d := CompositeEntry.declare d.1 d.2.1 d.2.2
  get?_empty _ _ := rfl
  entries_roots _ _ := rfl
  entries_declareDirective _ _ _ _ _ := rfl
  entries_declareType m declarer name d := by
    obtain ⟨description, directives, body⟩ := d
    cases body <;> rfl

def interfaceRegister : Register (TypeDef × CompositeBody) CompositeEntry where
  entries := interfaces
  content? := TypeDef.interface?
  declare d := CompositeEntry.declare d.1 d.2.1 d.2.2
  get?_empty _ _ := rfl
  entries_roots _ _ := rfl
  entries_declareDirective _ _ _ _ _ := rfl
  entries_declareType m declarer name d := by
    obtain ⟨description, directives, body⟩ := d
    cases body <;> rfl

def inputObjectRegister :
    Register (TypeDef × OrderedMap Name InputValueDef) InputObjectEntry where
  entries := inputObjects
  content? := TypeDef.inputObject?
  declare d := InputObjectEntry.declare d.1 d.2.1 d.2.2
  get?_empty _ _ := rfl
  entries_roots _ _ := rfl
  entries_declareDirective _ _ _ _ _ := rfl
  entries_declareType m declarer name d := by
    obtain ⟨description, directives, body⟩ := d
    cases body <;> rfl

def enumRegister : Register (TypeDef × OrderedMap Name EnumValueDef) EnumEntry where
  entries := enums
  content? := TypeDef.enum?
  declare d := EnumEntry.declare d.1 d.2.1 d.2.2
  get?_empty _ _ := rfl
  entries_roots _ _ := rfl
  entries_declareDirective _ _ _ _ _ := rfl
  entries_declareType m declarer name d := by
    obtain ⟨description, directives, body⟩ := d
    cases body <;> rfl

def unionRegister : Register (TypeDef × OrderedSet Name) UnionEntry where
  entries := unions
  content? := TypeDef.union?
  declare d := UnionEntry.declare d.1 d.2.1 d.2.2
  get?_empty _ _ := rfl
  entries_roots _ _ := rfl
  entries_declareDirective _ _ _ _ _ := rfl
  entries_declareType m declarer name d := by
    obtain ⟨description, directives, body⟩ := d
    cases body <;> rfl

def scalarRegister : Register TypeDef ScalarEntry where
  entries := scalars
  content? := TypeDef.scalar?
  declare d := ScalarEntry.declare d.1 d.2
  get?_empty _ _ := rfl
  entries_roots _ _ := rfl
  entries_declareDirective _ _ _ _ _ := rfl
  entries_declareType m declarer name d := by
    obtain ⟨description, directives, body⟩ := d
    cases body <;> rfl

theorem directives_declareType (declarer : Declarer) (m : Model) (name : Name) (d : TypeDef) :
    (m.declareType declarer name d).directives = m.directives := by
  obtain ⟨description, directives, body⟩ := d
  cases body <;> rfl

theorem directives_foldl_declareType (declarer : Declarer) (ds : List (Name × TypeDef))
    (m : Model)
    : (ds.foldl (fun m (name, d) => m.declareType declarer name d) m).directives
        =
      m.directives :=
  foldl_eq_of_step (fun m d => m.directives_declareType declarer d.1 d.2) ds m

theorem directives_foldl_declareDirective (graph : GraphId) (s : Schema)
    (ds : List (Name × DirectiveDef)) (m : Model)
    : (ds.foldl (fun m (name, d) => m.declareDirective graph s name d) m).directives
        =
      ds.foldl (fun es (name, d) => es.upsert name
        (.declare graph d (s.composedDirectives.contains name) (s.usedLocations name)))
        m.directives := by
  induction ds generalizing m with
  | nil => rfl
  | cons d rest ih => rw [List.foldl_cons, ih]; rfl

theorem get?_directives_absorb (m : Model) (graph : GraphId) (s : Schema) (name : Name) :
    (m.absorb graph s).directives.get? name
      =
    (s.directiveUse? name).toList.foldl
      (fun e d => some (.declare graph d.definition d.composed d.usedLocations e))
      (m.directives.get? name) := by
  have hkeyed : ∀ (ds : List (Name × DirectiveDef)) (es : OrderedMap Name DirectiveEntry),
      ds.foldl (fun es (name, d) => es.upsert name
        (.declare graph d (s.composedDirectives.contains name) (s.usedLocations name))) es
        =
      (ds.map fun (name, d) => (name, (⟨d, s.composedDirectives.contains name,
        s.usedLocations name⟩ : DirectiveUse))).foldl
        (fun es (name, d) => es.upsert name
          (.declare graph d.definition d.composed d.usedLocations)) es := by
    intro ds es
    rw [List.foldl_map]
  unfold absorb
  dsimp only
  rw [directives_foldl_declareType, directives_foldl_declareDirective, hkeyed,
    ← s.toList_userDirectiveMap, ← OrderedMap.toList_map fun name d =>
      (⟨d, s.composedDirectives.contains name, s.usedLocations name⟩ : DirectiveUse),
    OrderedMap.get?_foldl_upsert fun (d : DirectiveUse) =>
      DirectiveEntry.declare graph d.definition d.composed d.usedLocations,
    OrderedMap.map_filter_toList, OrderedMap.get?_map]
  rfl

theorem get?_directives_foldl_absorb (sources : List (GraphId × Schema)) (m : Model) (name : Name) :
    (sources.foldl (fun m (graph, s) => m.absorb graph s) m).directives.get? name
      =
    (declared (fun _ _ => false) sources fun s => (s.directiveUse? name).toList).foldl
      (fun e d => some (.declare d.1.graph d.2.definition d.2.composed d.2.usedLocations e))
      (m.directives.get? name) := by
  induction sources generalizing m with
  | nil => rfl
  | cons source rest ih =>
    obtain ⟨graph, s⟩ := source
    rw [List.foldl_cons, ih, get?_directives_absorb]
    unfold declared
    rw [List.flatMap_cons, List.foldl_append, List.foldl_map]

theorem get?_directives (graphs : Identities) (subgraphs : List Subgraph) (name : Name) :
    (ofSubgraphs graphs subgraphs).directives.get? name
      =
    DirectiveEntry.ofDeclared? (declared (fun _ _ => false) (sources graphs subgraphs)
      fun s => (s.directiveUse? name).toList) := by
  unfold ofSubgraphs
  rw [get?_directives_foldl_absorb]
  rfl

end Model

end Supergraph
