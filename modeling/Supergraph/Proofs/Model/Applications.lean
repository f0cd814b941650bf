import Supergraph.Visit
import Supergraph.Proofs.Model.Place

namespace Supergraph

open GraphQL

def Slot.location? : Slot → Option DirectiveLocation
  | .objectType => some .object
  | .interfaceType => some .interface
  | .objectField | .interfaceField => some .fieldDefinition
  | .objectFieldArgument | .interfaceFieldArgument => some .argumentDefinition
  | .inputObjectType => some .inputObject
  | .inputObjectField => some .inputFieldDefinition
  | .enumType => some .enum
  | .enumValue => some .enumValue
  | .unionType => some .union
  | .scalarType => some .scalar
  | .namedType | .directive | .directiveArgument => none

theorem Slot.isExecutable_location? {slot : Slot} {location : DirectiveLocation}
    (h : slot.location? = some location) : location.isExecutable = false := by
  cases slot <;> cases h <;> rfl

def Coordinate.type? : Coordinate → Option Name
  | .type name => some name
  | .member typeName _ => some typeName
  | .argument typeName _ _ => some typeName
  | .directive _ => none
  | .directiveArgument _ _ => none

def GraphQL.TypeDef.appliedAt (t : TypeDef) (slot : Slot) (place : Coordinate) :
    List (List Directive) :=
  match t.body, slot, place with
  | .object _, .objectType, .type _ => [t.directives]
  | .object body, .objectField, .member _ field =>
    (body.fields.get? field).toList.map (·.directives)
  | .object body, .objectFieldArgument, .argument _ field argument =>
    ((body.fields.get? field).toList.flatMap fun d => named argument d.arguments).map (·.directives)
  | .interface _, .interfaceType, .type _ => [t.directives]
  | .interface body, .interfaceField, .member _ field =>
    (body.fields.get? field).toList.map (·.directives)
  | .interface body, .interfaceFieldArgument, .argument _ field argument =>
    ((body.fields.get? field).toList.flatMap fun d => named argument d.arguments).map (·.directives)
  | .inputObject _, .inputObjectType, .type _ => [t.directives]
  | .inputObject fields, .inputObjectField, .member _ field =>
    (fields.get? field).toList.map (·.directives)
  | .enum _, .enumType, .type _ => [t.directives]
  | .enum values, .enumValue, .member _ value => (values.get? value).toList.map (·.directives)
  | .union _, .unionType, .type _ => [t.directives]
  | .scalar, .scalarType, .type _ => [t.directives]
  | _, _, _ => []

namespace GraphQL.Schema

def appliedAt (s : Schema) (slot : Slot) (place : Coordinate) : List (List Directive) :=
  (place.type?.bind s.userType?).elim [] (·.appliedAt slot place)

def recordedAt (s : Schema) (slot : Slot) (place : Coordinate) : List Directive :=
  (s.appliedAt slot place).getLast?.elim [] (·.filter s.keeps)

end GraphQL.Schema

theorem mem_flatMap_values {δ β : Type} {m : OrderedMap Name δ} {name : Name} {d : δ}
    (hd : d ∈ (m.get? name).toList) {f : δ → List β} {b : β} (hb : b ∈ f d)
    : b ∈ m.values.flatMap f :=
  List.mem_flatMap.2 ⟨d, (OrderedMap.mem_values_iff m d).2 ⟨name, Option.mem_toList.1 hd⟩, hb⟩

namespace GraphQL

theorem InputValueDef.mem_applications {d : InputValueDef} {x : Directive} (hx : x ∈ d.directives)
    (location : DirectiveLocation) : (location, x) ∈ d.applications location :=
  List.mem_map.2 ⟨x, hx, rfl⟩

theorem FieldDef.mem_applications {d : FieldDef} {x : Directive} (hx : x ∈ d.directives) :
    (.fieldDefinition, x) ∈ d.applications :=
  List.mem_append_left _ (List.mem_map.2 ⟨x, hx, rfl⟩)

theorem FieldDef.mem_applications_of_argument {d : FieldDef} {argument : Name} {a : InputValueDef}
    (ha : a ∈ named argument d.arguments) {x : Directive} (hx : x ∈ a.directives)
    : (.argumentDefinition, x) ∈ d.applications := by
  obtain ⟨entry, hentry, rfl⟩ := List.mem_map.1 ha
  apply List.mem_append_right
  exact List.mem_flatMap.2
    ⟨entry, (List.mem_filter.1 hentry).1, InputValueDef.mem_applications hx _⟩

namespace TypeDef

theorem exists_location_of_appliedAt {t : TypeDef} {slot : Slot} {place : Coordinate}
    {ds : List Directive} (hds : ds ∈ t.appliedAt slot place)
    : ∃ location, slot.location? = some location := by
  unfold appliedAt at hds
  split at hds
  case h_13 => cases hds
  all_goals exact ⟨_, rfl⟩

theorem mem_applications_of_appliedAt {t : TypeDef} {slot : Slot} {place : Coordinate}
    {location : DirectiveLocation} (hlocation : slot.location? = some location)
    {ds : List Directive} (hds : ds ∈ t.appliedAt slot place) {x : Directive} (hx : x ∈ ds)
    : (location, x) ∈ t.applications := by
  obtain ⟨description, directives, body⟩ := t
  unfold appliedAt at hds
  dsimp only at hds
  unfold applications
  rw [List.mem_append]
  split at hds
  case h_13 => cases hds
  all_goals cases hlocation
  case h_1 | h_4 | h_7 | h_9 | h_11 | h_12 =>
    rw [List.mem_singleton] at hds
    subst hds
    exact .inl (List.mem_map.2 ⟨x, hx, rfl⟩)
  case h_2 | h_5 =>
    obtain ⟨d, hd, rfl⟩ := List.mem_map.1 hds
    exact .inr (mem_flatMap_values hd (FieldDef.mem_applications hx))
  case h_3 | h_6 =>
    obtain ⟨a, ha, rfl⟩ := List.mem_map.1 hds
    obtain ⟨d, hd, ha⟩ := List.mem_flatMap.1 ha
    exact .inr (mem_flatMap_values hd (FieldDef.mem_applications_of_argument ha hx))
  case h_8 =>
    obtain ⟨d, hd, rfl⟩ := List.mem_map.1 hds
    exact .inr (mem_flatMap_values hd (InputValueDef.mem_applications hx _))
  case h_10 =>
    obtain ⟨d, hd, rfl⟩ := List.mem_map.1 hds
    exact .inr (mem_flatMap_values hd (List.mem_map.2 ⟨x, hx, rfl⟩))

end TypeDef

namespace Schema

variable {s : Schema} {slot : Slot} {place : Coordinate}

theorem exists_userType_of_appliedAt {ds : List Directive} (hds : ds ∈ s.appliedAt slot place) :
    ∃ t ∈ s.userTypes, ds ∈ t.2.appliedAt slot place := by
  unfold appliedAt at hds
  cases htype : place.type?.bind s.userType? with
  | none => rw [htype] at hds; cases hds
  | some t =>
    rw [htype] at hds
    obtain ⟨type, -, ht⟩ := Option.bind_eq_some_iff.1 htype
    exact ⟨(type, t), (OrderedMap.mem_toList_iff s.userTypeMap type t).2 ht, hds⟩

theorem exists_appliedAt_of_recordedAt {x : Directive} (hx : x ∈ s.recordedAt slot place) :
    s.keeps x ∧ ∃ ds ∈ s.appliedAt slot place, x ∈ ds := by
  unfold recordedAt at hx
  cases hlast : (s.appliedAt slot place).getLast? with
  | none => rw [hlast] at hx; cases hx
  | some ds =>
    rw [hlast] at hx
    obtain ⟨hmem, hkeeps⟩ := List.mem_filter.1 hx
    exact ⟨hkeeps, ds, List.mem_of_getLast? hlast, hmem⟩

theorem mem_usedLocations_of_recordedAt {location : DirectiveLocation}
    (hlocation : slot.location? = some location) {x : Directive} (hx : x ∈ s.recordedAt slot place)
    : location ∈ s.usedLocations x.name := by
  obtain ⟨-, ds, hds, hx⟩ := exists_appliedAt_of_recordedAt hx
  obtain ⟨t, ht, hds⟩ := exists_userType_of_appliedAt hds
  have happlied := TypeDef.mem_applications_of_appliedAt hlocation hds hx
  unfold usedLocations
  rw [OrderedSet.mem_ofList, List.mem_map]
  refine ⟨(location, x), List.mem_filter.2 ⟨List.mem_flatMap.2 ⟨t, ht, happlied⟩, ?_⟩, rfl⟩
  simp

end Schema

theorem TypeKind.isExecutable_location (kind : TypeKind) : kind.location.isExecutable = false := by
  cases kind <;> rfl

theorem InputValueDef.isExecutable_of_applications {d : InputValueDef} {location : DirectiveLocation}
    (hlocation : location.isExecutable = false) {x : DirectiveLocation × Directive}
    (hx : x ∈ d.applications location) : x.1.isExecutable = false := by
  obtain ⟨d, -, rfl⟩ := List.mem_map.1 hx
  exact hlocation

theorem FieldDef.isExecutable_of_applications {d : FieldDef} {x : DirectiveLocation × Directive}
    (hx : x ∈ d.applications) : x.1.isExecutable = false := by
  cases List.mem_append.1 hx with
  | inl h =>
    obtain ⟨d, -, rfl⟩ := List.mem_map.1 h
    rfl
  | inr h =>
    obtain ⟨a, -, h⟩ := List.mem_flatMap.1 h
    exact InputValueDef.isExecutable_of_applications rfl h

theorem TypeBody.isExecutable_of_applications {body : TypeBody} {x : DirectiveLocation × Directive}
    (hx : x ∈ body.applications) : x.1.isExecutable = false := by
  cases body with
  | object body =>
    obtain ⟨d, -, h⟩ := List.mem_flatMap.1 hx
    exact FieldDef.isExecutable_of_applications h
  | interface body =>
    obtain ⟨d, -, h⟩ := List.mem_flatMap.1 hx
    exact FieldDef.isExecutable_of_applications h
  | enum values =>
    obtain ⟨v, -, h⟩ := List.mem_flatMap.1 hx
    obtain ⟨d, -, rfl⟩ := List.mem_map.1 h
    rfl
  | inputObject fields =>
    obtain ⟨d, -, h⟩ := List.mem_flatMap.1 hx
    exact InputValueDef.isExecutable_of_applications rfl h
  | union members => cases hx
  | scalar => cases hx

theorem Schema.isExecutable_of_mem_usedLocations {s : Schema} {name : Name}
    {location : DirectiveLocation} (h : location ∈ s.usedLocations name)
    : location.isExecutable = false := by
  unfold usedLocations at h
  rw [OrderedSet.mem_ofList, List.mem_map] at h
  obtain ⟨x, hx, rfl⟩ := h
  obtain ⟨t, -, hx⟩ := List.mem_flatMap.1 (List.mem_filter.1 hx).1
  cases List.mem_append.1 hx with
  | inl h =>
    obtain ⟨d, -, rfl⟩ := List.mem_map.1 h
    exact TypeKind.isExecutable_location _
  | inr h => exact TypeBody.isExecutable_of_applications h

end GraphQL

namespace Visit

def recorded : Visit → List (List Directive)
  | .objectType _ type => type.byGraph.values.map (·.directives)
  | .objectField _ _ _ field => field.byGraph.values.map (·.directives)
  | .objectFieldArgument _ _ _ _ _ argument => argument.byGraph.values.map (·.directives)
  | .interfaceType _ type => type.byGraph.values.map (·.directives)
  | .interfaceField _ _ _ field => field.byGraph.values.map (·.directives)
  | .interfaceFieldArgument _ _ _ _ _ argument => argument.byGraph.values.map (·.directives)
  | .inputObjectType _ type => type.byGraph.values
  | .inputObjectField _ _ _ field => field.byGraph.values.map (·.directives)
  | .enumType _ type => type.byGraph.values
  | .enumValue _ _ _ value => value.byGraph.values
  | .unionType _ type => type.byGraph.values
  | .scalarType _ type => type.byGraph.values
  | .namedType .. | .directive .. | .directiveArgument .. => []

end Visit

theorem flatten_directives_records {sources : List (GraphId × Schema)}
    (hnodup : (sources.map Prod.fst).Nodup) {slot : Slot} {place : Coordinate} {type : Name}
    (hplace : place.type? = some type) {δ ρ : Type} {A : Option TypeDef → List δ}
    {record : (Directive → Bool) → δ → ρ} {byGraph : ByGraph ρ}
    (hbyGraph : byGraph = Declared.records
      (declared Schema.keeps sources fun s => A (s.userType? type)) record)
    {directives : ρ → List Directive} {applied : δ → List Directive}
    (hrecord : ∀ keeps d, directives (record keeps d) = (applied d).filter keeps)
    (hnone : A none = []) (hsome : ∀ t : TypeDef, t.appliedAt slot place = (A (some t)).map applied)
    : (byGraph.values.map directives).flatten
        =
      (sources.map Prod.snd).flatMap (·.recordedAt slot place) := by
  have happlied : ∀ s : Schema, s.appliedAt slot place = (A (s.userType? type)).map applied := by
    intro s
    unfold Schema.appliedAt
    rw [hplace, Option.bind_some]
    cases s.userType? type with
    | none => rw [hnone]; rfl
    | some t => exact hsome t
  rw [hbyGraph, ← List.flatMap_def, flatMap_values_records hnodup]
  apply List.flatMap_congr
  intro s _
  unfold Schema.recordedAt
  rw [happlied, List.getLast?_map]
  cases (A (s.userType? type)).getLast? with
  | none => rfl
  | some d => exact hrecord s.keeps d

theorem Visit.flatten_recorded {subgraphs : List Subgraph} {graphs : Identities}
    (h : Identities.resolve subgraphs = .ok graphs) {v : Visit}
    (hv : v ∈ (Model.ofSubgraphs graphs subgraphs).visits) {location : DirectiveLocation}
    (hlocation : v.slot.location? = some location)
    : v.recorded.flatten = subgraphs.flatMap (·.schema.recordedAt v.slot v.place) := by
  have hnodup := Model.nodup_sources h
  have hschemas : ∀ slot place, ((Model.sources graphs subgraphs).map Prod.snd).flatMap
      (·.recordedAt slot place) = subgraphs.flatMap (·.schema.recordedAt slot place) := by
    intro slot place
    rw [Model.map_snd_sources h, List.flatMap_map]
  rw [Model.mem_visits_iff] at hv
  rw [← hschemas]
  cases v with
  | objectType name type =>
    rw [Visit.IsPartOf, Model.get?_objects] at hv
    apply flatten_directives_records hnodup rfl (A := fun t => (t.bind TypeDef.object?).toList)
      (CompositeEntry.merges hv).byGraph (fun _ _ => rfl) rfl
    rintro ⟨description, directives, body⟩
    cases body <;> rfl
  | objectField typeName type name field =>
    have hfield := Model.ofDeclared?_objectField hv.1 hv.2
    apply flatten_directives_records hnodup rfl
      (A := fun t => ((t.bind TypeDef.object?).bind (·.2.fields.get? name)).toList)
      (FieldEntry.merges hfield).byGraph (fun _ _ => rfl) rfl
    rintro ⟨description, directives, body⟩
    cases body <;> rfl
  | objectFieldArgument typeName type fieldName field name argument =>
    have hargument := (FieldEntry.get?_arguments (Model.ofDeclared?_objectField hv.1 hv.2.1)
      name).symm.trans hv.2.2
    apply flatten_directives_records hnodup rfl
      (A := fun t => ((t.bind TypeDef.object?).bind (·.2.fields.get? fieldName)).toList.flatMap
        fun d : FieldDef => named name d.arguments)
      (InputEntry.merges hargument).byGraph (fun _ _ => rfl) rfl
    rintro ⟨description, directives, body⟩
    cases body <;> rfl
  | interfaceType name type =>
    rw [Visit.IsPartOf, Model.get?_interfaces] at hv
    apply flatten_directives_records hnodup rfl (A := fun t => (t.bind TypeDef.interface?).toList)
      (CompositeEntry.merges hv).byGraph (fun _ _ => rfl) rfl
    rintro ⟨description, directives, body⟩
    cases body <;> rfl
  | interfaceField typeName type name field =>
    have hfield := Model.ofDeclared?_interfaceField hv.1 hv.2
    apply flatten_directives_records hnodup rfl
      (A := fun t => ((t.bind TypeDef.interface?).bind (·.2.fields.get? name)).toList)
      (FieldEntry.merges hfield).byGraph (fun _ _ => rfl) rfl
    rintro ⟨description, directives, body⟩
    cases body <;> rfl
  | interfaceFieldArgument typeName type fieldName field name argument =>
    have hargument := (FieldEntry.get?_arguments (Model.ofDeclared?_interfaceField hv.1 hv.2.1)
      name).symm.trans hv.2.2
    apply flatten_directives_records hnodup rfl
      (A := fun t => ((t.bind TypeDef.interface?).bind (·.2.fields.get? fieldName)).toList.flatMap
        fun d : FieldDef => named name d.arguments)
      (InputEntry.merges hargument).byGraph (fun _ _ => rfl) rfl
    rintro ⟨description, directives, body⟩
    cases body <;> rfl
  | inputObjectType name type =>
    rw [Visit.IsPartOf, Model.get?_inputObjects] at hv
    rw [Visit.recorded, ← List.map_id type.byGraph.values]
    apply flatten_directives_records hnodup rfl (A := fun t => (t.bind TypeDef.inputObject?).toList)
      (InputObjectEntry.merges hv).byGraph (fun _ _ => rfl) rfl
    rintro ⟨description, directives, body⟩
    cases body <;> rfl
  | inputObjectField typeName type name field =>
    have htype := (Model.get?_inputObjects graphs subgraphs typeName).symm.trans hv.1
    have hfield := (InputObjectEntry.get?_fields htype name).symm.trans hv.2
    apply flatten_directives_records hnodup rfl
      (A := fun t => ((t.bind TypeDef.inputObject?).bind (·.2.get? name)).toList)
      (InputEntry.merges hfield).byGraph (fun _ _ => rfl) rfl
    rintro ⟨description, directives, body⟩
    cases body <;> rfl
  | enumType name type =>
    rw [Visit.IsPartOf, Model.get?_enums] at hv
    rw [Visit.recorded, ← List.map_id type.byGraph.values]
    apply flatten_directives_records hnodup rfl (A := fun t => (t.bind TypeDef.enum?).toList)
      (EnumEntry.byGraph_ofDeclared? hv) (fun _ _ => rfl) rfl
    rintro ⟨description, directives, body⟩
    cases body <;> rfl
  | enumValue typeName type name value =>
    have htype := (Model.get?_enums graphs subgraphs typeName).symm.trans hv.1
    have hvalue := (EnumEntry.get?_values htype name).symm.trans hv.2
    rw [Visit.recorded, ← List.map_id value.byGraph.values]
    apply flatten_directives_records hnodup rfl
      (A := fun t => ((t.bind TypeDef.enum?).bind (·.2.get? name)).toList)
      (EnumValueEntry.byGraph_ofDeclared? hvalue) (fun _ _ => rfl) rfl
    rintro ⟨description, directives, body⟩
    cases body <;> rfl
  | unionType name type =>
    rw [Visit.IsPartOf, Model.get?_unions] at hv
    rw [Visit.recorded, ← List.map_id type.byGraph.values]
    apply flatten_directives_records hnodup rfl (A := fun t => (t.bind TypeDef.union?).toList)
      (UnionEntry.byGraph_ofDeclared? hv) (fun _ _ => rfl) rfl
    rintro ⟨description, directives, body⟩
    cases body <;> rfl
  | scalarType name type =>
    rw [Visit.IsPartOf, Model.get?_scalars] at hv
    rw [Visit.recorded, ← List.map_id type.byGraph.values]
    apply flatten_directives_records hnodup rfl (A := fun t => (t.bind TypeDef.scalar?).toList)
      (ScalarEntry.byGraph_ofDeclared? hv) (fun _ _ => rfl) rfl
    rintro ⟨description, directives, body⟩
    cases body <;> rfl
  | _ => cases hlocation

end Supergraph
