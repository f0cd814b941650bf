import Supergraph.Proofs.Model.Lookup

namespace Supergraph

open GraphQL

namespace GraphQL.TypeDef

def keys (d : TypeDef) : List Key :=
  match d.body with
  | .object _ | .interface _ => d.directives.filterMap Key.ofDirective?
  | _ => []

def interfaces (d : TypeDef) : List Name :=
  match d.body with
  | .object body | .interface body => body.interfaces.toList
  | _ => []

def members (d : TypeDef) : List Name :=
  match d.body with
  | .union members => members.toList
  | _ => []

def enumValues (d : TypeDef) : List EnumValueDef :=
  match d.body with
  | .enum values => values.values
  | _ => []

def enumValue? (d : TypeDef) (value : Name) : Option EnumValueDef :=
  match d.body with
  | .enum values => values.get? value
  | _ => none

theorem mem_enumValues_iff {d : TypeDef} {v : EnumValueDef} :
    v ∈ d.enumValues ↔ ∃ value, d.enumValue? value = some v := by
  unfold enumValues enumValue?
  split
  . exact OrderedMap.mem_values_iff _ v
  . simp

def parts (d : TypeDef) : List Name :=
  match d.body with
  | .object body | .interface body => body.fields.keys
  | .enum values => values.keys
  | .union members => members.toList
  | .inputObject _ | .scalar => []

def userPart (d : TypeDef) : TypeDef := { d with body := d.body.userPart }

theorem kind_userPart (d : TypeDef) : d.userPart.kind = d.kind := by
  obtain ⟨description, directives, body⟩ := d
  cases body <;> rfl

theorem keys_userPart (d : TypeDef) : d.userPart.keys = d.keys := by
  obtain ⟨description, directives, body⟩ := d
  cases body <;> rfl

theorem interfaces_userPart (d : TypeDef) : d.userPart.interfaces = d.interfaces := by
  obtain ⟨description, directives, body⟩ := d
  cases body <;> rfl

theorem members_userPart (d : TypeDef) : d.userPart.members = d.members := by
  obtain ⟨description, directives, body⟩ := d
  cases body <;> rfl

theorem enumValue?_userPart (d : TypeDef) (value : Name) :
    d.userPart.enumValue? value = d.enumValue? value := by
  obtain ⟨description, directives, body⟩ := d
  cases body <;> rfl

theorem mem_parts_userPart (d : TypeDef) (name : Name) :
    name ∈ d.userPart.parts
      ↔
    name ∈ d.parts ∧ (d.kind ∈ [.object, .interface] → name.text ∉ Federation.fields) := by
  have hfilter : ∀ fields : OrderedMap Name FieldDef,
      name ∈ (fields.filter TypeBody.userPart.isUserField).keys
        ↔ name ∈ fields.keys ∧ name.text ∉ Federation.fields := by
    intro fields
    rw [OrderedMap.mem_keys_iff, OrderedMap.mem_keys_iff, OrderedMap.get?_filter]
    unfold TypeBody.userPart.isUserField
    cases fields.get? name <;> simp
  obtain ⟨description, directives, body⟩ := d
  cases body with
  | object body => exact (hfilter body.fields).trans (by simp [parts, kind, TypeBody.kind])
  | interface body => exact (hfilter body.fields).trans (by simp [parts, kind, TypeBody.kind])
  | _ => simp [userPart, TypeBody.userPart, parts, kind, TypeBody.kind]

end GraphQL.TypeDef

namespace GraphQL.Schema

theorem userType?_eq (s : Schema) {type : Name} (h : Federation.isUserType type) :
    s.userType? type = (s.types.get? type).map (·.userPart) := by
  unfold userType? userTypeMap
  rw [OrderedMap.get?_map, OrderedMap.get?_filter]
  cases s.types.get? type <;> simp [h, TypeDef.userPart]

theorem exists_of_userType? {s : Schema} {type : Name} {t : TypeDef}
    (ht : s.userType? type = some t)
    : Federation.isUserType type ∧ ∃ d, s.types.get? type = some d ∧ d.userPart = t := by
  unfold userType? userTypeMap at ht
  rw [OrderedMap.get?_map, OrderedMap.get?_filter, Option.map_eq_some_iff] at ht
  obtain ⟨d, hd, rfl⟩ := ht
  rw [Option.filter_eq_some_iff] at hd
  exact ⟨hd.2, d, hd.1, rfl⟩

theorem enumValue?_eq (s : Schema) (type value : Name) :
    s.enumValue? type value = (s.userType? type).bind (·.enumValue? value) := by
  unfold enumValue?
  cases s.userType? type with
  | none => rfl
  | some d =>
    obtain ⟨description, directives, body⟩ := d
    cases body <;> rfl

end GraphQL.Schema

end Supergraph
