import Mathlib.Data.List.ReduceOption
import Supergraph.Proofs.Rule.Types

/-!
This module contains what an entry has of all its declarations together, in closed form. Behind the
first declaration no order decides on a type.
-/

namespace Supergraph

open GraphQL

namespace GraphQL.TypeRef

def relaxed (first : TypeRef) (rest : List TypeRef) : TypeRef :=
  if ∃ d ∈ first :: rest, first.SameNullable d ∧ ¬ d.isNonNull then first.toNullable else first

def tightened (first : TypeRef) (rest : List TypeRef) : TypeRef :=
  if ∃ d ∈ first :: rest, first.SameNullable d ∧ d.isNonNull then first.toNonNull else first

/--
Whether two lists of types are reorderings of each other, apart from types that differ from the
first one by more than the outermost mark.
-/
def SameUpToOrder (first : TypeRef) (rest rest' : List TypeRef) : Prop :=
  (rest.filter (first.SameNullable ·)).Perm (rest'.filter (first.SameNullable ·))

theorem SameUpToOrder.mem_iff {first : TypeRef} {rest rest' : List TypeRef}
    (h : first.SameUpToOrder rest rest') {d : TypeRef} (hd : first.SameNullable d)
    : d ∈ rest ↔ d ∈ rest' := by
  have hmem := List.Perm.mem_iff (a := d) h
  simpa [hd] using hmem

namespace IsElected

theorem eq_of_sameUpToOrder {preferred : Bool} {first : TypeRef} {rest rest' : List TypeRef}
    {t t' : TypeRef} (h : IsElected preferred (first :: rest) t)
    (h' : IsElected preferred (first :: rest') t') (hrest : first.SameUpToOrder rest rest')
    : t = t' := by
  -- Only declarations of the same type have a say in the mark.
  have hiff : (∃ d ∈ first :: rest, first.SameNullable d ∧ d.isNonNull = preferred)
      ↔ ∃ d ∈ first :: rest', first.SameNullable d ∧ d.isNonNull = preferred := by
    grind [hrest.mem_iff]
  obtain ⟨_, _, ⟨⟩, rfl⟩ := h
  obtain ⟨_, _, ⟨⟩, rfl⟩ := h'
  rw [foldl_eq, foldl_eq]
  simp only [hiff]

theorem exists_relaxed {declared : List TypeRef} {t : TypeRef}
    (h : IsElected false declared t)
    : ∃ first rest, declared = first :: rest ∧ t = relaxed first rest := by
  obtain ⟨first, rest, rfl, rfl⟩ := h
  refine ⟨first, rest, rfl, ?_⟩
  simp [foldl_eq, relaxed, toNullable]

theorem exists_tightened {declared : List TypeRef} {t : TypeRef}
    (h : IsElected true declared t)
    : ∃ first rest, declared = first :: rest ∧ t = tightened first rest := by
  obtain ⟨first, rest, rfl, rfl⟩ := h
  exact ⟨first, rest, rfl, foldl_eq true first rest⟩

end IsElected

end GraphQL.TypeRef

def mergedDescription (descriptions : List (Option String)) : Option String :=
  (descriptions.reduceOption.find? (!·.isEmpty)).or
    (if descriptions.reduceOption.isEmpty then none else some "")

theorem mergedDescription_append_singleton (descriptions : List (Option String))
    (declared : Option String)
    : mergedDescription (descriptions ++ [declared])
        =
      mergeDescription (mergedDescription descriptions) declared := by
  unfold mergedDescription mergeDescription
  rw [List.reduceOption_append, List.reduceOption_singleton, List.find?_append]
  generalize descriptions.reduceOption = texts
  cases hfind : texts.find? (!·.isEmpty) with
  | some text =>
    have htext := List.find?_some hfind
    simp_all
  | none =>
    cases declared with
    | none => cases texts <;> simp
    | some text => by_cases htext : text = "" <;> cases texts <;> simp [htext]

theorem description_merged? {δ ε : Type} {declare : δ → Option ε → ε}
    {description : ε → Option String} {text : δ → Option String}
    (hdeclare : ∀ d e, description (declare d e) = mergeDescription (e.bind description) (text d))
    {ds : List δ} {e : ε} (h : merged? declare ds = some e)
    : description e = mergedDescription (ds.map text) := by
  refine merged?_induction (P := fun ds e => description e = mergedDescription (ds.map text))
    ?first ?next h
  case first =>
    intro d
    rw [hdeclare]
    exact (mergedDescription_append_singleton [] (text d)).symm
  case next =>
    intro ds d e ih
    rw [hdeclare, List.map_append, List.map_singleton, mergedDescription_append_singleton, ← ih]
    rfl

namespace GraphQL.Schema

def descriptionsAt (s : Schema) (slot : Slot) (place : Coordinate) : List (Option String) :=
  match slot, place with
  | .objectType, .type type =>
    ((s.userType? type).bind TypeDef.object?).toList.map (·.1.description)
  | .interfaceType, .type type =>
    ((s.userType? type).bind TypeDef.interface?).toList.map (·.1.description)
  | .inputObjectType, .type type =>
    ((s.userType? type).bind TypeDef.inputObject?).toList.map (·.1.description)
  | .enumType, .type type =>
    ((s.userType? type).bind TypeDef.enum?).toList.map (·.1.description)
  | .enumValue, .member type value => (s.enumValue? type value).toList.map (·.description)
  | .unionType, .type type =>
    ((s.userType? type).bind TypeDef.union?).toList.map (·.1.description)
  | .scalarType, .type type =>
    ((s.userType? type).bind TypeDef.scalar?).toList.map (·.description)
  | .directive, .directive directive =>
    (s.directiveUse? directive).toList.map (·.definition.description)
  | .objectField, _ | .interfaceField, _ => (s.fieldsAt slot place).map (·.description)
  | _, _ => (s.inputsAt slot place).map (·.description)

end GraphQL.Schema

namespace Visit

def description? (v : Visit) : Option (Option String) :=
  match v with
  | .namedType _ _ => none
  | .objectType _ type => some type.description
  | .objectField _ _ _ field => some field.description
  | .objectFieldArgument _ _ _ _ _ argument => some argument.description
  | .interfaceType _ type => some type.description
  | .interfaceField _ _ _ field => some field.description
  | .interfaceFieldArgument _ _ _ _ _ argument => some argument.description
  | .inputObjectType _ type => some type.description
  | .inputObjectField _ _ _ field => some field.description
  | .enumType _ type => some type.description
  | .enumValue _ _ _ value => some value.description
  | .unionType _ type => some type.description
  | .scalarType _ type => some type.description
  | .directive _ entry => some entry.description
  | .directiveArgument _ _ _ argument => some argument.description

def electedType? (v : Visit) : Option TypeRef :=
  (v.fieldEntry?.map (·.type)).or (v.inputEntry?.map (·.type))

theorem isSome_electedType?_congr {v v' : Visit} (hslot : v'.slot = v.slot) :
    v'.electedType?.isSome = v.electedType?.isSome := by
  cases v <;> cases v' <;> cases hslot <;> rfl

theorem isOutput_congr {v v' : Visit} (hslot : v'.slot = v.slot) : v'.isOutput = v.isOutput := by
  cases v <;> cases v' <;> cases hslot <;> rfl

end Visit

theorem description_declared {δ ε : Type} {declare : Declared δ → Option ε → ε}
    (description : ε → Option String) (text : δ → Option String)
    (hdeclare : ∀ d e, description (declare d e) = mergeDescription (e.bind description) (text d.2))
    {subgraphs : List Subgraph} {graphs : Identities}
    (h : Identities.resolve subgraphs = .ok graphs) {keeps : Schema → Directive → Bool}
    {contents : Schema → List δ} {e : ε}
    (he : merged? declare (declared keeps (Model.sources graphs subgraphs) contents) = some e)
    : description e
        =
      mergedDescription (subgraphs.flatMap fun s => (contents s.schema).map text) := by
  rw [description_merged? hdeclare he, map_declared, ← List.flatMap_map (f := Prod.snd)
    (g := fun s => (contents s).map text), Model.map_snd_sources h, List.flatMap_map]

section

variable {subgraphs : List Subgraph} {graphs : Identities}
variable (h : Identities.resolve subgraphs = .ok graphs)
variable {v : Visit} (hv : v ∈ (Model.ofSubgraphs graphs subgraphs).visits)

include h hv

theorem description_eq {description : Option String}
    (hdescription : v.description? = some description)
    : description
        =
      mergedDescription (subgraphs.flatMap (·.schema.descriptionsAt v.slot v.place)) := by
  have hpart := (Model.mem_visits_iff _ _).1 hv
  cases v <;> cases hdescription
  case objectField | interfaceField =>
    have hmerged := Visit.ofDeclared?_fieldEntry hv rfl
    apply description_declared (·.description) (·.description) _ h hmerged
    rintro d (_ | e) <;> rfl
  case objectFieldArgument | interfaceFieldArgument | inputObjectField | directiveArgument =>
    obtain ⟨keeps, hmerged⟩ := Visit.ofDeclared?_inputEntry hv rfl
    apply description_declared (·.description) (·.description) _ h hmerged
    rintro d (_ | e) <;> rfl
  case objectType =>
    rw [Visit.IsPartOf, Model.get?_objects] at hpart
    apply description_declared (·.description) (·.1.description) _ h hpart
    rintro d (_ | e) <;> rfl
  case interfaceType =>
    rw [Visit.IsPartOf, Model.get?_interfaces] at hpart
    apply description_declared (·.description) (·.1.description) _ h hpart
    rintro d (_ | e) <;> rfl
  case inputObjectType =>
    rw [Visit.IsPartOf, Model.get?_inputObjects] at hpart
    apply description_declared (·.description) (·.1.description) _ h hpart
    rintro d (_ | e) <;> rfl
  case enumType =>
    rw [Visit.IsPartOf, Model.get?_enums] at hpart
    apply description_declared (·.description) (·.1.description) _ h hpart
    rintro d (_ | e) <;> rfl
  case enumValue =>
    obtain ⟨htype, hvalue⟩ := hpart
    rw [Model.get?_enums] at htype
    rw [EnumEntry.get?_values htype] at hvalue
    apply description_declared (·.description) (·.description) _ h hvalue
    rintro d (_ | e) <;> rfl
  case unionType =>
    rw [Visit.IsPartOf, Model.get?_unions] at hpart
    apply description_declared (·.description) (·.1.description) _ h hpart
    rintro d (_ | e) <;> rfl
  case scalarType =>
    rw [Visit.IsPartOf, Model.get?_scalars] at hpart
    apply description_declared (·.description) (·.description) _ h hpart
    rintro d (_ | e) <;> rfl
  case directive =>
    rw [Visit.IsPartOf, Model.get?_directives] at hpart
    apply description_declared (·.description) (·.definition.description) _ h hpart
    rintro d (_ | e) <;> rfl

theorem isElected_electedType? {t : TypeRef} (ht : v.electedType? = some t) :
    TypeRef.IsElected (!v.isOutput) (subgraphs.flatMap (·.schema.typesAt v.slot v.place)) t := by
  cases v <;> cases ht
  case objectField | interfaceField => exact Rule.isElected_fieldEntry h hv rfl
  all_goals exact Rule.isElected_inputEntry h hv rfl

end

theorem electedType?_eq {subgraphs subgraphs' : List Subgraph} {graphs graphs' : Identities}
    (h : Identities.resolve subgraphs = .ok graphs)
    (h' : Identities.resolve subgraphs' = .ok graphs') {v v' : Visit}
    (hv : v ∈ (Model.ofSubgraphs graphs subgraphs).visits)
    (hv' : v' ∈ (Model.ofSubgraphs graphs' subgraphs').visits) (hslot : v'.slot = v.slot)
    (hplace : v'.place = v.place) {first : TypeRef} {rest rest' : List TypeRef}
    (htypes : subgraphs.flatMap (·.schema.typesAt v.slot v.place) = first :: rest)
    (htypes' : subgraphs'.flatMap (·.schema.typesAt v.slot v.place) = first :: rest')
    (hrest : first.SameUpToOrder rest rest')
    : v'.electedType? = v.electedType? := by
  have hsome := Visit.isSome_electedType?_congr hslot
  cases ht : v.electedType? with
  | none => simpa [ht] using hsome
  | some t =>
    rw [ht] at hsome
    obtain ⟨t', ht'⟩ := Option.isSome_iff_exists.1 hsome
    have helected := isElected_electedType? h hv ht
    have helected' := isElected_electedType? h' hv' ht'
    rw [Visit.isOutput_congr hslot, hslot, hplace] at helected'
    rw [htypes] at helected
    rw [htypes'] at helected'
    rw [ht', helected.eq_of_sameUpToOrder helected' hrest]

theorem elected_eq {subgraphs : List Subgraph} {graphs : Identities}
    (h : Identities.resolve subgraphs = .ok graphs) {v : Visit}
    (hv : v ∈ (Model.ofSubgraphs graphs subgraphs).visits)
    : (∀ e, v.fieldEntry? = some e →
          ∃ first rest, subgraphs.flatMap (·.schema.typesAt v.slot v.place) = first :: rest
            ∧ e.type = first.relaxed rest)
        ∧ (∀ e, v.inputEntry? = some e →
          (∃ first rest, subgraphs.flatMap (·.schema.typesAt v.slot v.place) = first :: rest
              ∧ e.type = first.tightened rest)
            ∧ e.defaultValue
              = (subgraphs.flatMap (·.schema.inputsAt v.slot v.place)).findSome? (·.defaultValue))
        ∧ (∀ description, v.description? = some description →
          description
            = mergedDescription (subgraphs.flatMap (·.schema.descriptionsAt v.slot v.place)))
        ∧ ∀ subgraphs' graphs', Identities.resolve subgraphs' = .ok graphs' →
          ∀ v' ∈ (Model.ofSubgraphs graphs' subgraphs').visits,
            v'.slot = v.slot → v'.place = v.place → ∀ first rest rest',
              subgraphs.flatMap (·.schema.typesAt v.slot v.place) = first :: rest →
              subgraphs'.flatMap (·.schema.typesAt v.slot v.place) = first :: rest' →
              first.SameUpToOrder rest rest' → v'.electedType? = v.electedType? := by
  refine ⟨?_, ?_, ?_, ?_⟩
  . intro e he
    exact (Rule.isElected_fieldEntry h hv he).exists_relaxed
  . intro e he
    exact ⟨(Rule.isElected_inputEntry h hv he).exists_tightened,
      Rule.defaultValue_inputEntry h hv he⟩
  . intro description hdescription
    exact description_eq h hv hdescription
  . intro subgraphs' graphs' h' v' hv' hslot hplace first rest rest' htypes htypes' hrest
    exact electedType?_eq h h' hv hv' hslot hplace htypes htypes' hrest

theorem elected_eq_sample :
    ∃ v ∈ (Model.ofSubgraphs sampleGraphs sampleSubgraphs).visits,
      v.place = .member (.lit "Query") (.lit "a")
        ∧ ∃ e, v.fieldEntry? = some e ∧ e.type = .named (.lit "Int") false
          ∧ ∃ first rest,
            sampleSubgraphs.flatMap (·.schema.typesAt v.slot v.place) = first :: rest
              ∧ e.type = first.relaxed rest := by
  have hv := List.get_mem (Model.ofSubgraphs sampleGraphs sampleSubgraphs).visits ⟨2, by decide⟩
  exact ⟨_, hv, rfl, _, rfl, rfl, (elected_eq resolve_sampleSubgraphs hv).1 _ rfl⟩

end Supergraph
