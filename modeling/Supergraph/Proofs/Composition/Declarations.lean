import Supergraph.Proofs.Composition.Graphs
import Supergraph.Proofs.Composition.TypeFacts
import Supergraph.Proofs.Model.TypeOrder

/-!
This module contains the proof that no declaration of a type is lost or invented, and that a
supergraph tells which subgraph declares what.
-/

namespace Supergraph

open GraphQL

structure GraphQL.TypeDef.Unites (t : TypeDef) (declared : List TypeDef) : Prop where
  kind : ∀ d ∈ declared, d.kind = t.kind
  parts : ∀ name, name ∈ t.parts ↔ ∃ d ∈ declared, name ∈ d.parts
    ∧ (d.kind ∈ [.object, .interface] → name.text ∉ Federation.fields)
  interfaces : t.interfaces = (OrderedSet.ofList (declared.flatMap (·.interfaces))).toList

def Join.isMerged (name : Name) : Bool :=
  !isBuiltInType name && !beginnings.any fun beginning =>
    beginning.toList.isPrefixOf name.text.toList
where
  beginnings : List String := ["link__", "join__"]

theorem Join.isMerged_of_isUserType {name : Name} (h : Federation.isUserType name) :
    isMerged name := by
  unfold Federation.isUserType Federation.isNamespaced Federation.namespaces at h
  unfold isMerged isMerged.beginnings
  simp only [Bool.and_eq_true, Bool.not_eq_true', List.any_cons, Bool.or_eq_false_iff] at h ⊢
  exact ⟨h.1.1, h.2.2⟩

namespace Model

theorem isMerged_of_mem_givenTypes {graphs : Identities} {name : Name}
    (h : name ∈ (givenTypes graphs).keys) : Join.isMerged name = false := by
  cases (mem_keys_givenTypes_iff _ _).1 h with
  | inl hbuiltIn =>
    unfold Join.isMerged
    rw [hbuiltIn]
    rfl
  | inr hjoin =>
    have hnone : ∀ name ∈ [Name.lit "link__Purpose", .lit "link__Import", Join.fieldSet,
        Join.graphType], Join.isMerged name = false := by
      decide
    exact hnone name hjoin

variable {subgraphs : List Subgraph} {graphs : Identities}
variable (h : Identities.resolve subgraphs = .ok graphs) {type : Name}

include h

theorem keys_emitTypes :
    (ofSubgraphs graphs subgraphs).emitTypes.keys
      =
    (OrderedSet.ofList (subgraphs.flatMap (·.schema.userTypeNames))).toList := by
  rw [← keys_kinds_ofSubgraphs h]
  apply OrderedMap.keys_filterMap
  intro type kinds hkinds
  obtain ⟨s, hs, d, hd, hhead⟩ := exists_head?_kinds h hkinds
  rw [hhead, Option.bind_some]
  exact isSome_emitType? h _ hs hd

theorem keys_types_toSchema :
    (ofSubgraphs graphs subgraphs).toSchema.types.keys.filter Join.isMerged
      =
    (OrderedSet.ofList (subgraphs.flatMap (·.schema.userTypeNames))).toList := by
  have huser : ∀ name ∈ (ofSubgraphs graphs subgraphs).emitTypes.keys,
      Federation.isUserType name := by
    intro name hname
    rw [keys_emitTypes h, OrderedSet.mem_toList, OrderedSet.mem_ofList] at hname
    obtain ⟨s, -, hname⟩ := List.mem_flatMap.1 hname
    exact (List.mem_filter.1 hname).2
  have hkeys : (ofSubgraphs graphs subgraphs).toSchema.types.keys
      = (givenTypes (ofSubgraphs graphs subgraphs).graphs).keys
        ++ (ofSubgraphs graphs subgraphs).emitTypes.keys := by
    unfold OrderedMap.keys
    rw [← List.map_append, ← OrderedMap.toList_insertMany_of_nodup]
    . rfl
    . refine List.nodup_append.2 ⟨OrderedMap.keys_nodup _, OrderedMap.keys_nodup _, ?_⟩
      rintro name hgiven _ hname rfl
      exact not_mem_keys_givenTypes _ (huser name hname) hgiven
  have hgiven : (givenTypes (ofSubgraphs graphs subgraphs).graphs).keys.filter Join.isMerged
      = [] := by
    rw [List.filter_eq_nil_iff]
    intro name hname
    rw [isMerged_of_mem_givenTypes hname]
    exact Bool.false_ne_true
  rw [hkeys, List.filter_append, hgiven, List.nil_append, ← keys_emitTypes h, List.filter_eq_self]
  intro name hname
  exact Join.isMerged_of_isUserType (huser name hname)

theorem exists_kind_of_emitTypes
    (hkind : ¬ Finding.kind (schemaSet (subgraphs.map (·.schema))) .namedType (.type type))
    {t : TypeDef} (ht : (ofSubgraphs graphs subgraphs).emitTypes.get? type = some t)
    : (ofSubgraphs graphs subgraphs).emitType? (ofSubgraphs graphs subgraphs).annotator type t.kind
          = some t
        ∧ ∀ s ∈ subgraphs, ∀ d, s.schema.userType? type = some d → d.kind = t.kind := by
  constructor
  . obtain ⟨kind, ht⟩ := exists_emitType?_of_emitTypes ht
    rw [kind_of_emitType? ht]
    exact ht
  . intro s hs d hd
    rw [get?_emitTypes_of_userType? h hkind hs hd] at ht
    exact (kind_of_emitType? ht).symm

section

variable {composite? : TypeDef → Option (TypeDef × CompositeBody)} {e : CompositeEntry}
variable (he : CompositeEntry.ofDeclared? (declared Schema.keeps (sources graphs subgraphs) fun s =>
  ((s.userType? type).bind composite?).toList) = some e)

include he

theorem mem_keys_fields_iff
    (hcomposite : ∀ s ∈ subgraphs, ∀ d, s.schema.userType? type = some d →
      ∃ body, composite? d = some (d, body) ∧ d.parts = body.fields.keys)
    (name : Name)
    : name ∈ e.fields.keys
        ↔
      ∃ s ∈ subgraphs, ∃ d, s.schema.userType? type = some d ∧ name ∈ d.parts := by
  rw [OrderedMap.mem_keys_iff, CompositeEntry.get?_fields he, FieldEntry.ofDeclared?,
    isSome_merged?_declared_iff, map_snd_sources h]
  simp only [List.mem_map, exists_exists_and_eq_and, toList_ne_nil_iff]
  apply exists_congr
  intro s
  apply and_congr_right
  intro hs
  unfold Schema.field?
  cases hd : s.schema.userType? type with
  | none => simp
  | some d =>
    obtain ⟨body, hbody, hparts⟩ := hcomposite s hs d hd
    simp [hbody, hparts, OrderedMap.mem_keys_iff]

theorem interfaces_body
    (hcomposite : ∀ s ∈ subgraphs, ∀ d, s.schema.userType? type = some d →
      ∃ body, composite? d = some (d, body) ∧ d.interfaces = body.interfaces.toList)
    (a : Annotator)
    : (e.body a).interfaces
        =
      .ofList (subgraphs.flatMap fun s => (s.schema.userType? type).elim [] (·.interfaces)) := by
  unfold CompositeEntry.body
  dsimp only
  rw [(CompositeEntry.merges he).byGraph, flatMap_values_records (nodup_sources h),
    map_snd_sources h, List.flatMap_map]
  congr 1
  apply List.flatMap_congr
  intro s hs
  cases hd : s.schema.userType? type with
  | none => rfl
  | some d =>
    obtain ⟨body, hbody, hinterfaces⟩ := hcomposite s hs d hd
    rw [Option.bind_some, hbody]
    exact hinterfaces.symm

end

theorem mem_keys_values_iff {e : EnumEntry}
    (he : (ofSubgraphs graphs subgraphs).enums.get? type = some e)
    (henum : ∀ s ∈ subgraphs, ∀ d, s.schema.userType? type = some d →
      ∃ values, d.body = .enum values)
    (name : Name)
    : name ∈ e.values.keys
        ↔
      ∃ s ∈ subgraphs, ∃ d, s.schema.userType? type = some d ∧ name ∈ d.parts := by
  rw [get?_enums] at he
  rw [OrderedMap.mem_keys_iff, EnumEntry.get?_values he, EnumValueEntry.ofDeclared?,
    isSome_merged?_declared_iff, map_snd_sources h]
  simp only [List.mem_map, exists_exists_and_eq_and, toList_ne_nil_iff]
  apply exists_congr
  intro s
  apply and_congr_right
  intro hs
  unfold Schema.enumValue?
  cases hd : s.schema.userType? type with
  | none => simp
  | some d =>
    obtain ⟨values, hvalues⟩ := henum s hs d hd
    unfold TypeDef.enum? TypeDef.parts
    simp [hvalues, OrderedMap.mem_keys_iff]

theorem exists_mem_declared_iff {δ : Type} {keeps : Schema → Directive → Bool}
    {contents : Schema → List δ} (P : δ → Prop)
    : (∃ x ∈ declared keeps (sources graphs subgraphs) contents, P x.2)
        ↔
      ∃ s ∈ subgraphs, ∃ d ∈ contents s.schema, P d := by
  constructor
  . rintro ⟨x, hx, hP⟩
    obtain ⟨graph, schema, hmem, -, hd⟩ := mem_declared.1 hx
    obtain ⟨s, hs, rfl⟩ := exists_of_mem_sources hmem
    exact ⟨s, hs, x.2, hd, hP⟩
  . rintro ⟨s, hs, d, hd, hP⟩
    obtain ⟨⟨graph, schema⟩, hmem, heq⟩ := List.mem_map.1 (mem_map_snd_sources h hs)
    rw [← heq] at hd
    exact ⟨(⟨graph, keeps schema⟩, d), mem_declared.2 ⟨graph, schema, hmem, rfl, hd⟩, hP⟩

theorem mem_keys_members_iff {e : UnionEntry}
    (he : (ofSubgraphs graphs subgraphs).unions.get? type = some e)
    (hunion : ∀ s ∈ subgraphs, ∀ d, s.schema.userType? type = some d →
      ∃ members, d.body = .union members)
    (name : Name)
    : name ∈ e.members.keys
        ↔
      ∃ s ∈ subgraphs, ∃ d, s.schema.userType? type = some d ∧ name ∈ d.parts := by
  rw [get?_unions] at he
  rw [UnionEntry.mem_keys_members he]
  refine (exists_mem_declared_iff h fun d : TypeDef × OrderedSet Name => name ∈ d.2).trans ?_
  apply exists_congr
  intro s
  apply and_congr_right
  intro hs
  cases hd : s.schema.userType? type with
  | none => simp
  | some d =>
    obtain ⟨members, hmembers⟩ := hunion s hs d hd
    unfold TypeDef.union? TypeDef.parts
    simp [hmembers]

theorem mem_parts_emitType? {kind : TypeKind} {t : TypeDef}
    (ht : (ofSubgraphs graphs subgraphs).emitType? (ofSubgraphs graphs subgraphs).annotator type kind
      = some t)
    (hkind : ∀ s ∈ subgraphs, ∀ d, s.schema.userType? type = some d → d.kind = kind) (name : Name)
    : name ∈ t.parts
        ↔
      ∃ s ∈ subgraphs, ∃ d, s.schema.userType? type = some d ∧ name ∈ d.parts := by
  cases kind <;> obtain ⟨e, he, rfl⟩ := Option.map_eq_some_iff.1 ht
  case object =>
    change name ∈ (e.fields.map _).keys ↔ _
    rw [OrderedMap.keys_map, mem_keys_fields_iff h ((get?_objects _ _ _).symm.trans he)]
    rintro s hs ⟨description, directives, body⟩ hd
    cases body with
    | object body => exact ⟨body, rfl, rfl⟩
    | _ => cases hkind s hs _ hd
  case interface =>
    change name ∈ (e.fields.map _).keys ↔ _
    rw [OrderedMap.keys_map, mem_keys_fields_iff h ((get?_interfaces _ _ _).symm.trans he)]
    rintro s hs ⟨description, directives, body⟩ hd
    cases body with
    | interface body => exact ⟨body, rfl, rfl⟩
    | _ => cases hkind s hs _ hd
  case enum =>
    change name ∈ (e.values.map _).keys ↔ _
    rw [OrderedMap.keys_map, mem_keys_values_iff h he]
    rintro s hs ⟨description, directives, body⟩ hd
    cases body with
    | enum values => exact ⟨values, rfl⟩
    | _ => cases hkind s hs _ hd
  case union =>
    change name ∈ e.members.keys ↔ _
    rw [mem_keys_members_iff h he]
    rintro s hs ⟨description, directives, body⟩ hd
    cases body with
    | union members => exact ⟨members, rfl⟩
    | _ => cases hkind s hs _ hd
  all_goals
    refine iff_of_false List.not_mem_nil ?_
    rintro ⟨s, hs, ⟨description, directives, body⟩, hd, hname⟩
    have hbody := hkind s hs _ hd
    cases body <;> first | cases hname | cases hbody

theorem interfaces_emitType? {kind : TypeKind} {t : TypeDef}
    (ht : (ofSubgraphs graphs subgraphs).emitType? (ofSubgraphs graphs subgraphs).annotator type kind
      = some t)
    (hkind : ∀ s ∈ subgraphs, ∀ d, s.schema.userType? type = some d → d.kind = kind)
    : t.interfaces
        =
      (OrderedSet.ofList
        (subgraphs.flatMap fun s => (s.schema.userType? type).elim [] (·.interfaces))).toList := by
  cases kind <;> obtain ⟨e, he, rfl⟩ := Option.map_eq_some_iff.1 ht
  case object =>
    have hinterfaces := interfaces_body h ((get?_objects _ _ _).symm.trans he) ?_
      (ofSubgraphs graphs subgraphs).annotator
    . exact congrArg (·.toList) hinterfaces
    rintro s hs ⟨description, directives, body⟩ hd
    cases body with
    | object body => exact ⟨body, rfl, rfl⟩
    | _ => cases hkind s hs _ hd
  case interface =>
    have hinterfaces := interfaces_body h ((get?_interfaces _ _ _).symm.trans he) ?_
      (ofSubgraphs graphs subgraphs).annotator
    . exact congrArg (·.toList) hinterfaces
    rintro s hs ⟨description, directives, body⟩ hd
    cases body with
    | interface body => exact ⟨body, rfl, rfl⟩
    | _ => cases hkind s hs _ hd
  all_goals
    have hnil : subgraphs.flatMap (fun s => (s.schema.userType? type).elim [] (·.interfaces))
        = [] := by
      rw [List.flatMap_eq_nil_iff]
      intro s hs
      cases hd : s.schema.userType? type with
      | none => rfl
      | some d =>
        have hbody := hkind s hs d hd
        obtain ⟨description, directives, body⟩ := d
        cases body <;> first | rfl | cases hbody
    rw [hnil]
    rfl

theorem unites_emitType? (huser : Federation.isUserType type) {kind : TypeKind} {t : TypeDef}
    (ht : (ofSubgraphs graphs subgraphs).emitType? (ofSubgraphs graphs subgraphs).annotator type kind
      = some t)
    (hkind : ∀ s ∈ subgraphs, ∀ d, s.schema.userType? type = some d → d.kind = kind)
    : t.Unites (subgraphs.filterMap (·.schema.types.get? type)) := by
  have htype : ∀ s : Schema, s.userType? type = (s.types.get? type).map (·.userPart) :=
    fun s => s.userType?_eq huser
  have hparts := mem_parts_emitType? h ht hkind
  have hinterfaces := interfaces_emitType? h ht hkind
  simp only [htype] at hkind hparts hinterfaces
  constructor
  . intro d hd
    obtain ⟨s, hs, hd⟩ := List.mem_filterMap.1 hd
    rw [kind_of_emitType? ht, ← hkind s hs d.userPart (by rw [hd]; rfl), d.kind_userPart]
  . intro name
    rw [hparts]
    constructor
    . rintro ⟨s, hs, _, huserPart, hname⟩
      obtain ⟨d, hd, rfl⟩ := Option.map_eq_some_iff.1 huserPart
      exact ⟨d, List.mem_filterMap.2 ⟨s, hs, hd⟩, (d.mem_parts_userPart name).1 hname⟩
    . rintro ⟨d, hd, hname⟩
      obtain ⟨s, hs, hd⟩ := List.mem_filterMap.1 hd
      refine ⟨s, hs, d.userPart, ?_, (d.mem_parts_userPart name).2 hname⟩
      rw [hd]
      rfl
  . rw [hinterfaces, List.filterMap_eq_flatMap_toList, List.flatMap_assoc]
    congr 2
    apply List.flatMap_congr
    intro s _
    cases s.schema.types.get? type with
    | none => rfl
    | some d => simp [d.interfaces_userPart]

end Model

theorem compose_declares {subgraphs : List Subgraph} {disabled : List String} {c : Composition}
    (hc : compose subgraphs disabled = .ok c) (henabled : Rule.typeKinds.name ∉ disabled)
    : c.schema.types.keys.filter Join.isMerged
          = (OrderedSet.ofList (subgraphs.flatMap fun s =>
            s.schema.types.keys.filter Federation.isUserType)).toList
        ∧ ∀ type t, Join.isMerged type → c.schema.types.get? type = some t →
          t.Unites (subgraphs.filterMap (·.schema.types.get? type))
            ∧ (∀ f ∈ t.statements, f.graph ∈ c.graphs.values.map (·.enumValue))
            ∧ ∀ (i : Nat) s identity, subgraphs[i]? = some s → c.graphs.values[i]? = some identity →
              t.TellsOf identity.enumValue (s.schema.types.get? type) := by
  obtain ⟨graphs, h, hnone, rfl⟩ := (compose_eq_ok_iff subgraphs disabled c).1 hc
  have hvisits : ∀ v ∈ (Model.ofSubgraphs graphs subgraphs).visits,
      (Rule.typeKinds.visitor graphs).visit v = [] := by
    intro v hv
    exact hnone v hv Rule.typeKinds ((Rule.mem_enabled_iff _ _).2 ⟨by simp [Rule.all], henabled⟩)
  have hnames := Model.keys_types_toSchema h
  refine ⟨hnames, ?_⟩
  intro type t hmerged ht
  -- A merged type is there because some subgraph declares it.
  have huser : Federation.isUserType type := by
    have hmem := List.mem_filter.2 ⟨OrderedMap.mem_keys_of_get? ht, hmerged⟩
    rw [hnames, OrderedSet.mem_toList, OrderedSet.mem_ofList] at hmem
    obtain ⟨s, -, hname⟩ := List.mem_flatMap.1 hmem
    exact (List.mem_filter.1 hname).2
  rw [Model.get?_types_of_isUserType _ huser] at ht
  obtain ⟨hemit, hkind⟩ := Model.exists_kind_of_emitTypes h
    (Model.not_kind_of_visits h hvisits type) ht
  refine ⟨Model.unites_emitType? h huser hemit hkind, ?_, ?_⟩
  . intro f hf
    exact Model.graph_of_mem_statements h hemit hkind hf
  . intro i s identity hs hidentity
    obtain ⟨id, _, hid, -⟩ := Identities.represents_of_getElem? h hs
    unfold OrderedMap.values at hidentity
    rw [List.getElem?_map, hid] at hidentity
    cases hidentity
    rw [← Identities.valueOf_eq ((OrderedMap.mem_toList_iff _ _ _).1 (List.mem_of_getElem? hid))]
    exact Model.tellsOf_emitType? h huser hemit hkind
      (List.mem_of_getElem? (Identities.getElem?_sources hs hid))

def GraphQL.Directive.key (resolvable : Bool) : Directive where
  name := .lit "key"
  arguments := [(.lit "fields", .string "id"), (.lit "resolvable", .boolean resolvable)]

def GraphQL.CompositeBody.identified (interfaces : List Name) : CompositeBody where
  interfaces := .ofList interfaces
  fields := .ofList [(.lit "id", { type := .named (.lit "ID") true })]

def GraphQL.TypeDef.entity (resolvable : Bool) (interfaces : List Name) : TypeDef where
  directives := [.key resolvable]
  body := .object (CompositeBody.identified interfaces)

def entitySubgraphs : List Subgraph := [
  { name := "first"
    schema := {
      directiveDefs := ∅
      types := .ofList [
        (.lit "Node", { body := .interface (CompositeBody.identified []) }),
        (.lit "User", .entity true [.lit "Node"])] } },
  { name := "second"
    schema := {
      directiveDefs := ∅
      types := .ofList [
        (.lit "User", .entity false []),
        (.lit "Result", { body := .union (.ofList [.lit "User"]) })] } }]

theorem compose_declares_entities :
    compose entitySubgraphs [] = .ok (sampleResult entitySubgraphs)
      ∧ (sampleResult entitySubgraphs).schema.types.keys.filter Join.isMerged
        = [.lit "Node", .lit "User", .lit "Result"]
      ∧ ∃ t, (sampleResult entitySubgraphs).schema.types.get? (.lit "User") = some t
        ∧ t.interfaces = [.lit "Node"]
        ∧ Join.keysIn (.lit "FIRST") t.directives = some [{ fields := "id", resolvable := true }]
        ∧ Join.keysIn (.lit "SECOND") t.directives = some [{ fields := "id", resolvable := false }]
        ∧ Join.interfacesIn (.lit "SECOND") t.directives = [] := by
  have hc : compose entitySubgraphs [] = .ok (sampleResult entitySubgraphs) :=
    compose_eq_sampleResult rfl (by decide +kernel)
  obtain ⟨hnames, hdeclares⟩ := compose_declares hc (by decide)
  have hany : ((sampleResult entitySubgraphs).schema.types.get? (.lit "User")).isSome := by
    decide +kernel
  obtain ⟨t, ht⟩ := Option.isSome_iff_exists.1 hany
  obtain ⟨hunites, -, htells⟩ := hdeclares (.lit "User") t (by decide) ht
  have hfirst := htells 0 _ _ rfl rfl
  have hsecond := htells 1 _ _ rfl rfl
  exact ⟨hc, hnames.trans (by decide +kernel), t, ht, hunites.interfaces.trans (by decide +kernel),
    hfirst.keys.trans (by decide +kernel), hsecond.keys.trans (by decide +kernel),
    hsecond.interfaces.trans (by decide +kernel)⟩

end Supergraph
