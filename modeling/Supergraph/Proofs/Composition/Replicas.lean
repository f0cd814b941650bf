import Supergraph.Proofs.Composition.Attribution
import Supergraph.Proofs.Composition.Content
import Supergraph.Proofs.Model.Replica

/-!
This module contains the proof that composing copies of one schema changes nothing, up to
applications of directives.
-/

namespace Supergraph

open GraphQL

theorem Model.not_fact_of_inputField? {subgraphs : List Subgraph} {graphs : Identities}
    {type : Name} {kind : TypeKind} {t : TypeDef}
    (ht : (ofSubgraphs graphs subgraphs).emitType? (ofSubgraphs graphs subgraphs).annotator type
      kind = some t)
    {field : Name} {d : InputValueDef} (hd : t.inputField? field = some d)
    : ∀ x ∈ d.directives, x.name ≠ Join.fieldName := by
  cases kind <;> obtain ⟨e, he, rfl⟩ := Option.map_eq_some_iff.1 ht
  case inputObject =>
    obtain ⟨ie, -, rfl⟩ := InputObjectEntry.exists_field_of_emit (Option.mem_toList.2 hd)
    intro x hx hname
    have huser := isUserDirective_of_mem_copied hx
    rw [hname] at huser
    exact absurd huser (by decide)
  all_goals cases hd

namespace Finding

variable {S : Set Schema} {s : Schema} (hcopies : ∀ s' ∈ S, s' = s)

include hcopies

theorem not_differ {α : Type} {locals : Schema → List α} (hlength : (locals s).length ≤ 1)
    {r : α → α → Prop} (hr : ∀ a, ¬ r a a) : ¬ Differ S locals r := by
  rintro ⟨s₁, hs₁, a, ha, s₂, hs₂, b, hb, hab⟩
  rw [hcopies s₁ hs₁] at ha
  rw [hcopies s₂ hs₂] at hb
  obtain ⟨c, hc⟩ := List.length_eq_one_iff.1 (Nat.le_antisymm hlength (List.length_pos_of_mem ha))
  rw [hc, List.mem_singleton] at ha hb
  subst ha hb
  exact hr _ hab

theorem not_lost (slot : Slot) (place : Coordinate) : ¬ lost S slot place := by
  rintro ⟨⟨s₁, hs₁, hrequires⟩, s₂, hs₂, -, hnone⟩
  obtain ⟨d, hd, -⟩ := (s₁.requiresAt_iff slot place).1 hrequires
  rw [hcopies s₁ hs₁] at hd
  rw [hcopies s₂ hs₂] at hnone
  rw [hnone] at hd
  cases hd

theorem not_empty
    (hinputs : ∀ d ∈ s.userTypeMap.values, d.kind = .inputObject → d.inputNames ≠ [])
    (place : Coordinate) : ¬ empty S place := by
  intro hempty
  unfold empty at hempty
  split at hempty
  . next type =>
    have hdropped : ∀ field, ((s.userType? type).bind TypeDef.inputObject?).isSome
        ∧ s.inputField? type field = none := by
      intro field
      obtain ⟨s', hs', hparent, hnone⟩ := hempty field
      rw [hcopies s' hs'] at hparent hnone
      exact ⟨hparent, Option.toList_eq_nil_iff.1 hnone⟩
    obtain ⟨x, hx⟩ := Option.isSome_iff_exists.1 (hdropped Inhabited.default).1
    obtain ⟨⟨description, directives, body⟩, hd, hbody⟩ := Option.bind_eq_some_iff.1 hx
    cases body <;> cases hbody
    case inputObject fields =>
      have hmem := (OrderedMap.mem_values_iff _ _).2 ⟨type, hd⟩
      obtain ⟨field, hfield⟩ := List.exists_mem_of_ne_nil _ (hinputs _ hmem rfl)
      obtain ⟨input, hinput⟩ := OrderedMap.exists_get?_of_mem_keys hfield
      have hnone := (hdropped field).2
      unfold Schema.inputField? at hnone
      rw [hx, Option.bind_some, hinput] at hnone
      cases hnone
  . exact hempty

end Finding

structure IsReplicated (s : Schema) (subgraphs : List Subgraph) (graphs : Identities) : Prop where
  resolve : Identities.resolve subgraphs = .ok graphs
  ne_nil : subgraphs ≠ []
  schema : ∀ subgraph ∈ subgraphs, subgraph.schema = s
  distinct : s.DistinctArguments

namespace IsReplicated

variable {s : Schema} {subgraphs : List Subgraph} {graphs : Identities}
variable (h : IsReplicated s subgraphs graphs)

include h

theorem visit_eq_nil
    (hinputs : ∀ d ∈ s.userTypeMap.values, d.kind = .inputObject → d.inputNames ≠ [])
    {v : Visit} (hv : v ∈ (Model.ofSubgraphs graphs subgraphs).visits) {r : Rule}
    (hr : r ∈ Rule.all)
    : (r.visitor graphs).visit v = [] := by
  have hcopies : ∀ s' ∈ schemaSet (subgraphs.map (·.schema)), s' = s := by
    intro s' hs'
    obtain ⟨subgraph, hsubgraph, rfl⟩ := List.mem_map.1 hs'
    exact h.schema subgraph hsubgraph
  have hdistinct : ∀ subgraph ∈ subgraphs, subgraph.schema.DistinctArguments := by
    intro subgraph hsubgraph
    rw [h.schema subgraph hsubgraph]
    exact h.distinct
  -- Declarations at a place are all the same one: none differs from another, and none is missing.
  have htype : ¬ Finding.type (schemaSet (subgraphs.map (·.schema))) v.slot v.place :=
    Finding.not_differ hcopies (h.distinct.length_typesAt_le_one _ _) fun t hne => hne (.refl t)
  have hlost := Finding.not_lost hcopies v.slot v.place
  simp only [Rule.all, List.mem_cons, List.not_mem_nil, or_false] at hr
  obtain rfl | rfl | rfl | rfl | rfl | rfl := hr
  . apply (Rule.reports_typeKinds h.resolve hv).of_false
    apply Finding.not_differ hcopies (s.length_kindsAt_le_one v.slot v.place)
    exact fun _ hne => hne rfl
  . apply (Rule.reports_fieldTypes h.resolve hv hdistinct).of_false
    exact fun hfinding => htype hfinding.2
  . apply (Rule.reports_argumentTypes h.resolve hv hdistinct).of_false
    exact fun hfinding => htype hfinding.2
  . apply (Rule.reports_requiredArguments h.resolve hv).of_false
    exact fun hfinding => hlost hfinding.2
  . apply (Rule.reports_argumentDefaults h.resolve hv).of_false
    intro hfinding
    exact Finding.not_differ hcopies (s.length_defaultsAt_le_one v.slot v.place)
      (fun _ hne => hne rfl) hfinding.2
  . apply (Rule.reports_inputFields h.resolve hv).of_false
    rintro (hfinding | hfinding)
    . exact Finding.not_empty hcopies hinputs v.place hfinding.2
    . exact hlost hfinding.2

theorem graphs_ne_nil : graphs.keys ≠ [] := by
  intro hnone
  have hlength := OrderedMap.length_keys graphs
  rw [hnone, Identities.size_of_resolve h.resolve, eq_comm] at hlength
  exact h.ne_nil (List.length_eq_zero_iff.1 hlength)

theorem sources_eq : Model.sources graphs subgraphs = graphs.keys.map (·, s) := by
  have hschema : ∀ source ∈ Model.sources graphs subgraphs, source = (source.1, s) := by
    rintro ⟨graph, s'⟩ hsource
    have hs' : s' ∈ subgraphs.map (·.schema) := by
      rw [← Model.map_snd_sources h.resolve]
      exact List.mem_map.2 ⟨_, hsource, rfl⟩
    obtain ⟨subgraph, hsubgraph, rfl⟩ := List.mem_map.1 hs'
    rw [h.schema subgraph hsubgraph]
  rw [← Model.map_fst_sources h.resolve, List.map_map]
  calc Model.sources graphs subgraphs
    _ = (Model.sources graphs subgraphs).map id := (List.map_id _).symm
    _ = (Model.sources graphs subgraphs).map ((·, s) ∘ Prod.fst) := List.map_congr_left hschema

theorem exists_replicas {δ ε : Type} {declare : Declared δ → Option ε → ε}
    {content? : Schema → Option δ} {e : ε}
    (he : merged? declare (declared Schema.keeps (Model.sources graphs subgraphs) fun s =>
      (content? s).toList) = some e)
    : ∃ d, content? s = some d
        ∧ merged? declare (Declared.replicas graphs.keys s.keeps d) = some e := by
  rw [h.sources_eq] at he
  cases hd : content? s with
  | none =>
    have hnone : declared Schema.keeps (graphs.keys.map (·, s)) (fun s => (content? s).toList)
        = [] := by
      rw [declared_eq_nil_iff]
      intro source hsource
      obtain ⟨graph, -, rfl⟩ := List.mem_map.1 hsource
      exact Option.toList_eq_nil_iff.2 hd
    rw [hnone] at he
    cases he
  | some d =>
    rw [declared_replicas (Option.toList_eq_singleton_iff.2 hd)] at he
    exact ⟨d, rfl, he⟩

theorem exists_type_replicas {δ ε : Type} {declare : Declared δ → Option ε → ε}
    {content? : TypeDef → Option δ} {type : Name} {e : ε}
    (he : merged? declare (declared Schema.keeps (Model.sources graphs subgraphs) fun s =>
      ((s.userType? type).bind content?).toList) = some e)
    : ∃ d x, s.userType? type = some d ∧ content? d = some x
        ∧ merged? declare (Declared.replicas graphs.keys s.keeps x) = some e := by
  obtain ⟨x, hx, he⟩ := h.exists_replicas he
  obtain ⟨d, hd, hx⟩ := Option.bind_eq_some_iff.1 hx
  exact ⟨d, x, hd, hx, he⟩

theorem bare_emitType? {type : Name} {kind : TypeKind} {t : TypeDef}
    (ht : (Model.ofSubgraphs graphs subgraphs).emitType?
      (Model.ofSubgraphs graphs subgraphs).annotator type kind = some t)
    : ∃ d, s.userType? type = some d ∧ t.bare = d.bare := by
  have hdistinct : ∀ d, s.userType? type = some d →
      ∀ f ∈ d.body.fieldDefs, (f.arguments.map Prod.fst).Nodup := by
    intro d hd f hf
    obtain ⟨d', hd', rfl⟩ := Schema.exists_mem_types_of_userType? hd
    exact h.distinct.1 d' hd' f (Schema.mem_fieldDefs_of_userPart hf)
  cases kind <;> obtain ⟨e, he, rfl⟩ := Option.map_eq_some_iff.1 ht
  case object =>
    rw [Model.get?_objects] at he
    obtain ⟨⟨_, _, body⟩, x, hd, hx, he⟩ := h.exists_type_replicas he
    cases body <;> cases hx
    exact ⟨_, hd, CompositeEntry.bare_emitObject_replicas he graphs.keys_nodup h.graphs_ne_nil
      (hdistinct _ hd) rfl _⟩
  case interface =>
    rw [Model.get?_interfaces] at he
    obtain ⟨⟨_, _, body⟩, x, hd, hx, he⟩ := h.exists_type_replicas he
    cases body <;> cases hx
    exact ⟨_, hd, CompositeEntry.bare_emitInterface_replicas he graphs.keys_nodup h.graphs_ne_nil
      (hdistinct _ hd) rfl _⟩
  case inputObject =>
    rw [Model.get?_inputObjects] at he
    obtain ⟨⟨_, _, body⟩, x, hd, hx, he⟩ := h.exists_type_replicas he
    cases body <;> cases hx
    exact ⟨_, hd, InputObjectEntry.bare_emit_replicas he rfl graphs.keys_nodup _⟩
  case enum =>
    rw [Model.get?_enums] at he
    obtain ⟨⟨_, _, body⟩, x, hd, hx, he⟩ := h.exists_type_replicas he
    cases body <;> cases hx
    exact ⟨_, hd, EnumEntry.bare_emit_replicas he rfl _⟩
  case union =>
    rw [Model.get?_unions] at he
    obtain ⟨⟨_, _, body⟩, x, hd, hx, he⟩ := h.exists_type_replicas he
    cases body <;> cases hx
    exact ⟨_, hd, UnionEntry.bare_emit_replicas he rfl _⟩
  case scalar =>
    rw [Model.get?_scalars] at he
    obtain ⟨⟨_, _, body⟩, x, hd, hx, he⟩ := h.exists_type_replicas he
    cases body <;> cases hx
    exact ⟨_, hd, ScalarEntry.bare_emit_replicas he rfl _⟩

theorem bare_mergedTypes :
    (Model.ofSubgraphs graphs subgraphs).toSchema.mergedTypes.map (fun _ t => t.bare)
      =
    s.userTypeMap.map fun _ t => t.bare := by
  rw [Model.mergedTypes_toSchema h.resolve]
  apply OrderedMap.map_eq_map
  . have hnames : OrderedSet.ofList (subgraphs.flatMap (·.schema.userTypeNames))
        = s.userTypeMap.keySet := by
      apply OrderedSet.ofList_flatMap_eq h.ne_nil
      intro subgraph hsubgraph
      rw [h.schema subgraph hsubgraph]
      exact s.map_fst_userTypes.symm
    rw [Model.keys_emitTypes h.resolve, hnames]
    rfl
  . intro type t d ht hd
    obtain ⟨kind, ht⟩ := Model.exists_emitType?_of_emitTypes ht
    obtain ⟨d', hd', hbare⟩ := h.bare_emitType? ht
    cases hd.symm.trans hd'
    exact hbare

theorem isMarked_of_fact {composite? : TypeDef → Option (TypeDef × CompositeBody)}
    {type field : Name} {e : CompositeEntry}
    (he : CompositeEntry.ofDeclared? (declared Schema.keeps (Model.sources graphs subgraphs)
      fun s => ((s.userType? type).bind composite?).toList) = some e)
    {d : FieldDef}
    (hd : (e.body (Model.ofSubgraphs graphs subgraphs).annotator).fields.get? field = some d)
    (hfact : ∃ x ∈ d.directives, x.name = Join.fieldName)
    : ∃ type' x f, s.userType? type = some type' ∧ composite? type' = some x
        ∧ x.2.fields.get? field = some f ∧ f.isMarked := by
  obtain ⟨fe, hfe, rfl⟩ := CompositeEntry.exists_field_of_body (Option.mem_toList.2 hd)
  obtain ⟨type', x, htype, hx, hreplicas⟩ := h.exists_type_replicas he
  obtain ⟨f, hf, hdeclared⟩ := CompositeEntry.exists_field_of_replicas hreplicas hfe
  have hneeds : fe.needsFacts e.byGraph.size := by
    by_contra hnot
    have hfilter := Model.filter_directives_emit h.resolve he hfe e.byGraph.size
    rw [if_neg hnot, List.filter_eq_nil_iff] at hfilter
    obtain ⟨application, hmem, hname⟩ := hfact
    exact hfilter application hmem (decide_eq_true hname)
  rw [(CompositeEntry.merges hreplicas).byGraph, size_records_replicas graphs.keys_nodup] at hneeds
  exact ⟨type', x, f, htype, hx, hf,
    FieldEntry.isMarked_of_needsFacts hdeclared graphs.keys_nodup hneeds⟩

theorem isMarked_of_field {type : Name} {kind : TypeKind} {t : TypeDef}
    (ht : (Model.ofSubgraphs graphs subgraphs).emitType?
      (Model.ofSubgraphs graphs subgraphs).annotator type kind = some t)
    {field : Name} {d : FieldDef} (hd : t.field? field = some d)
    (hfact : ∃ x ∈ d.directives, x.name = Join.fieldName)
    : ∃ f, (s.userType? type).bind (·.field? field) = some f ∧ f.isMarked := by
  cases kind <;> obtain ⟨e, he, rfl⟩ := Option.map_eq_some_iff.1 ht
  case object =>
    rw [Model.get?_objects] at he
    obtain ⟨⟨_, _, body⟩, x, f, htype, hx, hf, hmarked⟩ := h.isMarked_of_fact he hd hfact
    cases body <;> cases hx
    exact ⟨f, Option.bind_eq_some_iff.2 ⟨_, htype, hf⟩, hmarked⟩
  case interface =>
    rw [Model.get?_interfaces] at he
    obtain ⟨⟨_, _, body⟩, x, f, htype, hx, hf, hmarked⟩ := h.isMarked_of_fact he hd hfact
    cases body <;> cases hx
    exact ⟨f, Option.bind_eq_some_iff.2 ⟨_, htype, hf⟩, hmarked⟩
  all_goals cases hd

end IsReplicated

theorem compose_replicas {s : Schema} {subgraphs : List Subgraph} {graphs : Identities}
    (hne : subgraphs ≠ []) (hcopies : ∀ subgraph ∈ subgraphs, subgraph.schema = s)
    (hresolve : Identities.resolve subgraphs = .ok graphs) (hdistinct : s.DistinctArguments)
    (hinputs : ∀ d ∈ s.userTypeMap.values, d.kind = .inputObject → d.inputNames ≠ [])
    : ∃ c, compose subgraphs [] = .ok c
        ∧ c.schema.mergedTypes.map (fun _ t => t.bare) = s.userTypeMap.map (fun _ t => t.bare)
        ∧ ∀ type t, c.schema.mergedTypes.get? type = some t →
          (∀ field d, t.field? field = some d → (∃ x ∈ d.directives, x.name = Join.fieldName) →
            ∃ f, (s.userType? type).bind (·.field? field) = some f ∧ f.isMarked)
          ∧ ∀ field d, t.inputField? field = some d → ∀ x ∈ d.directives,
            x.name ≠ Join.fieldName := by
  have h : IsReplicated s subgraphs graphs := ⟨hresolve, hne, hcopies, hdistinct⟩
  have hc := (compose_eq_ok_iff subgraphs [] _).2 ⟨graphs, hresolve, ?accepted, rfl⟩
  case accepted =>
    intro v hv r hr
    exact h.visit_eq_nil hinputs hv ((Rule.mem_enabled_iff [] r).1 hr).1
  refine ⟨_, hc, h.bare_mergedTypes, ?_⟩
  intro type t ht
  dsimp only at ht
  rw [Model.mergedTypes_toSchema hresolve] at ht
  obtain ⟨kind, ht⟩ := Model.exists_emitType?_of_emitTypes ht
  exact ⟨fun _ _ hd => h.isMarked_of_field ht hd, fun _ _ hd => Model.not_fact_of_inputField? ht hd⟩

def replicaSchema : Schema where
  directiveDefs := ∅
  types := .ofList [
    (.lit "Node", { body := .interface (CompositeBody.identified []) }),
    (.lit "User", {
      description := some "Someone"
      body := .object {
        interfaces := .ofList [.lit "Node"]
        fields := .ofList [
          (.lit "id", { type := .named (.lit "ID") true }),
          (.lit "name", {
            arguments := [(.lit "style", {
              type := .named (.lit "String") false, defaultValue := some (.string "short") })]
            type := .named (.lit "String") false
            directives := [{ name := .lit "external" }] })] } }),
    (.lit "Style", { body := .enum (.ofList [(.lit "LONG", {}), (.lit "SHORT", {})]) }),
    (.lit "Filter", {
      body := .inputObject (.ofList [(.lit "name", { type := .named (.lit "String") true })]) }),
    (.lit "Result", { body := .union (.ofList [.lit "User"]) }),
    (.lit "Date", { body := .scalar })]

def replicaSubgraphs : List Subgraph := [
  { name := "first", schema := replicaSchema },
  { name := "second", schema := replicaSchema }]

theorem compose_replicas_sample :
    compose replicaSubgraphs [] = .ok (sampleResult replicaSubgraphs)
      ∧ (sampleResult replicaSubgraphs).schema.mergedTypes.map (fun _ t => t.bare)
        = replicaSchema.userTypeMap.map (fun _ t => t.bare)
      ∧ ∃ t d, (sampleResult replicaSubgraphs).schema.mergedTypes.get? (.lit "User") = some t
        ∧ t.field? (.lit "name") = some d ∧ (∃ x ∈ d.directives, x.name = Join.fieldName)
        ∧ ∃ f, (replicaSchema.userType? (.lit "User")).bind (·.field? (.lit "name")) = some f
          ∧ f.isMarked := by
  have hcopies : ∀ subgraph ∈ replicaSubgraphs, subgraph.schema = replicaSchema := by
    simp [replicaSubgraphs]
  have hresolve : Identities.resolve replicaSubgraphs = .ok sampleGraphs := rfl
  obtain ⟨c, hc, htypes, hfacts⟩ :=
    compose_replicas (by decide) hcopies hresolve (by decide) (by decide)
  obtain ⟨graphs, hgraphs, -, rfl⟩ := (compose_eq_ok_iff _ _ _).1 hc
  cases hresolve.symm.trans hgraphs
  have hfact : (((sampleResult replicaSubgraphs).schema.mergedTypes.get? (.lit "User")).bind
      (·.field? (.lit "name"))).any fun d => d.directives.any (·.name = Join.fieldName) := by
    decide +kernel
  obtain ⟨d, hd, hfact⟩ := (Option.any_eq_true _ _).1 hfact
  obtain ⟨t, ht, hd⟩ := Option.bind_eq_some_iff.1 hd
  have hfact : ∃ x ∈ d.directives, x.name = Join.fieldName := by simpa using hfact
  exact ⟨hc, htypes, t, d, ht, hd, hfact, (hfacts _ t ht).1 _ d hd hfact⟩

end Supergraph
