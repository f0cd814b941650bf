import Supergraph.Proofs.Rule.Report

/-!
This module contains what every rule finds, stated of schemas alone. Neither the order of subgraphs
nor the election of types has a say in it, except for the types of arguments that a schema lists
twice.
-/

namespace Supergraph

open GraphQL

namespace GraphQL.Schema

def typesAt (s : Schema) (slot : Slot) (place : Coordinate) : List TypeRef :=
  (s.fieldsAt slot place).map (·.type) ++ (s.inputsAt slot place).map (·.type)

def recordedTypesAt (s : Schema) (slot : Slot) (place : Coordinate) : List TypeRef :=
  (s.typesAt slot place).getLast?.toList

theorem recordedTypesAt_subset (s : Schema) (slot : Slot) (place : Coordinate) :
    s.recordedTypesAt slot place ⊆ s.typesAt slot place := by
  intro t ht
  exact List.mem_of_getLast? (Option.mem_toList.1 ht)

theorem DistinctArguments.length_typesAt_le_one {s : Schema} (hs : s.DistinctArguments)
    (slot : Slot) (place : Coordinate) : (s.typesAt slot place).length ≤ 1 := by
  have hfields := s.length_fieldsAt_le_one slot place
  have hinputs := hs.length_inputsAt_le_one slot place
  have hone : s.fieldsAt slot place = [] ∨ s.inputsAt slot place = [] := by
    cases slot <;> first | exact .inl rfl | exact .inr rfl
  unfold typesAt
  rw [List.length_append, List.length_map, List.length_map]
  obtain hnone | hnone := hone <;> rw [hnone] <;> simpa

def defaultsAt (s : Schema) (slot : Slot) (place : Coordinate) : List String :=
  (s.inputsAt slot place).getLast?.toList.filterMap fun d => d.defaultValue.map (·.render 0)

theorem length_defaultsAt_le_one (s : Schema) (slot : Slot) (place : Coordinate) :
    (s.defaultsAt slot place).length ≤ 1 :=
  Nat.le_trans (List.length_filterMap_le _ _) Option.length_toList_le

def requiresAt (s : Schema) (slot : Slot) (place : Coordinate) : Bool :=
  (s.inputsAt slot place).getLast?.any fun d => d.type.isNonNull && d.defaultValue.isNone

theorem requiresAt_iff (s : Schema) (slot : Slot) (place : Coordinate) :
    s.requiresAt slot place
      ↔
    ∃ d ∈ (s.inputsAt slot place).getLast?, d.type.isNonNull ∧ d.defaultValue.isNone := by
  simp [requiresAt, Option.any_eq_true]

end GraphQL.Schema

namespace Finding

def kind (S : Set Schema) (slot : Slot) (place : Coordinate) : Prop :=
  Differ S (·.kindsAt slot place) (· ≠ ·)

def type (S : Set Schema) (slot : Slot) (place : Coordinate) : Prop :=
  Differ S (·.typesAt slot place) fun a b => ¬ a.SameNullable b

def default (S : Set Schema) (slot : Slot) (place : Coordinate) : Prop :=
  Differ S (·.defaultsAt slot place) (· ≠ ·)

/--
Whether recorded types differ after each is read against the type that is elected from all
declarations.
-/
def mismatch (preferred : Bool) (schemas : List Schema) (slot : Slot) (place : Coordinate) : Prop :=
  ∃ t, TypeRef.IsElected preferred (schemas.flatMap (·.typesAt slot place)) t
    ∧ ∃ a ∈ schemas.flatMap (·.recordedTypesAt slot place),
      ∃ b ∈ schemas.flatMap (·.recordedTypesAt slot place),
        t.normalize preferred a ≠ t.normalize preferred b

def dropped (S : Set Schema) (slot : Slot) (place : Coordinate) : Prop :=
  ∃ s ∈ S, s.declaresParentAt slot place ∧ s.inputsAt slot place = []

def lost (S : Set Schema) (slot : Slot) (place : Coordinate) : Prop :=
  (∃ s ∈ S, s.requiresAt slot place) ∧ dropped S slot place

def empty (S : Set Schema) (place : Coordinate) : Prop :=
  match place with
  | .type type => ∀ field, dropped S .inputObjectField (.member type field)
  | _ => False

def usable (S : Set Schema) (place : Coordinate) : Prop :=
  match place with
  | .directiveArgument directive _ =>
    (∃ s ∈ S, ∃ d ∈ s.userDirective? directive, ∃ location ∈ d.locations, location.isExecutable)
      ∧ ∀ s ∈ S, (s.userDirective? directive).isSome
  | _ => False

theorem mismatch_iff {preferred : Bool} {schemas : List Schema} {slot : Slot} {place : Coordinate}
    (hsingle : ∀ s ∈ schemas, (s.typesAt slot place).length ≤ 1)
    : mismatch preferred schemas slot place ↔ type (schemaSet schemas) slot place := by
  have hrecorded : schemas.flatMap (·.recordedTypesAt slot place)
      = schemas.flatMap (·.typesAt slot place) := by
    apply List.flatMap_congr
    intro s hs
    exact toList_getLast?_of_length_le (hsingle s hs)
  unfold mismatch type
  rw [hrecorded, differ_schemaSet_iff]
  constructor
  . rintro ⟨t, ht, a, ha, b, hb, hne⟩
    by_contra hsame
    push Not at hsame
    exact hne (ht.normalize_eq_iff.2 hsame a ha b hb)
  . rintro ⟨a, ha, b, hb, hdiffer⟩
    obtain ⟨t, ht⟩ := TypeRef.IsElected.exists_of_mem preferred ha
    by_contra hnone
    push Not at hnone
    exact hdiffer (ht.normalize_eq_iff.1 (hnone t ht) a ha b hb)

end Finding

structure Reports (conflicts : List Conflict) (code : ErrorCode) (place : Coordinate)
    (finding : Prop) : Prop where
  of_true : finding → ∃ c, conflicts = [c] ∧ c.code = code ∧ c.place = place
  of_false : ¬ finding → conflicts = []

namespace Reports

variable {conflicts : List Conflict} {code : ErrorCode} {place : Coordinate} {finding : Prop}

theorem nil (h : ¬ finding) : Reports [] code place finding :=
  ⟨fun h' => absurd h' h, fun _ => rfl⟩

theorem congr {finding' : Prop} (h : Reports conflicts code place finding)
    (hiff : finding ↔ finding') : Reports conflicts code place finding' := by
  rwa [← hiff]

theorem ofOption {α : Type} {o : Option α} {f : α → Conflict} (h : o.isSome ↔ finding)
    (hf : ∀ a, (f a).code = code ∧ (f a).place = place)
    : Reports (o.map f).toList code place finding := by
  cases o with
  | none =>
    apply nil
    rw [← h]
    exact Bool.false_ne_true
  | some a =>
    refine ⟨fun _ => ⟨f a, rfl, hf a⟩, ?_⟩
    intro hnot
    exact absurd (h.1 rfl) hnot

theorem exists_mem_iff (h : Reports conflicts code place finding) :
    (∃ c ∈ conflicts, c.code = code ∧ c.place = place) ↔ finding := by
  constructor
  . rintro ⟨c, hc, -⟩
    apply Classical.byContradiction
    intro hnot
    rw [h.of_false hnot] at hc
    cases hc
  . intro hfinding
    obtain ⟨c, rfl, hc⟩ := h.of_true hfinding
    exact ⟨c, List.mem_singleton_self c, hc⟩

theorem eq_nil_iff (h : Reports conflicts code place finding) : conflicts = [] ↔ ¬ finding := by
  constructor
  . rintro rfl hfinding
    obtain ⟨c, hc, -⟩ := h.of_true hfinding
    cases hc
  . exact h.of_false

end Reports

namespace Rule

theorem typesAt_of_fieldEntry {v : Visit} {e : FieldEntry} (he : v.fieldEntry? = some e) :
    (fun s : Schema => s.typesAt v.slot v.place)
      =
    fun s => (s.fieldsAt v.slot v.place).map (·.type) := by
  funext s
  unfold Schema.typesAt
  rw [List.append_right_eq_self, List.map_eq_nil_iff]
  cases v <;> first | rfl | cases he

theorem typesAt_of_inputEntry {v : Visit} {e : InputEntry} (he : v.inputEntry? = some e) :
    (fun s : Schema => s.typesAt v.slot v.place)
      =
    fun s => (s.inputsAt v.slot v.place).map (·.type) := by
  funext s
  unfold Schema.typesAt
  rw [List.append_left_eq_self, List.map_eq_nil_iff]
  cases v <;> first | rfl | cases he

theorem recordedTypesAt_of_fieldEntry {v : Visit} {e : FieldEntry} (he : v.fieldEntry? = some e)
    (s : Schema)
    : s.recordedTypesAt v.slot v.place
        =
      (s.fieldsAt v.slot v.place).getLast?.toList.map (·.type) := by
  have htypes := congrFun (typesAt_of_fieldEntry he) s
  rw [Schema.recordedTypesAt, htypes, List.getLast?_map, Option.toList_map]

theorem recordedTypesAt_of_inputEntry {v : Visit} {e : InputEntry} (he : v.inputEntry? = some e)
    (s : Schema)
    : s.recordedTypesAt v.slot v.place
        =
      (s.inputsAt v.slot v.place).getLast?.toList.map (·.type) := by
  have htypes := congrFun (typesAt_of_inputEntry he) s
  rw [Schema.recordedTypesAt, htypes, List.getLast?_map, Option.toList_map]

section

variable {subgraphs : List Subgraph} {graphs : Identities}

theorem isSome_sides?_mismatch_iff {ρ : Type} {preferred : Bool} {slot : Slot} {place : Coordinate}
    {t : TypeRef}
    (helected : TypeRef.IsElected preferred (subgraphs.flatMap (·.schema.typesAt slot place)) t)
    {byGraph : ByGraph ρ} {typeOf : ρ → TypeRef}
    (hrecorded : ∀ u, u ∈ byGraph.values.map typeOf
      ↔ u ∈ (subgraphs.map (·.schema)).flatMap (·.recordedTypesAt slot place))
    : (sides? graphs (byGraph.toList.map fun (graph, d) =>
        ((t.normalize preferred (typeOf d)).render, graph))).isSome
        ↔
      Finding.mismatch preferred (subgraphs.map (·.schema)) slot place := by
  rw [isSome_sides?_render_iff]
  simp only [hrecorded, Finding.mismatch, List.flatMap_map]
  constructor
  . intro hdiffer
    exact ⟨t, helected, hdiffer⟩
  . rintro ⟨t', helected', hdiffer⟩
    rwa [← helected.unique helected'] at hdiffer

variable (h : Identities.resolve subgraphs = .ok graphs)
variable {v : Visit} (hv : v ∈ (Model.ofSubgraphs graphs subgraphs).visits)

include h hv

theorem isElected_fieldEntry {e : FieldEntry} (he : v.fieldEntry? = some e) :
    TypeRef.IsElected false (subgraphs.flatMap (·.schema.typesAt v.slot v.place)) e.type := by
  have helected := isElected_output (Visit.ofDeclared?_fieldEntry hv he)
  rw [← typesAt_of_fieldEntry he, Model.map_snd_sources h, List.flatMap_map] at helected
  exact helected

theorem isElected_inputEntry {e : InputEntry} (he : v.inputEntry? = some e) :
    TypeRef.IsElected true (subgraphs.flatMap (·.schema.typesAt v.slot v.place)) e.type := by
  obtain ⟨keeps, hmerged⟩ := Visit.ofDeclared?_inputEntry hv he
  have helected := isElected_input hmerged
  rw [← typesAt_of_inputEntry he, Model.map_snd_sources h, List.flatMap_map] at helected
  exact helected

theorem defaultValue_inputEntry {e : InputEntry} (he : v.inputEntry? = some e) :
    e.defaultValue
      =
    (subgraphs.flatMap (·.schema.inputsAt v.slot v.place)).findSome? (·.defaultValue) := by
  obtain ⟨keeps, hmerged⟩ := Visit.ofDeclared?_inputEntry hv he
  rw [defaultValue_input hmerged, Model.map_snd_sources h, List.flatMap_map]

theorem isSome_outputTypes_iff_mismatch {e : FieldEntry} (he : v.fieldEntry? = some e) :
    (sides? graphs (outputTypes e)).isSome
      ↔
    Finding.mismatch false (subgraphs.map (·.schema)) v.slot v.place := by
  unfold outputTypes
  rw [TypeRef.normalizeOutput_eq]
  apply isSome_sides?_mismatch_iff (isElected_fieldEntry h hv he)
  intro u
  rw [(FieldEntry.merges (Visit.ofDeclared?_fieldEntry hv he)).byGraph]
  simp only [recordedTypesAt_of_fieldEntry he]
  rw [← Model.map_snd_sources h]
  have hfield : ∀ keeps (d : FieldDef), (FieldInGraph.ofDef keeps d).type = d.type := fun _ _ => rfl
  exact mem_map_values_records (Model.nodup_sources h) hfield u

theorem isSome_inputTypes_iff_mismatch {e : InputEntry} (he : v.inputEntry? = some e) :
    (sides? graphs (inputTypes e)).isSome
      ↔
    Finding.mismatch true (subgraphs.map (·.schema)) v.slot v.place := by
  obtain ⟨keeps, hmerged⟩ := Visit.ofDeclared?_inputEntry hv he
  unfold inputTypes
  rw [TypeRef.normalizeInput_eq]
  apply isSome_sides?_mismatch_iff (isElected_inputEntry h hv he)
  intro u
  simp only [recordedTypesAt_of_inputEntry he]
  rw [← Model.map_snd_sources h]
  exact mem_recorded_input (Model.nodup_sources h) hmerged _ _ (fun _ _ => rfl) u

theorem isSome_defaults_visit {e : InputEntry} (he : v.inputEntry? = some e) :
    (sides? graphs (defaults e)).isSome
      ↔
    Finding.default (schemaSet (subgraphs.map (·.schema))) v.slot v.place := by
  obtain ⟨keeps, hmerged⟩ := Visit.ofDeclared?_inputEntry hv he
  rw [isSome_defaults_iff graphs (Model.nodup_sources h) hmerged, Model.map_snd_sources h]
  rfl

theorem exists_isRequired_iff {e : InputEntry} (he : v.inputEntry? = some e) :
    (∃ d ∈ e.byGraph.values, d.isRequired)
      ↔
    ∃ s ∈ schemaSet (subgraphs.map (·.schema)), s.requiresAt v.slot v.place := by
  obtain ⟨keeps, hmerged⟩ := Visit.ofDeclared?_inputEntry hv he
  have hrecorded := mem_recorded_input (Model.nodup_sources h) hmerged InputInGraph.isRequired
    (fun d => d.type.isNonNull && d.defaultValue.isNone) (fun _ _ => rfl) true
  rw [Model.map_snd_sources h] at hrecorded
  simpa [Schema.requiresAt, Option.any_eq_true] using hrecorded

theorem isSome_missing?_visit {e : InputEntry} (he : v.inputEntry? = some e) :
    (missing? graphs v.parentGraphs e).isSome
      ↔
    Finding.lost (schemaSet (subgraphs.map (·.schema))) v.slot v.place := by
  obtain ⟨keeps, hmerged⟩ := Visit.ofDeclared?_inputEntry hv he
  rw [isSome_missing?_iff graphs (Model.nodup_sources h) hmerged
    (Visit.declaredWhere_parentGraphs hv), exists_isRequired_iff h hv he, Model.map_snd_sources h]
  rfl

end

section

variable {subgraphs : List Subgraph} {graphs : Identities}
variable (h : Identities.resolve subgraphs = .ok graphs) {name : Name}

include h

theorem mem_values_kinds {kinds : ByGraph TypeKind}
    (hkinds : (Model.ofSubgraphs graphs subgraphs).kinds.get? name = some kinds) (kind : TypeKind)
    : kind ∈ kinds.values
        ↔
      kind ∈ (subgraphs.map (·.schema)).flatMap (·.kindsAt .namedType (.type name)) := by
  rw [Model.kinds_eq_records graphs subgraphs hkinds, mem_values_records (Model.nodup_sources h),
    Model.map_snd_sources h, List.mem_flatMap]
  apply exists_congr
  intro s
  apply and_congr_right
  intro _
  change _ ↔ kind ∈ ((s.userType? name).map (·.kind)).toList
  cases s.userType? name <;> simp [eq_comm]

theorem mem_keptArguments_iff {composite? : TypeDef → Option (TypeDef × CompositeBody)}
    {type : Name} {e : FieldEntry}
    (he : FieldEntry.ofDeclared? (declared Schema.keeps (Model.sources graphs subgraphs) fun s =>
      (s.field? composite? type name).toList) = some e) (argument : Name)
    : argument ∈ (sharedInputs e.byGraph.size e.arguments).keys
        ↔
      ∀ s ∈ subgraphs, (s.schema.field? composite? type name).isSome →
        s.schema.arguments composite? type name argument ≠ [] := by
  obtain ⟨s, hs, hne⟩ := (isSome_merged?_declared_iff _).1 (Option.isSome_of_eq_some he)
  rw [mem_keys_sharedInputs (Model.nodup_sources h) (FieldEntry.get?_arguments he argument)
    (FieldEntry.declaredWhere he) (fun _ => Schema.isSome_field?_of_arguments)
    ⟨s, hs, (toList_ne_nil_iff _).1 hne⟩, Model.map_snd_sources h]
  simp

theorem mem_keptFields_iff {e : InputObjectEntry}
    (he : InputObjectEntry.ofDeclared? (declared Schema.keeps (Model.sources graphs subgraphs)
      fun s => ((s.userType? name).bind TypeDef.inputObject?).toList) = some e) (field : Name)
    : field ∈ (sharedInputs e.byGraph.size e.fields).keys
        ↔
      ∀ s ∈ subgraphs, ((s.schema.userType? name).bind TypeDef.inputObject?).isSome →
        (s.schema.inputField? name field).isSome := by
  have hsub : ∀ s : Schema, (s.inputField? name field).toList ≠ [] →
      ((s.userType? name).bind TypeDef.inputObject?).isSome := by
    intro s hs
    exact Schema.isSome_inputObject_of_inputField? ((toList_ne_nil_iff _).1 hs)
  obtain ⟨s, hs, hne⟩ := (isSome_merged?_declared_iff _).1 (Option.isSome_of_eq_some he)
  rw [mem_keys_sharedInputs (Model.nodup_sources h) (InputObjectEntry.get?_fields he field)
    (InputObjectEntry.declaredWhere he) hsub ⟨s, hs, (toList_ne_nil_iff _).1 hne⟩,
    Model.map_snd_sources h]
  simp only [List.mem_map, forall_exists_index, and_imp, forall_apply_eq_imp_iff₂,
    toList_ne_nil_iff]

theorem isEmpty_sharedInputs_iff {type : InputObjectEntry}
    (htype : (Model.ofSubgraphs graphs subgraphs).inputObjects.get? name = some type)
    : (sharedInputs type.byGraph.size type.fields).isEmpty
        ↔
      Finding.empty (schemaSet (subgraphs.map (·.schema))) (.type name) := by
  rw [Model.get?_inputObjects] at htype
  rw [OrderedMap.isEmpty_iff]
  apply forall_congr'
  intro field
  rw [mem_keptFields_iff h htype]
  simp [Finding.dropped, Schema.declaresParentAt, Schema.inputsAt, Option.toList_eq_nil_iff]

end

section

variable {subgraphs : List Subgraph} {graphs : Identities}
variable (h : Identities.resolve subgraphs = .ok graphs)
variable {v : Visit} (hv : v ∈ (Model.ofSubgraphs graphs subgraphs).visits)

include h hv

theorem reports_typeKinds :
    Reports ((typeKinds.visitor graphs).visit v) .typeKindMismatch v.place
      (Finding.kind (schemaSet (subgraphs.map (·.schema))) v.slot v.place) := by
  cases v with
  | namedType name kinds =>
    have hvalues := mem_values_kinds h ((Model.mem_visits_iff _ _).1 hv)
    apply Reports.ofOption
    . unfold Finding.kind Visit.slot Visit.place
      rw [isSome_sides?_iff, differ_schemaSet_iff]
      simp only [← hvalues, OrderedMap.values, List.mem_map]
      constructor
      . rintro ⟨_, ⟨a, ha, rfl⟩, _, ⟨b, hb, rfl⟩, hne⟩
        exact ⟨a.2, ⟨a, ha, rfl⟩, b.2, ⟨b, hb, rfl⟩, hne⟩
      . rintro ⟨_, ⟨a, ha, rfl⟩, _, ⟨b, hb, rfl⟩, hne⟩
        exact ⟨(a.2, a.1), ⟨a, ha, rfl⟩, (b.2, b.1), ⟨b, hb, rfl⟩, hne⟩
    . exact fun _ => ⟨rfl, rfl⟩
  | _ => exact .nil (by simp [Visit.slot, Finding.kind, Differ, Schema.kindsAt])

theorem reports_fieldTypes_mismatch :
    Reports ((fieldTypes.visitor graphs).visit v) .fieldTypeMismatch v.place
      (v.slot ∈ [.objectField, .interfaceField]
          ∧ Finding.mismatch false (subgraphs.map (·.schema)) v.slot v.place
        ∨ v.slot = .inputObjectField
          ∧ Finding.mismatch true (subgraphs.map (·.schema)) v.slot v.place) := by
  cases v with
  | objectField | interfaceField =>
    apply Reports.ofOption
    . rw [isSome_outputTypes_iff_mismatch h hv rfl]
      simp [Visit.slot]
    . exact fun _ => ⟨rfl, rfl⟩
  | inputObjectField typeName type name field =>
    apply Reports.ofOption
    . rw [isSome_inputTypes_iff_mismatch h hv rfl]
      simp [Visit.slot]
    . exact fun _ => ⟨rfl, rfl⟩
  | _ => exact .nil (by simp [Visit.slot])

theorem reports_argumentTypes_mismatch :
    Reports ((argumentTypes.visitor graphs).visit v) .fieldArgumentTypeMismatch v.place
      ((v.slot = .objectFieldArgument
          ∨ v.slot = .directiveArgument
            ∧ Finding.usable (schemaSet (subgraphs.map (·.schema))) v.place)
        ∧ Finding.mismatch true (subgraphs.map (·.schema)) v.slot v.place) := by
  cases v with
  | objectFieldArgument typeName type fieldName field name argument =>
    apply Reports.ofOption
    . rw [isSome_inputTypes_iff_mismatch h hv rfl]
      simp [Visit.slot]
    . exact fun _ => ⟨rfl, rfl⟩
  | directiveArgument directiveName entry name argument =>
    have husable : entry.isExecutable && entry.byGraph.size == graphs.size
        ↔ Finding.usable (schemaSet (subgraphs.map (·.schema)))
          (.directiveArgument directiveName name) := by
      have hpart := (Model.mem_visits_iff _ _).1 hv
      obtain ⟨hentry, -⟩ := hpart
      rw [Model.get?_directives] at hentry
      rw [Bool.and_eq_true, isExecutable_iff (Model.nodup_sources h) hentry, beq_iff_eq,
        ← OrderedMap.length_keys graphs, ← Model.map_fst_sources h, List.length_map,
        size_byGraph_eq_length_iff (Model.nodup_sources h) hentry, Model.map_snd_sources h]
      rfl
    apply Reports.ofOption
    . by_cases hcase : entry.isExecutable && entry.byGraph.size == graphs.size
      . dsimp only
        rw [if_pos hcase, isSome_inputTypes_iff_mismatch h hv rfl]
        simp [Visit.slot, Visit.place, husable.1 hcase]
      . dsimp only
        rw [if_neg hcase]
        rw [husable] at hcase
        simp [Visit.slot, Visit.place, hcase, isSome_sides?_iff]
    . exact fun _ => ⟨rfl, rfl⟩
  | _ => exact .nil (by simp [Visit.slot])

theorem reports_requiredArguments :
    Reports ((requiredArguments.visitor graphs).visit v) .requiredArgumentMissingInSomeSubgraph
      v.place
      (v.slot ∈ [.objectFieldArgument, .interfaceFieldArgument]
        ∧ Finding.lost (schemaSet (subgraphs.map (·.schema))) v.slot v.place) := by
  cases v with
  | objectFieldArgument | interfaceFieldArgument =>
    apply Reports.ofOption
    . have hmissing := isSome_missing?_visit h hv rfl
      exact hmissing.trans (and_iff_right (by simp [Visit.slot])).symm
    . exact fun _ => ⟨rfl, rfl⟩
  | _ => exact .nil (by simp [Visit.slot])

theorem reports_argumentDefaults :
    Reports ((argumentDefaults.visitor graphs).visit v) .fieldArgumentDefaultMismatch v.place
      (v.slot = .objectFieldArgument
        ∧ Finding.default (schemaSet (subgraphs.map (·.schema))) v.slot v.place) := by
  cases v with
  | objectFieldArgument typeName type fieldName field name argument =>
    apply Reports.ofOption
    . have hdefaults := isSome_defaults_visit h hv rfl
      exact hdefaults.trans (and_iff_right rfl).symm
    . exact fun _ => ⟨rfl, rfl⟩
  | _ => exact .nil (by simp [Visit.slot])

theorem reports_inputFields :
    Reports ((inputFields.visitor graphs).visit v)
      (if v.slot = .inputObjectType then .emptyMergedInputType
        else .requiredInputFieldMissingInSomeSubgraph)
      v.place
      (v.slot = .inputObjectType ∧ Finding.empty (schemaSet (subgraphs.map (·.schema))) v.place
        ∨ v.slot = .inputObjectField
          ∧ Finding.lost (schemaSet (subgraphs.map (·.schema))) v.slot v.place) := by
  cases v with
  | inputObjectType name type =>
    have hempty := isEmpty_sharedInputs_iff h ((Model.mem_visits_iff _ _).1 hv)
    change Reports (if (sharedInputs type.byGraph.size type.fields).isEmpty then _ else _) _ _ _
    split
    . next hcase =>
      refine ⟨fun _ => ⟨_, rfl, rfl, rfl⟩, ?_⟩
      intro hnot
      exact absurd (.inl ⟨rfl, hempty.1 hcase⟩) hnot
    . next hcase =>
      rw [hempty] at hcase
      exact .nil (by simp [Visit.slot, Visit.place, hcase])
  | inputObjectField typeName type name field =>
    apply Reports.ofOption
    . have hmissing := isSome_missing?_visit h hv rfl
      apply hmissing.trans
      simp [Visit.slot]
    . exact fun _ => ⟨rfl, rfl⟩
  | _ => exact .nil (by simp [Visit.slot])

variable (hdistinct : ∀ s ∈ subgraphs, s.schema.DistinctArguments)

include hdistinct

omit h hv in
theorem mismatch_iff_of_distinct (preferred : Bool) (slot : Slot) (place : Coordinate) :
    Finding.mismatch preferred (subgraphs.map (·.schema)) slot place
      ↔
    Finding.type (schemaSet (subgraphs.map (·.schema))) slot place := by
  apply Finding.mismatch_iff
  intro schema hschema
  obtain ⟨s, hs, rfl⟩ := List.mem_map.1 hschema
  exact (hdistinct s hs).length_typesAt_le_one slot place

theorem reports_fieldTypes :
    Reports ((fieldTypes.visitor graphs).visit v) .fieldTypeMismatch v.place
      (v.slot ∈ [.objectField, .interfaceField, .inputObjectField]
        ∧ Finding.type (schemaSet (subgraphs.map (·.schema))) v.slot v.place) := by
  apply (reports_fieldTypes_mismatch h hv).congr
  rw [mismatch_iff_of_distinct hdistinct, mismatch_iff_of_distinct hdistinct, ← or_and_right]
  simp [or_assoc]

theorem reports_argumentTypes :
    Reports ((argumentTypes.visitor graphs).visit v) .fieldArgumentTypeMismatch v.place
      ((v.slot = .objectFieldArgument
          ∨ v.slot = .directiveArgument
            ∧ Finding.usable (schemaSet (subgraphs.map (·.schema))) v.place)
        ∧ Finding.type (schemaSet (subgraphs.map (·.schema))) v.slot v.place) := by
  apply (reports_argumentTypes_mismatch h hv).congr
  rw [mismatch_iff_of_distinct hdistinct]

end

end Rule

end Supergraph
