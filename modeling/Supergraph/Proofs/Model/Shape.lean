import Supergraph.Proofs.Model.Run

/-!
This module contains the proof that the order of subgraphs has no influence on which elements a
model has.
-/

namespace Supergraph

open GraphQL

def Visit.key (v : Visit) : Slot × Coordinate := (v.slot, v.place)

def CompositeEntry.memberKeys (fieldSlot argumentSlot : Slot) (type : Name) (e : CompositeEntry) :
    List (Slot × Coordinate) :=
  e.fields.toList.flatMap fun (field, fe) =>
    (fieldSlot, .member type field) :: fe.arguments.toList.map fun (argument, _) =>
      (argumentSlot, .argument type field argument)

namespace Model

theorem map_key_objectVisits (m : Model) :
    m.objectVisits.map Visit.key
      =
    m.objects.toList.flatMap fun (type, e) =>
      (.objectType, .type type) :: e.memberKeys .objectField .objectFieldArgument type := by
  simp [objectVisits, CompositeEntry.memberKeys, List.map_flatMap, Visit.key, Visit.slot,
    Visit.place, Function.comp_def]

theorem map_key_interfaceVisits (m : Model) :
    m.interfaceVisits.map Visit.key
      =
    m.interfaces.toList.flatMap fun (type, e) =>
      (.interfaceType, .type type) :: e.memberKeys .interfaceField .interfaceFieldArgument type := by
  simp [interfaceVisits, CompositeEntry.memberKeys, List.map_flatMap, Visit.key, Visit.slot,
    Visit.place, Function.comp_def]

theorem map_key_inputObjectVisits (m : Model) :
    m.inputObjectVisits.map Visit.key
      =
    m.inputObjects.toList.flatMap fun (type, e) =>
      (.inputObjectType, .type type) :: e.fields.toList.map fun (field, _) =>
        (.inputObjectField, .member type field) := by
  simp [inputObjectVisits, List.map_flatMap, Visit.key, Visit.slot, Visit.place,
    Function.comp_def]

theorem map_key_enumVisits (m : Model) :
    m.enumVisits.map Visit.key
      =
    m.enums.toList.flatMap fun (type, e) =>
      (.enumType, .type type) :: e.values.toList.map fun (value, _) =>
        (.enumValue, .member type value) := by
  simp [enumVisits, List.map_flatMap, Visit.key, Visit.slot, Visit.place, Function.comp_def]

theorem map_key_directiveVisits (m : Model) :
    m.directiveVisits.map Visit.key
      =
    m.directives.toList.flatMap fun (directive, e) =>
      (.directive, .directive directive) :: e.arguments.toList.map fun (argument, _) =>
        (.directiveArgument, .directiveArgument directive argument) := by
  simp [directiveVisits, List.map_flatMap, Visit.key, Visit.slot, Visit.place,
    Function.comp_def]

variable {subgraphs subgraphs' : List Subgraph} {graphs graphs' : Identities}
variable (hperm : subgraphs.Perm subgraphs')
variable (h : Identities.resolve subgraphs = .ok graphs)
variable (h' : Identities.resolve subgraphs' = .ok graphs')

include hperm h h'

section

variable {δ ε : Type} {keeps : Schema → Directive → Bool} {contents : Name → Schema → List δ}
variable {declare : Declared δ → Option ε → ε} {entries entries' : OrderedMap Name ε}
variable (hentries : ∀ name, entries.get? name
  = merged? declare (declared keeps (sources graphs subgraphs) (contents name)))
variable (hentries' : ∀ name, entries'.get? name
  = merged? declare (declared keeps (sources graphs' subgraphs') (contents name)))

include hentries hentries'

theorem mem_keys_perm (name : Name) : name ∈ entries.keys ↔ name ∈ entries'.keys := by
  rw [OrderedMap.mem_keys_iff, OrderedMap.mem_keys_iff, hentries, hentries',
    isSome_merged?_declared_iff, isSome_merged?_declared_iff, map_snd_sources h,
    map_snd_sources h']
  simp only [(hperm.map (·.schema)).mem_iff]

theorem perm_map_entries {γ : Type} (f : Name → γ) :
    (entries.toList.map fun (name, _) => f name).Perm
      (entries'.toList.map fun (name, _) => f name) := by
  have hkeys := OrderedMap.keys_perm (mem_keys_perm hperm h h' hentries hentries')
  unfold OrderedMap.keys at hkeys
  have hmap := hkeys.map f
  rw [List.map_map, List.map_map] at hmap
  exact hmap

theorem perm_flatMap_entries {γ : Type} {f : Name × ε → List γ}
    (hf : ∀ name e e',
      merged? declare (declared keeps (sources graphs subgraphs) (contents name)) = some e →
      merged? declare (declared keeps (sources graphs' subgraphs') (contents name)) = some e' →
      (f (name, e)).Perm (f (name, e')))
    : (entries.toList.flatMap f).Perm (entries'.toList.flatMap f) := by
  apply OrderedMap.perm_flatMap_toList (mem_keys_perm hperm h h' hentries hentries')
  intro name e e' he he'
  rw [hentries] at he
  rw [hentries'] at he'
  exact hf name e e' he he'

end

theorem perm_memberKeys {composite? : TypeDef → Option (TypeDef × CompositeBody)} {type : Name}
    {e e' : CompositeEntry}
    (he : CompositeEntry.ofDeclared? (declared Schema.keeps (sources graphs subgraphs) fun s =>
      ((s.userType? type).bind composite?).toList) = some e)
    (he' : CompositeEntry.ofDeclared? (declared Schema.keeps (sources graphs' subgraphs') fun s =>
      ((s.userType? type).bind composite?).toList) = some e')
    (fieldSlot argumentSlot : Slot)
    : (e.memberKeys fieldSlot argumentSlot type).Perm
        (e'.memberKeys fieldSlot argumentSlot type) := by
  apply perm_flatMap_entries hperm h h' (CompositeEntry.get?_fields he)
    (CompositeEntry.get?_fields he')
  intro field fe fe' hfe hfe'
  apply List.Perm.cons
  exact perm_map_entries hperm h h' (FieldEntry.get?_arguments hfe) (FieldEntry.get?_arguments hfe')
    fun argument => (argumentSlot, Coordinate.argument type field argument)

theorem perm_objectKeys :
    ((ofSubgraphs graphs subgraphs).objectVisits.map Visit.key).Perm
      ((ofSubgraphs graphs' subgraphs').objectVisits.map Visit.key) := by
  rw [map_key_objectVisits, map_key_objectVisits]
  apply perm_flatMap_entries hperm h h' (get?_objects graphs subgraphs)
    (get?_objects graphs' subgraphs')
  intro type e e' he he'
  exact (perm_memberKeys hperm h h' he he' _ _).cons _

theorem perm_interfaceKeys :
    ((ofSubgraphs graphs subgraphs).interfaceVisits.map Visit.key).Perm
      ((ofSubgraphs graphs' subgraphs').interfaceVisits.map Visit.key) := by
  rw [map_key_interfaceVisits, map_key_interfaceVisits]
  apply perm_flatMap_entries hperm h h' (get?_interfaces graphs subgraphs)
    (get?_interfaces graphs' subgraphs')
  intro type e e' he he'
  exact (perm_memberKeys hperm h h' he he' _ _).cons _

theorem perm_inputObjectKeys :
    ((ofSubgraphs graphs subgraphs).inputObjectVisits.map Visit.key).Perm
      ((ofSubgraphs graphs' subgraphs').inputObjectVisits.map Visit.key) := by
  rw [map_key_inputObjectVisits, map_key_inputObjectVisits]
  apply perm_flatMap_entries hperm h h' (get?_inputObjects graphs subgraphs)
    (get?_inputObjects graphs' subgraphs')
  intro type e e' he he'
  apply List.Perm.cons
  exact perm_map_entries hperm h h' (InputObjectEntry.get?_fields he)
    (InputObjectEntry.get?_fields he')
    fun field => (Slot.inputObjectField, Coordinate.member type field)

theorem perm_enumKeys :
    ((ofSubgraphs graphs subgraphs).enumVisits.map Visit.key).Perm
      ((ofSubgraphs graphs' subgraphs').enumVisits.map Visit.key) := by
  rw [map_key_enumVisits, map_key_enumVisits]
  apply perm_flatMap_entries hperm h h' (get?_enums graphs subgraphs)
    (get?_enums graphs' subgraphs')
  intro type e e' he he'
  apply List.Perm.cons
  exact perm_map_entries hperm h h' (EnumEntry.get?_values he) (EnumEntry.get?_values he')
    fun value => (Slot.enumValue, Coordinate.member type value)

theorem perm_directiveKeys :
    ((ofSubgraphs graphs subgraphs).directiveVisits.map Visit.key).Perm
      ((ofSubgraphs graphs' subgraphs').directiveVisits.map Visit.key) := by
  rw [map_key_directiveVisits, map_key_directiveVisits]
  apply perm_flatMap_entries hperm h h' (get?_directives graphs subgraphs)
    (get?_directives graphs' subgraphs')
  intro directive e e' he he'
  apply List.Perm.cons
  exact perm_map_entries hperm h h' (DirectiveEntry.get?_arguments he)
    (DirectiveEntry.get?_arguments he')
    fun argument => (Slot.directiveArgument, Coordinate.directiveArgument directive argument)

theorem perm_visitKeys :
    ((ofSubgraphs graphs subgraphs).visits.map Visit.key).Perm
      ((ofSubgraphs graphs' subgraphs').visits.map Visit.key) := by
  have hkinds := perm_map_entries hperm h h' (get?_kinds graphs subgraphs)
    (get?_kinds graphs' subgraphs') fun name => (Slot.namedType, Coordinate.type name)
  have hunions := perm_map_entries hperm h h' (unionRegister.get?_ofSubgraphs graphs subgraphs)
    (unionRegister.get?_ofSubgraphs graphs' subgraphs') fun name =>
      (Slot.unionType, Coordinate.type name)
  have hscalars := perm_map_entries hperm h h' (scalarRegister.get?_ofSubgraphs graphs subgraphs)
    (scalarRegister.get?_ofSubgraphs graphs' subgraphs') fun name =>
      (Slot.scalarType, Coordinate.type name)
  unfold visits
  simp only [List.map_append, List.map_map]
  exact (((((((hkinds.append (perm_objectKeys hperm h h')).append
    (perm_interfaceKeys hperm h h')).append (perm_inputObjectKeys hperm h h')).append
    (perm_enumKeys hperm h h')).append hunions).append hscalars).append
    (perm_directiveKeys hperm h h'))

omit hperm

section

variable (hsub : subgraphs ⊆ subgraphs')

include hsub

theorem exists_entry_of_subset {δ ε : Type} {keeps : Schema → Directive → Bool}
    {contents : Schema → List δ} {declare : Declared δ → Option ε → ε} {e? e?' : Option ε}
    (he : e? = merged? declare (declared keeps (sources graphs subgraphs) contents))
    (he' : e?' = merged? declare (declared keeps (sources graphs' subgraphs') contents)) {e : ε}
    (hsome : e? = some e)
    : ∃ e', e?' = some e'
        ∧ merged? declare (declared keeps (sources graphs subgraphs) contents) = some e
        ∧ merged? declare (declared keeps (sources graphs' subgraphs') contents) = some e' := by
  have hmerged := he.symm.trans hsome
  obtain ⟨schema, hschema, hne⟩ :=
    (isSome_merged?_declared_iff declare).1 (Option.isSome_of_eq_some hmerged)
  rw [map_snd_sources h] at hschema
  obtain ⟨s, hs, rfl⟩ := List.mem_map.1 hschema
  obtain ⟨e', he''⟩ := Option.isSome_iff_exists.1
    ((isSome_merged?_declared_iff declare).2 ⟨s.schema, mem_map_snd_sources h' (hsub hs), hne⟩)
  exact ⟨e', he'.trans he'', hmerged, he''⟩

theorem exists_field_of_subset {composite? : TypeDef → Option (TypeDef × CompositeBody)}
    {type : Name} {e e' : CompositeEntry}
    (he : CompositeEntry.ofDeclared? (declared Schema.keeps (sources graphs subgraphs) fun s =>
      ((s.userType? type).bind composite?).toList) = some e)
    (he' : CompositeEntry.ofDeclared? (declared Schema.keeps (sources graphs' subgraphs') fun s =>
      ((s.userType? type).bind composite?).toList) = some e')
    {field : Name} {fe : FieldEntry} (hfe : e.fields.get? field = some fe)
    : ∃ fe', e'.fields.get? field = some fe'
        ∧ ∀ argument ie, fe.arguments.get? argument = some ie →
          ∃ ie', fe'.arguments.get? argument = some ie' := by
  obtain ⟨fe', hfe', hfield, hfield'⟩ := exists_entry_of_subset h h' hsub
    (CompositeEntry.get?_fields he field) (CompositeEntry.get?_fields he' field) hfe
  refine ⟨fe', hfe', ?_⟩
  intro argument ie hie
  obtain ⟨ie', hie', -⟩ := exists_entry_of_subset h h' hsub
    (FieldEntry.get?_arguments hfield argument) (FieldEntry.get?_arguments hfield' argument) hie
  exact ⟨ie', hie'⟩

theorem exists_visit_of_subset {v : Visit} (hv : v ∈ (ofSubgraphs graphs subgraphs).visits) :
    ∃ v' ∈ (ofSubgraphs graphs' subgraphs').visits, v'.slot = v.slot ∧ v'.place = v.place := by
  have grow := @exists_entry_of_subset _ _ _ _ h h' hsub
  simp only [mem_visits_iff] at hv ⊢
  cases v with
  | namedType name kinds =>
    obtain ⟨kinds', hkinds', -⟩ := grow (get?_kinds _ _ name) (get?_kinds _ _ name) hv
    exact ⟨.namedType name kinds', hkinds', rfl, rfl⟩
  | objectType name type =>
    obtain ⟨e', he', -⟩ := grow (get?_objects _ _ name) (get?_objects _ _ name) hv
    exact ⟨.objectType name e', he', rfl, rfl⟩
  | objectField typeName type name field =>
    obtain ⟨e', he', hmerged, hmerged'⟩ :=
      grow (get?_objects _ _ typeName) (get?_objects _ _ typeName) hv.1
    obtain ⟨fe', hfe', -⟩ := exists_field_of_subset h h' hsub hmerged hmerged' hv.2
    exact ⟨.objectField typeName e' name fe', ⟨he', hfe'⟩, rfl, rfl⟩
  | objectFieldArgument typeName type fieldName field name argument =>
    obtain ⟨e', he', hmerged, hmerged'⟩ :=
      grow (get?_objects _ _ typeName) (get?_objects _ _ typeName) hv.1
    obtain ⟨fe', hfe', harguments⟩ := exists_field_of_subset h h' hsub hmerged hmerged' hv.2.1
    obtain ⟨ie', hie'⟩ := harguments name argument hv.2.2
    exact ⟨.objectFieldArgument typeName e' fieldName fe' name ie', ⟨he', hfe', hie'⟩, rfl, rfl⟩
  | interfaceType name type =>
    obtain ⟨e', he', -⟩ := grow (get?_interfaces _ _ name) (get?_interfaces _ _ name) hv
    exact ⟨.interfaceType name e', he', rfl, rfl⟩
  | interfaceField typeName type name field =>
    obtain ⟨e', he', hmerged, hmerged'⟩ :=
      grow (get?_interfaces _ _ typeName) (get?_interfaces _ _ typeName) hv.1
    obtain ⟨fe', hfe', -⟩ := exists_field_of_subset h h' hsub hmerged hmerged' hv.2
    exact ⟨.interfaceField typeName e' name fe', ⟨he', hfe'⟩, rfl, rfl⟩
  | interfaceFieldArgument typeName type fieldName field name argument =>
    obtain ⟨e', he', hmerged, hmerged'⟩ :=
      grow (get?_interfaces _ _ typeName) (get?_interfaces _ _ typeName) hv.1
    obtain ⟨fe', hfe', harguments⟩ := exists_field_of_subset h h' hsub hmerged hmerged' hv.2.1
    obtain ⟨ie', hie'⟩ := harguments name argument hv.2.2
    exact ⟨.interfaceFieldArgument typeName e' fieldName fe' name ie', ⟨he', hfe', hie'⟩, rfl, rfl⟩
  | inputObjectType name type =>
    obtain ⟨e', he', -⟩ := grow (get?_inputObjects _ _ name) (get?_inputObjects _ _ name) hv
    exact ⟨.inputObjectType name e', he', rfl, rfl⟩
  | inputObjectField typeName type name field =>
    obtain ⟨e', he', hmerged, hmerged'⟩ :=
      grow (get?_inputObjects _ _ typeName) (get?_inputObjects _ _ typeName) hv.1
    obtain ⟨ie', hie', -⟩ := grow (InputObjectEntry.get?_fields hmerged name)
      (InputObjectEntry.get?_fields hmerged' name) hv.2
    exact ⟨.inputObjectField typeName e' name ie', ⟨he', hie'⟩, rfl, rfl⟩
  | enumType name type =>
    obtain ⟨e', he', -⟩ := grow (get?_enums _ _ name) (get?_enums _ _ name) hv
    exact ⟨.enumType name e', he', rfl, rfl⟩
  | enumValue typeName type name value =>
    obtain ⟨e', he', hmerged, hmerged'⟩ :=
      grow (get?_enums _ _ typeName) (get?_enums _ _ typeName) hv.1
    obtain ⟨ve', hve', -⟩ := grow (EnumEntry.get?_values hmerged name)
      (EnumEntry.get?_values hmerged' name) hv.2
    exact ⟨.enumValue typeName e' name ve', ⟨he', hve'⟩, rfl, rfl⟩
  | unionType name type =>
    obtain ⟨e', he', -⟩ := grow (get?_unions _ _ name) (get?_unions _ _ name) hv
    exact ⟨.unionType name e', he', rfl, rfl⟩
  | scalarType name type =>
    obtain ⟨e', he', -⟩ := grow (get?_scalars _ _ name) (get?_scalars _ _ name) hv
    exact ⟨.scalarType name e', he', rfl, rfl⟩
  | directive name entry =>
    obtain ⟨e', he', -⟩ := grow (get?_directives _ _ name) (get?_directives _ _ name) hv
    exact ⟨.directive name e', he', rfl, rfl⟩
  | directiveArgument directiveName entry name argument =>
    obtain ⟨e', he', hmerged, hmerged'⟩ :=
      grow (get?_directives _ _ directiveName) (get?_directives _ _ directiveName) hv.1
    obtain ⟨ie', hie', -⟩ := grow (DirectiveEntry.get?_arguments hmerged name)
      (DirectiveEntry.get?_arguments hmerged' name) hv.2
    exact ⟨.directiveArgument directiveName e' name ie', ⟨he', hie'⟩, rfl, rfl⟩

end

end Model

end Supergraph
