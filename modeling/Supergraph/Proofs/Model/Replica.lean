import Supergraph.Proofs.GraphQL.Election
import Supergraph.Proofs.Model.Lookup
import Supergraph.Proofs.Model.TypeOrder
import Supergraph.Model.Emission

/-!
This module contains what entries come to when several subgraphs declare the same. Only the
applications of directives may differ.
-/

namespace Supergraph

open GraphQL

namespace GraphQL

def InputValueDef.bare (d : InputValueDef) : InputValueDef := { d with directives := [] }

def FieldDef.bare (d : FieldDef) : FieldDef where
  description := d.description
  arguments := d.arguments.map fun (n, a) => (n, a.bare)
  type := d.type

def EnumValueDef.bare (d : EnumValueDef) : EnumValueDef := { d with directives := [] }

def CompositeBody.bare (body : CompositeBody) : CompositeBody where
  interfaces := body.interfaces
  fields := body.fields.map fun _ d => d.bare

def TypeBody.bare : TypeBody → TypeBody
  | .object body => .object body.bare
  | .interface body => .interface body.bare
  | .union members => .union members
  | .enum values => .enum (values.map fun _ v => v.bare)
  | .inputObject fields => .inputObject (fields.map fun _ d => d.bare)
  | .scalar => .scalar

def TypeDef.bare (t : TypeDef) : TypeDef where
  description := t.description
  body := t.body.bare

def FieldDef.isMarked (d : FieldDef) : Bool :=
  ["external", "requires", "provides"].any fun name =>
    d.directives.any (Federation.isApplication name)

end GraphQL

theorem mergeDescription_none (declared : Option String) :
    mergeDescription none declared = declared := by
  unfold mergeDescription
  simp

theorem mergeDescription_self (declared : Option String) :
    mergeDescription declared declared = declared := by
  unfold mergeDescription
  split <;> simp

def Declared.replicas {δ : Type} (graphs : List GraphId) (keeps : Directive → Bool) (d : δ) :
    List (Declared δ) :=
  graphs.map fun graph => (⟨graph, keeps⟩, d)

section

variable {δ ε π ρ σ : Type} {graphs : List GraphId} {keeps : Directive → Bool} {d : δ}

theorem declared_replicas {keeps : Schema → Directive → Bool} {contents : Schema → List δ}
    {s : Schema} (h : contents s = [d])
    : declared keeps (graphs.map (·, s)) contents = Declared.replicas graphs (keeps s) d := by
  unfold declared Declared.replicas
  rw [List.flatMap_map, List.map_eq_flatMap]
  simp only [h, List.map_singleton]

theorem exists_part_of_replicas {declare : Declared π → Option ε → ε} (parts : δ → List π)
    (hparts : (parts d).length ≤ 1) {e : ε}
    (h : merged? declare (Declared.parts (Declared.replicas graphs keeps d) parts) = some e)
    : ∃ p, parts d = [p] ∧ merged? declare (Declared.replicas graphs keeps p) = some e := by
  unfold Declared.parts Declared.replicas at h
  rw [List.flatMap_map] at h
  cases hd : parts d with
  | nil =>
    have hnone : graphs.flatMap (fun _ => ([] : List (Declared π))) = [] := by simp
    simp only [hd, List.map_nil, hnone] at h
    cases h
  | cons p rest =>
    rw [hd, List.length_cons] at hparts
    obtain rfl : rest = [] := List.eq_nil_of_length_eq_zero (by omega)
    refine ⟨p, rfl, ?_⟩
    unfold Declared.replicas
    rw [List.map_eq_flatMap]
    simpa only [hd, List.map_singleton] using h

theorem exists_entry_of_replicas {declare : Declared π → Option ε → ε} (part? : δ → Option π)
    {e : ε}
    (h : merged? declare
      (Declared.parts (Declared.replicas graphs keeps d) fun d => (part? d).toList) = some e)
    : ∃ p, part? d = some p ∧ merged? declare (Declared.replicas graphs keeps p) = some e := by
  have hparts : (part? d).toList.length ≤ 1 := by cases part? d <;> simp
  obtain ⟨p, hp, he⟩ := exists_part_of_replicas (fun d => (part? d).toList) hparts h
  exact ⟨p, Option.toList_eq_singleton_iff.1 hp, he⟩

theorem merged?_replicas {declare : Declared δ → Option ε → ε} {f : ε → σ} {x : σ}
    (first : ∀ declarer, f (declare (declarer, d) none) = x)
    (next : ∀ declarer e, f e = x → f (declare (declarer, d) (some e)) = x) {e : ε}
    (h : merged? declare (Declared.replicas graphs keeps d) = some e) : f e = x := by
  have hall : ∀ y ∈ Declared.replicas graphs keeps d, y.2 = d := by
    intro y hy
    obtain ⟨graph, -, rfl⟩ := List.mem_map.1 hy
    rfl
  refine merged?_induction (P := fun ds e => (∀ y ∈ ds, y.2 = d) → f e = x) ?_ ?_ h hall
  . rintro ⟨declarer, d'⟩ hall
    cases hall _ List.mem_cons_self
    exact first declarer
  . rintro ds ⟨declarer, d'⟩ e ih hall
    cases hall (declarer, d') (by simp)
    exact next declarer e (ih fun y hy => hall y (List.mem_append_left _ hy))

theorem description_replicas {declare : Declared δ → Option ε → ε}
    (description : ε → Option String) (text : Option String)
    (hdeclare : ∀ declarer e,
      description (declare (declarer, d) e) = mergeDescription (e.bind description) text)
    {e : ε} (h : merged? declare (Declared.replicas graphs keeps d) = some e)
    : description e = text := by
  refine merged?_replicas ?first ?next h
  case first =>
    intro declarer
    rw [hdeclare]
    exact mergeDescription_none text
  case next =>
    intro declarer e he
    rw [hdeclare, Option.bind_some, he, mergeDescription_self]

theorem keys_replicas {declare : Declared δ → Option ε → ε} (entries : ε → OrderedMap Name σ)
    {names : List Name} (hnames : names.Nodup)
    (hdeclare : ∀ declarer e, (entries (declare (declarer, d) e)).keySet
      = (e.elim ∅ (entries · |>.keySet)).insertMany names)
    {e : ε} (h : merged? declare (Declared.replicas graphs keeps d) = some e)
    : (entries e).keys = names := by
  have hkeySet : (entries e).keySet = .ofList names := by
    refine merged?_replicas (f := (entries · |>.keySet)) ?first ?next h
    case first =>
      intro declarer
      exact hdeclare declarer none
    case next =>
      intro declarer e he
      rw [hdeclare, Option.elim_some, he,
        OrderedSet.insertMany_of_subset fun name hname => (OrderedSet.mem_ofList _ _).2 hname]
  rw [← OrderedSet.toList_ofList_of_nodup hnames, ← hkeySet]
  rfl

variable (hgraphs : graphs.Nodup)

include hgraphs

theorem toList_records_replicas (record : (Directive → Bool) → δ → ρ) :
    (Declared.records (Declared.replicas graphs keeps d) record).toList
      =
    graphs.map (·, record keeps d) := by
  unfold Declared.records Declared.replicas
  rw [List.map_map]
  apply OrderedMap.toList_ofList_of_nodup
  rw [List.map_map]
  exact hgraphs.map fun _ _ h => h

theorem size_records_replicas (record : (Directive → Bool) → δ → ρ) :
    (Declared.records (Declared.replicas graphs keeps d) record).size = graphs.length := by
  unfold OrderedMap.size
  rw [toList_records_replicas hgraphs, List.length_map]

theorem values_records_replicas (record : (Directive → Bool) → δ → ρ) :
    (Declared.records (Declared.replicas graphs keeps d) record).values
      =
    graphs.map fun _ => record keeps d := by
  unfold OrderedMap.values
  rw [toList_records_replicas hgraphs, List.map_map]
  rfl

end

theorem sharedInputs_eq_self {subgraphs : Nat} {inputs : OrderedMap Name InputEntry}
    (h : ∀ name e, inputs.get? name = some e → e.byGraph.size = subgraphs)
    : sharedInputs subgraphs inputs = inputs := by
  apply OrderedMap.ext
  apply List.filter_eq_self.2
  rintro ⟨name, e⟩ he
  rw [beq_iff_eq]
  exact h name e ((OrderedMap.mem_toList_iff _ _ _).1 he)

section

variable {graphs : List GraphId} {keeps : Directive → Bool}

theorem InputEntry.bare_toDef_replicas {d : InputValueDef} {e : InputEntry}
    (h : ofDeclared? (Declared.replicas graphs keeps d) = some e) (applications : List Directive)
    : (e.toDef applications).bare = d.bare := by
  refine merged?_replicas (f := fun e => e.toDef []) ?first ?next h
  case first =>
    intro declarer
    unfold declare toDef
    dsimp only [Option.getD_none]
    rw [TypeRef.electInput_eq, TypeRef.elect_self, mergeDescription_none, Option.none_or]
    rfl
  case next =>
    intro declarer e he
    obtain ⟨hdescription, htype, hdefault, -⟩ := InputValueDef.mk.inj he
    unfold declare toDef
    dsimp only [Option.getD_some]
    rw [hdescription, htype, hdefault, TypeRef.electInput_eq, InputValueDef.bare,
      TypeRef.elect_self, mergeDescription_self, Option.or_self]

theorem bare_inputs_replicas (hgraphs : graphs.Nodup) {inputs : OrderedMap Name InputValueDef}
    {entries : OrderedMap Name InputEntry} (hkeys : entries.keys = inputs.keys)
    (h : ∀ name e, entries.get? name = some e → ∃ d, inputs.get? name = some d
      ∧ InputEntry.ofDeclared? (Declared.replicas graphs keeps d) = some e)
    {f : InputEntry → InputValueDef} (hf : ∀ e, (f e).bare = (e.toDef []).bare)
    : (sharedInputs graphs.length entries).map (fun _ e => (f e).bare)
        =
      inputs.map fun _ d => d.bare := by
  have hsize : ∀ name e, entries.get? name = some e → e.byGraph.size = graphs.length := by
    intro name e he
    obtain ⟨d, -, hd⟩ := h name e he
    rw [(InputEntry.merges hd).byGraph, size_records_replicas hgraphs]
  rw [sharedInputs_eq_self hsize]
  apply OrderedMap.map_eq_map hkeys
  intro name e d' he hd'
  obtain ⟨d, hd, hdeclared⟩ := h name e he
  cases hd.symm.trans hd'
  rw [hf, InputEntry.bare_toDef_replicas hdeclared]

namespace FieldEntry

variable {d : FieldDef} {e : FieldEntry}
variable (h : ofDeclared? (Declared.replicas graphs keeps d) = some e)

include h

theorem type_replicas : e.type = d.type := by
  refine merged?_replicas (f := FieldEntry.type) ?first ?next h
  case first =>
    intro declarer
    exact (congrFun₂ TypeRef.electOutput_eq _ _).trans (TypeRef.elect_self _ _)
  case next =>
    intro declarer e he
    change e.type.electOutput d.type = d.type
    rw [he, TypeRef.electOutput_eq, TypeRef.elect_self]

variable (hgraphs : graphs.Nodup)

include hgraphs

theorem bare_emit_replicas (hdistinct : (d.arguments.map Prod.fst).Nodup) (a : Annotator)
    (subgraphs : Nat) : (e.emit a subgraphs).bare = d.bare := by
  have hdescription := description_replicas FieldEntry.description d.description
    (fun _ e => by cases e <;> rfl) h
  have hkeys := keys_replicas FieldEntry.arguments hdistinct
    (fun _ e => by cases e <;> exact OrderedMap.keySet_foldl_upsert Prod.fst _ _ _) h
  have hentries : ∀ name i, e.arguments.get? name = some i →
      ∃ p, OrderedMap.get? ⟨d.arguments, hdistinct⟩ name = some p
        ∧ InputEntry.ofDeclared? (Declared.replicas graphs keeps p) = some i := by
    intro name i hi
    rw [(merges h).arguments] at hi
    obtain ⟨p, hp, hi⟩ := exists_part_of_replicas (fun d : FieldDef => named name d.arguments)
      (length_named_le_one hdistinct name) hi
    refine ⟨p, ?_, hi⟩
    rw [← Option.toList_eq_singleton_iff, ← OrderedMap.map_filter_toList]
    exact hp
  have harguments : (sharedInputs graphs.length e.arguments).map
        (fun _ i => (i.emit a .argumentDefinition).bare)
      = OrderedMap.map (fun _ d => d.bare) ⟨d.arguments, hdistinct⟩ :=
    bare_inputs_replicas hgraphs hkeys hentries fun _ => rfl
  unfold emit FieldDef.bare
  rw [hdescription, type_replicas h, (merges h).byGraph, size_records_replicas hgraphs]
  dsimp only
  rw [List.map_map]
  exact congrArg (fun arguments : OrderedMap Name InputValueDef =>
    FieldDef.mk d.description arguments.toList d.type []) harguments

theorem isMarked_of_needsFacts (hneeds : e.needsFacts graphs.length) : d.isMarked := by
  have hselection : ∀ name, (selection? name d.directives).isSome →
      d.directives.any (Federation.isApplication name) := by
    intro name hname
    unfold selection? at hname
    cases hfind : d.directives.find? (Federation.isApplication name) with
    | none => simp [hfind] at hname
    | some application => exact List.any_eq_true.2 ⟨application, List.mem_of_find?_eq_some hfind,
        List.find?_some hfind⟩
  unfold needsFacts at hneeds
  rw [(merges h).byGraph, size_records_replicas hgraphs, values_records_replicas hgraphs,
    bne_self_eq_false, Bool.false_or, List.any_eq_true] at hneeds
  obtain ⟨record, hrecord, hneeds⟩ := hneeds
  obtain ⟨graph, -, rfl⟩ := List.mem_map.1 hrecord
  rw [type_replicas h] at hneeds
  simp only [FieldInGraph.ofDef, bne_self_eq_false, Bool.or_false, Bool.or_eq_true] at hneeds
  unfold FieldDef.isMarked
  rw [List.any_eq_true]
  rcases hneeds with (hexternal | hrequires) | hprovides
  . exact ⟨"external", by simp, hexternal⟩
  . exact ⟨"requires", by simp, hselection _ hrequires⟩
  . exact ⟨"provides", by simp, hselection _ hprovides⟩

end FieldEntry

namespace CompositeEntry

variable {d : TypeDef × CompositeBody} {e : CompositeEntry}
variable (h : ofDeclared? (Declared.replicas graphs keeps d) = some e)

include h

theorem exists_field_of_replicas {name : Name} {fe : FieldEntry}
    (hfe : e.fields.get? name = some fe)
    : ∃ f, d.2.fields.get? name = some f
        ∧ FieldEntry.ofDeclared? (Declared.replicas graphs keeps f) = some fe := by
  rw [(merges h).fields] at hfe
  exact exists_entry_of_replicas (fun d : TypeDef × CompositeBody => d.2.fields.get? name) hfe

theorem bare_body_replicas (hgraphs : graphs.Nodup) (hne : graphs ≠ [])
    (hdistinct : ∀ f ∈ d.2.fields.values, (f.arguments.map Prod.fst).Nodup) (a : Annotator)
    : (e.body a).bare = d.2.bare := by
  have hkeys := keys_replicas CompositeEntry.fields d.2.fields.keys_nodup
    (fun _ e => by cases e <;> exact OrderedMap.keySet_foldl_upsert Prod.fst _ _ _) h
  have hinterfaces : OrderedSet.ofList (e.byGraph.values.flatMap (·.interfaces.toList))
      = d.2.interfaces := by
    rw [(merges h).byGraph, values_records_replicas hgraphs]
    apply OrderedSet.ofList_flatMap_eq (List.map_eq_nil_iff.not.2 hne)
    intro record hrecord
    obtain ⟨graph, -, rfl⟩ := List.mem_map.1 hrecord
    rfl
  have hfields : e.fields.map (fun _ field => (field.emit a e.byGraph.size).bare)
      = d.2.fields.map fun _ f => f.bare := by
    apply OrderedMap.map_eq_map hkeys
    intro name fe f' hfe hf'
    obtain ⟨f, hf, hdeclared⟩ := exists_field_of_replicas h hfe
    cases hf.symm.trans hf'
    exact FieldEntry.bare_emit_replicas hdeclared hgraphs
      (hdistinct _ ((OrderedMap.mem_values_iff _ _).2 ⟨name, hf⟩)) a _
  unfold body CompositeBody.bare
  rw [hinterfaces, OrderedMap.map_map, hfields]

variable (hgraphs : graphs.Nodup) (hne : graphs ≠ [])
variable (hdistinct : ∀ f ∈ d.2.fields.values, (f.arguments.map Prod.fst).Nodup)

include hgraphs hne hdistinct

theorem bare_emitObject_replicas (hbody : d.1.body = .object d.2) (a : Annotator) :
    (e.emitObject a).bare = d.1.bare := by
  have hdescription := description_replicas CompositeEntry.description d.1.description
    (fun _ e => by cases e <;> rfl) h
  unfold emitObject TypeDef.bare
  rw [hdescription, hbody]
  unfold TypeBody.bare
  dsimp only
  rw [bare_body_replicas h hgraphs hne hdistinct]

theorem bare_emitInterface_replicas (hbody : d.1.body = .interface d.2) (a : Annotator) :
    (e.emitInterface a).bare = d.1.bare := by
  have hdescription := description_replicas CompositeEntry.description d.1.description
    (fun _ e => by cases e <;> rfl) h
  unfold emitInterface TypeDef.bare
  rw [hdescription, hbody]
  unfold TypeBody.bare
  dsimp only
  rw [bare_body_replicas h hgraphs hne hdistinct]

end CompositeEntry

theorem InputObjectEntry.bare_emit_replicas {d : TypeDef}
    {fields : OrderedMap Name InputValueDef} {e : InputObjectEntry}
    (h : ofDeclared? (Declared.replicas graphs keeps (d, fields)) = some e)
    (hbody : d.body = .inputObject fields) (hgraphs : graphs.Nodup) (a : Annotator)
    : (e.emit a).bare = d.bare := by
  have hdescription := description_replicas InputObjectEntry.description d.description
    (fun _ e => by cases e <;> rfl) h
  have hkeys := keys_replicas InputObjectEntry.fields fields.keys_nodup
    (fun _ e => by cases e <;> exact OrderedMap.keySet_foldl_upsert Prod.fst _ _ _) h
  have hentries : ∀ name i, e.fields.get? name = some i → ∃ p, fields.get? name = some p
      ∧ InputEntry.ofDeclared? (Declared.replicas graphs keeps p) = some i := by
    intro name i hi
    rw [(merges h).fields] at hi
    exact exists_entry_of_replicas
      (fun d : TypeDef × OrderedMap Name InputValueDef => d.2.get? name) hi
  have hfields := bare_inputs_replicas hgraphs hkeys hentries
    (f := (·.emit a .inputFieldDefinition)) fun _ => rfl
  unfold emit TypeDef.bare
  rw [hdescription, hbody, (merges h).byGraph, size_records_replicas hgraphs]
  unfold TypeBody.bare
  dsimp only
  rw [OrderedMap.map_map, hfields]

theorem EnumValueEntry.bare_emit_replicas {d : EnumValueDef} {e : EnumValueEntry}
    (h : ofDeclared? (Declared.replicas graphs keeps d) = some e) (a : Annotator)
    : (e.emit a).bare = d.bare := by
  have hdescription := description_replicas EnumValueEntry.description d.description
    (fun _ e => by cases e <;> rfl) h
  unfold emit EnumValueDef.bare
  rw [hdescription]

theorem EnumEntry.bare_emit_replicas {d : TypeDef} {values : OrderedMap Name EnumValueDef}
    {e : EnumEntry} (h : ofDeclared? (Declared.replicas graphs keeps (d, values)) = some e)
    (hbody : d.body = .enum values) (a : Annotator) : (e.emit a).bare = d.bare := by
  have hdescription := description_replicas EnumEntry.description d.description
    (fun _ e => by cases e <;> rfl) h
  have hkeys := keys_replicas EnumEntry.values values.keys_nodup
    (fun _ e => by cases e <;> exact OrderedMap.keySet_foldl_upsert Prod.fst _ _ _) h
  have hvalues : e.values.map (fun _ v => (v.emit a).bare) = values.map fun _ v => v.bare := by
    apply OrderedMap.map_eq_map hkeys
    intro name ve v' hve hv'
    rw [get?_values_ofDeclared? h] at hve
    obtain ⟨v, hv, hdeclared⟩ := exists_entry_of_replicas
      (fun d : TypeDef × OrderedMap Name EnumValueDef => d.2.get? name) hve
    cases hv.symm.trans hv'
    exact EnumValueEntry.bare_emit_replicas hdeclared a
  unfold emit TypeDef.bare
  rw [hdescription, hbody]
  unfold TypeBody.bare
  dsimp only
  rw [OrderedMap.map_map, hvalues]

theorem UnionEntry.bare_emit_replicas {d : TypeDef} {members : OrderedSet Name} {e : UnionEntry}
    (h : ofDeclared? (Declared.replicas graphs keeps (d, members)) = some e)
    (hbody : d.body = .union members) (a : Annotator) : (e.emit a).bare = d.bare := by
  have hdescription := description_replicas UnionEntry.description d.description
    (fun _ e => by cases e <;> rfl) h
  have hkeys : e.members.keys = members.toList := by
    refine keys_replicas UnionEntry.members members.nodup (fun declarer e => ?_) h
    have hkeySet := OrderedMap.keySet_foldl_upsert id
      (fun _ (joined : Option (OrderedSet GraphId)) => (joined.getD ∅).insert declarer.graph)
      members.toList
    rw [List.map_id] at hkeySet
    cases e <;> exact hkeySet _
  unfold emit TypeDef.bare
  rw [hdescription, hbody]
  exact congrArg (fun members => TypeDef.mk d.description [] (.union members))
    (OrderedSet.ext hkeys)

theorem ScalarEntry.bare_emit_replicas {d : TypeDef} {e : ScalarEntry}
    (h : ofDeclared? (Declared.replicas graphs keeps d) = some e) (hbody : d.body = .scalar)
    (a : Annotator) : (e.emit a).bare = d.bare := by
  have hdescription := description_replicas ScalarEntry.description d.description
    (fun _ e => by cases e <;> rfl) h
  unfold emit TypeDef.bare
  rw [hdescription, hbody]

end

end Supergraph
