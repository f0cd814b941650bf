import Supergraph.Proofs.Model.Lookup

namespace Supergraph

open GraphQL

def Model.ofSources (graphs : Identities) (sources : List (GraphId × Schema)) : Model :=
  sources.foldl (fun m (graph, s) => m.absorb graph s) { graphs }

/--
A place of the model at which an entry may stand, with what a schema declares there.
-/
structure Site (δ ε : Type) where
  entryIn? : Model → Option ε
  keeps : Schema → Directive → Bool
  contents : Schema → List δ
  declare : Declared δ → Option ε → ε
  entryIn?_empty : ∀ graphs, entryIn? { graphs } = none
  entryIn?_absorb : ∀ m graph s, entryIn? (m.absorb graph s)
    = (contents s).foldl (fun e d => some (declare (⟨graph, keeps s⟩, d) e)) (entryIn? m)

/--
A map of the model by subgraphs, with the records that a schema makes in it. The last one stays.
-/
structure Ledger (ρ : Type) where
  byGraph? : Model → Option (ByGraph ρ)
  records : Schema → List ρ
  byGraph?_empty : ∀ graphs, byGraph? { graphs } = none
  byGraph?_absorb : ∀ m graph s, byGraph? (m.absorb graph s)
    = (records s).foldl (fun b r => some ((b.getD ∅).insert graph r)) (byGraph? m)

namespace Site

variable {δ ε κ π ρ : Type}

theorem bind_foldl_declare {part? : ε → Option π} {parts : δ → List κ}
    {declare : δ → Option ε → ε} {declarePart : κ → Option π → π}
    (h : ∀ d e, part? (declare d e)
      = (parts d).foldl (fun p x => some (declarePart x p)) (e.bind part?))
    (ds : List δ) (e : Option ε)
    : (ds.foldl (fun e d => some (declare d e)) e).bind part?
        =
      (ds.flatMap parts).foldl (fun p x => some (declarePart x p)) (e.bind part?) := by
  induction ds generalizing e with
  | nil => rfl
  | cons d rest ih =>
    rw [List.foldl_cons, ih, List.flatMap_cons, List.foldl_append, Option.bind_some, h]

def part (site : Site δ ε) (part? : ε → Option π) (parts : δ → List κ)
    (declarePart : Declared κ → Option π → π)
    (hpart : ∀ declarer d e, part? (site.declare (declarer, d) e)
      = (parts d).foldl (fun p x => some (declarePart (declarer, x) p)) (e.bind part?))
    : Site κ π where
  entryIn? m := (site.entryIn? m).bind part?
  keeps := site.keeps
  contents s := (site.contents s).flatMap parts
  declare := declarePart
  entryIn?_empty graphs := by
    rw [site.entryIn?_empty]
    rfl
  entryIn?_absorb m graph s := by
    rw [site.entryIn?_absorb]
    exact bind_foldl_declare (hpart ⟨graph, site.keeps s⟩) _ _

def ledger (site : Site δ ε) (byGraph : ε → ByGraph ρ) (record : (Directive → Bool) → δ → ρ)
    (hrecord : ∀ d e, byGraph (site.declare d e)
      = ((e.map byGraph).getD ∅).insert d.1.graph (record d.1.keeps d.2))
    : Ledger ρ where
  byGraph? m := (site.entryIn? m).map byGraph
  records s := (site.contents s).map (record (site.keeps s))
  byGraph?_empty graphs := by
    rw [site.entryIn?_empty]
    rfl
  byGraph?_absorb m graph s := by
    rw [site.entryIn?_absorb]
    generalize site.entryIn? m = e
    induction site.contents s generalizing e with
    | nil => rfl
    | cons d rest ih =>
      rw [List.foldl_cons, ih, Option.map_some, hrecord]
      rfl

theorem byGraph?_ledger {site : Site δ ε} {m : Model} {e : ε} (h : site.entryIn? m = some e)
    {byGraph : ε → ByGraph ρ} {record : (Directive → Bool) → δ → ρ} {hrecord}
    : (site.ledger byGraph record hrecord).byGraph? m = some (byGraph e) := by
  unfold ledger
  dsimp only
  rw [h]
  rfl

end Site

namespace Ledger

variable {ρ σ : Type} (ledger : Ledger ρ)

def map (f : ρ → σ) : Ledger σ where
  byGraph? m := (ledger.byGraph? m).map fun b => b.map fun _ => f
  records s := (ledger.records s).map f
  byGraph?_empty graphs := by
    rw [ledger.byGraph?_empty]
    rfl
  byGraph?_absorb m graph s := by
    rw [ledger.byGraph?_absorb]
    generalize ledger.byGraph? m = b
    induction ledger.records s generalizing b with
    | nil => rfl
    | cons r rest ih =>
      rw [List.foldl_cons, ih, Option.map_some, OrderedMap.map_insert]
      cases b <;> rfl

theorem byGraph?_map {ledger : Ledger ρ} {m : Model} {b : ByGraph ρ}
    (h : ledger.byGraph? m = some b) (f : ρ → σ)
    : (ledger.map f).byGraph? m = some (b.map fun _ => f) := by
  unfold map
  dsimp only
  rw [h]
  rfl

def record? (m : Model) (graph : GraphId) : Option ρ := (ledger.byGraph? m).bind (·.get? graph)

theorem record?_empty (graphs : Identities) (graph : GraphId) :
    ledger.record? { graphs } graph = none := by
  unfold record?
  rw [ledger.byGraph?_empty]
  rfl

theorem get?_foldl_insert (graph : GraphId) (rs : List ρ) (b : Option (ByGraph ρ))
    (graph' : GraphId)
    : (rs.foldl (fun b r => some ((b.getD ∅).insert graph r)) b).bind (·.get? graph')
        =
      if graph' = graph then rs.getLast?.or (b.bind (·.get? graph'))
      else b.bind (·.get? graph') := by
  induction rs generalizing b with
  | nil => simp
  | cons r rest ih =>
    have hinsert : ((b.getD ∅).insert graph r).get? graph'
        = if graph' = graph then some r else b.bind (·.get? graph') := by
      rw [OrderedMap.get?_insert]
      cases b <;> rfl
    rw [List.foldl_cons, ih, Option.bind_some, hinsert]
    split
    . rw [List.getLast?_cons]
      cases rest.getLast? <;> rfl
    . rfl

theorem record?_absorb (m : Model) (graph : GraphId) (s : Schema) (graph' : GraphId) :
    ledger.record? (m.absorb graph s) graph'
      =
    if graph' = graph then (ledger.records s).getLast?.or (ledger.record? m graph')
    else ledger.record? m graph' := by
  unfold record?
  rw [ledger.byGraph?_absorb]
  exact get?_foldl_insert graph _ _ graph'

theorem record?_foldl_absorb_of_not_mem {sources : List (GraphId × Schema)} {graph : GraphId}
    (h : graph ∉ sources.map Prod.fst) (m : Model)
    : ledger.record? (sources.foldl (fun m (graph, s) => m.absorb graph s) m) graph
        =
      ledger.record? m graph := by
  induction sources generalizing m with
  | nil => rfl
  | cons source rest ih =>
    rw [List.map_cons, List.mem_cons, not_or] at h
    rw [List.foldl_cons, ih h.2, record?_absorb, if_neg h.1]

theorem record?_foldl_absorb {sources : List (GraphId × Schema)}
    (hnodup : (sources.map Prod.fst).Nodup) {graph : GraphId} {s : Schema}
    (hmem : (graph, s) ∈ sources) {m : Model} (hm : ledger.record? m graph = none)
    : ledger.record? (sources.foldl (fun m (graph, s) => m.absorb graph s) m) graph
        =
      (ledger.records s).getLast? := by
  induction sources generalizing m with
  | nil => cases hmem
  | cons source rest ih =>
    rw [List.map_cons, List.nodup_cons] at hnodup
    rw [List.foldl_cons]
    cases List.mem_cons.1 hmem with
    -- Later steps write under other identifiers.
    | inl heq =>
      subst heq
      rw [record?_foldl_absorb_of_not_mem ledger hnodup.1, record?_absorb, if_pos rfl, hm,
        Option.or_none]
    | inr hrest =>
      have hne : graph ≠ source.1 := by
        rintro rfl
        exact hnodup.1 (List.mem_map.2 ⟨_, hrest, rfl⟩)
      refine ih hnodup.2 hrest ?_
      rw [record?_absorb, if_neg hne, hm]

theorem record?_ofSources_eq_some_iff {sources : List (GraphId × Schema)}
    (hnodup : (sources.map Prod.fst).Nodup) (graphs : Identities) (graph : GraphId) (r : ρ)
    : ledger.record? (.ofSources graphs sources) graph = some r
        ↔
      ∃ s, (graph, s) ∈ sources ∧ (ledger.records s).getLast? = some r := by
  have hempty := ledger.record?_empty graphs graph
  unfold Model.ofSources
  constructor
  . intro hr
    by_cases hgraph : graph ∈ sources.map Prod.fst
    . obtain ⟨⟨graph, s⟩, hmem, rfl⟩ := List.mem_map.1 hgraph
      rw [ledger.record?_foldl_absorb hnodup hmem hempty] at hr
      exact ⟨s, hmem, hr⟩
    . rw [ledger.record?_foldl_absorb_of_not_mem hgraph, hempty] at hr
      cases hr
  . rintro ⟨s, hmem, hr⟩
    rw [ledger.record?_foldl_absorb hnodup hmem hempty, hr]

def IsFilledBy (m : Model) (extracted : List GraphId) : Prop :=
  ∀ b, ledger.byGraph? m = some b → b.keys ≠ [] ∧ b.keys.Sublist extracted

theorem keys_foldl_insert {graph : GraphId} {rs : List ρ} {b b' : ByGraph ρ} (hb : graph ∈ b.keys)
    (h : rs.foldl (fun b r => some ((b.getD ∅).insert graph r)) (some b) = some b')
    : b'.keys = b.keys := by
  induction rs generalizing b with
  | nil =>
    cases h
    rfl
  | cons r rest ih =>
    have hkeys : (b.insert graph r).keys = b.keys := by rw [OrderedMap.keys_insert, if_pos hb]
    rw [List.foldl_cons, Option.getD_some] at h
    rw [ih (hkeys ▸ hb) h, hkeys]

variable {ledger}

theorem IsFilledBy.absorb {m : Model} {extracted : List GraphId} {graph : GraphId}
    (h : ledger.IsFilledBy m extracted) (hnew : graph ∉ extracted) (s : Schema)
    : ledger.IsFilledBy (m.absorb graph s) (extracted ++ [graph]) := by
  intro b' hb'
  rw [ledger.byGraph?_absorb] at hb'
  cases hrs : ledger.records s with
  | nil =>
    rw [hrs] at hb'
    exact ⟨(h b' hb').1, (h b' hb').2.trans (List.sublist_append_left _ _)⟩
  | cons r rest =>
    rw [hrs, List.foldl_cons] at hb'
    -- The first record adds the subgraph at the end, the others replace it.
    have hkeys : (((ledger.byGraph? m).getD ∅).insert graph r).keys
        = ((ledger.byGraph? m).elim [] (·.keys)) ++ [graph] := by
      cases hb : ledger.byGraph? m with
      | none => rfl
      | some b =>
        have hnot : graph ∉ b.keys := fun hmem => hnew ((h b hb).2.subset hmem)
        rw [Option.getD_some, OrderedMap.keys_insert, if_neg hnot]
        rfl
    have hmem : graph ∈ (((ledger.byGraph? m).getD ∅).insert graph r).keys := by
      rw [hkeys]
      exact List.mem_append_right _ List.mem_cons_self
    rw [keys_foldl_insert hmem hb', hkeys]
    refine ⟨by simp, List.Sublist.append ?_ (List.Sublist.refl _)⟩
    cases hb : ledger.byGraph? m with
    | none => exact List.nil_sublist _
    | some b => exact (h b hb).2

theorem IsFilledBy.foldl_absorb {sources : List (GraphId × Schema)} {m : Model}
    {extracted : List GraphId} (hnodup : (extracted ++ sources.map Prod.fst).Nodup)
    (h : ledger.IsFilledBy m extracted)
    : ledger.IsFilledBy (sources.foldl (fun m (graph, s) => m.absorb graph s) m)
        (extracted ++ sources.map Prod.fst) := by
  induction sources generalizing m extracted with
  | nil => rwa [List.map_nil, List.append_nil]
  | cons source rest ih =>
    rw [List.map_cons, List.append_cons] at hnodup ⊢
    have hnew : source.1 ∉ extracted := by
      have hnodup' := (List.nodup_append.1 hnodup).1
      intro hmem
      exact (List.nodup_append.1 hnodup').2.2 _ hmem _ List.mem_cons_self rfl
    exact ih hnodup (h.absorb hnew source.2)

theorem isFilledBy_ofSources {sources : List (GraphId × Schema)}
    (hnodup : (sources.map Prod.fst).Nodup) (graphs : Identities)
    : ledger.IsFilledBy (.ofSources graphs sources) (sources.map Prod.fst) := by
  have hempty : ledger.IsFilledBy { graphs } [] := by
    intro b hb
    rw [ledger.byGraph?_empty] at hb
    cases hb
  exact hempty.foldl_absorb hnodup

end Ledger

namespace OrderedSet

variable {α : Type}

def toMap (s : OrderedSet α) : OrderedMap α Unit where
  toList := s.toList.map (·, ())
  nodup_keys := by simpa [Function.comp_def] using s.nodup

@[simp]
theorem keys_toMap (s : OrderedSet α) : s.toMap.keys = s.toList := by
  simp [OrderedMap.keys, toMap, Function.comp_def]

theorem toMap_insert [DecidableEq α] (s : OrderedSet α) (a : α) :
    (s.insert a).toMap = s.toMap.insert a () := by
  have htoList : ∀ m : OrderedMap α Unit, m.toList = m.keys.map (·, ()) := by
    intro m
    simp [OrderedMap.keys, Function.comp_def]
  apply OrderedMap.ext
  rw [htoList, htoList (s.toMap.insert a ()), OrderedMap.keys_insert, keys_toMap, keys_toMap,
    toList_insert]
  rfl

end OrderedSet

theorem CompositeEntry.get?_fields_declare (declarer : Declarer) (d : TypeDef × CompositeBody)
    (e : Option CompositeEntry) (name : Name)
    : (declare declarer d.1 d.2 e).fields.get? name
        =
      (d.2.fields.get? name).toList.foldl (fun p x => some (.declare declarer x p))
        (e.bind (·.fields.get? name)) := by
  rw [← OrderedMap.map_filter_toList]
  cases e <;> exact OrderedMap.get?_foldl_upsert (FieldEntry.declare declarer) _ _ name

theorem FieldEntry.get?_arguments_declare (declarer : Declarer) (d : FieldDef)
    (e : Option FieldEntry) (name : Name)
    : (declare declarer d e).arguments.get? name
        =
      (named name d.arguments).foldl (fun p x => some (.declare declarer x p))
        (e.bind (·.arguments.get? name)) := by
  cases e <;> exact OrderedMap.get?_foldl_upsert (InputEntry.declare declarer) _ _ name

theorem InputObjectEntry.get?_fields_declare (declarer : Declarer)
    (d : TypeDef × OrderedMap Name InputValueDef) (e : Option InputObjectEntry) (name : Name)
    : (declare declarer d.1 d.2 e).fields.get? name
        =
      (d.2.get? name).toList.foldl (fun p x => some (.declare declarer x p))
        (e.bind (·.fields.get? name)) := by
  rw [← OrderedMap.map_filter_toList]
  cases e <;> exact OrderedMap.get?_foldl_upsert (InputEntry.declare declarer) _ _ name

theorem EnumEntry.get?_values_declare_foldl (declarer : Declarer)
    (d : TypeDef × OrderedMap Name EnumValueDef) (e : Option EnumEntry) (name : Name)
    : (declare declarer d.1 d.2 e).values.get? name
        =
      (d.2.get? name).toList.foldl (fun p x => some (.declare declarer x p))
        (e.bind (·.values.get? name)) := by
  rw [← OrderedMap.map_filter_toList]
  cases e <;> exact OrderedMap.get?_foldl_upsert (EnumValueEntry.declare declarer) _ _ name

theorem DirectiveEntry.get?_arguments_declare (graph : GraphId) (d : DirectiveUse)
    (e : Option DirectiveEntry) (name : Name)
    : (declare graph d.definition d.composed d.usedLocations e).arguments.get? name
        =
      (named name d.definition.arguments).foldl
        (fun p x => some (.declare ⟨graph, fun _ => false⟩ x p))
        (e.bind (·.arguments.get? name)) := by
  cases e <;>
    exact OrderedMap.get?_foldl_upsert (InputEntry.declare ⟨graph, fun _ => false⟩) _ _ name

theorem UnionEntry.get?_members_declare (declarer : Declarer) (d : TypeDef × OrderedSet Name)
    (e : Option UnionEntry) (name : Name)
    : (declare declarer d.1 d.2 e).members.get? name
        =
      (d.2.toMap.get? name).toList.foldl
        (fun graphs _ => some ((graphs.getD ∅).insert declarer.graph))
        (e.bind (·.members.get? name)) := by
  have hupsert := OrderedMap.get?_foldl_upsert
    (fun (_ : Unit) (graphs : Option (OrderedSet GraphId)) =>
      (graphs.getD ∅).insert declarer.graph)
    d.2.toMap.toList (e.elim ∅ (·.members)) name
  rw [OrderedMap.map_filter_toList, OrderedSet.toMap, List.foldl_map] at hupsert
  rw [members_declare, hupsert]
  cases e <;> rfl

def Register.site {δ ε : Type} (r : Register δ ε) (type : Name) : Site δ ε where
  entryIn? m := (r.entries m).get? type
  keeps := Schema.keeps
  contents := r.contents type
  declare := r.declare
  entryIn?_empty graphs := r.get?_empty graphs type
  entryIn?_absorb m graph s := r.get?_absorb m graph s type

namespace Model

def objectFieldSite (type field : Name) : Site FieldDef FieldEntry :=
  (objectRegister.site type).part (·.fields.get? field) (fun d => (d.2.fields.get? field).toList)
    (fun d => .declare d.1 d.2)
    fun declarer d e => CompositeEntry.get?_fields_declare declarer d e field

def interfaceFieldSite (type field : Name) : Site FieldDef FieldEntry :=
  (interfaceRegister.site type).part (·.fields.get? field) (fun d => (d.2.fields.get? field).toList)
    (fun d => .declare d.1 d.2)
    fun declarer d e => CompositeEntry.get?_fields_declare declarer d e field

def objectFieldArgumentSite (type field argument : Name) : Site InputValueDef InputEntry :=
  (objectFieldSite type field).part (·.arguments.get? argument) (named argument ·.arguments)
    (fun d => .declare d.1 d.2)
    fun declarer d e => FieldEntry.get?_arguments_declare declarer d e argument

def interfaceFieldArgumentSite (type field argument : Name) : Site InputValueDef InputEntry :=
  (interfaceFieldSite type field).part (·.arguments.get? argument) (named argument ·.arguments)
    (fun d => .declare d.1 d.2)
    fun declarer d e => FieldEntry.get?_arguments_declare declarer d e argument

def inputFieldSite (type field : Name) : Site InputValueDef InputEntry :=
  (inputObjectRegister.site type).part (·.fields.get? field) (fun d => (d.2.get? field).toList)
    (fun d => .declare d.1 d.2)
    fun declarer d e => InputObjectEntry.get?_fields_declare declarer d e field

def enumValueSite (type value : Name) : Site EnumValueDef EnumValueEntry :=
  (enumRegister.site type).part (·.values.get? value) (fun d => (d.2.get? value).toList)
    (fun d => .declare d.1 d.2)
    fun declarer d e => EnumEntry.get?_values_declare_foldl declarer d e value

def memberSite (type member : Name) : Site Unit (OrderedSet GraphId) :=
  (unionRegister.site type).part (·.members.get? member) (fun d => (d.2.toMap.get? member).toList)
    (fun d graphs => (graphs.getD ∅).insert d.1.graph)
    fun declarer d e => UnionEntry.get?_members_declare declarer d e member

def directiveSite (name : Name) : Site DirectiveUse DirectiveEntry where
  entryIn? m := m.directives.get? name
  keeps _ _ := false
  contents s := (s.directiveUse? name).toList
  declare d := .declare d.1.graph d.2.definition d.2.composed d.2.usedLocations
  entryIn?_empty _ := rfl
  entryIn?_absorb m graph s := m.get?_directives_absorb graph s name

def directiveArgumentSite (directive argument : Name) : Site InputValueDef InputEntry :=
  (directiveSite directive).part (·.arguments.get? argument)
    (named argument ·.definition.arguments)
    (fun d => .declare ⟨d.1.graph, fun _ => false⟩ d.2)
    fun declarer d e => DirectiveEntry.get?_arguments_declare declarer.graph d e argument

def kindLedger (type : Name) : Ledger TypeKind :=
  (kindRegister.site type).ledger id (fun _ kind => kind) fun _ e => by cases e <;> rfl

def objectLedger (type : Name) : Ledger CompositeInGraph :=
  (objectRegister.site type).ledger (·.byGraph) .ofDef fun _ e => by cases e <;> rfl

def interfaceLedger (type : Name) : Ledger CompositeInGraph :=
  (interfaceRegister.site type).ledger (·.byGraph) .ofDef fun _ e => by cases e <;> rfl

def objectFieldLedger (type field : Name) : Ledger FieldInGraph :=
  (objectFieldSite type field).ledger (·.byGraph) .ofDef fun _ e => by cases e <;> rfl

def interfaceFieldLedger (type field : Name) : Ledger FieldInGraph :=
  (interfaceFieldSite type field).ledger (·.byGraph) .ofDef fun _ e => by cases e <;> rfl

def objectFieldArgumentLedger (type field argument : Name) : Ledger InputInGraph :=
  (objectFieldArgumentSite type field argument).ledger (·.byGraph) .ofDef
    fun _ e => by cases e <;> rfl

def interfaceFieldArgumentLedger (type field argument : Name) : Ledger InputInGraph :=
  (interfaceFieldArgumentSite type field argument).ledger (·.byGraph) .ofDef
    fun _ e => by cases e <;> rfl

def inputObjectLedger (type : Name) : Ledger (List Directive) :=
  (inputObjectRegister.site type).ledger (·.byGraph) (fun keeps d => d.1.directives.filter keeps)
    fun _ e => by cases e <;> rfl

def inputFieldLedger (type field : Name) : Ledger InputInGraph :=
  (inputFieldSite type field).ledger (·.byGraph) .ofDef fun _ e => by cases e <;> rfl

def enumLedger (type : Name) : Ledger (List Directive) :=
  (enumRegister.site type).ledger (·.byGraph) (fun keeps d => d.1.directives.filter keeps)
    fun _ e => by cases e <;> rfl

def enumValueLedger (type value : Name) : Ledger (List Directive) :=
  (enumValueSite type value).ledger (·.byGraph) (fun keeps d => d.directives.filter keeps)
    fun _ e => by cases e <;> rfl

def unionLedger (type : Name) : Ledger (List Directive) :=
  (unionRegister.site type).ledger (·.byGraph) (fun keeps d => d.1.directives.filter keeps)
    fun _ e => by cases e <;> rfl

def memberLedger (type member : Name) : Ledger Unit :=
  (memberSite type member).ledger (·.toMap) (fun _ _ => ()) fun d e => by
    cases e <;> exact OrderedSet.toMap_insert _ d.1.graph

def scalarLedger (type : Name) : Ledger (List Directive) :=
  (scalarRegister.site type).ledger (·.byGraph) (fun keeps d => d.directives.filter keeps)
    fun _ e => by cases e <;> rfl

def directiveLedger (name : Name) : Ledger DirectiveInGraph :=
  (directiveSite name).ledger (·.byGraph) .ofUse fun _ e => by cases e <;> rfl

def directiveArgumentLedger (directive argument : Name) : Ledger InputInGraph :=
  (directiveArgumentSite directive argument).ledger (·.byGraph)
    (fun _ d => .ofDef (fun _ => false) d) fun _ e => by cases e <;> rfl

end Model

end Supergraph
