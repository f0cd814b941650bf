import Supergraph.Proofs.Composition.Attribution
import Supergraph.Proofs.Model.TypeParts

/-!
This module contains the proof that the facts on a type tell what each subgraph declares it to be.
-/

namespace Supergraph

open GraphQL

namespace GraphQL.TypeDef

def keyFacts (d : TypeDef) (graph : Name) : List JoinFact :=
  if d.keys.isEmpty then [.type graph none] else d.keys.map fun key => .type graph (some key)

def facts (d : TypeDef) (members : List Name) (graph : Name) : List JoinFact :=
  d.keyFacts graph ++ d.interfaces.map (.implements graph)
    ++ (members.filter (· ∈ d.members)).map (.unionMember graph)

end GraphQL.TypeDef

def GraphQL.TypeDef.statements (t : TypeDef) : List JoinFact :=
  Join.facts t.directives ++ t.enumValues.flatMap fun v => Join.facts v.directives

structure GraphQL.TypeDef.TellsOf (t : TypeDef) (graph : Name) (declared : Option TypeDef) :
    Prop where
  keys : Join.keysIn graph t.directives = declared.map (·.keys)
  interfaces : Join.interfacesIn graph t.directives = declared.elim [] (·.interfaces)
  members : Join.membersIn graph t.directives
    = t.members.filter fun member => declared.any fun d => member ∈ d.members
  enumValues : ∀ value v, t.enumValue? value = some v →
    Join.factsOn graph v.directives
      = (declared.bind (·.enumValue? value)).elim [] fun _ => [.enumValue graph]

section

variable {graph : Name} {ds : List Directive} {declared : Option TypeDef} {members : List Name}
variable (h : Join.factsOn graph ds = declared.elim [] (·.facts members graph))

include h

theorem Join.keysIn_eq : keysIn graph ds = declared.map (·.keys) := by
  unfold keysIn
  rw [h]
  cases declared with
  | none => rfl
  | some d =>
    have hkeys : (d.facts members graph).filterMap JoinFact.key?
        = if d.keys.isEmpty then [none] else d.keys.map some := by
      unfold TypeDef.facts TypeDef.keyFacts
      simp only [List.filterMap_append, List.filterMap_map]
      split <;> simp [Function.comp_def, JoinFact.key?, List.filterMap_eq_map']
    rw [Option.elim_some, hkeys, Option.map_some]
    cases hkeys : d.keys <;> simp

theorem Join.interfacesIn_eq : interfacesIn graph ds = declared.elim [] (·.interfaces) := by
  unfold interfacesIn
  rw [h]
  cases declared with
  | none => rfl
  | some d =>
    rw [Option.elim_some, Option.elim_some]
    unfold TypeDef.facts TypeDef.keyFacts
    simp only [List.filterMap_append, List.filterMap_map]
    split <;> simp [Function.comp_def, JoinFact.interface?]

theorem Join.membersIn_eq :
    membersIn graph ds = members.filter fun member => declared.any fun d => member ∈ d.members := by
  unfold membersIn
  rw [h]
  cases declared with
  | none => simp
  | some d =>
    rw [Option.elim_some]
    unfold TypeDef.facts TypeDef.keyFacts
    simp only [List.filterMap_append, List.filterMap_map]
    split <;> simp [Function.comp_def, JoinFact.member?]

end

/--
Whether directives say of each subgraph what is given for its schema, and nothing of others.
-/
structure Join.Say (graphs : Identities) (subgraphs : List Subgraph)
    (said : Name → Schema → List JoinFact) (ds : List Directive) : Prop where
  graph : ∀ f ∈ Join.facts ds, f.graph ∈ graphs.values.map (·.enumValue)
  factsOn : ∀ graph s, (graph, s) ∈ Model.sources graphs subgraphs →
    Join.factsOn (graphs.valueOf graph) ds = said (graphs.valueOf graph) s

namespace Join.Say

variable {subgraphs : List Subgraph} {graphs : Identities}
variable {said said' : Name → Schema → List JoinFact} {ds ds' : List Directive}

theorem append (h : Say graphs subgraphs said ds) (h' : Say graphs subgraphs said' ds') :
    Say graphs subgraphs (fun graph s => said graph s ++ said' graph s) (ds ++ ds') where
  graph := by
    intro f hf
    rw [facts_append, List.mem_append] at hf
    exact hf.elim (h.graph f) (h'.graph f)
  factsOn := by
    intro graph s hmem
    rw [factsOn_append, h.factsOn graph s hmem, h'.factsOn graph s hmem]

theorem congr (h : Say graphs subgraphs said ds)
    (heq : ∀ s ∈ subgraphs, ∀ graph, said graph s.schema = said' graph s.schema)
    : Say graphs subgraphs said' ds where
  graph := h.graph
  factsOn := by
    intro graph s hmem
    obtain ⟨s, hs, rfl⟩ := Model.exists_of_mem_sources hmem
    rw [h.factsOn graph s.schema hmem, heq s hs]

theorem copied (location : DirectiveLocation) (applications : List (List Directive)) :
    Say graphs subgraphs (fun _ _ => [])
      ((Model.ofSubgraphs graphs subgraphs).annotator.copied location applications) := by
  have hnil : Join.facts ((Model.ofSubgraphs graphs subgraphs).annotator.copied location
      applications) = [] := Model.facts_copied location applications
  constructor
  . rw [hnil]
    exact List.forall_mem_nil _
  . intro graph s _
    unfold Join.factsOn
    rw [hnil]
    rfl

end Join.Say

namespace Annotator

theorem graph_of_mem_facts {δ : Type} {a : Annotator} {byGraph : ByGraph δ}
    {contribute : Name → δ → List JoinFact}
    (hcontribute : ∀ value d, ∀ f ∈ contribute value d, f.graph = value) {f : JoinFact}
    (hf : f ∈ Join.facts (a.facts byGraph contribute))
    : f.graph ∈ a.graphs.values.map (·.enumValue) := by
  unfold Join.facts facts at hf
  rw [List.filterMap_flatMap] at hf
  obtain ⟨⟨graph, d⟩, -, hf⟩ := List.mem_flatMap.1 hf
  change f ∈ Join.facts _ at hf
  rw [Join.facts_map_toDirective, List.mem_flatMap] at hf
  obtain ⟨value, hvalue, hf⟩ := hf
  rw [hcontribute value d f hf]
  obtain ⟨identity, hidentity, rfl⟩ := Option.map_eq_some_iff.1 (Option.mem_toList.1 hvalue)
  exact List.mem_map.2 ⟨identity, (OrderedMap.mem_values_iff _ _).2 ⟨graph, hidentity⟩, rfl⟩

end Annotator

theorem UnionEntry.membersIn_eq {e : UnionEntry} {graph : GraphId} {p : Name → Bool}
    (hp : ∀ name, p name ↔ e.IsMember name graph) : e.membersIn graph = e.members.keys.filter p := by
  unfold membersIn OrderedMap.keys
  rw [OrderedMap.toList_filter, List.filter_map]
  congr 1
  apply List.filter_congr
  rintro ⟨name, graphs⟩ hmem
  rw [OrderedMap.mem_toList_iff] at hmem
  rw [Function.comp_apply, Bool.eq_iff_iff, hp]
  unfold IsMember
  simp [hmem]

namespace Model

variable {subgraphs : List Subgraph} {graphs : Identities}
variable (h : Identities.resolve subgraphs = .ok graphs)

include h

theorem say_facts {δ : Type} {byGraph : ByGraph δ}
    (hkeys : ∀ graph ∈ byGraph.keys, graph ∈ graphs.keys) {contribute : Name → δ → List JoinFact}
    (hcontribute : ∀ value d, ∀ f ∈ contribute value d, f.graph = value)
    {said : Name → Schema → List JoinFact}
    (hsaid : ∀ graph s, (graph, s) ∈ sources graphs subgraphs →
      (byGraph.get? graph).elim [] (contribute (graphs.valueOf graph))
        = said (graphs.valueOf graph) s)
    : Join.Say graphs subgraphs said
        ((ofSubgraphs graphs subgraphs).annotator.facts byGraph contribute) := by
  have hannotator : (ofSubgraphs graphs subgraphs).annotator.graphs = graphs :=
    graphs_ofSubgraphs graphs subgraphs
  constructor
  . intro f hf
    have hgraph := Annotator.graph_of_mem_facts hcontribute hf
    rw [hannotator] at hgraph
    exact hgraph
  . intro graph s hmem
    have hfacts := Annotator.factsOn_facts (a := (ofSubgraphs graphs subgraphs).annotator)
      (by rw [hannotator]; exact hkeys)
      (by rw [hannotator]; exact nodup_map_valueOf h graphs.keys_nodup fun _ h => h) hcontribute
      (by rw [hannotator]; exact mem_keys_of_mem_sources h hmem)
    rw [hannotator] at hfacts
    rw [hfacts, ← hsaid graph s hmem]
    cases byGraph.get? graph <;> simp

theorem say_records {δ ρ : Type} {keeps : Schema → Directive → Bool}
    {content? : Schema → Option δ} {record : (Directive → Bool) → δ → ρ} {byGraph : ByGraph ρ}
    (hbyGraph : byGraph = Declared.records
      (declared keeps (sources graphs subgraphs) fun s => (content? s).toList) record)
    {contribute : Name → ρ → List JoinFact}
    (hcontribute : ∀ value d, ∀ f ∈ contribute value d, f.graph = value)
    {said : Name → Schema → List JoinFact}
    (hsaid : ∀ s ∈ subgraphs, ∀ value, (content? s.schema).elim []
      (fun d => contribute value (record (keeps s.schema) d)) = said value s.schema)
    : Join.Say graphs subgraphs said
        ((ofSubgraphs graphs subgraphs).annotator.facts byGraph contribute) := by
  apply say_facts h ?_ hcontribute
  . intro graph s hmem
    obtain ⟨s, hs, rfl⟩ := exists_of_mem_sources hmem
    rw [hbyGraph, get?_records (nodup_sources h) hmem, ← hsaid s hs]
    cases content? s.schema <;> rfl
  . intro graph hgraph
    rw [hbyGraph, mem_keys_records] at hgraph
    obtain ⟨s, hmem, -⟩ := hgraph
    exact mem_keys_of_mem_sources h hmem

section

variable {type : Name}

theorem say_declared {δ ρ : Type} {content? : TypeDef → Option δ}
    {record : (Directive → Bool) → δ → ρ} {byGraph : ByGraph ρ}
    (hbyGraph : byGraph = Declared.records (declared Schema.keeps (sources graphs subgraphs) fun s =>
      ((s.userType? type).bind content?).toList) record)
    {contribute : Name → ρ → List JoinFact}
    (hcontribute : ∀ value d, ∀ f ∈ contribute value d, f.graph = value)
    {said : Name → TypeDef → List JoinFact}
    (hsaid : ∀ s ∈ subgraphs, ∀ d, s.schema.userType? type = some d → ∃ x, content? d = some x
      ∧ ∀ value, contribute value (record s.schema.keeps x) = said value d)
    : Join.Say graphs subgraphs (fun value s => (s.userType? type).elim [] (said value))
        ((ofSubgraphs graphs subgraphs).annotator.facts byGraph contribute) := by
  apply say_records h hbyGraph hcontribute
  intro s hs value
  cases hd : s.schema.userType? type with
  | none => rfl
  | some d =>
    obtain ⟨x, hx, heq⟩ := hsaid s hs d hd
    rw [Option.bind_some, hx]
    exact heq value

theorem say_composite {composite? : TypeDef → Option (TypeDef × CompositeBody)} {e : CompositeEntry}
    (he : CompositeEntry.ofDeclared? (declared Schema.keeps (sources graphs subgraphs) fun s =>
      ((s.userType? type).bind composite?).toList) = some e)
    (hcomposite : ∀ s ∈ subgraphs, ∀ d, s.schema.userType? type = some d →
      ∃ body, composite? d = some (d, body) ∧ (d.body = .object body ∨ d.body = .interface body))
    (location : DirectiveLocation)
    : Join.Say graphs subgraphs (fun value s => (s.userType? type).elim [] (·.facts [] value))
        (e.directives (ofSubgraphs graphs subgraphs).annotator location) := by
  have hbyGraph := (CompositeEntry.merges he).byGraph
  -- Keys and interfaces are separate runs of facts, each over all subgraphs.
  have hkeys : Join.Say graphs subgraphs
      (fun value s => (s.userType? type).elim [] (·.keyFacts value))
      ((ofSubgraphs graphs subgraphs).annotator.facts e.byGraph fun graph d =>
        if d.keys.isEmpty then [.type graph none] else d.keys.map fun key => .type graph (some key))
      := by
    apply say_declared h hbyGraph
    . intro value d f hf
      obtain ⟨key, rfl⟩ := CompositeInGraph.exists_key_of_mem_typeFacts hf
      rfl
    . intro s hs d hd
      obtain ⟨body, hbody, hkind⟩ := hcomposite s hs d hd
      refine ⟨_, hbody, ?_⟩
      intro value
      unfold TypeDef.keyFacts TypeDef.keys
      cases hkind with
      | inl hkind => rw [hkind]; rfl
      | inr hkind => rw [hkind]; rfl
  have hinterfaces : Join.Say graphs subgraphs
      (fun value s => (s.userType? type).elim [] (·.interfaces.map (.implements value)))
      ((ofSubgraphs graphs subgraphs).annotator.facts e.byGraph fun graph d =>
        d.interfaces.toList.map (.implements graph)) := by
    apply say_declared h hbyGraph
    . intro value d f hf
      obtain ⟨interface, -, rfl⟩ := List.mem_map.1 hf
      rfl
    . intro s hs d hd
      obtain ⟨body, hbody, hkind⟩ := hcomposite s hs d hd
      refine ⟨_, hbody, ?_⟩
      intro value
      unfold TypeDef.interfaces
      cases hkind with
      | inl hkind => rw [hkind]; rfl
      | inr hkind => rw [hkind]; rfl
  apply ((Join.Say.copied location _).append (hkeys.append hinterfaces)).congr
  intro s _ value
  cases s.schema.userType? type with
  | none => rfl
  | some d => exact (List.append_nil _).symm

theorem say_typeFacts {δ ρ : Type} {content? : TypeDef → Option δ}
    {record : (Directive → Bool) → δ → ρ} {byGraph : ByGraph ρ}
    (hbyGraph : byGraph = Declared.records (declared Schema.keeps (sources graphs subgraphs) fun s =>
      ((s.userType? type).bind content?).toList) record)
    (hplain : ∀ s ∈ subgraphs, ∀ d, s.schema.userType? type = some d →
      (content? d).isSome ∧ d.keys = [])
    : Join.Say graphs subgraphs (fun value s => (s.userType? type).elim [] (·.keyFacts value))
        ((ofSubgraphs graphs subgraphs).annotator.typeFacts byGraph) := by
  apply say_declared h hbyGraph
  . intro value d f hf
    rw [List.mem_singleton.1 hf]
    rfl
  . intro s hs d hd
    obtain ⟨hsome, hkeys⟩ := hplain s hs d hd
    obtain ⟨x, hx⟩ := Option.isSome_iff_exists.1 hsome
    refine ⟨x, hx, ?_⟩
    intro value
    unfold TypeDef.keyFacts
    rw [hkeys]
    rfl

theorem say_plain {δ ρ : Type} {content? : TypeDef → Option δ}
    {record : (Directive → Bool) → δ → ρ} {byGraph : ByGraph ρ}
    (hbyGraph : byGraph = Declared.records (declared Schema.keeps (sources graphs subgraphs) fun s =>
      ((s.userType? type).bind content?).toList) record)
    (hplain : ∀ s ∈ subgraphs, ∀ d, s.schema.userType? type = some d →
      (content? d).isSome ∧ d.keys = [] ∧ d.interfaces = [])
    (location : DirectiveLocation) (applications : List (List Directive))
    : Join.Say graphs subgraphs (fun value s => (s.userType? type).elim [] (·.facts [] value))
        ((ofSubgraphs graphs subgraphs).annotator.copied location applications
          ++ (ofSubgraphs graphs subgraphs).annotator.typeFacts byGraph) := by
  have htype := say_typeFacts h hbyGraph fun s hs d hd =>
    ⟨(hplain s hs d hd).1, (hplain s hs d hd).2.1⟩
  apply ((Join.Say.copied location applications).append htype).congr
  intro s hs value
  cases hd : s.schema.userType? type with
  | none => rfl
  | some d =>
    change d.keyFacts value = d.facts [] value
    unfold TypeDef.facts
    rw [(hplain s hs d hd).2.2]
    simp

theorem membersIn_eq {e : UnionEntry} (he : (ofSubgraphs graphs subgraphs).unions.get? type = some e)
    {graph : GraphId} {s : Schema} (hmem : (graph, s) ∈ sources graphs subgraphs) {d : TypeDef}
    (hd : s.userType? type = some d) {members : OrderedSet Name} (hbody : d.body = .union members)
    : e.membersIn graph = e.members.keys.filter (· ∈ members) := by
  have hunion : d.union? = some (d, members) := by
    unfold TypeDef.union?
    rw [hbody]
  rw [get?_unions] at he
  apply UnionEntry.membersIn_eq
  intro name
  rw [UnionEntry.isMember_iff he, decide_eq_true_eq]
  constructor
  . intro hname
    refine ⟨(⟨graph, s.keeps⟩, (d, members)), mem_declared.2 ⟨graph, s, hmem, rfl, ?_⟩, rfl, hname⟩
    rw [hd, Option.bind_some, hunion]
    exact List.mem_singleton_self _
  . rintro ⟨x, hx, rfl, hname⟩
    obtain ⟨graph, s', hmem', hdeclarer, hx⟩ := mem_declared.1 hx
    rw [hdeclarer] at hmem
    -- No other subgraph has the identifier.
    cases List.inj_on_of_nodup_map (nodup_sources h) hmem' hmem rfl
    rw [hd, Option.bind_some, hunion] at hx
    rw [List.mem_singleton.1 hx] at hname
    exact hname

theorem say_union {e : UnionEntry} (he : (ofSubgraphs graphs subgraphs).unions.get? type = some e)
    (hunion : ∀ s ∈ subgraphs, ∀ d, s.schema.userType? type = some d → d.kind = .union)
    : Join.Say graphs subgraphs
        (fun value s => (s.userType? type).elim [] (·.facts e.members.keys value))
        (e.emit (ofSubgraphs graphs subgraphs).annotator).directives := by
  have hof := (get?_unions graphs subgraphs type).symm.trans he
  have hbyGraph := UnionEntry.byGraph_ofDeclared? hof
  have hbody : ∀ s ∈ subgraphs, ∀ d, s.schema.userType? type = some d →
      ∃ members, d.body = .union members := by
    intro s hs d hd
    have hkind := hunion s hs d hd
    obtain ⟨description, directives, body⟩ := d
    cases body with
    | union members => exact ⟨members, rfl⟩
    | _ => cases hkind
  have htype := say_typeFacts h hbyGraph fun s hs d hd => by
    obtain ⟨members, hbody⟩ := hbody s hs d hd
    unfold TypeDef.union? TypeDef.keys
    rw [hbody]
    exact ⟨rfl, rfl⟩
  have hmembers : Join.Say graphs subgraphs
      (fun value s => (s.userType? type).elim [] fun d =>
        (e.members.keys.filter (· ∈ d.members)).map (.unionMember value))
      ((ofSubgraphs graphs subgraphs).annotator.facts
        (e.byGraph.map fun graph _ => e.membersIn graph) fun graph members =>
          members.map (.unionMember graph)) := by
    apply say_facts h
    . intro graph hgraph
      rw [OrderedMap.keys_map, hbyGraph, mem_keys_records] at hgraph
      obtain ⟨s, hmem, -⟩ := hgraph
      exact mem_keys_of_mem_sources h hmem
    . intro value members f hf
      obtain ⟨member, -, rfl⟩ := List.mem_map.1 hf
      rfl
    . intro graph s hmem
      obtain ⟨s, hs, rfl⟩ := exists_of_mem_sources hmem
      rw [OrderedMap.get?_map, hbyGraph, get?_records (nodup_sources h) hmem]
      cases hd : s.schema.userType? type with
      | none => rfl
      | some d =>
        obtain ⟨members, hbody⟩ := hbody s hs d hd
        rw [membersIn_eq h he hmem hd hbody]
        unfold TypeDef.members TypeDef.union?
        simp [hbody]
  apply (((Join.Say.copied .union _).append htype).append hmembers).congr
  intro s hs value
  cases hd : s.schema.userType? type with
  | none => rfl
  | some d =>
    obtain ⟨members, hbody⟩ := hbody s hs d hd
    change d.keyFacts value ++ _ = d.facts e.members.keys value
    unfold TypeDef.facts TypeDef.interfaces
    rw [hbody, List.map_nil, List.append_nil]
    rfl

theorem say_enumValue {e : EnumEntry} (he : (ofSubgraphs graphs subgraphs).enums.get? type = some e)
    {value : Name} {v : EnumValueDef}
    (hv : (e.emit (ofSubgraphs graphs subgraphs).annotator).enumValue? value = some v)
    : Join.Say graphs subgraphs
        (fun graph s => ((s.userType? type).bind (·.enumValue? value)).elim [] fun _ =>
          [.enumValue graph])
        v.directives := by
  have hget : (e.values.map fun _ entry =>
      entry.emit (ofSubgraphs graphs subgraphs).annotator).get? value = some v := hv
  rw [OrderedMap.get?_map, Option.map_eq_some_iff] at hget
  obtain ⟨entry, hentry, rfl⟩ := hget
  rw [EnumEntry.get?_values ((get?_enums graphs subgraphs type).symm.trans he)] at hentry
  have hfacts : Join.Say graphs subgraphs
      (fun graph s => ((s.userType? type).bind (·.enumValue? value)).elim [] fun _ =>
        [.enumValue graph])
      ((ofSubgraphs graphs subgraphs).annotator.facts entry.byGraph fun graph _ =>
        [.enumValue graph]) := by
    apply say_records h (EnumValueEntry.byGraph_ofDeclared? hentry)
    . intro graph d f hf
      rw [List.mem_singleton.1 hf]
      rfl
    . intro s _ graph
      rw [Schema.enumValue?_eq]
  exact ((Join.Say.copied .enumValue _).append hfacts).congr fun _ _ _ => rfl

theorem say_emitType? {kind : TypeKind} {t : TypeDef}
    (ht : (ofSubgraphs graphs subgraphs).emitType? (ofSubgraphs graphs subgraphs).annotator type kind
      = some t)
    (hkind : ∀ s ∈ subgraphs, ∀ d, s.schema.userType? type = some d → d.kind = kind)
    : Join.Say graphs subgraphs (fun value s => (s.userType? type).elim [] (·.facts t.members value))
          t.directives
        ∧ ∀ value v, t.enumValue? value = some v →
          Join.Say graphs subgraphs
            (fun graph s => ((s.userType? type).bind (·.enumValue? value)).elim [] fun _ =>
              [.enumValue graph])
            v.directives := by
  cases kind <;> obtain ⟨e, he, rfl⟩ := Option.map_eq_some_iff.1 ht
  case object =>
    refine ⟨say_composite h ((get?_objects _ _ _).symm.trans he) ?_ .object, fun _ _ => nofun⟩
    rintro s hs ⟨description, directives, body⟩ hd
    cases body with
    | object body => exact ⟨body, rfl, .inl rfl⟩
    | _ => cases hkind s hs _ hd
  case interface =>
    refine ⟨say_composite h ((get?_interfaces _ _ _).symm.trans he) ?_ .interface, fun _ _ => nofun⟩
    rintro s hs ⟨description, directives, body⟩ hd
    cases body with
    | interface body => exact ⟨body, rfl, .inr rfl⟩
    | _ => cases hkind s hs _ hd
  case inputObject =>
    have hbyGraph := (InputObjectEntry.merges ((get?_inputObjects _ _ _).symm.trans he)).byGraph
    refine ⟨say_plain h hbyGraph ?_ .inputObject _, fun _ _ => nofun⟩
    rintro s hs ⟨description, directives, body⟩ hd
    cases body with
    | inputObject fields => exact ⟨rfl, rfl, rfl⟩
    | _ => cases hkind s hs _ hd
  case enum =>
    have hbyGraph := EnumEntry.byGraph_ofDeclared? ((get?_enums _ _ _).symm.trans he)
    refine ⟨say_plain h hbyGraph ?_ .enum _, fun value v hv => say_enumValue h he hv⟩
    rintro s hs ⟨description, directives, body⟩ hd
    cases body with
    | enum values => exact ⟨rfl, rfl, rfl⟩
    | _ => cases hkind s hs _ hd
  case union => exact ⟨say_union h he hkind, fun _ _ => nofun⟩
  case scalar =>
    have hbyGraph := ScalarEntry.byGraph_ofDeclared? ((get?_scalars _ _ _).symm.trans he)
    refine ⟨say_plain h hbyGraph ?_ .scalar _, fun _ _ => nofun⟩
    rintro s hs ⟨description, directives, body⟩ hd
    cases body with
    | scalar => exact ⟨rfl, rfl, rfl⟩
    | _ => cases hkind s hs _ hd

theorem graph_of_mem_statements {kind : TypeKind} {t : TypeDef}
    (ht : (ofSubgraphs graphs subgraphs).emitType? (ofSubgraphs graphs subgraphs).annotator type kind
      = some t)
    (hkind : ∀ s ∈ subgraphs, ∀ d, s.schema.userType? type = some d → d.kind = kind)
    {f : JoinFact} (hf : f ∈ t.statements) : f.graph ∈ graphs.values.map (·.enumValue) := by
  obtain ⟨hsay, hvalues⟩ := say_emitType? h ht hkind
  cases List.mem_append.1 hf with
  | inl hf => exact hsay.graph f hf
  | inr hf =>
    obtain ⟨v, hv, hf⟩ := List.mem_flatMap.1 hf
    obtain ⟨value, hv⟩ := TypeDef.mem_enumValues_iff.1 hv
    exact (hvalues value v hv).graph f hf

theorem tellsOf_emitType? (huser : Federation.isUserType type) {kind : TypeKind} {t : TypeDef}
    (ht : (ofSubgraphs graphs subgraphs).emitType? (ofSubgraphs graphs subgraphs).annotator type kind
      = some t)
    (hkind : ∀ s ∈ subgraphs, ∀ d, s.schema.userType? type = some d → d.kind = kind)
    {graph : GraphId} {s : Schema} (hmem : (graph, s) ∈ sources graphs subgraphs)
    : t.TellsOf (graphs.valueOf graph) (s.types.get? type) := by
  obtain ⟨hsay, hvalues⟩ := say_emitType? h ht hkind
  have hfacts := hsay.factsOn graph s hmem
  have htype := s.userType?_eq huser
  rw [htype] at hfacts
  constructor
  . rw [Join.keysIn_eq hfacts, Option.map_map]
    simp only [Function.comp_def, TypeDef.keys_userPart]
  . rw [Join.interfacesIn_eq hfacts]
    cases s.types.get? type with
    | none => rfl
    | some d => exact d.interfaces_userPart
  . rw [Join.membersIn_eq hfacts]
    simp only [Option.any_map, TypeDef.members_userPart]
  . intro value v hv
    rw [(hvalues value v hv).factsOn graph s hmem, htype, Option.bind_map]
    simp only [Function.comp_def, TypeDef.enumValue?_userPart]

end

end Model

end Supergraph
