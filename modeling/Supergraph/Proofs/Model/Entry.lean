import Mathlib.Data.List.Induction
import Supergraph.Model.Declaration
import Supergraph.Proofs.OrderedMap
import Supergraph.Proofs.GraphQL.Election

/-!
This module contains what an entry holds after several declarations: under every subgraph the last
one, the type that is elected from all of them, and the entries of its parts.
-/

namespace Supergraph

open GraphQL

theorem foldl_eq_of_step {σ α β : Type} {f : σ → β} {step : σ → α → σ}
    (h : ∀ s a, f (step s a) = f s) (as : List α) (s : σ) : f (as.foldl step s) = f s := by
  induction as generalizing s with
  | nil => rfl
  | cons a rest ih => rw [List.foldl_cons, ih, h]

def merged? {δ ε : Type} (declare : δ → Option ε → ε) (ds : List δ) : Option ε :=
  ds.foldl (fun e d => some (declare d e)) none

section

variable {δ ε : Type} {declare : δ → Option ε → ε}

theorem merged?_append_singleton (ds : List δ) (d : δ) :
    merged? declare (ds ++ [d]) = some (declare d (merged? declare ds)) := by
  unfold merged?
  rw [List.foldl_append]
  rfl

theorem merged?_eq_none_iff (ds : List δ) : merged? declare ds = none ↔ ds = [] := by
  cases ds using List.reverseRecOn with
  | nil => exact iff_of_true rfl rfl
  | append_singleton ds d =>
    rw [merged?_append_singleton]
    simp

theorem isSome_merged?_iff (ds : List δ) : (merged? declare ds).isSome ↔ ds ≠ [] := by
  have h : merged? declare ds = none ↔ ds = [] := merged?_eq_none_iff ds
  rw [Ne, ← h]
  cases merged? declare ds <;> simp

theorem merged?_induction {P : List δ → ε → Prop} (first : ∀ d, P [d] (declare d none))
    (next : ∀ ds d e, P ds e → P (ds ++ [d]) (declare d (some e)))
    {ds : List δ} {e : ε} (h : merged? declare ds = some e) : P ds e := by
  induction ds using List.reverseRecOn generalizing e with
  | nil => cases h
  | append_singleton ds d ih =>
    rw [merged?_append_singleton] at h
    cases h
    cases hds : merged? declare ds with
    | none =>
      rw [merged?_eq_none_iff] at hds
      subst hds
      exact first d
    | some e => exact next ds d e (ih hds)

end

abbrev Declared (δ : Type) := Declarer × δ

def Declared.parts {δ π : Type} (ds : List (Declared δ)) (parts : δ → List π) : List (Declared π) :=
  ds.flatMap fun d => (parts d.2).map (d.1, ·)

theorem Declared.parts_append_singleton {δ π : Type} (ds : List (Declared δ)) (d : Declared δ)
    (parts : δ → List π)
    : Declared.parts (ds ++ [d]) parts = Declared.parts ds parts ++ (parts d.2).map (d.1, ·) := by
  unfold Declared.parts
  simp

theorem Declared.parts_singleton {δ π : Type} (d : Declared δ) (parts : δ → List π) :
    Declared.parts [d] parts = (parts d.2).map (d.1, ·) := by
  unfold Declared.parts
  simp

def Declared.records {δ ρ : Type} (ds : List (Declared δ)) (record : (Directive → Bool) → δ → ρ) :
    ByGraph ρ :=
  .ofList (ds.map fun d => (d.1.graph, record d.1.keeps d.2))

theorem Declared.records_append_singleton {δ ρ : Type} (ds : List (Declared δ)) (d : Declared δ)
    (record : (Directive → Bool) → δ → ρ)
    : Declared.records (ds ++ [d]) record
        =
      (Declared.records ds record).insert d.1.graph (record d.1.keeps d.2) := by
  unfold Declared.records
  rw [List.map_append]
  exact OrderedMap.ofList_append_singleton _ _ _

theorem byGraph_merged? {δ ε ρ : Type} {declare : Declared δ → Option ε → ε}
    {byGraph : ε → ByGraph ρ} {record : (Directive → Bool) → δ → ρ}
    (hdeclare : ∀ d e, byGraph (declare d e)
      = (e.elim ∅ byGraph).insert d.1.graph (record d.1.keeps d.2))
    {ds : List (Declared δ)} {e : ε} (h : merged? declare ds = some e)
    : byGraph e = Declared.records ds record := by
  refine merged?_induction (P := fun ds e => byGraph e = Declared.records ds record)
    ?first ?next h
  case first =>
    intro d
    exact hdeclare d none
  case next =>
    intro ds d e ih
    rw [Declared.records_append_singleton, ← ih]
    exact hdeclare d (some e)

def named {δ : Type} (name : Name) (entries : List (Name × δ)) : List δ :=
  (entries.filter (·.1 = name)).map (·.2)

def InputInGraph.ofDef (keeps : Directive → Bool) (d : InputValueDef) : InputInGraph where
  type := d.type
  defaultValue := d.defaultValue
  directives := d.directives.filter keeps

namespace InputEntry

def ofDeclared? (ds : List (Declared InputValueDef)) : Option InputEntry :=
  merged? (fun d => declare d.1 d.2) ds

structure Merges (ds : List (Declared InputValueDef)) (e : InputEntry) : Prop where
  byGraph : e.byGraph = Declared.records ds InputInGraph.ofDef
  type : TypeRef.IsElected true (ds.map (·.2.type)) e.type
  defaultValue : e.defaultValue = ds.findSome? (·.2.defaultValue)

theorem merges {ds : List (Declared InputValueDef)} {e : InputEntry} (h : ofDeclared? ds = some e)
    : Merges ds e := by
  refine merged?_induction ?first ?next h
  case first =>
    intro d
    refine ⟨rfl, ?_, ?_⟩
    . change TypeRef.IsElected true [d.2.type] (d.2.type.electInput d.2.type)
      rw [TypeRef.electInput_eq, TypeRef.elect_self]
      exact .single true _
    . rw [List.findSome?_singleton]
      exact Option.none_or
  case next =>
    intro ds d e ih
    refine ⟨?_, ?_, ?_⟩
    . rw [Declared.records_append_singleton, ← ih.byGraph]
      rfl
    . rw [List.map_append]
      exact ih.type.append d.2.type
    . rw [List.findSome?_append, List.findSome?_singleton, ← ih.defaultValue]
      rfl

end InputEntry

theorem get?_declareInputs (declarer : Declarer) (inputs : List (Name × InputValueDef))
    (entries : OrderedMap Name InputEntry) (ds : List (Declared InputValueDef)) (name : Name)
    (h : entries.get? name = InputEntry.ofDeclared? ds)
    : (declareInputs declarer inputs entries).get? name
        =
      InputEntry.ofDeclared? (ds ++ (named name inputs).map (declarer, ·)) := by
  unfold declareInputs
  rw [OrderedMap.get?_foldl_upsert, h]
  unfold InputEntry.ofDeclared? merged? named
  simp only [List.foldl_append, List.foldl_map]

def FieldInGraph.ofDef (keeps : Directive → Bool) (d : FieldDef) : FieldInGraph where
  type := d.type
  external := d.directives.any (Federation.isApplication "external")
  requires := selection? "requires" d.directives
  provides := selection? "provides" d.directives
  directives := d.directives.filter keeps

namespace FieldEntry

def ofDeclared? (ds : List (Declared FieldDef)) : Option FieldEntry :=
  merged? (fun d => declare d.1 d.2) ds

structure Merges (ds : List (Declared FieldDef)) (e : FieldEntry) : Prop where
  byGraph : e.byGraph = Declared.records ds FieldInGraph.ofDef
  type : TypeRef.IsElected false (ds.map (·.2.type)) e.type
  arguments : ∀ name, e.arguments.get? name
    = InputEntry.ofDeclared? (Declared.parts ds fun d => named name d.arguments)

theorem merges {ds : List (Declared FieldDef)} {e : FieldEntry} (h : ofDeclared? ds = some e)
    : Merges ds e := by
  refine merged?_induction ?first ?next h
  case first =>
    intro d
    refine ⟨rfl, ?_, ?_⟩
    . change TypeRef.IsElected false [d.2.type] (d.2.type.electOutput d.2.type)
      rw [TypeRef.electOutput_eq, TypeRef.elect_self]
      exact .single false _
    . intro name
      rw [Declared.parts_singleton]
      exact get?_declareInputs d.1 d.2.arguments ∅ [] name rfl
  case next =>
    intro ds d e ih
    refine ⟨?_, ?_, ?_⟩
    . rw [Declared.records_append_singleton, ← ih.byGraph]
      rfl
    . rw [List.map_append]
      change TypeRef.IsElected false _ (e.type.electOutput d.2.type)
      rw [TypeRef.electOutput_eq]
      exact ih.type.append d.2.type
    . intro name
      rw [Declared.parts_append_singleton]
      exact get?_declareInputs d.1 d.2.arguments e.arguments _ name (ih.arguments name)

end FieldEntry

theorem get?_declareFields (declarer : Declarer) (fields : OrderedMap Name FieldDef)
    (entries : OrderedMap Name FieldEntry) (ds : List (Declared FieldDef)) (name : Name)
    (h : entries.get? name = FieldEntry.ofDeclared? ds)
    : (declareFields declarer fields entries).get? name
        =
      FieldEntry.ofDeclared? (ds ++ (fields.get? name).toList.map (declarer, ·)) := by
  unfold declareFields
  rw [OrderedMap.get?_foldl_upsert, OrderedMap.map_filter_toList, h]
  unfold FieldEntry.ofDeclared? merged?
  simp only [List.foldl_append, List.foldl_map]

def CompositeInGraph.ofDef (keeps : Directive → Bool) (d : TypeDef × CompositeBody) :
    CompositeInGraph where
  interfaces := d.2.interfaces
  keys := d.1.directives.filterMap Key.ofDirective?
  directives := d.1.directives.filter keeps

namespace CompositeEntry

def ofDeclared? (ds : List (Declared (TypeDef × CompositeBody))) : Option CompositeEntry :=
  merged? (fun d => declare d.1 d.2.1 d.2.2) ds

structure Merges (ds : List (Declared (TypeDef × CompositeBody))) (e : CompositeEntry) : Prop where
  byGraph : e.byGraph = Declared.records ds CompositeInGraph.ofDef
  fields : ∀ name, e.fields.get? name
    = FieldEntry.ofDeclared? (Declared.parts ds fun d => (d.2.fields.get? name).toList)

theorem merges {ds : List (Declared (TypeDef × CompositeBody))} {e : CompositeEntry}
    (h : ofDeclared? ds = some e) : Merges ds e := by
  refine merged?_induction ?first ?next h
  case first =>
    intro d
    refine ⟨rfl, ?_⟩
    intro name
    rw [Declared.parts_singleton]
    exact get?_declareFields d.1 d.2.2.fields ∅ [] name rfl
  case next =>
    intro ds d e ih
    constructor
    . rw [Declared.records_append_singleton, ← ih.byGraph]
      rfl
    . intro name
      rw [Declared.parts_append_singleton]
      exact get?_declareFields d.1 d.2.2.fields e.fields _ name (ih.fields name)

end CompositeEntry

namespace InputObjectEntry

def directivesOfDef (keeps : Directive → Bool) (d : TypeDef × OrderedMap Name InputValueDef) :
    List Directive :=
  d.1.directives.filter keeps

def ofDeclared? (ds : List (Declared (TypeDef × OrderedMap Name InputValueDef))) :
    Option InputObjectEntry :=
  merged? (fun d => declare d.1 d.2.1 d.2.2) ds

structure Merges (ds : List (Declared (TypeDef × OrderedMap Name InputValueDef)))
    (e : InputObjectEntry) : Prop where
  byGraph : e.byGraph = Declared.records ds directivesOfDef
  fields : ∀ name, e.fields.get? name
    = InputEntry.ofDeclared? (Declared.parts ds fun d => (d.2.get? name).toList)

theorem merges {ds : List (Declared (TypeDef × OrderedMap Name InputValueDef))}
    {e : InputObjectEntry} (h : ofDeclared? ds = some e) : Merges ds e := by
  have hfields : ∀ (d : Declared (TypeDef × OrderedMap Name InputValueDef)) name,
      named name d.2.2.toList = (d.2.2.get? name).toList := by
    intro d name
    exact OrderedMap.map_filter_toList d.2.2 name
  refine merged?_induction ?first ?next h
  case first =>
    intro d
    refine ⟨rfl, ?_⟩
    intro name
    rw [Declared.parts_singleton, ← hfields]
    exact get?_declareInputs d.1 d.2.2.toList ∅ [] name rfl
  case next =>
    intro ds d e ih
    constructor
    . rw [Declared.records_append_singleton, ← ih.byGraph]
      rfl
    . intro name
      rw [Declared.parts_append_singleton, ← hfields]
      exact get?_declareInputs d.1 d.2.2.toList e.fields _ name (ih.fields name)

end InputObjectEntry

def EnumValueEntry.ofDeclared? (ds : List (Declared EnumValueDef)) : Option EnumValueEntry :=
  merged? (fun d => declare d.1 d.2) ds

theorem EnumValueEntry.byGraph_ofDeclared? {ds : List (Declared EnumValueDef)} {e : EnumValueEntry}
    (h : ofDeclared? ds = some e)
    : e.byGraph = Declared.records ds fun keeps d => d.directives.filter keeps := by
  refine byGraph_merged? ?_ h
  intro d e
  cases e <;> rfl

namespace EnumEntry

def ofDeclared? (ds : List (Declared (TypeDef × OrderedMap Name EnumValueDef))) :
    Option EnumEntry :=
  merged? (fun d => declare d.1 d.2.1 d.2.2) ds

theorem byGraph_ofDeclared? {ds : List (Declared (TypeDef × OrderedMap Name EnumValueDef))}
    {e : EnumEntry} (h : ofDeclared? ds = some e)
    : e.byGraph = Declared.records ds fun keeps d => d.1.directives.filter keeps := by
  refine byGraph_merged? ?_ h
  intro d e
  cases e <;> rfl

theorem values_declare (declarer : Declarer) (d : TypeDef) (values : OrderedMap Name EnumValueDef)
    (e : Option EnumEntry)
    : (declare declarer d values e).values
        =
      values.toList.foldl (fun entries (name, v) => entries.upsert name (.declare declarer v))
        (e.elim ∅ (·.values)) := by
  cases e <;> rfl

theorem get?_values_declare (d : Declared (TypeDef × OrderedMap Name EnumValueDef))
    (e : Option EnumEntry) (ds : List (Declared EnumValueDef)) (name : Name)
    (h : (e.elim ∅ (·.values)).get? name = EnumValueEntry.ofDeclared? ds)
    : (declare d.1 d.2.1 d.2.2 e).values.get? name
        =
      EnumValueEntry.ofDeclared? (ds ++ (d.2.2.get? name).toList.map (d.1, ·)) := by
  rw [values_declare, OrderedMap.get?_foldl_upsert, OrderedMap.map_filter_toList, h]
  unfold EnumValueEntry.ofDeclared? merged?
  simp only [List.foldl_append, List.foldl_map]

theorem get?_values_ofDeclared? {ds : List (Declared (TypeDef × OrderedMap Name EnumValueDef))}
    {e : EnumEntry} (h : ofDeclared? ds = some e) (name : Name)
    : e.values.get? name
        =
      EnumValueEntry.ofDeclared? (Declared.parts ds fun d => (d.2.get? name).toList) := by
  refine merged?_induction (P := fun ds e => e.values.get? name = EnumValueEntry.ofDeclared?
    (Declared.parts ds fun d => (d.2.get? name).toList)) ?first ?next h
  case first =>
    intro d
    rw [Declared.parts_singleton]
    exact get?_values_declare d none [] name rfl
  case next =>
    intro ds d e ih
    rw [Declared.parts_append_singleton]
    exact get?_values_declare d (some e) _ name ih

end EnumEntry

namespace UnionEntry

def ofDeclared? (ds : List (Declared (TypeDef × OrderedSet Name))) : Option UnionEntry :=
  merged? (fun d => declare d.1 d.2.1 d.2.2) ds

theorem byGraph_ofDeclared? {ds : List (Declared (TypeDef × OrderedSet Name))} {e : UnionEntry}
    (h : ofDeclared? ds = some e)
    : e.byGraph = Declared.records ds fun keeps d => d.1.directives.filter keeps := by
  refine byGraph_merged? ?_ h
  intro d e
  cases e <;> rfl

def IsMember (e : UnionEntry) (name : Name) (graph : GraphId) : Prop :=
  ∃ graphs, e.members.get? name = some graphs ∧ graph ∈ graphs

theorem members_declare (declarer : Declarer) (d : TypeDef) (members : OrderedSet Name)
    (e : Option UnionEntry)
    : (declare declarer d members e).members
        =
      members.toList.foldl (fun entries name => entries.upsert name fun graphs =>
        (graphs.getD ∅).insert declarer.graph) (e.elim ∅ (·.members)) := by
  cases e <;> rfl

theorem mem_keys_foldl_join (graph : GraphId) (names : List Name)
    (entries : OrderedMap Name (OrderedSet GraphId)) (name : Name)
    : name ∈ (names.foldl (fun entries name => entries.upsert name fun graphs =>
        (graphs.getD ∅).insert graph) entries).keys
        ↔
      name ∈ entries.keys ∨ name ∈ names := by
  induction names generalizing entries with
  | nil => simp
  | cons n rest ih => grind [OrderedMap.keys_upsert]

theorem mem_graphs_foldl_join (graph : GraphId) (names : List Name)
    (entries : OrderedMap Name (OrderedSet GraphId)) (name : Name) (graph' : GraphId)
    : (∃ graphs, (names.foldl (fun entries name => entries.upsert name fun graphs =>
        (graphs.getD ∅).insert graph) entries).get? name = some graphs ∧ graph' ∈ graphs)
        ↔
      (∃ graphs, entries.get? name = some graphs ∧ graph' ∈ graphs)
        ∨ graph' = graph ∧ name ∈ names := by
  induction names generalizing entries with
  | nil => simp
  | cons n rest ih =>
    have hstep : (∃ graphs, (entries.upsert n fun graphs => (graphs.getD ∅).insert graph).get? name
          = some graphs ∧ graph' ∈ graphs)
        ↔ (∃ graphs, entries.get? name = some graphs ∧ graph' ∈ graphs)
          ∨ graph' = graph ∧ name = n := by
      rw [OrderedMap.get?_upsert]
      by_cases h : name = n
      . subst h
        cases entries.get? name <;> simp
      . simp [h]
    rw [List.foldl_cons, ih, hstep, or_assoc, ← and_or_left, List.mem_cons]

theorem mem_keys_members {ds : List (Declared (TypeDef × OrderedSet Name))} {e : UnionEntry}
    (h : ofDeclared? ds = some e) (name : Name)
    : name ∈ e.members.keys ↔ ∃ d ∈ ds, name ∈ d.2.2 := by
  refine merged?_induction (P := fun ds e => name ∈ e.members.keys ↔ ∃ d ∈ ds, name ∈ d.2.2)
    ?first ?next h
  case first =>
    intro d
    rw [members_declare, mem_keys_foldl_join]
    simp
  case next =>
    intro ds d e ih
    rw [members_declare, mem_keys_foldl_join]
    simp [ih, or_and_right, exists_or]

theorem isMember_iff {ds : List (Declared (TypeDef × OrderedSet Name))} {e : UnionEntry}
    (h : ofDeclared? ds = some e) (name : Name) (graph : GraphId)
    : e.IsMember name graph ↔ ∃ d ∈ ds, d.1.graph = graph ∧ name ∈ d.2.2 := by
  refine merged?_induction (P := fun ds e => e.IsMember name graph
    ↔ ∃ d ∈ ds, d.1.graph = graph ∧ name ∈ d.2.2) ?first ?next h
  case first =>
    intro d
    unfold IsMember
    rw [members_declare, mem_graphs_foldl_join]
    simp [eq_comm]
  case next =>
    intro ds d e ih
    unfold IsMember at ih ⊢
    rw [members_declare, mem_graphs_foldl_join, Option.elim_some, ih]
    simp [or_and_right, exists_or, eq_comm]

end UnionEntry

namespace ScalarEntry

def ofDeclared? (ds : List (Declared TypeDef)) : Option ScalarEntry :=
  merged? (fun d => declare d.1 d.2) ds

theorem byGraph_ofDeclared? {ds : List (Declared TypeDef)} {e : ScalarEntry}
    (h : ofDeclared? ds = some e)
    : e.byGraph = Declared.records ds fun keeps d => d.directives.filter keeps := by
  refine byGraph_merged? ?_ h
  intro d e
  cases e <;> rfl

end ScalarEntry

structure DirectiveUse where
  definition : DirectiveDef
  composed : Bool
  usedLocations : OrderedSet DirectiveLocation

def DirectiveInGraph.ofUse (_ : Directive → Bool) (d : DirectiveUse) : DirectiveInGraph where
  locations := .ofList d.definition.locations
  repeatable := d.definition.repeatable
  composed := d.composed
  usedLocations := d.usedLocations

namespace DirectiveEntry

def ofDeclared? (ds : List (Declared DirectiveUse)) : Option DirectiveEntry :=
  merged? (fun d => declare d.1.graph d.2.definition d.2.composed d.2.usedLocations) ds

structure Merges (ds : List (Declared DirectiveUse)) (e : DirectiveEntry) : Prop where
  byGraph : e.byGraph = Declared.records ds DirectiveInGraph.ofUse
  arguments : (∀ d ∈ ds, d.1.keeps = fun _ => false) → ∀ name, e.arguments.get? name
    = InputEntry.ofDeclared? (Declared.parts ds fun d => named name d.definition.arguments)

theorem merges {ds : List (Declared DirectiveUse)} {e : DirectiveEntry}
    (h : ofDeclared? ds = some e) : Merges ds e := by
  have hdeclarer : ∀ d : Declared DirectiveUse, d.1.keeps = (fun _ => false)
      → (⟨d.1.graph, fun _ => false⟩ : Declarer) = d.1 := by
    intro d hd
    rw [← hd]
  refine merged?_induction ?first ?next h
  case first =>
    intro d
    refine ⟨rfl, ?_⟩
    intro hkeeps name
    rw [Declared.parts_singleton, ← hdeclarer d (hkeeps d (by simp))]
    exact get?_declareInputs _ d.2.definition.arguments ∅ [] name rfl
  case next =>
    intro ds d e ih
    constructor
    . rw [Declared.records_append_singleton, ← ih.byGraph]
      rfl
    . intro hkeeps name
      rw [Declared.parts_append_singleton, ← hdeclarer d (hkeeps d (by simp))]
      apply get?_declareInputs
      exact ih.arguments (fun d hd => hkeeps d (by simp [hd])) name

end DirectiveEntry

end Supergraph
