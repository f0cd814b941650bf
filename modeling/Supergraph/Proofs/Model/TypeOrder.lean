import Supergraph.Proofs.Model.Run
import Supergraph.Proofs.OrderedSet

namespace Supergraph

open GraphQL

def OrderedMap.keySet {α β : Type} (m : OrderedMap α β) : OrderedSet α := ⟨m.keys, m.keys_nodup⟩

theorem OrderedMap.keySet_upsert {α β : Type} [DecidableEq α] (m : OrderedMap α β) (k : α)
    (f : Option β → β) : (m.upsert k f).keySet = m.keySet.insert k := by
  apply OrderedSet.ext
  rw [OrderedSet.toList_insert]
  exact m.keys_upsert k f

theorem OrderedMap.keySet_foldl_upsert {α β δ : Type} [DecidableEq α] (key : δ → α)
    (f : δ → Option β → β) (ds : List δ) (m : OrderedMap α β)
    : (ds.foldl (fun m d => m.upsert (key d) (f d)) m).keySet
        =
      m.keySet.insertMany (ds.map key) := by
  induction ds generalizing m with
  | nil => rfl
  | cons d rest ih =>
    rw [List.foldl_cons, ih, keySet_upsert]
    rfl

def GraphQL.Schema.userTypeNames (s : Schema) : List Name :=
  s.types.keys.filter Federation.isUserType

theorem GraphQL.Schema.map_fst_userTypes (s : Schema) :
    s.userTypes.map Prod.fst = s.userTypeNames := by
  unfold userTypes userTypeNames OrderedMap.keys
  rw [List.map_map, List.filter_map]
  rfl

namespace Model

theorem keySet_kinds_foldl_declareType (declarer : Declarer) (ds : List (Name × TypeDef))
    (m : Model)
    : (ds.foldl (fun m (name, d) => m.declareType declarer name d) m).kinds.keySet
        =
      m.kinds.keySet.insertMany (ds.map Prod.fst) := by
  induction ds generalizing m with
  | nil => rfl
  | cons d rest ih =>
    obtain ⟨name, d⟩ := d
    have hkinds : (m.declareType declarer name d).kinds
        = m.kinds.upsert name (kindRegister.declare (declarer, d.kind)) :=
      kindRegister.entries_declareType m declarer name d
    rw [List.foldl_cons, ih, hkinds, OrderedMap.keySet_upsert]
    rfl

theorem keySet_kinds_absorb (m : Model) (graph : GraphId) (s : Schema) :
    (m.absorb graph s).kinds.keySet = m.kinds.keySet.insertMany s.userTypeNames := by
  have hdirectives := kindRegister.entries_foldl_declareDirective graph s s.userDirectives
    { m with roots := fun operation => (m.roots operation).or (localRoot? s operation) }
  unfold absorb
  dsimp only
  rw [keySet_kinds_foldl_declareType, s.map_fst_userTypes]
  exact congrArg (fun kinds => kinds.keySet.insertMany s.userTypeNames) hdirectives

theorem keySet_kinds_foldl_absorb (sources : List (GraphId × Schema)) (m : Model) :
    (sources.foldl (fun m (graph, s) => m.absorb graph s) m).kinds.keySet
      =
    m.kinds.keySet.insertMany ((sources.map Prod.snd).flatMap (·.userTypeNames)) := by
  induction sources generalizing m with
  | nil => rfl
  | cons source rest ih =>
    rw [List.foldl_cons, ih, keySet_kinds_absorb, List.map_cons, List.flatMap_cons,
      OrderedSet.insertMany_append]

theorem keys_kinds_ofSubgraphs {subgraphs : List Subgraph} {graphs : Identities}
    (h : Identities.resolve subgraphs = .ok graphs)
    : (ofSubgraphs graphs subgraphs).kinds.keys
        =
      (OrderedSet.ofList (subgraphs.flatMap (·.schema.userTypeNames))).toList := by
  have hset := keySet_kinds_foldl_absorb (sources graphs subgraphs) { graphs }
  rw [map_snd_sources h, List.flatMap_map] at hset
  exact congrArg (·.toList) hset

end Model

end Supergraph
