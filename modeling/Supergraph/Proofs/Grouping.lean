import Mathlib.Data.List.Induction
import Supergraph.Proofs.OrderedMap

namespace Supergraph.OrderedMap

variable {α β : Type} [DecidableEq α]

/--
Whether groups sort entries by key, and keep their order otherwise.
-/
structure IsGrouping (entries : List (α × β)) (groups : OrderedMap α (List β)) : Prop where
  mem_keys (k : α) : k ∈ groups.keys ↔ k ∈ entries.map Prod.fst
  pairwise_keys : groups.keys.Pairwise fun a b =>
    (entries.map Prod.fst).idxOf a < (entries.map Prod.fst).idxOf b
  group (k : α) (vs : List β) : (k, vs) ∈ groups.toList →
    vs = (entries.filter (·.1 = k)).map (·.2)
  perm : (groups.toList.flatMap fun e => e.2.map (e.1, ·)).Perm entries
  two_le_size_iff : 2 ≤ groups.size ↔ ∃ a ∈ entries, ∃ b ∈ entries, a.1 ≠ b.1

theorem group_append_singleton (entries : List (α × β)) (e : α × β) :
    group (entries ++ [e]) = (group entries).upsert e.1 fun vs => vs.getD [] ++ [e.2] :=
  List.foldl_append

theorem pairwise_keys_group (entries : List (α × β)) :
    (group entries).keys.Pairwise fun a b =>
      (entries.map Prod.fst).idxOf a < (entries.map Prod.fst).idxOf b := by
  induction entries using List.reverseRecOn with
  | nil => exact List.Pairwise.nil
  | append_singleton entries e ih =>
    obtain ⟨k, v⟩ := e
    have hidx : ∀ a ∈ (group entries).keys,
        ((entries ++ [(k, v)]).map Prod.fst).idxOf a = (entries.map Prod.fst).idxOf a := by
      intro a ha
      rw [mem_keys_group] at ha
      rw [List.map_append, List.idxOf_append_of_mem ha]
    have hpairwise := ih.imp_of_mem
      (S := fun a b => ((entries ++ [(k, v)]).map Prod.fst).idxOf a
        < ((entries ++ [(k, v)]).map Prod.fst).idxOf b)
      fun ha hb hlt => by rwa [hidx _ ha, hidx _ hb]
    rw [group_append_singleton, keys_upsert]
    split
    . exact hpairwise
    . next hk =>
      rw [mem_keys_group] at hk
      apply List.pairwise_append.2
      refine ⟨hpairwise, List.pairwise_singleton _ _, ?_⟩
      intro a ha b hb
      cases List.mem_singleton.1 hb
      rw [hidx a ha, List.map_append, List.idxOf_append_of_notMem hk]
      rw [mem_keys_group] at ha
      exact Nat.lt_of_lt_of_le (List.idxOf_lt_length_of_mem ha) (Nat.le_add_right _ _)

theorem perm_toList_upsert_append (m : OrderedMap α (List β)) (k : α) (v : β) :
    ((m.upsert k fun vs => vs.getD [] ++ [v]).toList.flatMap fun e => e.2.map (e.1, ·)).Perm
      ((m.toList.flatMap fun e => e.2.map (e.1, ·)) ++ [(k, v)]) := by
  change ((upsert.go k _ m.toList).flatMap fun e => e.2.map (e.1, ·)).Perm _
  induction m.toList with
  | nil => exact .refl _
  | cons e rest ih =>
    obtain ⟨a, vs⟩ := e
    unfold upsert.go
    split
    . next hk =>
      simp only [Option.getD_some, List.flatMap_cons, List.map_append, List.map_cons, List.map_nil,
        List.append_assoc, hk]
      exact (List.perm_append_comm).append_left _
    . simp only [List.flatMap_cons, List.append_assoc]
      exact ih.append_left _

theorem perm_group.foldl (entries : List (α × β)) (m : OrderedMap α (List β)) :
    ((entries.foldl (fun m (k, v) => m.upsert k fun vs => vs.getD [] ++ [v]) m).toList.flatMap
        fun e => e.2.map (e.1, ·)).Perm
      ((m.toList.flatMap fun e => e.2.map (e.1, ·)) ++ entries) := by
  induction entries generalizing m with
  | nil => simp
  | cons e rest ih =>
    obtain ⟨k, v⟩ := e
    rw [List.foldl_cons]
    apply (ih _).trans
    rw [List.append_cons]
    exact (perm_toList_upsert_append m k v).append_right _

theorem perm_entries_group (entries : List (α × β)) :
    ((group entries).toList.flatMap fun e => e.2.map (e.1, ·)).Perm entries :=
  perm_group.foldl entries empty

theorem perm_group (entries : List (α × β)) :
    ((group entries).toList.flatMap (·.2)).Perm (entries.map (·.2)) := by
  have h := (perm_entries_group entries).map Prod.snd
  rw [List.map_flatMap] at h
  simpa only [List.map_map, Function.comp_def, List.map_id'] using h

theorem two_le_size_group_iff (entries : List (α × β)) :
    2 ≤ (group entries).size ↔ ∃ a ∈ entries, ∃ b ∈ entries, a.1 ≠ b.1 := by
  have hmem : ∀ a ∈ entries, a.1 ∈ (group entries).keys := by
    intro a ha
    rw [mem_keys_group]
    exact List.mem_map.2 ⟨a, ha, rfl⟩
  have hkeys : ∀ k ∈ (group entries).keys, ∃ a ∈ entries, a.1 = k := by
    intro k hk
    rw [mem_keys_group] at hk
    exact List.mem_map.1 hk
  have hnodup := (group entries).keys_nodup
  rw [← length_keys]
  generalize (group entries).keys = keys at hmem hkeys hnodup
  match keys with
  | [] =>
    refine iff_of_false (by simp) ?_
    rintro ⟨a, ha, -⟩
    exact List.not_mem_nil (hmem a ha)
  | [k] =>
    refine iff_of_false (by simp) ?_
    rintro ⟨a, ha, b, hb, hne⟩
    have hak := List.mem_singleton.1 (hmem a ha)
    have hbk := List.mem_singleton.1 (hmem b hb)
    exact hne (hak.trans hbk.symm)
  | k :: k' :: keys =>
    refine iff_of_true (by simp) ?_
    obtain ⟨a, ha, hak⟩ := hkeys k (by simp)
    obtain ⟨b, hb, hbk⟩ := hkeys k' (by simp)
    refine ⟨a, ha, b, hb, ?_⟩
    rw [hak, hbk]
    intro heq
    exact (List.nodup_cons.1 hnodup).1 (by simp [heq])

theorem isGrouping_group (entries : List (α × β)) : IsGrouping entries (group entries) where
  mem_keys := mem_keys_group entries
  pairwise_keys := pairwise_keys_group entries
  group k vs hvs := by
    rw [mem_toList_iff] at hvs
    rw [← get?_group_getD, hvs]
    rfl
  perm := perm_entries_group entries
  two_le_size_iff := two_le_size_group_iff entries

theorem toList_group_map {γ δ : Type} [DecidableEq γ] {f : α → γ} (hf : f.Injective) (g : β → δ)
    (entries : List (α × β))
    : (group (entries.map (Prod.map f g))).toList
        =
      (group entries).toList.map (Prod.map f (List.map g)) := by
  have hupsert : ∀ (k : α) (v : β) (groups : List (α × List β)),
      upsert.go (f k) (fun vs => vs.getD [] ++ [g v]) (groups.map (Prod.map f (List.map g)))
        = (upsert.go k (fun vs => vs.getD [] ++ [v]) groups).map (Prod.map f (List.map g)) := by
    intro k v groups
    induction groups with
    | nil => simp [upsert.go]
    | cons group groups ih =>
      obtain ⟨a, vs⟩ := group
      by_cases ha : a = k
      . simp [upsert.go, ha]
      . simp [upsert.go, ha, hf.ne ha, ih]
  induction entries using List.reverseRecOn with
  | nil => rfl
  | append_singleton entries e ih =>
    rw [List.map_append, List.map_singleton, group_append_singleton, group_append_singleton]
    change upsert.go (f e.1) _ (group (entries.map (Prod.map f g))).toList = _
    rw [ih]
    exact hupsert e.1 e.2 _

end Supergraph.OrderedMap
