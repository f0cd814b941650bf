import Supergraph.OrderedSet

namespace Supergraph.OrderedSet

variable {α β : Type}

theorem ext {s s' : OrderedSet α} (h : s.toList = s'.toList) : s = s' := by
  cases s
  cases s'
  cases h
  rfl

variable [DecidableEq α]

theorem insertMany_append (s : OrderedSet α) (xs ys : List α) :
    s.insertMany (xs ++ ys) = (s.insertMany xs).insertMany ys :=
  List.foldl_append

theorem insertMany_of_subset {s : OrderedSet α} {members : List α} (h : ∀ a ∈ members, a ∈ s) :
    s.insertMany members = s := by
  unfold insertMany
  induction members with
  | nil => rfl
  | cons a rest ih =>
    have ha : s.insert a = s := by
      unfold insert
      rw [dif_pos (h a List.mem_cons_self)]
    rw [List.foldl_cons, ha]
    exact ih fun b hb => h b (List.mem_cons_of_mem a hb)

theorem toList_insertMany_flatMap {f : β → List α} {member : β → α} {xs : List β}
    (hne : ∀ x ∈ xs, f x ≠ []) (hf : ∀ x ∈ xs, ∀ a ∈ f x, a = member x) {s : OrderedSet α}
    (hnodup : (s.toList ++ xs.map member).Nodup)
    : (s.insertMany (xs.flatMap f)).toList = s.toList ++ xs.map member := by
  induction xs generalizing s with
  | nil => simp [insertMany]
  | cons x rest ih =>
    obtain ⟨a, as, has⟩ := List.exists_cons_of_ne_nil (hne x List.mem_cons_self)
    have hx := hf x List.mem_cons_self
    rw [has] at hx
    have ha : a = member x := hx a List.mem_cons_self
    subst ha
    have hnot : ¬ member x ∈ s := by
      intro hmem
      exact (List.nodup_append.1 hnodup).2.2 _ hmem _ List.mem_cons_self rfl
    have hinsert : (s.insert (member x)).insertMany as = s.insert (member x) := by
      apply insertMany_of_subset
      intro b hb
      rw [hx b (List.mem_cons_of_mem _ hb), mem_insert]
      exact .inr rfl
    have htoList : (s.insert (member x)).toList = s.toList ++ [member x] := by
      rw [toList_insert, if_neg hnot]
    have hsplit : s.insertMany ((x :: rest).flatMap f)
        = (s.insert (member x)).insertMany (rest.flatMap f) := by
      rw [List.flatMap_cons, has]
      unfold insertMany at hinsert ⊢
      rw [List.cons_append, List.foldl_cons, List.foldl_append, hinsert]
    rw [hsplit, ih]
    . rw [htoList, List.append_assoc]
      rfl
    . exact fun y hy => hne y (List.mem_cons_of_mem x hy)
    . exact fun y hy => hf y (List.mem_cons_of_mem x hy)
    . rw [htoList, List.append_assoc]
      exact hnodup

theorem toList_ofList_flatMap {f : β → List α} {member : β → α} {xs : List β}
    (hne : ∀ x ∈ xs, f x ≠ []) (hf : ∀ x ∈ xs, ∀ a ∈ f x, a = member x)
    (hnodup : (xs.map member).Nodup)
    : (ofList (xs.flatMap f)).toList = xs.map member :=
  toList_insertMany_flatMap hne hf hnodup

theorem toList_ofList_of_nodup {members : List α} (h : members.Nodup) :
    (ofList members).toList = members := by
  have hnodup : (members.map id).Nodup := by rwa [List.map_id]
  have htoList := toList_ofList_flatMap (f := fun a => [a]) (by simp) (by simp) hnodup
  rwa [List.flatMap_singleton', List.map_id] at htoList

theorem ofList_toList (s : OrderedSet α) : ofList s.toList = s :=
  ext (toList_ofList_of_nodup s.nodup)

theorem ofList_flatMap_eq {f : β → List α} {s : OrderedSet α} {xs : List β} (hne : xs ≠ [])
    (hf : ∀ x ∈ xs, f x = s.toList) : ofList (xs.flatMap f) = s := by
  obtain ⟨x, rest, rfl⟩ := List.exists_cons_of_ne_nil hne
  have hfirst : empty.insertMany s.toList = s := s.ofList_toList
  unfold ofList
  rw [List.flatMap_cons, hf x List.mem_cons_self, insertMany_append, hfirst]
  apply insertMany_of_subset
  intro a ha
  obtain ⟨y, hy, ha⟩ := List.mem_flatMap.1 ha
  rwa [hf y (List.mem_cons_of_mem x hy)] at ha

end Supergraph.OrderedSet
