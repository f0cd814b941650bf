import Mathlib.Data.List.Induction
import Mathlib.Data.List.Perm.Subperm
import Supergraph.OrderedMap

namespace Supergraph.OrderedMap

variable {α β γ : Type}

theorem ext {m m' : OrderedMap α β} (h : m.toList = m'.toList) : m = m' := by
  cases m
  cases m'
  cases h
  rfl

@[simp]
theorem length_values (m : OrderedMap α β) : m.values.length = m.size := by
  simp [values, size]

theorem map_map {δ : Type} (f : α → β → γ) (f' : α → γ → δ) (m : OrderedMap α β) :
    (m.map f).map f' = m.map fun k v => f' k (f k v) := by
  apply ext
  rw [toList_map, toList_map, toList_map, List.map_map]
  rfl

theorem keys_perm {m : OrderedMap α β} {m' : OrderedMap α γ}
    (h : ∀ k, k ∈ m.keys ↔ k ∈ m'.keys) : m.keys.Perm m'.keys :=
  (List.perm_ext_iff_of_nodup m.keys_nodup m'.keys_nodup).2 h

theorem isEmpty_iff (m : OrderedMap α β) : m.isEmpty ↔ ∀ k, k ∉ m.keys := by
  unfold isEmpty keys
  cases m.toList with
  | nil => simp
  | cons e rest =>
    refine iff_of_false (by simp) ?_
    intro h
    exact h e.1 (by simp)

variable [DecidableEq α]

theorem mem_keys_of_get? {m : OrderedMap α β} {k : α} {v : β} (h : m.get? k = some v) :
    k ∈ m.keys := by
  rw [mem_keys_iff, h]
  rfl

theorem exists_get?_of_mem_keys {m : OrderedMap α β} {k : α} (h : k ∈ m.keys) :
    ∃ v, m.get? k = some v := by
  rw [mem_keys_iff] at h
  exact Option.isSome_iff_exists.1 h

theorem mem_values_iff (m : OrderedMap α β) (v : β) : v ∈ m.values ↔ ∃ k, m.get? k = some v := by
  simp [values, ← mem_toList_iff]

theorem get?_eq_of_mem_toList_iff {m : OrderedMap α β} {k : α} {o : Option β}
    (h : ∀ v, (k, v) ∈ m.toList ↔ o = some v) : m.get? k = o := by
  apply Option.ext
  intro v
  rw [← mem_toList_iff]
  exact h v

@[simp]
theorem get?_map (f : α → β → γ) (m : OrderedMap α β) (k : α) :
    (m.map f).get? k = (m.get? k).map (f k) := by
  apply get?_eq_of_mem_toList_iff
  intro v
  simp only [toList_map, List.mem_map, Prod.mk.injEq, Prod.exists, Option.map_eq_some_iff]
  constructor
  . rintro ⟨k', u, hmem, rfl, rfl⟩
    exact ⟨u, (mem_toList_iff m k' u).1 hmem, rfl⟩
  . rintro ⟨u, hget, rfl⟩
    exact ⟨k, u, (mem_toList_iff m k u).2 hget, rfl, rfl⟩

@[simp]
theorem get?_filter (p : α → β → Bool) (m : OrderedMap α β) (k : α) :
    (m.filter p).get? k = (m.get? k).filter (p k) := by
  apply get?_eq_of_mem_toList_iff
  intro v
  simp [mem_toList_iff, Option.filter_eq_some_iff]

@[simp]
theorem get?_filterMap (f : α → β → Option γ) (m : OrderedMap α β) (k : α) :
    (m.filterMap f).get? k = (m.get? k).bind (f k) := by
  apply get?_eq_of_mem_toList_iff
  intro v
  simp only [toList_filterMap, List.mem_filterMap, Option.map_eq_some_iff, Prod.mk.injEq,
    Prod.exists, Option.bind_eq_some_iff]
  constructor
  . rintro ⟨k', u, hmem, w, hw, rfl, rfl⟩
    exact ⟨u, (mem_toList_iff m k' u).1 hmem, hw⟩
  . rintro ⟨u, hget, hw⟩
    exact ⟨k, u, (mem_toList_iff m k u).2 hget, v, hw, rfl, rfl⟩

theorem keys_filterMap {f : α → β → Option γ}
    {m : OrderedMap α β} (h : ∀ k v, m.get? k = some v → (f k v).isSome)
    : (m.filterMap f).keys = m.keys := by
  unfold keys
  rw [toList_filterMap, List.map_filterMap, ← List.filterMap_eq_map]
  apply List.filterMap_congr
  rintro ⟨k, v⟩ hmem
  obtain ⟨w, hw⟩ := Option.isSome_iff_exists.1 (h k v ((mem_toList_iff m k v).1 hmem))
  simp [hw]

theorem insertMany_append (m : OrderedMap α β) (xs ys : List (α × β)) :
    m.insertMany (xs ++ ys) = (m.insertMany xs).insertMany ys :=
  List.foldl_append

theorem ofList_append_singleton (xs : List (α × β)) (k : α) (v : β) :
    ofList (xs ++ [(k, v)]) = (ofList xs).insert k v :=
  insertMany_append empty xs [(k, v)]

@[simp]
theorem mem_keys_insertMany (m : OrderedMap α β) (entries : List (α × β)) (k : α) :
    k ∈ (m.insertMany entries).keys ↔ k ∈ m.keys ∨ k ∈ entries.map Prod.fst := by
  unfold insertMany
  induction entries generalizing m with
  | nil => simp
  | cons e rest ih => grind [keys_insert]

@[simp]
theorem mem_keys_ofList (entries : List (α × β)) (k : α) :
    k ∈ (ofList entries).keys ↔ k ∈ entries.map Prod.fst := by
  unfold ofList
  rw [mem_keys_insertMany]
  simp [empty, keys]

theorem map_filter_toList (m : OrderedMap α β) (k : α) :
    (m.toList.filter (·.1 = k)).map (·.2) = (m.get? k).toList := by
  have hnodup := m.nodup_keys
  unfold get?
  generalize m.toList = entries at hnodup
  induction entries with
  | nil => rfl
  | cons e rest ih =>
    obtain ⟨a, b⟩ := e
    by_cases h : a = k
    . have hnil : rest.filter (·.1 = k) = [] := by
        rw [List.filter_eq_nil_iff]
        intro e he hk
        exact (List.nodup_cons.1 hnodup).1 (List.mem_map.2 ⟨e, he, by simp_all⟩)
      simp [get?.go, h, hnil]
    . simp [get?.go, h, ih (List.nodup_cons.1 hnodup).2]

theorem get?_insertMany (m : OrderedMap α β) (entries : List (α × β)) (k : α) :
    (m.insertMany entries).get? k
      =
    ((entries.filter (·.1 = k)).map (·.2)).getLast?.or (m.get? k) := by
  unfold insertMany
  induction entries generalizing m with
  | nil => simp
  | cons e rest ih =>
    rw [List.foldl_cons, ih, get?_insert]
    by_cases h : e.1 = k
    . simp only [h, List.filter_cons, decide_true, if_true, List.map_cons, List.getLast?_cons]
      cases ((rest.filter (·.1 = k)).map (·.2)).getLast? <;> simp
    . simp [h, Ne.symm h]

theorem get?_ofList (entries : List (α × β)) (k : α) :
    (ofList entries).get? k = ((entries.filter (·.1 = k)).map (·.2)).getLast? := by
  unfold ofList
  rw [get?_insertMany]
  have : (empty : OrderedMap α β).get? k = none := rfl
  simp [this]

theorem get?_insertMany_toList (m m' : OrderedMap α β) (k : α) :
    (m.insertMany m'.toList).get? k = (m'.get? k).or (m.get? k) := by
  rw [get?_insertMany, map_filter_toList]
  cases m'.get? k <;> rfl

theorem insert_insert (m : OrderedMap α β) (k : α) (v w : β) :
    (m.insert k v).insert k w = m.insert k w := by
  apply ext
  change upsert.go k (fun _ => w) (upsert.go k (fun _ => v) m.toList)
    = upsert.go k (fun _ => w) m.toList
  induction m.toList with
  | nil => simp [upsert.go]
  | cons e rest ih =>
    obtain ⟨a, b⟩ := e
    by_cases h : a = k
    . simp [upsert.go, h]
    . simp [upsert.go, h, ih]

theorem insertMany_map_key (m : OrderedMap α β) (k : α) (values : List β) :
    m.insertMany (values.map (k, ·)) = values.getLast?.elim m (m.insert k) := by
  induction values generalizing m with
  | nil => rfl
  | cons v rest ih =>
    change (m.insert k v).insertMany (rest.map (k, ·)) = _
    rw [ih, List.getLast?_cons]
    cases rest.getLast? with
    | none => rfl
    | some w => exact m.insert_insert k v w

theorem toList_insert_of_not_mem {m : OrderedMap α β} {k : α} (v : β) (h : k ∉ m.keys) :
    (m.insert k v).toList = m.toList ++ [(k, v)] := by
  change upsert.go k (fun _ => v) m.toList = _
  unfold keys at h
  generalize m.toList = entries at h
  induction entries with
  | nil => rfl
  | cons e rest ih =>
    simp only [List.map_cons, List.mem_cons, not_or] at h
    simp only [upsert.go, Ne.symm h.1, if_false, ih h.2, List.cons_append]

theorem filter_toList_insert {m : OrderedMap α β} {k : α} {p : α → Bool} (h : p k = false) (v : β) :
    (m.insert k v).toList.filter (p ·.1) = m.toList.filter (p ·.1) := by
  change (upsert.go k (fun _ => v) m.toList).filter (p ·.1) = _
  induction m.toList with
  | nil => simp [upsert.go, h]
  | cons e rest ih =>
    obtain ⟨a, b⟩ := e
    by_cases hk : a = k
    . simp [upsert.go, hk, h]
    . simp only [upsert.go, if_neg hk, List.filter_cons, ih]

theorem filter_toList_insertMany {m : OrderedMap α β} {entries : List (α × β)} {p : α → Bool}
    (h : ∀ e ∈ entries, p e.1 = false)
    : (m.insertMany entries).toList.filter (p ·.1) = m.toList.filter (p ·.1) := by
  induction entries generalizing m with
  | nil => rfl
  | cons e rest ih =>
    change ((m.insert e.1 e.2).insertMany rest).toList.filter (p ·.1) = _
    rw [ih fun e' he' => h e' (List.mem_cons_of_mem e he'),
      filter_toList_insert (h e List.mem_cons_self)]

theorem toList_insertMany_of_nodup {m : OrderedMap α β} {entries : List (α × β)}
    (h : (m.keys ++ entries.map Prod.fst).Nodup) :
    (m.insertMany entries).toList = m.toList ++ entries := by
  induction entries generalizing m with
  | nil => simp [insertMany]
  | cons e rest ih =>
    obtain ⟨k, v⟩ := e
    have hk : k ∉ m.keys := by
      intro hmem
      exact (List.nodup_append.1 h).2.2 k hmem k (by simp) rfl
    change ((m.insert k v).insertMany rest).toList = _
    rw [ih]
    . rw [toList_insert_of_not_mem v hk]
      simp
    . rw [keys_insert, if_neg hk]
      simpa using h

theorem toList_ofList_of_nodup {entries : List (α × β)} (h : (entries.map Prod.fst).Nodup) :
    (ofList entries).toList = entries :=
  toList_insertMany_of_nodup (m := empty) (by simpa [empty, keys] using h)

theorem keys_ofList (entries : List (α × β)) :
    (ofList entries).keys = (entries.map Prod.fst).eraseDups := by
  induction entries using List.reverseRecOn with
  | nil => rfl
  | append_singleton entries e ih =>
    obtain ⟨k, v⟩ := e
    rw [ofList_append_singleton, keys_insert, List.map_append, List.eraseDups_append, ih]
    split
    . next h =>
      rw [List.mem_eraseDups] at h
      simp [List.removeAll, h]
    . next h =>
      rw [List.mem_eraseDups] at h
      simp [List.removeAll, h, List.eraseDups_cons]

theorem size_ofList_lt {entries : List (α × β)} (h : ¬ (entries.map Prod.fst).Nodup) :
    (ofList entries).size < entries.length := by
  have hsubperm : (ofList entries).keys.Subperm (entries.map Prod.fst) := by
    apply (ofList entries).keys_nodup.subperm
    intro k hk
    rwa [mem_keys_ofList] at hk
  have hlt : (ofList entries).keys.length < (entries.map Prod.fst).length := by
    apply Nat.lt_of_not_le
    intro hle
    exact h ((hsubperm.perm_of_length_le hle).nodup_iff.1 (ofList entries).keys_nodup)
  rwa [length_keys, List.length_map] at hlt

theorem get?_foldl_upsert {δ : Type} (f : δ → Option β → β) (entries : List (α × δ))
    (m : OrderedMap α β) (k : α) :
    (entries.foldl (fun m (k, d) => m.upsert k (f d)) m).get? k
      =
    ((entries.filter (·.1 = k)).map (·.2)).foldl (fun v d => some (f d v)) (m.get? k) := by
  induction entries generalizing m with
  | nil => simp
  | cons e rest ih =>
    rw [List.foldl_cons, ih, get?_upsert]
    by_cases h : e.1 = k
    . simp [h]
    . simp [h, Ne.symm h]

theorem flatMap_toList_eq (m : OrderedMap α β) (f : α × β → List γ) :
    m.toList.flatMap f = m.keys.flatMap fun k => (m.get? k).elim [] fun v => f (k, v) := by
  unfold keys
  rw [List.flatMap_map]
  apply List.flatMap_congr
  intro e he
  obtain ⟨k, v⟩ := e
  rw [(mem_toList_iff m k v).1 he]
  rfl

theorem perm_flatMap_toList {m m' : OrderedMap α β} {f f' : α × β → List γ}
    (hkeys : ∀ k, k ∈ m.keys ↔ k ∈ m'.keys)
    (h : ∀ k v v', m.get? k = some v → m'.get? k = some v' → (f (k, v)).Perm (f' (k, v'))) :
    (m.toList.flatMap f).Perm (m'.toList.flatMap f') := by
  rw [flatMap_toList_eq, flatMap_toList_eq]
  apply List.Perm.trans ((keys_perm hkeys).flatMap_right _)
  apply List.Perm.flatMap_left
  intro k hk
  obtain ⟨v', hv'⟩ := exists_get?_of_mem_keys hk
  obtain ⟨v, hv⟩ := exists_get?_of_mem_keys ((hkeys k).2 hk)
  rw [hv, hv']
  exact h k v v' hv hv'

theorem ext_of_get? {m m' : OrderedMap α β} (hkeys : m.keys = m'.keys)
    (h : ∀ k, m.get? k = m'.get? k) : m = m' := by
  have htoList : ∀ m : OrderedMap α β,
      m.toList = m.keys.flatMap fun k => (m.get? k).elim [] fun v => [(k, v)] := by
    intro m
    rw [← flatMap_toList_eq m fun e => [e], List.flatMap_singleton']
  apply ext
  rw [htoList m, htoList m', hkeys]
  simp only [h]

theorem map_eq_map {δ : Type} {m : OrderedMap α β} {m' : OrderedMap α γ} {f : α → β → δ}
    {f' : α → γ → δ} (hkeys : m.keys = m'.keys)
    (h : ∀ k v v', m.get? k = some v → m'.get? k = some v' → f k v = f' k v')
    : m.map f = m'.map f' := by
  apply ext_of_get?
  . rw [keys_map, keys_map, hkeys]
  . intro k
    rw [get?_map, get?_map]
    have hsome : (m.get? k).isSome ↔ (m'.get? k).isSome := by
      rw [← mem_keys_iff, ← mem_keys_iff, hkeys]
    cases hv : m.get? k with
    | none =>
      rw [hv, Option.isSome_none] at hsome
      rw [Option.not_isSome_iff_eq_none.1 (mt hsome.2 Bool.false_ne_true)]
      rfl
    | some v =>
      rw [hv] at hsome
      obtain ⟨v', hv'⟩ := Option.isSome_iff_exists.1 (hsome.1 rfl)
      rw [hv']
      exact congrArg some (h k v v' hv hv')

theorem map_insert (f : β → γ) (m : OrderedMap α β) (k : α) (v : β) :
    (m.insert k v).map (fun _ => f) = (m.map fun _ => f).insert k (f v) := by
  apply ext_of_get?
  . simp
  . intro k'
    rw [get?_map, get?_insert, get?_insert, get?_map]
    split <;> rfl

end Supergraph.OrderedMap
