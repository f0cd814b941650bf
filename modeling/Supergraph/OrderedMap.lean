/-!
This module contains `OrderedMap`, a finite map that remembers the order in which its keys were
first inserted. Inserting at a known key replaces the value in place, so a key never moves.
-/

namespace Supergraph

structure OrderedMap (α β : Type) where
  toList : List (α × β)
  nodup_keys : (toList.map Prod.fst).Nodup

namespace OrderedMap

variable {α β γ : Type}

def empty : OrderedMap α β := ⟨[], List.nodup_nil⟩

instance : EmptyCollection (OrderedMap α β) := ⟨empty⟩

instance : Inhabited (OrderedMap α β) := ⟨empty⟩

def keys (m : OrderedMap α β) : List α := m.toList.map Prod.fst

def values (m : OrderedMap α β) : List β := m.toList.map Prod.snd

def size (m : OrderedMap α β) : Nat := m.toList.length

def isEmpty (m : OrderedMap α β) : Bool := m.toList.isEmpty

@[simp]
theorem toList_empty : (∅ : OrderedMap α β).toList = [] := rfl

@[simp]
theorem keys_empty : (∅ : OrderedMap α β).keys = [] := rfl

theorem keys_nodup (m : OrderedMap α β) : m.keys.Nodup := m.nodup_keys

@[simp]
theorem length_keys (m : OrderedMap α β) : m.keys.length = m.size := by
  simp [keys, size]

def map (f : α → β → γ) (m : OrderedMap α β) : OrderedMap α γ where
  toList := m.toList.map fun (k, v) => (k, f k v)
  nodup_keys := by simpa [Function.comp_def] using m.nodup_keys

@[simp]
theorem toList_map (f : α → β → γ) (m : OrderedMap α β) :
    (m.map f).toList = m.toList.map fun (k, v) => (k, f k v) := rfl

@[simp]
theorem keys_map (f : α → β → γ) (m : OrderedMap α β) : (m.map f).keys = m.keys := by
  simp [keys, Function.comp_def]

def filter (p : α → β → Bool) (m : OrderedMap α β) : OrderedMap α β where
  toList := m.toList.filter fun (k, v) => p k v
  nodup_keys := m.nodup_keys.sublist (List.filter_sublist.map _)

@[simp]
theorem toList_filter (p : α → β → Bool) (m : OrderedMap α β) :
    (m.filter p).toList = m.toList.filter fun (k, v) => p k v := rfl

theorem map_fst_filterMap_sublist (f : α → β → Option γ) (entries : List (α × β)) :
    ((entries.filterMap fun (k, v) => (f k v).map (k, ·)).map Prod.fst).Sublist
      (entries.map Prod.fst) := by
  induction entries with
  | nil => simp
  | cons e rest ih =>
    obtain ⟨k, v⟩ := e
    cases h : f k v with
    | none => simpa [h] using ih.cons k
    | some w => simpa [h] using ih

def filterMap (f : α → β → Option γ) (m : OrderedMap α β) : OrderedMap α γ where
  toList := m.toList.filterMap fun (k, v) => (f k v).map (k, ·)
  nodup_keys := m.nodup_keys.sublist (map_fst_filterMap_sublist f m.toList)

@[simp]
theorem toList_filterMap (f : α → β → Option γ) (m : OrderedMap α β) :
    (m.filterMap f).toList = m.toList.filterMap fun (k, v) => (f k v).map (k, ·) := rfl

variable [DecidableEq α]

def get?.go (k : α) : List (α × β) → Option β
  | [] => none
  | (a, b) :: rest => if a = k then some b else go k rest

def get? (m : OrderedMap α β) (k : α) : Option β := get?.go k m.toList

def contains (m : OrderedMap α β) (k : α) : Bool := (m.get? k).isSome

@[simp]
theorem get?_empty (k : α) : (∅ : OrderedMap α β).get? k = none := rfl

def ofDistinct? (entries : List (α × β)) : Option (OrderedMap α β) :=
  if h : (entries.map Prod.fst).Nodup then some ⟨entries, h⟩ else none

theorem ofDistinct?_eq_some_iff {entries : List (α × β)} {m : OrderedMap α β} :
    ofDistinct? entries = some m ↔ m.toList = entries := by
  unfold ofDistinct?
  constructor
  . intro h
    split at h
    . cases h; rfl
    . cases h
  . intro h
    subst h
    rw [dif_pos m.nodup_keys]

def upsert.go (k : α) (f : Option β → β) : List (α × β) → List (α × β)
  | [] => [(k, f none)]
  | (a, b) :: rest => if a = k then (a, f (some b)) :: rest else (a, b) :: go k f rest

theorem upsert.map_fst_go (k : α) (f : Option β → β) (entries : List (α × β)) :
    (go k f entries).map Prod.fst
      =
    if k ∈ entries.map Prod.fst then entries.map Prod.fst else entries.map Prod.fst ++ [k] := by
  induction entries with
  | nil => simp [go]
  | cons e rest ih =>
    obtain ⟨a, b⟩ := e
    by_cases h : a = k
    . simp [go, h]
    . have hne : ¬ k = a := fun e => h e.symm
      simp only [go, h, if_false, List.map_cons, ih, List.mem_cons, hne, false_or]
      split <;> simp

theorem upsert.get?_go (k : α) (f : Option β → β) (entries : List (α × β)) (k' : α) :
    get?.go k' (go k f entries)
      =
    if k' = k then some (f (get?.go k entries)) else get?.go k' entries := by
  induction entries with
  | nil => grind [go, get?.go]
  | cons e rest ih => grind [go, get?.go]

def upsert (m : OrderedMap α β) (k : α) (f : Option β → β) : OrderedMap α β where
  toList := upsert.go k f m.toList
  nodup_keys := by
    rw [upsert.map_fst_go]
    split
    . exact m.nodup_keys
    . rename_i h
      exact List.nodup_append.2 ⟨m.nodup_keys, by simp, by
        intro a ha b hb hab
        simp only [List.mem_singleton] at hb
        subst hb hab
        exact h ha⟩

@[simp]
theorem keys_upsert (m : OrderedMap α β) (k : α) (f : Option β → β) :
    (m.upsert k f).keys = if k ∈ m.keys then m.keys else m.keys ++ [k] :=
  upsert.map_fst_go k f m.toList

@[simp]
theorem get?_upsert (m : OrderedMap α β) (k : α) (f : Option β → β) (k' : α) :
    (m.upsert k f).get? k' = if k' = k then some (f (m.get? k)) else m.get? k' :=
  upsert.get?_go k f m.toList k'

def insert (m : OrderedMap α β) (k : α) (v : β) : OrderedMap α β := m.upsert k fun _ => v

@[simp]
theorem keys_insert (m : OrderedMap α β) (k : α) (v : β) :
    (m.insert k v).keys = if k ∈ m.keys then m.keys else m.keys ++ [k] :=
  keys_upsert m k _

@[simp]
theorem get?_insert (m : OrderedMap α β) (k : α) (v : β) (k' : α) :
    (m.insert k v).get? k' = if k' = k then some v else m.get? k' :=
  get?_upsert m k _ k'

def insertMany (m : OrderedMap α β) (entries : List (α × β)) : OrderedMap α β :=
  entries.foldl (fun m (k, v) => m.insert k v) m

def ofList (entries : List (α × β)) : OrderedMap α β := empty.insertMany entries

theorem mem_keys_iff (m : OrderedMap α β) (k : α) : k ∈ m.keys ↔ (m.get? k).isSome := by
  unfold keys get?
  induction m.toList with
  | nil => simp [get?.go]
  | cons e rest ih => grind [get?.go]

theorem mem_toList_iff (m : OrderedMap α β) (k : α) (v : β) :
    (k, v) ∈ m.toList ↔ m.get? k = some v := by
  have hnodup := m.nodup_keys
  unfold get?
  induction h : m.toList generalizing m with
  | nil => simp [get?.go]
  | cons e rest ih =>
    rw [h] at hnodup
    have := ih ⟨rest, (List.nodup_cons.1 hnodup).2⟩ (List.nodup_cons.1 hnodup).2 rfl
    have hmem : ∀ b, (e.1, b) ∉ rest := fun b hb =>
      (List.nodup_cons.1 hnodup).1 (List.mem_map.2 ⟨_, hb, rfl⟩)
    grind [get?.go]

theorem contains_iff (m : OrderedMap α β) (k : α) : m.contains k ↔ k ∈ m.keys := by
  simp [contains, mem_keys_iff]

def group (entries : List (α × β)) : OrderedMap α (List β) :=
  entries.foldl (fun m (k, v) => m.upsert k fun vs => vs.getD [] ++ [v]) empty

theorem group.get?_foldl (entries : List (α × β)) (m : OrderedMap α (List β)) (k : α) :
    ((entries.foldl (fun m (k, v) => m.upsert k fun vs => vs.getD [] ++ [v]) m).get? k).getD []
      =
    (m.get? k).getD [] ++ (entries.filter (·.1 = k)).map (·.2) := by
  induction entries generalizing m with
  | nil => simp
  | cons e rest ih =>
    obtain ⟨a, b⟩ := e
    rw [List.foldl_cons, ih, get?_upsert]
    by_cases h : a = k
    . simp [h]
    . simp [h, Ne.symm h]

theorem get?_group_getD (entries : List (α × β)) (k : α) :
    ((group entries).get? k).getD [] = (entries.filter (·.1 = k)).map (·.2) :=
  group.get?_foldl entries empty k

theorem group.mem_keys_foldl (entries : List (α × β)) (m : OrderedMap α (List β)) (k : α) :
    k ∈ (entries.foldl (fun m (k, v) => m.upsert k fun vs => vs.getD [] ++ [v]) m).keys
      ↔
    k ∈ m.keys ∨ k ∈ entries.map Prod.fst := by
  induction entries generalizing m with
  | nil => simp
  | cons e rest ih => grind [keys_upsert]

theorem mem_keys_group (entries : List (α × β)) (k : α) :
    k ∈ (group entries).keys ↔ k ∈ entries.map Prod.fst :=
  (group.mem_keys_foldl entries empty k).trans (by simp [empty, keys])

end OrderedMap

end Supergraph
