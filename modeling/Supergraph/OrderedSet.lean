namespace Supergraph

structure OrderedSet (α : Type) where
  toList : List α
  nodup : toList.Nodup

namespace OrderedSet

variable {α : Type}

def empty : OrderedSet α := ⟨[], List.nodup_nil⟩

instance : EmptyCollection (OrderedSet α) := ⟨empty⟩

instance : Inhabited (OrderedSet α) := ⟨empty⟩

instance : Membership α (OrderedSet α) := ⟨fun s a => a ∈ s.toList⟩

def size (s : OrderedSet α) : Nat := s.toList.length

def isEmpty (s : OrderedSet α) : Bool := s.toList.isEmpty

@[simp]
theorem toList_empty : (∅ : OrderedSet α).toList = [] := rfl

@[simp]
theorem mem_toList (s : OrderedSet α) (a : α) : a ∈ s.toList ↔ a ∈ s := Iff.rfl

@[simp]
theorem not_mem_empty (a : α) : ¬ a ∈ (∅ : OrderedSet α) := List.not_mem_nil

def filter (p : α → Bool) (s : OrderedSet α) : OrderedSet α where
  toList := s.toList.filter p
  nodup := s.nodup.sublist List.filter_sublist

@[simp]
theorem mem_filter (p : α → Bool) (s : OrderedSet α) (a : α) : a ∈ s.filter p ↔ a ∈ s ∧ p a :=
  List.mem_filter

variable [DecidableEq α]

instance (s : OrderedSet α) (a : α) : Decidable (a ∈ s) :=
  inferInstanceAs (Decidable (a ∈ s.toList))

def ofDistinct? (members : List α) : Option (OrderedSet α) :=
  if h : members.Nodup then some ⟨members, h⟩ else none

theorem ofDistinct?_eq_some_iff {members : List α} {s : OrderedSet α} :
    ofDistinct? members = some s ↔ s.toList = members := by
  unfold ofDistinct?
  constructor
  . intro h
    split at h
    . cases h; rfl
    . cases h
  . intro h
    subst h
    rw [dif_pos s.nodup]

def insert (s : OrderedSet α) (a : α) : OrderedSet α :=
  if h : a ∈ s then s
  else ⟨s.toList ++ [a], List.nodup_append.2 ⟨s.nodup, by simp, by
    intro x hx y hy hxy
    simp only [List.mem_singleton] at hy
    subst hy hxy
    exact h hx⟩⟩

theorem toList_insert (s : OrderedSet α) (a : α) :
    (s.insert a).toList = if a ∈ s then s.toList else s.toList ++ [a] := by
  unfold insert
  split <;> rfl

@[simp]
theorem mem_insert (s : OrderedSet α) (a b : α) : b ∈ s.insert a ↔ b ∈ s ∨ b = a := by
  rw [← mem_toList, toList_insert]
  split
  . rename_i h
    simp only [mem_toList, iff_self_or]
    intro hb
    exact hb ▸ h
  . simp

def insertMany (s : OrderedSet α) (members : List α) : OrderedSet α := members.foldl insert s

@[simp]
theorem mem_insertMany (s : OrderedSet α) (members : List α) (b : α) :
    b ∈ s.insertMany members ↔ b ∈ s ∨ b ∈ members := by
  unfold insertMany
  induction members generalizing s with
  | nil => simp
  | cons a rest ih => simp [ih, or_assoc]

def ofList (members : List α) : OrderedSet α := empty.insertMany members

@[simp]
theorem mem_ofList (members : List α) (b : α) : b ∈ ofList members ↔ b ∈ members := by
  have h : ¬ b ∈ (empty : OrderedSet α) := List.not_mem_nil
  simp [ofList, h]

end OrderedSet

end Supergraph
