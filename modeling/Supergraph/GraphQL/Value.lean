import Supergraph.GraphQL.Number

namespace Supergraph.GraphQL

def reservedWords : List String := ["true", "false", "null"]

structure EnumName where
  name : Name
  not_reserved : name.text ∉ reservedWords
deriving DecidableEq

inductive Value
  | null
  | boolean (value : Bool)
  | enum (name : EnumName)
  | number (value : Number)
  | string (value : String)
  | list (items : List Value)
  | object (entries : List (Name × Value))
deriving Inhabited

namespace Value

mutual

def beq : Value → Value → Bool
  | .null, .null => true
  | .boolean a, .boolean b => a = b
  | .enum a, .enum b => a = b
  | .number a, .number b => a = b
  | .string a, .string b => a = b
  | .list as, .list bs => beqItems as bs
  | .object as, .object bs => beqEntries as bs
  | _, _ => false

def beqItems : List Value → List Value → Bool
  | [], [] => true
  | a :: as, b :: bs => beq a b && beqItems as bs
  | _, _ => false

def beqEntries : List (Name × Value) → List (Name × Value) → Bool
  | [], [] => true
  | (n, a) :: as, (m, b) :: bs => n = m && beq a b && beqEntries as bs
  | _, _ => false

end

mutual

theorem beq_iff_eq : (a b : Value) → (beq a b ↔ a = b)
  | .null, b => by cases b <;> simp [beq]
  | .boolean _, b => by cases b <;> simp [beq]
  | .enum _, b => by cases b <;> simp [beq]
  | .number _, b => by cases b <;> simp [beq]
  | .string _, b => by cases b <;> simp [beq]
  | .list as, b => by cases b <;> simp [beq, beqItems_iff_eq as]
  | .object as, b => by cases b <;> simp [beq, beqEntries_iff_eq as]

theorem beqItems_iff_eq : (as bs : List Value) → (beqItems as bs ↔ as = bs)
  | [], bs => by cases bs <;> simp [beqItems]
  | a :: as, bs => by cases bs <;> simp [beqItems, beq_iff_eq a, beqItems_iff_eq as]

theorem beqEntries_iff_eq : (as bs : List (Name × Value)) → (beqEntries as bs ↔ as = bs)
  | [], bs => by cases bs <;> simp [beqEntries]
  | (n, a) :: as, bs => by
    cases bs <;> simp [beqEntries, beq_iff_eq a, beqEntries_iff_eq as, Prod.ext_iff, and_assoc]

end

instance : DecidableEq Value := fun a b => decidable_of_iff _ (beq_iff_eq a b)

mutual

def depth : Value → Nat
  | .list items => depthOfItems items
  | .object entries => depthOfEntries entries
  | _ => 0

def depthOfItems : List Value → Nat
  | [] => 0
  | v :: vs => max (depth v + 1) (depthOfItems vs)

def depthOfEntries : List (Name × Value) → Nat
  | [] => 0
  | (_, v) :: vs => max (depth v + 1) (depthOfEntries vs)

end

def ofName (n : Name) : Value :=
  if n.text = "true" then .boolean true
  else if n.text = "false" then .boolean false
  else if n.text = "null" then .null
  else if h : n.text ∈ reservedWords then .null
  else .enum ⟨n, h⟩

end Value

end Supergraph.GraphQL
