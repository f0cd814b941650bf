import Supergraph.GraphQL.Name

/-!
This module contains references to types, such as `[Int!]`. In output position the nullable form is
the weaker promise, in input position the non-null form is the stronger demand; electing and
normalizing follow that order.
-/

namespace Supergraph.GraphQL

inductive TypeRef
  | named (name : Name) (nonNull : Bool)
  | list (item : TypeRef) (nonNull : Bool)
deriving DecidableEq, Inhabited

namespace TypeRef

def isNonNull : TypeRef → Bool
  | .named _ nonNull => nonNull
  | .list _ nonNull => nonNull

def withNonNull (nonNull : Bool) : TypeRef → TypeRef
  | .named name _ => .named name nonNull
  | .list item _ => .list item nonNull

def toNullable (t : TypeRef) : TypeRef := t.withNonNull false

def toNonNull (t : TypeRef) : TypeRef := t.withNonNull true

def baseName : TypeRef → Name
  | .named name _ => name
  | .list item _ => item.baseName

def depth : TypeRef → Nat
  | .named _ _ => 0
  | .list item _ => item.depth + 1

@[simp]
theorem isNonNull_withNonNull (b : Bool) (t : TypeRef) : (t.withNonNull b).isNonNull = b := by
  cases t <;> rfl

@[simp]
theorem withNonNull_withNonNull (b c : Bool) (t : TypeRef) :
    (t.withNonNull b).withNonNull c = t.withNonNull c := by
  cases t <;> rfl

@[simp]
theorem withNonNull_isNonNull (t : TypeRef) : t.withNonNull t.isNonNull = t := by
  cases t <;> rfl

def SameNullable (a b : TypeRef) : Prop := a.toNullable = b.toNullable

instance (a b : TypeRef) : Decidable (SameNullable a b) :=
  inferInstanceAs (Decidable (a.toNullable = b.toNullable))

def normalizeInput (merged declared : TypeRef) : TypeRef :=
  -- A nullable declaration accepts every value that the merged type accepts.
  if merged.SameNullable declared ∧ merged.isNonNull then declared.toNonNull else declared

def normalizeOutput (merged declared : TypeRef) : TypeRef :=
  -- A non-null declaration keeps the weaker promise of the merged type.
  if merged.SameNullable declared ∧ ¬ merged.isNonNull then declared.toNullable else declared

def electInput (elected declared : TypeRef) : TypeRef :=
  if elected.SameNullable declared ∧ declared.isNonNull then declared else elected

def electOutput (elected declared : TypeRef) : TypeRef :=
  if elected.SameNullable declared ∧ ¬ declared.isNonNull then declared else elected

def render : TypeRef → String
  | .named name nonNull => name.text ++ bang nonNull
  | .list item nonNull => "[" ++ item.render ++ "]" ++ bang nonNull
where
  bang (nonNull : Bool) : String := if nonNull then "!" else ""

end TypeRef

end Supergraph.GraphQL
