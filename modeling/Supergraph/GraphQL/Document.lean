import Supergraph.GraphQL.Definition

/-!
This module contains type-system documents as they are written: a list of definitions and
extensions, in which a name may still occur several times.
-/

namespace Supergraph.GraphQL

inductive BodyPart
  | object (interfaces : List Name) (fields : List (Name × FieldDef))
  | interface (interfaces : List Name) (fields : List (Name × FieldDef))
  | union (members : List Name)
  | enum (values : List (Name × EnumValueDef))
  | inputObject (fields : List (Name × InputValueDef))
  | scalar
deriving Inhabited

namespace BodyPart

def kind : BodyPart → TypeKind
  | .object .. => .object
  | .interface .. => .interface
  | .union _ => .union
  | .enum _ => .enum
  | .inputObject _ => .inputObject
  | .scalar => .scalar

def isEmpty : BodyPart → Bool
  | .object interfaces fields => interfaces.isEmpty && fields.isEmpty
  | .interface interfaces fields => interfaces.isEmpty && fields.isEmpty
  | .union members => members.isEmpty
  | .enum values => values.isEmpty
  | .inputObject fields => fields.isEmpty
  | .scalar => true

def append? : BodyPart → BodyPart → Option BodyPart
  | .object is fs, .object is' fs' => some (.object (is ++ is') (fs ++ fs'))
  | .interface is fs, .interface is' fs' => some (.interface (is ++ is') (fs ++ fs'))
  | .union ms, .union ms' => some (.union (ms ++ ms'))
  | .enum vs, .enum vs' => some (.enum (vs ++ vs'))
  | .inputObject fs, .inputObject fs' => some (.inputObject (fs ++ fs'))
  | .scalar, .scalar => some .scalar
  | _, _ => none

theorem kind_of_append? {a b c : BodyPart} (h : a.append? b = some c) :
    c.kind = a.kind ∧ b.kind = a.kind := by
  cases a <;> cases b <;> simp [append?] at h <;> subst h <;> simp [kind]

def toBody? : BodyPart → Option TypeBody
  | .object is fs => do
    return .object ⟨← OrderedSet.ofDistinct? is, ← OrderedMap.ofDistinct? fs⟩
  | .interface is fs => do
    return .interface ⟨← OrderedSet.ofDistinct? is, ← OrderedMap.ofDistinct? fs⟩
  | .union ms => (OrderedSet.ofDistinct? ms).map .union
  | .enum vs => (OrderedMap.ofDistinct? vs).map .enum
  | .inputObject fs => (OrderedMap.ofDistinct? fs).map .inputObject
  | .scalar => some .scalar

def ofBody : TypeBody → BodyPart
  | .object body => .object body.interfaces.toList body.fields.toList
  | .interface body => .interface body.interfaces.toList body.fields.toList
  | .union members => .union members.toList
  | .enum values => .enum values.toList
  | .inputObject fields => .inputObject fields.toList
  | .scalar => .scalar

end BodyPart

structure TypePart where
  description : Option String := none
  directives : List Directive := []
  body : BodyPart
deriving Inhabited

structure SchemaPart where
  description : Option String := none
  directives : List Directive := []
  roots : List (Operation × Name) := []
deriving Inhabited

inductive Definition
  | schema (part : SchemaPart)
  | extendSchema (part : SchemaPart)
  | type (name : Name) (part : TypePart)
  | extendType (name : Name) (part : TypePart)
  | directive (name : Name) (definition : DirectiveDef)
deriving Inhabited

abbrev Document := List Definition

end Supergraph.GraphQL
