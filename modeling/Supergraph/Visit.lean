import Supergraph.Model
import Supergraph.Conflict

/-!
This module contains the walk over a model, in which visitors see every element once, together with
the elements that it is part of.
-/

namespace Supergraph

open GraphQL

inductive Slot
  | namedType
  | objectType
  | objectField
  | objectFieldArgument
  | interfaceType
  | interfaceField
  | interfaceFieldArgument
  | inputObjectType
  | inputObjectField
  | enumType
  | enumValue
  | unionType
  | scalarType
  | directive
  | directiveArgument
deriving DecidableEq, Inhabited

def Slot.all : List Slot := [
  .namedType, .objectType, .objectField, .objectFieldArgument, .interfaceType, .interfaceField,
  .interfaceFieldArgument, .inputObjectType, .inputObjectField, .enumType, .enumValue, .unionType,
  .scalarType, .directive, .directiveArgument]

theorem Slot.mem_all (slot : Slot) : slot ∈ Slot.all := by
  cases slot <;> decide

inductive Visit
  | namedType (name : Name) (kinds : ByGraph TypeKind)
  | objectType (name : Name) (type : CompositeEntry)
  | objectField (typeName : Name) (type : CompositeEntry) (name : Name) (field : FieldEntry)
  | objectFieldArgument (typeName : Name) (type : CompositeEntry) (fieldName : Name)
    (field : FieldEntry) (name : Name) (argument : InputEntry)
  | interfaceType (name : Name) (type : CompositeEntry)
  | interfaceField (typeName : Name) (type : CompositeEntry) (name : Name) (field : FieldEntry)
  | interfaceFieldArgument (typeName : Name) (type : CompositeEntry) (fieldName : Name)
    (field : FieldEntry) (name : Name) (argument : InputEntry)
  | inputObjectType (name : Name) (type : InputObjectEntry)
  | inputObjectField (typeName : Name) (type : InputObjectEntry) (name : Name) (field : InputEntry)
  | enumType (name : Name) (type : EnumEntry)
  | enumValue (typeName : Name) (type : EnumEntry) (name : Name) (value : EnumValueEntry)
  | unionType (name : Name) (type : UnionEntry)
  | scalarType (name : Name) (type : ScalarEntry)
  | directive (name : Name) (directive : DirectiveEntry)
  | directiveArgument (directiveName : Name) (directive : DirectiveEntry) (name : Name)
    (argument : InputEntry)

namespace Visit

def slot : Visit → Slot
  | .namedType .. => .namedType
  | .objectType .. => .objectType
  | .objectField .. => .objectField
  | .objectFieldArgument .. => .objectFieldArgument
  | .interfaceType .. => .interfaceType
  | .interfaceField .. => .interfaceField
  | .interfaceFieldArgument .. => .interfaceFieldArgument
  | .inputObjectType .. => .inputObjectType
  | .inputObjectField .. => .inputObjectField
  | .enumType .. => .enumType
  | .enumValue .. => .enumValue
  | .unionType .. => .unionType
  | .scalarType .. => .scalarType
  | .directive .. => .directive
  | .directiveArgument .. => .directiveArgument

def place : Visit → Coordinate
  | .namedType name _ => .type name
  | .objectType name _ => .type name
  | .objectField typeName _ name _ => .member typeName name
  | .objectFieldArgument typeName _ fieldName _ name _ => .argument typeName fieldName name
  | .interfaceType name _ => .type name
  | .interfaceField typeName _ name _ => .member typeName name
  | .interfaceFieldArgument typeName _ fieldName _ name _ => .argument typeName fieldName name
  | .inputObjectType name _ => .type name
  | .inputObjectField typeName _ name _ => .member typeName name
  | .enumType name _ => .type name
  | .enumValue typeName _ name _ => .member typeName name
  | .unionType name _ => .type name
  | .scalarType name _ => .type name
  | .directive name _ => .directive name
  | .directiveArgument directiveName _ name _ => .directiveArgument directiveName name

end Visit

namespace Model

def objectVisits (m : Model) : List Visit :=
  m.objects.toList.flatMap fun (typeName, type) =>
    .objectType typeName type :: type.fields.toList.flatMap fun (fieldName, field) =>
      .objectField typeName type fieldName field
        :: field.arguments.toList.map fun (name, argument) =>
          .objectFieldArgument typeName type fieldName field name argument

def interfaceVisits (m : Model) : List Visit :=
  m.interfaces.toList.flatMap fun (typeName, type) =>
    .interfaceType typeName type :: type.fields.toList.flatMap fun (fieldName, field) =>
      .interfaceField typeName type fieldName field
        :: field.arguments.toList.map fun (name, argument) =>
          .interfaceFieldArgument typeName type fieldName field name argument

def inputObjectVisits (m : Model) : List Visit :=
  m.inputObjects.toList.flatMap fun (typeName, type) =>
    .inputObjectType typeName type :: type.fields.toList.map fun (name, field) =>
      .inputObjectField typeName type name field

def enumVisits (m : Model) : List Visit :=
  m.enums.toList.flatMap fun (typeName, type) =>
    .enumType typeName type :: type.values.toList.map fun (name, value) =>
      .enumValue typeName type name value

def directiveVisits (m : Model) : List Visit :=
  m.directives.toList.flatMap fun (directiveName, directive) =>
    .directive directiveName directive :: directive.arguments.toList.map fun (name, argument) =>
      .directiveArgument directiveName directive name argument

def visits (m : Model) : List Visit :=
  (m.kinds.toList.map fun (name, kinds) => .namedType name kinds)
    ++ m.objectVisits
    ++ m.interfaceVisits
    ++ m.inputObjectVisits
    ++ m.enumVisits
    ++ (m.unions.toList.map fun (name, type) => .unionType name type)
    ++ (m.scalars.toList.map fun (name, type) => .scalarType name type)
    ++ m.directiveVisits

end Model

structure Visitor (ε : Type) where
  slots : List Slot
  report : Visit → List ε

def Visitor.visit {ε : Type} (visitor : Visitor ε) (v : Visit) : List ε :=
  if v.slot ∈ visitor.slots then visitor.report v else []

def Model.walk {ε : Type} (m : Model) (visitors : List (Visitor ε)) : List ε :=
  -- All visitors see an element before any of them sees the next one.
  m.visits.flatMap fun v => visitors.flatMap (·.visit v)

end Supergraph
