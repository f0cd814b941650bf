import Supergraph.GraphQL.BuiltIn
import Supergraph.GraphQL.Document.Reader

/-!
This module contains the schema that a document defines. Extensions may stand before the definition
they extend, or without one.
-/

namespace Supergraph.GraphQL

def TypePart.join? : TypePart → List TypePart → Option TypePart
  | part, [] => some part
  | part, next :: rest => do
    let body ← part.body.append? next.body
    join? { part with directives := part.directives ++ next.directives, body } rest

def TypePart.toDef? (part : TypePart) : Option TypeDef :=
  part.body.toBody?.map fun body =>
    { description := part.description, directives := part.directives, body }

def TypePart.ofDef (d : TypeDef) : TypePart where
  description := d.description
  directives := d.directives
  body := .ofBody d.body

namespace Document

def typeParts (doc : Document) (name : Name) : List (TypePart ⊕ TypePart) :=
  doc.filterMap fun
    | .type n part => if n = name then some (.inl part) else none
    | .extendType n part => if n = name then some (.inr part) else none
    | _ => none

def extensions? : List (TypePart ⊕ TypePart) → Option (List TypePart)
  | [] => some []
  | .inl _ :: _ => none
  | .inr part :: rest => (extensions? rest).map (part :: ·)

def definedPart? (before : List TypePart) : List (TypePart ⊕ TypePart) → Option TypePart
  | [] =>
    match before with
    | [] => none
    | first :: rest => first.join? rest
  | .inr part :: rest => definedPart? (before ++ [part]) rest
  | .inl part :: rest => do
    -- An extension before the definition may be for another kind, one behind it may not.
    part.join? (before.filter (·.body.kind = part.body.kind) ++ (← extensions? rest))

def typeDef? (doc : Document) (name : Name) : Option TypeDef :=
  match BuiltIn.types.get? name with
  | some builtIn => do
    let part ← (TypePart.ofDef builtIn).join? (← extensions? (doc.typeParts name))
    part.toDef?
  | none => do (← definedPart? [] (doc.typeParts name)).toDef?

def definedTypes (doc : Document) : List Name :=
  doc.filterMap fun
    | .type name _ => some name
    | _ => none

def extendedTypes (doc : Document) : List Name :=
  doc.filterMap fun
    | .extendType name _ => some name
    | _ => none

def typeNames (doc : Document) : OrderedSet Name :=
  .ofList (BuiltIn.types.keys ++ doc.definedTypes ++ doc.extendedTypes)

def types? (doc : Document) : Option (OrderedMap Name TypeDef) := do
  let entries ← doc.typeNames.toList.mapM fun name => (doc.typeDef? name).map (name, ·)
  OrderedMap.ofDistinct? entries

def directiveDefs? (doc : Document) : Option (OrderedMap Name DirectiveDef) := do
  let own ← OrderedMap.ofDistinct? (doc.filterMap fun
    | .directive name definition => some (name, definition)
    | _ => none)
  return own.toList.foldl (fun defs (name, d) => defs.insert name d) BuiltIn.directiveDefs

def schemaDefinitions (doc : Document) : List SchemaPart :=
  doc.filterMap fun
    | .schema part => some part
    | _ => none

def schemaExtensions (doc : Document) : List SchemaPart :=
  doc.filterMap fun
    | .extendSchema part => some part
    | _ => none

def defaultRoots (types : OrderedMap Name TypeDef) : RootTypes := fun operation =>
  match types.get? operation.defaultTypeName with
  | some d => if d.kind = .object then some operation.defaultTypeName else none
  | none => none

def toSchema? (doc : Document) : Option Schema := do
  let types ← doc.types?
  let directiveDefs ← doc.directiveDefs?
  if doc.schemaDefinitions.length > 1 then failure
  let parts := doc.schemaDefinitions ++ doc.schemaExtensions
  let roots ← OrderedMap.ofDistinct? (parts.flatMap (·.roots))
  return {
    description := doc.schemaDefinitions.head?.bind (·.description)
    directives := parts.flatMap (·.directives)
    roots :=
      -- Where nothing names a root type, the default names decide.
      if doc.schemaDefinitions.isEmpty && roots.isEmpty then defaultRoots types else roots.get?
    directiveDefs, types }

end Document

def Schema.parse? (text : String) : Option Schema := (Document.parse? text).bind (·.toSchema?)

end Supergraph.GraphQL
