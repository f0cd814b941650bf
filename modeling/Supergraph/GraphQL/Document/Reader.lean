import Supergraph.GraphQL.Document
import Supergraph.GraphQL.Token.Tree

/-!
This module contains the grammar of type-system documents, read from token trees. Everything
between two brackets is one tree, so a list in brackets is read to its end and never beyond it.
-/

namespace Supergraph.GraphQL

abbrev TreeReader (α : Type) := StateT (List TokenTree) Option α

namespace TreeReader

variable {α : Type}

def all (item : TreeReader α) (ts : List TokenTree) : Option (List α) :=
  match ts with
  | [] => some []
  | t :: ts =>
    match item (t :: ts) with
    | some (a, rest) =>
      -- An item that takes nothing is refused.
      if _ : rest.length < (t :: ts).length then (all item rest).map (a :: ·) else none
    | none => none
termination_by ts.length
decreasing_by assumption

def some1 (item : TreeReader α) (ts : List TokenTree) : Option (List α) :=
  if ts.isEmpty then none else all item ts

def atom (a : Atom) : TreeReader Unit
  | .atom a' _ :: rest => if a' = a then some ((), rest) else none
  | _ => none

def name : TreeReader Name
  | .atom (.name n) _ :: rest => some (n, rest)
  | _ => none

def optionalName : TreeReader (Option Name)
  | .atom (.name n) _ :: rest => some (some n, rest)
  | ts => some (none, ts)

def skip (a : Atom) : TreeReader Bool
  | .atom a' comma :: rest =>
    if a' = a then some (true, rest) else some (false, .atom a' comma :: rest)
  | ts => some (false, ts)

def optionalGroup (b : Bracket) (items : List TokenTree → Option (List α)) : TreeReader (List α)
  | .group b' ts :: rest =>
    if b' = b then (items ts).map (·, rest) else some ([], .group b' ts :: rest)
  | ts => some ([], ts)

def separated (separator : Atom) : TreeReader (List Name)
  | .atom (.name n) _ :: .atom a comma :: rest =>
    if a = separator then (separated separator rest).map fun (ns, rest) => (n :: ns, rest)
    else some ([n], .atom a comma :: rest)
  | .atom (.name n) _ :: rest => some ([n], rest)
  | _ => none

def names (separator : Atom) : TreeReader (List Name) := do
  let _ ← skip separator
  separated separator

end TreeReader

open TreeReader

def maxDepth : Nat := 500

def TypeRef.ofTree? : TokenTree → Option TypeRef
  | .atom (.name n) _ => some (.named n false)
  | .group .square [item] => (ofTree? item).map (.list · false)
  | .group .square [item, .atom .bang _] => (ofTree? item).map fun t => .list t.toNonNull false
  | _ => none

def TypeRef.read : TreeReader TypeRef := fun ts => do
  let (ref, rest) ← match ts with
    | t :: .atom .bang _ :: rest => (TypeRef.ofTree? t).map fun ref => (ref.toNonNull, rest)
    | t :: rest => (TypeRef.ofTree? t).map (·, rest)
    | [] => none
  if ref.depth ≤ maxDepth then some (ref, rest) else none

mutual

def Value.ofTree? : TokenTree → Option Value
  | .atom (.number n) _ => some (.number n)
  | .atom (.string s) _ => some (.string s)
  | .atom (.name n) _ => some (.ofName n)
  | .group .square items => (itemsOfTrees? items).map .list
  | .group .curly items => (entriesOfTrees? items).map .object
  | _ => none

def Value.itemsOfTrees? : List TokenTree → Option (List Value)
  | [] => some []
  | t :: ts => do return (← Value.ofTree? t) :: (← itemsOfTrees? ts)

def Value.entriesOfTrees? : List TokenTree → Option (List (Name × Value))
  | [] => some []
  | .atom (.name n) _ :: .atom .colon _ :: t :: ts => do
    return (n, ← Value.ofTree? t) :: (← entriesOfTrees? ts)
  -- A name may also stand alone, and then means nothing.
  | .atom (.name _) _ :: ts => entriesOfTrees? ts
  | _ => none

end

def Value.read : TreeReader Value
  | t :: rest => ((Value.ofTree? t).filter (·.depth ≤ maxDepth)).map (·, rest)
  | [] => none

def Directive.readArguments (ts : List TokenTree) : Option (List (Name × Value)) :=
  if ts.isEmpty then none
  else (Value.entriesOfTrees? ts).filter (·.all (·.2.depth ≤ maxDepth))

def Directive.readAll : TreeReader (List Directive)
  | .atom .at _ :: .atom (.name name) _ :: .group .round items :: rest => do
    let arguments ← Directive.readArguments items
    let (ds, rest) ← readAll rest
    return ({ name, arguments } :: ds, rest)
  | .atom .at _ :: .atom (.name name) _ :: rest => do
    let (ds, rest) ← readAll rest
    return ({ name } :: ds, rest)
  | .atom .at _ :: _ => none
  | ts => some ([], ts)

namespace Document

def readDescription : TreeReader (Option String)
  | .atom (.string s) _ :: rest => some (some s, rest)
  | ts => some (none, ts)

def readDefault : TreeReader (Option Value) := do
  if ← skip .equals then return some (← Value.read) else return none

def readInputValue : TreeReader (Name × InputValueDef) := do
  let description ← readDescription
  let name ← TreeReader.name
  atom .colon
  let type ← TypeRef.read
  let defaultValue ← readDefault
  let directives ← Directive.readAll
  return (name, { description, type, defaultValue, directives })

def readField : TreeReader (Name × FieldDef) := do
  let description ← readDescription
  let name ← TreeReader.name
  let arguments ← optionalGroup .round (some1 readInputValue)
  atom .colon
  let type ← TypeRef.read
  let directives ← Directive.readAll
  return (name, { description, arguments, type, directives })

def readEnumValue : TreeReader (Name × EnumValueDef) := do
  let description ← readDescription
  let name ← TreeReader.name
  if name.text ∈ reservedWords then failure
  let directives ← Directive.readAll
  return (name, { description, directives })

def readRoot : TreeReader (Operation × Option Name) := do
  let keyword ← TreeReader.name
  let operation ← Operation.ofKeyword? keyword.text
  atom .colon
  -- The type may be missing, and then nothing is said of the operation.
  return (operation, ← optionalName)

def typedRoots (roots : List (Operation × Option Name)) : List (Operation × Name) :=
  roots.filterMap fun (operation, type) => type.map (operation, ·)

def readInterfaces : TreeReader (List Name)
  | .atom (.name n) comma :: rest =>
    if n.text = "implements" then names .amp rest else some ([], .atom (.name n) comma :: rest)
  | ts => some ([], ts)

def readMembers : TreeReader (List Name) := do
  if ← skip .equals then names .pipe else return []

def readType (keyword : String) (description : Option String) :
    TreeReader (Name × TypePart) := do
  let name ← TreeReader.name
  match keyword with
  | "type" =>
    let interfaces ← readInterfaces
    let directives ← Directive.readAll
    let fields ← optionalGroup .curly (some1 readField)
    return (name, { description, directives, body := .object interfaces fields })
  | "interface" =>
    let interfaces ← readInterfaces
    let directives ← Directive.readAll
    let fields ← optionalGroup .curly (some1 readField)
    return (name, { description, directives, body := .interface interfaces fields })
  | "union" =>
    let directives ← Directive.readAll
    let members ← readMembers
    return (name, { description, directives, body := .union members })
  | "enum" =>
    let directives ← Directive.readAll
    let values ← optionalGroup .curly (some1 readEnumValue)
    return (name, { description, directives, body := .enum values })
  | "input" =>
    let directives ← Directive.readAll
    let fields ← optionalGroup .curly (some1 readInputValue)
    return (name, { description, directives, body := .inputObject fields })
  | "scalar" =>
    let directives ← Directive.readAll
    return (name, { description, directives, body := .scalar })
  | _ => failure

def readSchema (description : Option String) : TreeReader SchemaPart := do
  let directives ← Directive.readAll
  let roots ← optionalGroup .curly (some1 readRoot)
  return { description, directives, roots := typedRoots roots }

def readLocations : TreeReader (List DirectiveLocation) := do
  let ns ← names .pipe
  ns.mapM fun n => (DirectiveLocation.ofName? n : TreeReader DirectiveLocation)

def readDirective (description : Option String) : TreeReader (Name × DirectiveDef) := do
  atom .at
  let name ← TreeReader.name
  let arguments ← optionalGroup .round (some1 readInputValue)
  let repeatable ← skip (.name (.lit "repeatable"))
  atom (.name (.lit "on"))
  let locations ← readLocations
  return (name, { description, arguments, repeatable, locations })

def readSchemaExtension : TreeReader SchemaPart := do
  let directives ← Directive.readAll
  let roots ← optionalGroup .curly (all readRoot)
  if directives.isEmpty && roots.isEmpty then failure
  return { directives, roots := typedRoots roots }

def readKeyword (first : Bool) : TreeReader String
  -- Behind a description or the word `extend` it follows without a comma.
  | .atom (.name n) afterComma :: rest => if first || !afterComma then some (n.text, rest) else none
  | _ => none

def readExtension : TreeReader Definition := do
  let keyword ← readKeyword false
  if keyword = "schema" then
    return .extendSchema (← readSchemaExtension)
  else
    let (name, part) ← readType keyword none
    if part.directives.isEmpty && part.body.isEmpty then failure
    return .extendType name part

def readDefinition : TreeReader Definition := do
  let description ← readDescription
  let keyword ← readKeyword description.isNone
  if keyword = "extend" then
    if description.isSome then failure
    readExtension
  else if keyword = "schema" then
    return .schema (← readSchema description)
  else if keyword = "directive" then
    let (name, definition) ← readDirective description
    return .directive name definition
  else
    let (name, part) ← readType keyword description
    return .type name part

def parse? (text : String) : Option Document := do
  let tokens ← Token.scan? text.toList
  let trees ← TokenTree.nest? tokens
  some1 readDefinition trees

end Document

def TypeRef.parse? (text : String) : Option TypeRef := do
  let tokens ← Token.scan? text.toList
  let trees ← TokenTree.nest? tokens
  match TypeRef.read trees with
  | some (ref, []) => some ref
  | _ => none

end Supergraph.GraphQL
