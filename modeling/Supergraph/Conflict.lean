import Supergraph.GraphQL.Definition
import Supergraph.Wording

namespace Supergraph

open GraphQL

inductive Coordinate
  | type (type : Name)
  | member (type member : Name)
  | argument (type field argument : Name)
  | directive (directive : Name)
  | directiveArgument (directive argument : Name)
deriving DecidableEq, Inhabited

def Coordinate.render : Coordinate → String
  | .type t => t.text
  | .member t m => t.text ++ "." ++ m.text
  | .argument t f a => t.text ++ "." ++ f.text ++ "(" ++ a.text ++ ":)"
  | .directive d => "@" ++ d.text
  | .directiveArgument d a => "@" ++ d.text ++ "(" ++ a.text ++ ":)"

inductive Conflict
  | typeKind (type : Name) (groups : List (TypeKind × List String))
  | fieldType (place : Coordinate) (groups : List (String × List String))
  | argumentType (place : Coordinate) (groups : List (String × List String))
  | argumentDefault (place : Coordinate) (groups : List (String × List String))
  | requiredArgument (place : Coordinate) (requiredIn missingIn : List String)
  | requiredInputField (place : Coordinate) (requiredIn missingIn : List String)
  | emptyInputType (type : Name)
deriving DecidableEq, Inhabited

namespace Conflict

def place : Conflict → Coordinate
  | .typeKind type _ => .type type
  | .fieldType place _ => place
  | .argumentType place _ => place
  | .argumentDefault place _ => place
  | .requiredArgument place _ _ => place
  | .requiredInputField place _ _ => place
  | .emptyInputType type => .type type

def quotedPlace (c : Conflict) : String := "\"" ++ c.place.render ++ "\""

def typeSides (groups : List (String × List String)) : String :=
  Wording.disagreement (groups.map fun (type, names) => ("type \"" ++ type ++ "\"", names))

def requiredSides (requiredIn missingIn : List String) : String :=
  "is required in some subgraphs but does not appear in all subgraphs: it is required in "
    ++ Wording.subgraphs requiredIn ++ " but does not appear in " ++ Wording.subgraphs missingIn

def message (c : Conflict) : String :=
  match c with
  | .typeKind _ groups =>
    "Type " ++ c.quotedPlace ++ " has mismatched kind: it is defined as "
      ++ Wording.disagreement (groups.map fun (kind, names) => (kind.describe, names))
  | .fieldType _ groups =>
    "Type of field " ++ c.quotedPlace ++ " is incompatible across subgraphs: it has "
      ++ typeSides groups
  | .argumentType _ groups =>
    "Type of argument " ++ c.quotedPlace ++ " is incompatible across subgraphs: it has "
      ++ typeSides groups
  | .argumentDefault _ groups =>
    "Argument " ++ c.quotedPlace ++ " has incompatible default values across subgraphs: it has "
      ++ Wording.disagreement (groups.map fun (value, names) => ("default value " ++ value, names))
  | .requiredArgument _ requiredIn missingIn =>
    "Argument " ++ c.quotedPlace ++ " " ++ requiredSides requiredIn missingIn
  | .requiredInputField _ requiredIn missingIn =>
    "Input object field " ++ c.quotedPlace ++ " " ++ requiredSides requiredIn missingIn
  | .emptyInputType _ =>
    "None of the fields of input object type " ++ c.quotedPlace
      ++ " are consistently defined in all the subgraphs defining that type. As only fields common "
      ++ "to all subgraphs are merged, this would result in an empty type."

end Conflict

end Supergraph
