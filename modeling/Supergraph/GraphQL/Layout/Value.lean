import Supergraph.GraphQL.Directive
import Supergraph.GraphQL.StringLiteral
import Supergraph.GraphQL.BlockString

/-!
This module contains the two layouts of values: on one line, as in the arguments of a directive, and
spread, with every item of a list and every entry of an object on a line of its own.
-/

namespace Supergraph.GraphQL

def newline (level : Nat) : String := "\n" ++ String.ofList (List.replicate (2 * level) ' ')

def renderText (level : Nat) (s : String) : String :=
  if BlockString.Representable s.toList then BlockString.render (newline level) s
  else StringLiteral.render s

namespace Value

mutual

def renderInline : Value → String
  | .null => "null"
  | .boolean b => if b then "true" else "false"
  | .enum e => e.name.text
  | .number n => n.text
  | .string s => StringLiteral.render s
  | .list items => "[" ++ renderItemsInline items ++ "]"
  | .object entries => "\x7b" ++ renderEntriesInline entries ++ "\x7d"

def renderItemsInline : List Value → String
  | [] => ""
  | [v] => renderInline v
  | v :: vs => renderInline v ++ ", " ++ renderItemsInline vs

def renderEntriesInline : List (Name × Value) → String
  | [] => ""
  | [(n, v)] => n.text ++ ": " ++ renderInline v
  | (n, v) :: es => n.text ++ ": " ++ renderInline v ++ ", " ++ renderEntriesInline es

end

mutual

def render (level : Nat) : Value → String
  | .null => "null"
  | .boolean b => if b then "true" else "false"
  | .enum e => e.name.text
  | .number n => n.text
  -- Only a text with line feeds may be a block string here.
  | .string s => if s.toList.contains '\n' then renderText level s else StringLiteral.render s
  | .list [] => "[]"
  | .list items => "[" ++ renderItems (level + 1) items ++ newline level ++ "]"
  | .object [] => "\x7b\x7d"
  | .object entries => "\x7b" ++ renderEntries (level + 1) entries ++ newline level ++ "\x7d"

def renderItems (level : Nat) : List Value → String
  | [] => ""
  | v :: vs => newline level ++ render level v ++ "," ++ renderItems level vs

def renderEntries (level : Nat) : List (Name × Value) → String
  | [] => ""
  | (n, v) :: es =>
    newline level ++ n.text ++ ": " ++ render level v ++ "," ++ renderEntries level es

end

end Value

namespace Directive

def render (d : Directive) : String :=
  if d.arguments.isEmpty then "@" ++ d.name.text
  else "@" ++ d.name.text ++ "(" ++ Value.renderEntriesInline d.arguments ++ ")"

def renderAll (ds : List Directive) : String := String.join (ds.map (" " ++ ·.render))

end Directive

end Supergraph.GraphQL
