import Supergraph.Text.Hexadecimal

namespace Supergraph.Text

inductive Json
  | string (text : String)
  | array (items : List Json)
  | object (entries : List (String × Json))
deriving Inhabited

namespace Json

open Hexadecimal

def escape (c : Char) : List Char :=
  if c = '"' then ['\\', '"']
  else if c = '\\' then ['\\', '\\']
  else if c = '\x08' then ['\\', 'b']
  else if c = '\x0c' then ['\\', 'f']
  else if c = '\n' then ['\\', 'n']
  else if c = '\r' then ['\\', 'r']
  else if c = '\t' then ['\\', 't']
  else if c.toNat < 32 then '\\' :: 'u' :: '0' :: '0' :: byte lowerDigit c.toNat
  else [c]

def quote (text : String) : String := "\"" ++ String.ofList (text.toList.flatMap escape) ++ "\""

def newline (level : Nat) : String := "\n" ++ String.ofList (List.replicate (2 * level) ' ')

mutual

def render (level : Nat) : Json → String
  | .string text => quote text
  | .array [] => "[]"
  | .array items => "[" ++ renderItems (level + 1) items ++ newline level ++ "]"
  | .object [] => "\x7b\x7d"
  | .object entries => "\x7b" ++ renderEntries (level + 1) entries ++ newline level ++ "\x7d"

def renderItems (level : Nat) : List Json → String
  | [] => ""
  | [item] => newline level ++ render level item
  | item :: items => newline level ++ render level item ++ "," ++ renderItems level items

def renderEntries (level : Nat) : List (String × Json) → String
  | [] => ""
  | [(key, value)] => newline level ++ quote key ++ ": " ++ render level value
  | (key, value) :: entries =>
    newline level ++ quote key ++ ": " ++ render level value ++ "," ++ renderEntries level entries

end

end Json

end Supergraph.Text
