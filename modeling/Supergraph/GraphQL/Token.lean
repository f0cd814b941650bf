import Supergraph.GraphQL.Number
import Supergraph.GraphQL.StringLiteral
import Supergraph.GraphQL.BlockString

/-!
This module contains the tokens of type-system documents. A comma is a blank, but a token tells
whether one stands in front of it, since the keyword of a definition follows its description without
one.
-/

namespace Supergraph.GraphQL

inductive Bracket
  | round
  | square
  | curly
deriving DecidableEq, Inhabited

inductive Atom
  | name (name : Name)
  | number (value : Number)
  | string (value : String)
  | bang
  | amp
  | colon
  | equals
  | at
  | pipe
deriving DecidableEq, Inhabited

inductive Token
  | atom (a : Atom) (afterComma : Bool)
  | opening (b : Bracket)
  | closing (b : Bracket)
deriving DecidableEq, Inhabited

namespace Token

def isIgnored (c : Char) : Bool :=
  c == ' ' || c == '\t' || c == '\n' || c == '\r' || c == ',' || c == '\ufeff'

def isLineEnd (c : Char) : Bool := c == '\n' || c == '\r'

def punctuation? (afterComma : Bool) : Char → Option Token
  | '!' => some (.atom .bang afterComma)
  | '&' => some (.atom .amp afterComma)
  | ':' => some (.atom .colon afterComma)
  | '=' => some (.atom .equals afterComma)
  | '@' => some (.atom .at afterComma)
  | '|' => some (.atom .pipe afterComma)
  | '(' => some (.opening .round)
  | ')' => some (.closing .round)
  | '[' => some (.opening .square)
  | ']' => some (.closing .square)
  | '\x7b' => some (.opening .curly)
  | '\x7d' => some (.closing .curly)
  | _ => none

open StringLiteral (length_lt_cons length_lt_cons_of_lt)

theorem length_dropWhile_lt_cons (p : Char → Bool) (c : Char) (rest : List Char) :
    (rest.dropWhile p).length < (c :: rest).length :=
  Nat.lt_of_le_of_lt (List.dropWhile_suffix p).length_le (length_lt_cons c rest)

theorem length_drop_lt_cons (n : Nat) (c : Char) (rest : List Char) :
    (rest.drop n).length < (c :: rest).length :=
  Nat.lt_of_le_of_lt (List.drop_suffix n rest).length_le (length_lt_cons c rest)

def next? (afterComma : Bool) (cs : List Char) :
    Option (Token × { rest : List Char // rest.length < cs.length }) :=
  match cs with
  | '"' :: '"' :: '"' :: rest =>
    match h : BlockString.contents? rest with
    | some (raw, rest') =>
      some (.atom (.string (String.ofList (BlockString.value raw))) afterComma, ⟨rest',
        length_lt_cons_of_lt '"' <| length_lt_cons_of_lt '"' <| length_lt_cons_of_lt '"' <|
          BlockString.length_of_contents? h⟩)
    | none => none
  | '"' :: rest =>
    (StringLiteral.contents? rest).map fun (s, ⟨rest', h⟩) =>
      (.atom (.string (String.ofList s)) afterComma, ⟨rest', length_lt_cons_of_lt '"' h⟩)
  | c :: rest =>
    match punctuation? afterComma c with
    | some token => some (token, ⟨rest, length_lt_cons c rest⟩)
    | none =>
      if h : isNameStart c then
        some (.atom (.name (.ofRun c rest h)) afterComma,
          ⟨rest.dropWhile isNameContinue, length_dropWhile_lt_cons isNameContinue c rest⟩)
      else
        let tail := Number.run false rest
        (Number.ofText? (String.ofList (c :: tail))).map fun n =>
          (.atom (.number n) afterComma,
            ⟨rest.drop tail.length, length_drop_lt_cons tail.length c rest⟩)
  | [] => none

def scan?.go (afterComma : Bool) (cs : List Char) : Option (List Token) :=
  match cs with
  | [] => some []
  | c :: rest =>
    if isIgnored c then go (afterComma || c == ',') rest
    else if c = '#' then go afterComma (rest.dropWhile (!isLineEnd ·))
    else
      match next? afterComma (c :: rest) with
      | some (token, ⟨rest', _⟩) => (go false rest').map (token :: ·)
      | none => none
termination_by cs.length
decreasing_by
  . grind
  . have := (List.dropWhile_suffix (l := rest) (!isLineEnd ·)).length_le
    grind
  . grind

def scan? (cs : List Char) : Option (List Token) := scan?.go false cs

end Token

end Supergraph.GraphQL
