import Supergraph.Yaml.Scalar
import Supergraph.Yaml.Tag

/-!
This module contains the tokens of YAML documents and the splitting of a text into them. In block
style the columns decide where collections start and end, and a colon decides that what stands
before it is a key; tokens say so explicitly.
-/

namespace Supergraph.Yaml

inductive Bracket
  | square
  | curly
deriving DecidableEq, Inhabited

inductive Token
  | directive
  | documentStart
  | documentEnd
  | sequenceStart
  | mappingStart
  | blockEnd
  | opening (b : Bracket)
  | closing (b : Bracket)
  | comma
  | item
  | key
  | value
  | reference (name : String)
  | anchor (name : String)
  | tag (tag : Tag)
  | scalar (text : String) (plain : Bool)
deriving DecidableEq, Inhabited

/--
Something that a colon behind it would make a key: where it starts in the text, and its position
among the tokens. If it is required to be a key, any other continuation is an error.
-/
structure PossibleKey where
  start : Cursor
  position : Nat
  required : Bool

structure Scan where
  cursor : Cursor
  tokens : Array Token := #[]
  columns : List Nat := []
  key : Option PossibleKey := none
  outerKeys : List (Option PossibleKey) := []
  quotedEnd : Option Nat := none

namespace Scan

def maxKeyDistance : Nat := 1024

def maxFlowDepth : Nat := 255

def inFlow (s : Scan) : Bool := !s.outerKeys.isEmpty

def indent (s : Scan) : Int :=
  match s.columns with
  | column :: _ => column
  | [] => -1

def add (s : Scan) (token : Token) : Scan := { s with tokens := s.tokens.push token }

def indicator (s : Scan) (token : Token) (opening : Bool) : Scan :=
  { s.add token with cursor := { s.cursor.next with opening } }

def dropKey? (s : Scan) : Option Scan :=
  if s.key.any (·.required) then none else some { s with key := none }

def saveKey? (s : Scan) : Option Scan :=
  if s.cursor.opening then do
    let s ← s.dropKey?
    let required := s.inFlow && s.indent == s.cursor.column
    return { s with key := some { start := s.cursor, position := s.tokens.size, required } }
  else some s

def expireKeys? (s : Scan) : Option Scan :=
  let expired (key : PossibleKey) : Bool :=
    key.start.line != s.cursor.line || key.start.offset + maxKeyDistance < s.cursor.offset
  if (s.key :: s.outerKeys).any (·.any fun key => key.required && expired key) then none
  else
    let keep (key : Option PossibleKey) := key.filter (!expired ·)
    some { s with key := keep s.key, outerKeys := s.outerKeys.map keep }

def openBlock (s : Scan) (column position : Nat) (token : Token) : Scan :=
  if s.inFlow || column ≤ s.indent then s
  else
    { s with
      tokens := s.tokens.insertIdxIfInBounds position token
      columns := column :: s.columns }

def closeBlocks (s : Scan) (column : Int) : Scan :=
  if s.inFlow then s
  else
    let closed := s.columns.takeWhile fun (c : Nat) => column < c
    { s with
      tokens := s.tokens ++ closed.map fun _ => Token.blockEnd
      columns := s.columns.drop closed.length }

def closeDocument? (s : Scan) : Option Scan := (s.closeBlocks (-1)).dropKey?

def marker? (s : Scan) : Option Scan := do
  let s ← s.closeDocument?
  let token := if s.cursor.startsWith '-' then Token.documentStart else .documentEnd
  return { s.add token with cursor := (s.cursor.advance 3).closed }

def directive? (s : Scan) : Option Scan := do
  let s ← s.closeDocument?
  let line := s.cursor.rest.takeWhile (!isBreak ·)
  let name := line.tail.takeWhile isWordChar
  let arguments := line.drop (1 + name.length)
  if name.isEmpty || !endsWord arguments.head? then failure
  if name == "YAML".toList then
    if !endsDirective (← version? arguments) then failure
  if name == "TAG".toList then
    if !endsDirective (← Tag.declaration? arguments) then failure
  return { s.add .directive with cursor := (s.cursor.advance line.length).next.closed }
where
  number? (cs : List Char) : Option (List Char) :=
    let digits := cs.takeWhile Char.isDigit
    if digits.isEmpty || 9 < digits.length then none else some (cs.drop digits.length)
  version? (cs : List Char) : Option (List Char) := do
    match ← number? (cs.dropWhile isBlank) with
    | '.' :: rest => number? rest
    | _ => failure
  endsDirective (cs : List Char) : Bool := (cs.dropWhile isBlank).head?.all (· == '#')

def openFlow? (s : Scan) (b : Bracket) : Option Scan := do
  let s ← s.saveKey?
  if maxFlowDepth ≤ s.outerKeys.length then failure
  let s := { s with key := none, outerKeys := s.key :: s.outerKeys }
  return s.indicator (.opening b) true

def closeFlow? (s : Scan) (b : Bracket) : Option Scan := do
  let s ← s.dropKey?
  let s :=
    match s.outerKeys with
    | key :: outerKeys => { s with key, outerKeys }
    | [] => s
  return s.indicator (.closing b) false

def comma? (s : Scan) : Option Scan := do
  return (← s.dropKey?).indicator .comma true

def item? (s : Scan) : Option Scan := do
  if s.inFlow || !s.cursor.opening then failure
  let s ← (s.openBlock s.cursor.column s.tokens.size .sequenceStart).dropKey?
  return s.indicator .item true

def explicitKey? (s : Scan) : Option Scan := do
  if !s.inFlow && !s.cursor.opening then failure
  let s ← (s.openBlock s.cursor.column s.tokens.size .mappingStart).dropKey?
  return s.indicator .key (!s.inFlow)

def value? (s : Scan) : Option Scan :=
  match s.key with
  | some key =>
    -- The tokens of the key, and of the mapping that it starts, go in front of it.
    let s := { s with key := none, tokens := s.tokens.insertIdxIfInBounds key.position .key }
    let s := s.openBlock key.start.column key.position .mappingStart
    some (s.indicator .value false)
  | none =>
    if s.inFlow then some (s.indicator .value false)
    else if s.cursor.opening then
      some ((s.openBlock s.cursor.column s.tokens.size .mappingStart).indicator .value true)
    else none

def named? (s : Scan) (token : String → Token) : Option Scan := do
  let s ← s.saveKey?
  let c := s.cursor.closed.next
  let name := c.rest.takeWhile isWordChar
  let c := c.advance name.length
  let ends := fun next => isSpace next || "?:,]\x7d%@`".toList.contains next
  if name.isEmpty || !c.rest.head?.all ends then failure
  return { s.add (token (String.ofList name)) with cursor := c }

def tag? (s : Scan) : Option Scan := do
  let s ← s.saveKey?
  let (tag, rest) ← Tag.read? s.cursor.rest
  if !endsWord rest.head? then failure
  let c := s.cursor.closed.advance (s.cursor.rest.length - rest.length)
  return { s.add (.tag tag) with cursor := c }

def scalar? (s : Scan) (plain : Bool) (read : Cursor → Option (List Char × Cursor)) :
    Option Scan := do
  let s ← s.saveKey?
  let (text, c) ← read s.cursor
  return { s.add (.scalar (String.ofList text) plain) with cursor := c }

def quoted? (s : Scan) (quote : Char) : Option Scan := do
  let s ← s.scalar? false (Scalar.quoted? quote)
  return { s with quotedEnd := some s.cursor.offset }

def token? (s : Scan) (char : Char) (next : Option Char) : Option Scan :=
  if s.cursor.column = 0 ∧ char = '%' then s.directive?
  else if s.cursor.atMarker then s.marker?
  else
    match char with
    | '[' => s.openFlow? .square
    | '\x7b' => s.openFlow? .curly
    | ']' => s.closeFlow? .square
    | '\x7d' => s.closeFlow? .curly
    | ',' => s.comma?
    | '*' => s.named? .reference
    | '&' => s.named? .anchor
    | '!' => s.tag?
    | '\'' => s.quoted? '\''
    | '"' => s.quoted? '"'
    | _ =>
      let valueEnds := endsWord next
        || s.inFlow && (next.any isFlowIndicator || s.quotedEnd == some s.cursor.offset)
      if char = '-' ∧ endsWord next then s.item?
      else if char = '?' ∧ endsWord next then s.explicitKey?
      else if char = ':' ∧ valueEnds then s.value?
      else if (char = '|' ∨ char = '>') ∧ !s.inFlow then s.scalar? false (Scalar.block? s.indent)
      else if "%@`".toList.contains char then none
      else s.scalar? true (Scalar.plain? s.inFlow s.indent)

def finish?.go : Nat → Scan → Option Scan
  | 0, _ => none
  | fuel + 1, s => do
    let s ← { s with cursor := s.cursor.skip s.inFlow }.expireKeys?
    let s := s.closeBlocks s.cursor.column
    match s.cursor.rest with
    | [] => return s.closeBlocks (-1)
    -- Every token takes a character at least, so one step for each is enough.
    | char :: rest => go fuel (← s.token? char rest.head?)

def finish? (s : Scan) : Option Scan := finish?.go (s.cursor.rest.length + 1) s

end Scan

def Token.scan? (text : String) : Option (List Token) :=
  let start : Scan := { cursor := Cursor.ofText text }
  start.finish?.map (·.tokens.toList)

end Supergraph.Yaml
