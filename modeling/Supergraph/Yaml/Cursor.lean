namespace Supergraph.Yaml

def isBlank (c : Char) : Bool := c == ' ' || c == '\t'

def isBreak (c : Char) : Bool := c == '\n' || c == '\r'

def isSpace (c : Char) : Bool := isBlank c || isBreak c

def endsWord (next : Option Char) : Bool := next.all isSpace

def isFlowIndicator (c : Char) : Bool :=
  c == ',' || c == '[' || c == ']' || c == '\x7b' || c == '\x7d'

structure Cursor where
  rest : List Char
  offset : Nat := 0
  line : Nat := 0
  column : Nat := 0
  /-- Whether a key or an item of a block may start here: nothing but indentation and the indicators
  of other collections precedes the cursor on its line. -/
  opening : Bool := true
deriving Inhabited

namespace Cursor

def ofText (text : String) : Cursor := { rest := joinBreaks (text.toList.takeWhile (· != '\x00')) }
where
  -- A line break of two characters counts as one.
  joinBreaks : List Char → List Char
    | '\r' :: '\n' :: rest => '\n' :: joinBreaks rest
    | c :: rest => c :: joinBreaks rest
    | [] => []

def atEnd (c : Cursor) : Bool := c.rest.isEmpty

def startsWith (c : Cursor) (char : Char) : Bool := c.rest.head? == some char

def next (c : Cursor) : Cursor :=
  match c.rest with
  | [] => c
  | '\n' :: rest => { c with rest, offset := c.offset + 1, line := c.line + 1, column := 0 }
  | _ :: rest => { c with rest, offset := c.offset + 1, column := c.column + 1 }

def advance (c : Cursor) : Nat → Cursor
  | 0 => c
  | n + 1 => c.next.advance n

def closed (c : Cursor) : Cursor := { c with opening := false }

def opened (c : Cursor) : Cursor := { c with opening := true }

def atMarker (c : Cursor) : Bool :=
  c.column == 0 && match c.rest with
    | '-' :: '-' :: '-' :: rest => endsWord rest.head?
    | '.' :: '.' :: '.' :: rest => endsWord rest.head?
    | _ => false

/--
Steps over blanks, line breaks and comments. In block style a tab is no indentation, and a line
break makes room for a block collection.
-/
def skip (flow : Bool) (c : Cursor) : Cursor := go false c.rest c
where
  go (comment : Bool) : List Char → Cursor → Cursor
    | [], c => c
    | char :: rest, c =>
      if isBreak char then go false rest { c.next with opening := c.opening || !flow }
      else if comment || char == ' ' then go comment rest c.next
      else if char == '#' then go true rest c.next
      else if char == '\t' && (flow || !c.opening) then go false rest c.next
      else c

def hasTabLeftOf (column : Int) (c : Cursor) : Bool := go false c.rest c
where
  go (indentation : Bool) : List Char → Cursor → Bool
    | [], _ => false
    | char :: rest, c =>
      if isBreak char then go true rest c.next
      else if isBlank char then
        indentation && char == '\t' && c.column < column || go indentation rest c.next
      else false

end Cursor

end Supergraph.Yaml
