import Supergraph.Text.Hexadecimal
import Supergraph.Yaml.Cursor

namespace Supergraph.Yaml.Scalar

open Text.Hexadecimal

/--
What space between two words of a scalar means: itself within a line, a blank for one line break,
and a line feed less than there are breaks for more.
-/
def fold (space : List Char) : List Char :=
  match space.countP isBreak with
  | 0 => space
  | 1 => [' ']
  | n + 2 => List.replicate (n + 1) '\n'

def endsPlain (flow : Bool) : List Char → Bool
  | [] => true
  | ':' :: rest => endsWord rest.head? || (flow && rest.head?.any isFlowIndicator)
  | c :: _ => isSpace c || (flow && isFlowIndicator c)

def plainWord (flow : Bool) : List Char → List Char
  | [] => []
  | c :: rest => if endsPlain flow (c :: rest) then [] else c :: plainWord flow rest

def plain?.go (flow : Bool) (indent : Int) : Nat → List Char → Cursor → Option (List Char × Cursor)
  | 0, _, c => some ([], c)
  | fuel + 1, space, c =>
    if c.atMarker || c.startsWith '#' then some ([], c)
    else
      let word := plainWord flow c.rest
      let c := if word.isEmpty then c else (c.advance word.length).closed
      let before := if word.isEmpty then [] else fold space
      let gap := c.rest.takeWhile isSpace
      if gap.isEmpty then some (before ++ word, c)
      else if c.hasTabLeftOf (indent + 1) then none
      else
        let c := { c.advance gap.length with opening := c.opening || gap.any isBreak }
        if !flow && c.column ≤ indent then some (before ++ word, c)
        else (go flow indent fuel gap c).map fun (text, c) => (before ++ word ++ text, c)

def plain? (flow : Bool) (indent : Int) (c : Cursor) : Option (List Char × Cursor) :=
  plain?.go flow indent (c.rest.length + 1) [] c.closed

def escaped? : List Char → Option (Char × Nat)
  | [] => none
  | 'x' :: rest => numbered? 2 rest
  | 'u' :: rest => numbered? 4 rest
  | 'U' :: rest => numbered? 8 rest
  | c :: _ => (simple.lookup c).map (·, 1)
where
  numbered? (digits : Nat) (rest : List Char) : Option (Char × Nat) :=
    if rest.length < digits then none
    else ((number? (rest.take digits)).bind character?).map (·, digits + 1)
  simple : List (Char × Char) := [
    ('0', '\x00'), ('a', '\x07'), ('b', '\x08'), ('t', '\t'), ('\t', '\t'), ('n', '\n'),
    ('v', '\x0b'), ('f', '\x0c'), ('r', '\r'), ('e', '\x1b'), (' ', ' '), ('"', '"'), ('\'', '\''),
    ('\\', '\\'), ('N', '\x85'), ('_', '\xa0'), ('L', '\u2028'), ('P', '\u2029')]

def quoted?.go (quote : Char) : Nat → Cursor → Option (List Char × Cursor)
  | 0, _ => none
  | fuel + 1, c =>
    let continueWith (text : List Char) (taken : Nat) : Option (List Char × Cursor) :=
      (go quote fuel (c.advance taken)).map fun (more, c) => (text ++ more, c)
    if c.atMarker then none
    else match c.rest with
      | [] => none
      | char :: rest =>
        if isSpace char then
          let space := c.rest.takeWhile isSpace
          continueWith (fold space) space.length
        else if char == quote then
          -- Two single quotes in a row stand for one.
          if quote == '\'' && rest.head? == some '\'' then continueWith ['\''] 2
          else some ([], c.next)
        else if quote == '"' && char == '\\' then
          if rest.head?.any isBreak then
            -- An escaped line break is left out with the blanks behind it; further ones stay.
            let space := rest.tail.takeWhile isSpace
            continueWith (List.replicate (space.countP isBreak) '\n') (2 + space.length)
          else (escaped? rest).bind fun (char, taken) => continueWith [char] (1 + taken)
        else continueWith [char] 1

def quoted? (quote : Char) (c : Cursor) : Option (List Char × Cursor) :=
  quoted?.go quote (c.rest.length + 1) c.closed.next

inductive Chomping
  | strip
  | clip
  | keep
deriving DecidableEq, Inhabited

structure BlockHeader where
  folded : Bool
  chomping : Chomping := .clip
  increment : Option Nat := none

def blockHeader? (c : Cursor) : Option (BlockHeader × Cursor) :=
  let header : BlockHeader := { folded := c.startsWith '>' }
  let c := c.next
  let (header, c) := chomp header c
  let (header, c) := indent header c
  let (header, c) := if header.chomping = .clip then chomp header c else (header, c)
  let blanks := c.rest.takeWhile isBlank
  let c := c.advance blanks.length
  let c := if c.startsWith '#' then c.advance (c.rest.takeWhile (!isBreak ·)).length else c
  if header.increment = some 0 || !c.rest.head?.all isBreak then none
  else some (header, c.next)
where
  chomp (header : BlockHeader) (c : Cursor) : BlockHeader × Cursor :=
    if c.startsWith '+' then ({ header with chomping := .keep }, c.next)
    else if c.startsWith '-' then ({ header with chomping := .strip }, c.next)
    else (header, c)
  indent (header : BlockHeader) (c : Cursor) : BlockHeader × Cursor :=
    match c.rest.head? with
    | some d =>
      if d.isDigit then ({ header with increment := some (d.toNat - 48) }, c.next) else (header, c)
    | none => (header, c)

def blockSpace?.go (indent : Option Nat) : Nat → Nat → Cursor → Option (Nat × Nat × Cursor)
  | 0, _, _ => none
  | fuel + 1, widest, c =>
    let blanks := (c.rest.takeWhile (· == ' ')).length
    let c := c.advance (indent.elim blanks fun n => min blanks (n - c.column))
    let widest := max widest c.column
    if c.startsWith '\t' && indent.all (c.column < ·) then none
    else if c.rest.head?.any isBreak then
      (go indent fuel widest c.next).map fun (breaks, found) => (breaks + 1, found)
    else some (0, widest, c)

def blockSpace? (indent : Option Nat) (c : Cursor) : Option (Nat × Nat × Cursor) :=
  blockSpace?.go indent (c.rest.length + 1) 0 c

/--
The lines of a block from here on, given whether a line came before, whether that one started with a
blank, and how many empty lines followed it. Folding turns the break between two lines into a blank,
unless one of them starts with a blank itself.
-/
def blockLines?.go (header : BlockHeader) (indent : Nat) :
    Nat → Bool → Bool → Nat → Cursor → Option (List Char × Cursor)
  | 0, _, _, _, _ => none
  | fuel + 1, afterLine, blankBefore, breaks, c =>
    let empty := List.replicate breaks '\n'
    let lineBreak := if afterLine then ['\n'] else []
    if c.column = indent && !c.atEnd then
      let blank := c.rest.head?.any isBlank
      let joined := header.folded && afterLine && !blankBefore && !blank
      let between := if joined then (if breaks = 0 then [' '] else []) else lineBreak
      let line := c.rest.takeWhile (!isBreak ·)
      let c := c.advance line.length
      if c.atEnd then some (between ++ empty ++ line, c)
      else
        (blockSpace? (some indent) c.next).bind fun (breaks, _, c) =>
          (go header indent fuel true blank breaks c).map fun (text, c) =>
            (between ++ empty ++ line ++ text, c)
    else
      let kept := if header.chomping = .keep then empty else []
      some ((if header.chomping = .strip then [] else lineBreak) ++ kept, c)

def block? (indent : Int) (c : Cursor) : Option (List Char × Cursor) := do
  let (header, c) ← blockHeader? c
  let given := header.increment.map fun n => if indent < 0 then n else indent.toNat + n
  let (breaks, widest, c) ← blockSpace? given c
  let width := given.getD (max widest (max (indent + 1).toNat 1))
  let (text, c) ← blockLines?.go header width (c.rest.length + 1) false false breaks c
  return (text, c.opened)

end Supergraph.Yaml.Scalar
