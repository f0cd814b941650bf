/-!
This module contains block strings, the literals between triple quotes, and the texts that can be
written as one.
-/

namespace Supergraph.GraphQL.BlockString

def isBlank (c : Char) : Bool := c == ' ' || c == '\t'

def isBlankLine (line : List Char) : Bool := line.all isBlank

def lines : List Char → List (List Char)
  | [] => [[]]
  | '\r' :: '\n' :: rest => [] :: lines rest
  | '\r' :: rest => [] :: lines rest
  | '\n' :: rest => [] :: lines rest
  | c :: rest =>
    match lines rest with
    | line :: more => (c :: line) :: more
    | [] => [[c]]

def indentation (line : List Char) : Nat := (line.takeWhile isBlank).length

def commonIndentation? (ls : List (List Char)) : Option Nat :=
  ((ls.filter (!isBlankLine ·)).map indentation).min?

def dropBlankEnds (ls : List (List Char)) : List (List Char) :=
  ((ls.dropWhile isBlankLine).reverse.dropWhile isBlankLine).reverse

/--
The text that a block string stands for: the lines but the first lose their common indentation, and
blank lines at either end are dropped.
-/
def value (raw : List Char) : List Char :=
  match lines raw with
  | [] => []
  | first :: rest =>
    let indent := (commonIndentation? rest).getD 0
    ['\n'].intercalate (dropBlankEnds (first :: rest.map (·.drop indent)))

def contents? : List Char → Option (List Char × List Char)
  | '"' :: '"' :: '"' :: rest => some ([], rest)
  | '\\' :: '"' :: '"' :: '"' :: rest =>
    (contents? rest).map fun (raw, rest) => ('"' :: '"' :: '"' :: raw, rest)
  | c :: rest => (contents? rest).map fun (raw, rest) => (c :: raw, rest)
  | [] => none

theorem length_of_contents? {cs raw rest : List Char} (h : contents? cs = some (raw, rest)) :
    rest.length < cs.length := by
  fun_induction contents? cs generalizing raw <;> grind [Option.map_eq_some_iff]

/--
A text that some block string stands for as it is: no carriage return, no blank line at either end,
and no indentation common to all lines.
-/
def Representable (cs : List Char) : Prop :=
  '\r' ∉ cs ∧ (lines cs).head?.all (!isBlankLine ·) ∧ (lines cs).getLast?.all (!isBlankLine ·)
    ∧ commonIndentation? (lines cs) = some 0

instance (cs : List Char) : Decidable (Representable cs) := by
  unfold Representable; infer_instance

def escape : List Char → List Char
  | '"' :: '"' :: '"' :: rest => '\\' :: '"' :: '"' :: '"' :: escape rest
  | c :: rest => c :: escape rest
  | [] => []

def maxSingleLine : Nat := 70

def needsLines (s : String) : Bool :=
  s.toList.contains '\n' || s.utf8ByteSize > maxSingleLine
    || s.toList.getLast?.any fun c => c == '"' || c == '\\'

def render (newline : String) (s : String) : String :=
  let quotes := "\"\"\""
  if needsLines s then
    -- Empty lines are not indented.
    let line (l : List Char) := if l.isEmpty then "\n" else newline ++ String.ofList (escape l)
    quotes ++ String.join ((lines s.toList).map line) ++ newline ++ quotes
  else
    quotes ++ String.ofList (escape s.toList) ++ quotes

end Supergraph.GraphQL.BlockString
