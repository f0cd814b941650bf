import Supergraph.Text.Hexadecimal
import Supergraph.Yaml.Cursor

namespace Supergraph.Yaml

structure Tag where
  handle : String
  suffix : String
deriving DecidableEq, Inhabited

def isWordChar (c : Char) : Bool := c.isAlphanum || c == '_' || c == '-'

namespace Tag

open Text.Hexadecimal

def null : Tag := ⟨"!!", "null"⟩

def isAddressChar (c : Char) : Bool := isWordChar c || ";/?:@&=+$,.!~*'()[]".toList.contains c

def address? : List Char → Option (List Char × List Char)
  | '%' :: a :: b :: rest => do
    let lead ← number? [a, b]
    if lead < 0x80 then
      let (text, rest) ← address? rest
      return (Char.ofNat lead :: text, rest)
    else
      -- The number of a character beyond the first 128 is both bytes in a row.
      match rest with
      | '%' :: c :: d :: rest =>
        let trail ← number? [c, d]
        if 0xc0 ≤ lead && lead < 0xe0 && 0x80 ≤ trail && trail < 0xc0 then
          let char ← character? (lead * 0x100 + trail)
          let (text, rest) ← address? rest
          return (char :: text, rest)
        else failure
      | _ => failure
  | c :: rest =>
    if c == '%' then none
    else if isAddressChar c then (address? rest).map fun (text, rest) => (c :: text, rest)
    else some ([], c :: rest)
  | [] => some ([], [])

def nonemptyAddress? (cs : List Char) : Option (List Char × List Char) :=
  (address? cs).filter fun _ => cs.head?.any fun c => c == '%' || isAddressChar c

def handle? : List Char → Option (List Char × List Char)
  | '!' :: rest =>
    let word := rest.takeWhile isWordChar
    match rest.drop word.length with
    | '!' :: rest => some ('!' :: word ++ ['!'], rest)
    | rest => some ('!' :: word, rest)
  | _ => none

def read? (cs : List Char) : Option (Tag × List Char) :=
  match cs with
  | '!' :: '<' :: rest =>
    match nonemptyAddress? rest with
    | some (address, '>' :: rest) => some (⟨"", String.ofList address⟩, rest)
    | _ => none
  | _ => do
    let (handle, rest) ← handle? cs
    if 2 ≤ handle.length && handle.getLast? == some '!' then
      let (address, rest) ← nonemptyAddress? rest
      return (⟨String.ofList handle, String.ofList address⟩, rest)
    else
      let (address, rest) ← address? rest
      let suffix := handle.tail ++ address
      return (if suffix.isEmpty then ⟨"", "!"⟩ else ⟨"!", String.ofList suffix⟩, rest)

def declaration? (cs : List Char) : Option (List Char) := do
  let (handle, rest) ← handle? (cs.dropWhile isBlank)
  if handle != ['!'] && handle.getLast? != some '!' then failure
  let (_, rest) ← nonemptyAddress? (rest.dropWhile isBlank)
  if endsWord rest.head? then return rest else failure

end Tag

end Supergraph.Yaml
