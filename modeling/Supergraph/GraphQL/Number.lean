import Supergraph.GraphQL.Name

/-!
This module contains number literals. A number is kept as the text it was written with, so that no
digit is lost.
-/

namespace Supergraph.GraphQL

namespace Number

def isExponent : List Char → Bool
  | [] => true
  | mark :: rest =>
    let digits := match rest with
      | '+' :: digits => digits
      | '-' :: digits => digits
      | digits => digits
    (mark == 'e' || mark == 'E') && !digits.isEmpty && digits.all Char.isDigit

def isFraction : List Char → Bool
  | '.' :: rest =>
    !(rest.takeWhile Char.isDigit).isEmpty && isExponent (rest.dropWhile Char.isDigit)
  | cs => isExponent cs

def isUnsigned (cs : List Char) : Bool :=
  let digits := cs.takeWhile Char.isDigit
  (digits == ['0'] || digits.head?.any (· != '0')) && isFraction (cs.dropWhile Char.isDigit)

def isNumber : List Char → Bool
  | '-' :: rest => isUnsigned rest
  | cs => isUnsigned cs

/--
The longest text in front that could belong to a number: letters, digits, underscores, points, and a
sign right behind an exponent mark.
-/
def run (afterMark : Bool) : List Char → List Char
  | [] => []
  | c :: rest =>
    if isNameContinue c || c == '.' || (afterMark && (c == '+' || c == '-')) then
      c :: run (c == 'e' || c == 'E') rest
    else []

end Number

structure Number where
  text : String
  isNumber_text : Number.isNumber text.toList
deriving DecidableEq

instance : Inhabited Number := ⟨"0", by decide⟩

namespace Number

@[ext]
theorem ext {n m : Number} (h : n.text = m.text) : n = m := by
  cases n; cases m; cases h; rfl

def ofText? (s : String) : Option Number :=
  if h : isNumber s.toList then some ⟨s, h⟩ else none

end Number

end Supergraph.GraphQL
