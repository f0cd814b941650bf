import Supergraph.Text.Hexadecimal

/-!
This module contains string literals in double quotes, and the proof that reading them undoes
writing.
-/

namespace Supergraph.GraphQL.StringLiteral

open Text.Hexadecimal

def escape (c : Char) : List Char :=
  if c = '"' then ['\\', '"']
  else if c = '\\' then ['\\', '\\']
  else if c = '\x08' then ['\\', 'b']
  else if c = '\x0c' then ['\\', 'f']
  else if c = '\n' then ['\\', 'n']
  else if c = '\r' then ['\\', 'r']
  else if c = '\t' then [c]
  else if c.toNat < 32 then '\\' :: 'u' :: '0' :: '0' :: byte upperDigit c.toNat
  else [c]

def encode (cs : List Char) : List Char := '"' :: cs.flatMap escape ++ ['"']

def render (s : String) : String := String.ofList (encode s.toList)

def isHighSurrogate (n : Nat) : Bool := 0xd800 ≤ n && n ≤ 0xdbff

def isLowSurrogate (n : Nat) : Bool := 0xdc00 ≤ n && n ≤ 0xdfff

/--
A reader's result together with what is left of its input, which is shorter.
-/
abbrev Read (α : Type) (cs : List Char) :=
  Option (α × { rest : List Char // rest.length < cs.length })

theorem length_lt_cons (c : Char) (rest : List Char) : rest.length < (c :: rest).length := by
  simp

theorem length_lt_cons_of_lt (c : Char) {rest cs : List Char} (h : rest.length < cs.length) :
    rest.length < (c :: cs).length :=
  Nat.lt_trans h (length_lt_cons c cs)

theorem length_lt_unit (a b c d : Char) (rest : List Char) :
    rest.length < (a :: b :: c :: d :: rest).length := by
  simp only [List.length_cons]
  omega

def codeUnit? (cs : List Char) : Read Nat cs :=
  match cs with
  | a :: b :: c :: d :: rest => (number? [a, b, c, d]).map (·, ⟨rest, length_lt_unit a b c d rest⟩)
  | _ => none

def unitEscape? (cs : List Char) : Read Char cs :=
  match codeUnit? cs with
  | none => none
  | some (unit, ⟨rest, h⟩) =>
    if isHighSurrogate unit then
      match rest, h with
      | '\\' :: 'u' :: rest, h =>
        match codeUnit? rest with
        | some (low, ⟨rest', h'⟩) =>
          if isLowSurrogate low then
            (character? (0x10000 + (unit - 0xd800) * 0x400 + (low - 0xdc00))).map (·, ⟨rest', by
              simp only [List.length_cons] at h
              omega⟩)
          else none
        | none => none
      | _, _ => none
    else (character? unit).map (·, ⟨rest, h⟩)

def unicodeEscape? (cs : List Char) : Read Char cs :=
  match cs with
  | '\x7b' :: digits =>
    match h : digits.dropWhile fun c => (digit? c).isSome with
    | '\x7d' :: rest =>
      let number := digits.takeWhile fun c => (digit? c).isSome
      if number = [] then none
      else ((number? number).bind character?).map (·, ⟨rest, by
        have := (List.dropWhile_suffix (l := digits) fun c => (digit? c).isSome).length_le
        simp only [h, List.length_cons] at this ⊢
        omega⟩)
    | _ => none
  | cs => unitEscape? cs

def escaped? (cs : List Char) : Read Char cs :=
  match cs with
  | 'u' :: rest =>
    (unicodeEscape? rest).map fun (c, ⟨rest', h⟩) => (c, ⟨rest', length_lt_cons_of_lt 'u' h⟩)
  | c :: rest =>
    let read (escape : Char) : Read Char (c :: rest) := some (escape, ⟨rest, length_lt_cons c rest⟩)
    match c with
    | '"' => read '"'
    | '\\' => read '\\'
    | '/' => read '/'
    | 'b' => read '\x08'
    | 'f' => read '\x0c'
    | 'n' => read '\n'
    | 'r' => read '\r'
    | 't' => read '\t'
    | _ => none
  | [] => none

def isLineBreak (c : Char) : Bool := c == '\n' || c == '\r'

def characters? (cs : List Char) : Read (List Char) cs :=
  match cs with
  | [] => none
  | '"' :: rest => some ([], ⟨rest, length_lt_cons '"' rest⟩)
  | '\\' :: rest =>
    match escaped? rest with
    | some (c, ⟨rest', h⟩) =>
      (characters? rest').map fun (s, ⟨rest'', h'⟩) =>
        (c :: s, ⟨rest'', length_lt_cons_of_lt '\\' (Nat.lt_trans h' h)⟩)
    | none => none
  | c :: rest =>
    if isLineBreak c then none
    else
      (characters? rest).map fun (s, ⟨rest', h⟩) => (c :: s, ⟨rest', length_lt_cons_of_lt c h⟩)
termination_by cs.length

def contents? (cs : List Char) : Read (List Char) cs :=
  match cs with
  | [] => none
  | c :: rest =>
    -- A line break is refused unless it is right behind the opening quote.
    if isLineBreak c then
      (characters? rest).map fun (s, ⟨rest', h⟩) => (c :: s, ⟨rest', length_lt_cons_of_lt c h⟩)
    else characters? (c :: rest)

theorem number?_byte {n : Nat} (h : n < 32) :
    number? ('0' :: '0' :: byte upperDigit n) = some n := by
  have : ∀ n : Fin 32, number? ('0' :: '0' :: byte upperDigit n.val) = some n.val := by decide
  exact this ⟨n, h⟩

theorem codeUnit?_byte {n : Nat} (h : n < 32) (rest : List Char) :
    ∃ h', codeUnit? ('0' :: '0' :: (byte upperDigit n ++ rest)) = some (n, ⟨rest, h'⟩) := by
  have hnumber := number?_byte h
  simp only [byte] at hnumber
  exact ⟨by simp [byte]; omega, by simp [byte, codeUnit?, hnumber]⟩

theorem unicodeEscape?_byte {c : Char} (h : c.toNat < 32) (rest : List Char) :
    ∃ h', unicodeEscape? ('0' :: '0' :: (byte upperDigit c.toNat ++ rest))
      =
    some (c, ⟨rest, h'⟩) := by
  obtain ⟨h', hunit⟩ := codeUnit?_byte h rest
  have hhigh : isHighSurrogate c.toNat = false := by simp [isHighSurrogate]; omega
  refine ⟨h', ?_⟩
  show unitEscape? _ = _
  rw [unitEscape?, hunit]
  simp [hhigh, character?_toNat]

theorem characters?_plain {c : Char} {cs s rest : List Char} {h : rest.length < cs.length}
    (hc : c ≠ '"' ∧ c ≠ '\\' ∧ isLineBreak c = false)
    (hcs : characters? cs = some (s, ⟨rest, h⟩)) :
    characters? (c :: cs) = some (c :: s, ⟨rest, length_lt_cons_of_lt c h⟩) := by
  obtain ⟨h₁, h₂, h₃⟩ := hc
  rw [characters?.eq_4 c cs h₁ h₂, hcs]
  simp [h₃]

theorem characters?_escaped {c : Char} {cs cs' s rest : List Char} {h : cs'.length < cs.length}
    {h' : rest.length < cs'.length} (hc : escaped? cs = some (c, ⟨cs', h⟩))
    (hcs : characters? cs' = some (s, ⟨rest, h'⟩)) :
    characters? ('\\' :: cs)
      =
    some (c :: s, ⟨rest, length_lt_cons_of_lt '\\' (Nat.lt_trans h' h)⟩) := by
  rw [characters?.eq_3, hc]
  simp [hcs]

theorem characters?_escape_append {tail s rest : List Char} {h : rest.length < tail.length}
    (c : Char) (htail : characters? tail = some (s, ⟨rest, h⟩)) :
    ∃ h, characters? (escape c ++ tail) = some (c :: s, ⟨rest, h⟩) := by
  have two {d : Char} (hd : escaped? (d :: tail) = some (c, ⟨tail, length_lt_cons d tail⟩)) :
      ∃ h, characters? (['\\', d] ++ tail) = some (c :: s, ⟨rest, h⟩) :=
    ⟨_, characters?_escaped hd htail⟩
  generalize hescaped : escape c = escaped
  unfold escape at hescaped
  iterate 6
    split at hescaped
    . subst c escaped; exact two rfl
  split at hescaped
  . subst escaped; exact ⟨_, characters?_plain (by simp_all [isLineBreak]) htail⟩
  split at hescaped
  . rename_i hc
    subst escaped
    obtain ⟨h', hunicode⟩ := unicodeEscape?_byte hc tail
    exact ⟨_, characters?_escaped (h := length_lt_cons_of_lt 'u' h')
      (by rw [escaped?.eq_1, hunicode]; rfl) htail⟩
  . subst escaped; exact ⟨_, characters?_plain (by simp_all [isLineBreak]) htail⟩

theorem characters?_escape (cs rest : List Char) :
    ∃ h, characters? (cs.flatMap escape ++ '"' :: rest) = some (cs, ⟨rest, h⟩) := by
  induction cs with
  | nil => exact ⟨by simp, characters?.eq_2 rest⟩
  | cons c cs ih =>
    obtain ⟨h, ih⟩ := ih
    rw [List.flatMap_cons, List.append_assoc]
    exact characters?_escape_append c ih

theorem isLineBreak_head?_escape (c : Char) : ∀ d ∈ (escape c).head?, isLineBreak d = false := by
  unfold escape
  repeat' split
  all_goals simp_all [isLineBreak]

theorem contents?_escape (cs rest : List Char) :
    ∃ h, contents? (cs.flatMap escape ++ '"' :: rest) = some (cs, ⟨rest, h⟩) := by
  obtain ⟨h, hread⟩ := characters?_escape cs rest
  refine ⟨h, ?_⟩
  rw [← hread]
  generalize hd : cs.flatMap escape ++ '"' :: rest = text
  cases text with
  | nil => simp at hd
  | cons d text =>
    have : isLineBreak d = false := by
      cases cs with
      | nil => simp at hd; simp [← hd.1, isLineBreak]
      | cons c cs =>
        refine isLineBreak_head?_escape c d ?_
        have hne : escape c ≠ [] := by
          unfold escape
          repeat' split
          all_goals simp
        obtain ⟨e, es, he⟩ := List.exists_cons_of_ne_nil hne
        rw [List.flatMap_cons, he] at hd
        simp at hd
        simp [he, hd.1]
    simp [contents?, this]

end Supergraph.GraphQL.StringLiteral
