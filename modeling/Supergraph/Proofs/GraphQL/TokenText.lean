import Supergraph.GraphQL.Layout.Value
import Supergraph.GraphQL.Token
import Supergraph.Proofs.GraphQL.BlockText
import Supergraph.Proofs.GraphQL.NameText

/-!
This module contains the proof that the tokens of a text are scanned back. Each lemma says what may
stand behind a token, so that it is not read on into the next one.
-/

namespace Supergraph.GraphQL

namespace Number

def Closes (rest : List Char) : Prop :=
  ∀ c ∈ rest.head?, ¬ isNameContinue c ∧ c ≠ '.' ∧ c ≠ '+' ∧ c ≠ '-'

theorem run_of_closes {rest : List Char} (h : Closes rest) (afterMark : Bool) :
    run afterMark rest = [] := by
  cases rest with
  | nil => rfl
  | cons c rest =>
    obtain ⟨hname, hpoint, hplus, hminus⟩ := h c rfl
    unfold run
    simp [hname, hpoint, hplus, hminus]

theorem run_digit {c : Char} (hc : c.isDigit) (afterMark : Bool) (cs : List Char) :
    run afterMark (c :: cs) = c :: run false cs := by
  have hmark : (c == 'e' || c == 'E') = false := by
    rw [Bool.or_eq_false_iff, beq_eq_false_iff_ne, beq_eq_false_iff_ne]
    constructor <;> rintro rfl <;> cases hc
  rw [run, isNameContinue_of_isDigit hc, hmark]
  rfl

theorem run_digits_append {digits : List Char} (hdigits : digits.all Char.isDigit)
    (cs : List Char) : run false (digits ++ cs) = digits ++ run false cs := by
  induction digits with
  | nil => rfl
  | cons c digits ih =>
    rw [List.all_cons, Bool.and_eq_true] at hdigits
    rw [List.cons_append, run_digit hdigits.1, ih hdigits.2]
    rfl

theorem run_digits {digits rest : List Char} (hdigits : digits.all Char.isDigit)
    (hrest : Closes rest) : run false (digits ++ rest) = digits := by
  rw [run_digits_append hdigits, run_of_closes hrest, List.append_nil]

theorem run_exponent {cs rest : List Char} (hcs : isExponent cs) (hrest : Closes rest) :
    run false (cs ++ rest) = cs := by
  cases cs with
  | nil => exact run_of_closes hrest false
  | cons mark cs =>
    unfold isExponent at hcs
    simp only [Bool.and_eq_true] at hcs
    obtain ⟨⟨hmark, hne⟩, hdigits⟩ := hcs
    have hname : isNameContinue mark := by
      rw [Bool.or_eq_true, beq_iff_eq, beq_iff_eq] at hmark
      obtain rfl | rfl := hmark <;> rfl
    have hstart : run false (mark :: cs ++ rest) = mark :: run true (cs ++ rest) := by
      rw [List.cons_append, run, hname, hmark]
      rfl
    rw [hstart]
    congr 1
    split at hdigits
    . next digits =>
      change '+' :: run false (digits ++ rest) = _
      rw [run_digits hdigits hrest]
    . next digits =>
      change '-' :: run false (digits ++ rest) = _
      rw [run_digits hdigits hrest]
    . cases cs with
      | nil => cases hne
      | cons d digits =>
        rw [List.all_cons, Bool.and_eq_true] at hdigits
        rw [List.cons_append, run_digit hdigits.1, run_digits hdigits.2 hrest]

theorem run_fraction {cs rest : List Char} (hcs : isFraction cs) (hrest : Closes rest) :
    run false (cs ++ rest) = cs := by
  unfold isFraction at hcs
  split at hcs
  . next cs =>
    rw [Bool.and_eq_true] at hcs
    have hpoint : run false ('.' :: cs ++ rest) = '.' :: run false (cs ++ rest) := rfl
    rw [hpoint]
    rw [← List.takeWhile_append_dropWhile (p := Char.isDigit) (l := cs), List.append_assoc,
      run_digits_append List.all_takeWhile, run_exponent hcs.2 hrest]
  . exact run_exponent hcs hrest

theorem run_unsigned {cs rest : List Char} (hcs : isUnsigned cs) (hrest : Closes rest) :
    run false (cs ++ rest) = cs := by
  unfold isUnsigned at hcs
  rw [Bool.and_eq_true] at hcs
  rw [← List.takeWhile_append_dropWhile (p := Char.isDigit) (l := cs), List.append_assoc,
    run_digits_append List.all_takeWhile, run_fraction hcs.2 hrest]

theorem isDigit_of_isUnsigned {c : Char} {cs : List Char} (h : isUnsigned (c :: cs)) :
    c.isDigit := by
  unfold isUnsigned at h
  by_contra hc
  rw [List.takeWhile_cons_of_neg hc] at h
  cases h

def isStart (c : Char) : Bool := c.isDigit || c == '-'

theorem isStart_of_isNumber {c : Char} {cs : List Char} (h : isNumber (c :: cs)) : isStart c := by
  unfold isNumber at h
  split at h
  . next heq =>
    cases heq
    rfl
  . unfold isStart
    rw [isDigit_of_isUnsigned h]
    rfl

theorem isWord_of_isStart {c : Char} (h : isStart c) : isNameContinue c ∨ c = '-' := by
  unfold isStart at h
  rw [Bool.or_eq_true, beq_iff_eq] at h
  exact h.imp_left isNameContinue_of_isDigit

theorem not_isNameStart_of_isStart {c : Char} (h : isStart c) : ¬ isNameStart c := by
  unfold isStart at h
  rw [Bool.or_eq_true, beq_iff_eq] at h
  obtain hdigit | rfl := h
  . exact not_isNameStart_of_isDigit hdigit
  . decide

theorem run_number {c : Char} {cs rest : List Char} (h : isNumber (c :: cs)) (hrest : Closes rest) :
    run false (cs ++ rest) = cs := by
  unfold isNumber at h
  split at h
  . next heq =>
    cases heq
    exact run_unsigned h hrest
  . have hrun := run_unsigned h hrest
    rw [List.cons_append, run_digit (isDigit_of_isUnsigned h)] at hrun
    exact (List.cons.inj hrun).2

end Number

namespace Bracket

def openingChar : Bracket → Char
  | .round => '('
  | .square => '['
  | .curly => '\x7b'

def closingChar : Bracket → Char
  | .round => ')'
  | .square => ']'
  | .curly => '\x7d'

end Bracket

namespace Token

theorem go_nil (afterComma : Bool) : scan?.go afterComma [] = some [] := by
  rw [scan?.go.eq_def]

theorem go_ignored {c : Char} (hc : isIgnored c) (afterComma : Bool) (cs : List Char) :
    scan?.go afterComma (c :: cs) = scan?.go (afterComma || c == ',') cs := by
  rw [scan?.go.eq_def]
  simp [hc]

theorem go_blanks_append (n : Nat) (afterComma : Bool) (cs : List Char) :
    scan?.go afterComma (BlockString.blanks n ++ cs) = scan?.go afterComma cs := by
  induction n with
  | zero => rfl
  | succ n ih =>
    change scan?.go afterComma (' ' :: (BlockString.blanks n ++ cs)) = _
    rw [go_ignored rfl]
    simpa using ih

theorem go_newline_append (level : Nat) (afterComma : Bool) (cs : List Char) :
    scan?.go afterComma ((newline level).toList ++ cs) = scan?.go afterComma cs := by
  rw [BlockString.toList_newline, List.cons_append, go_ignored rfl]
  simpa using go_blanks_append (2 * level) afterComma cs

theorem length_lt_cons_append (c : Char) (cs rest : List Char) :
    rest.length < (c :: (cs ++ rest)).length :=
  Nat.lt_succ_of_le (List.suffix_append cs rest).length_le

theorem go_of_next? {afterComma : Bool} {c : Char} {cs rest : List Char} {token : Token}
    {tokens : List Token} (hlt : rest.length < (c :: cs).length)
    (hc : isIgnored c = false ∧ c ≠ '#')
    (hnext : next? afterComma (c :: cs) = some (token, ⟨rest, hlt⟩))
    (h : scan?.go false rest = some tokens)
    : scan?.go afterComma (c :: cs) = some (token :: tokens) := by
  rw [scan?.go.eq_def]
  simp [hc, hnext, h]

theorem of_isWord {c : Char} (h : isNameContinue c ∨ c = '-') :
    (isIgnored c = false ∧ c ≠ '#') ∧ c ≠ '"' ∧ ∀ afterComma, punctuation? afterComma c = none := by
  have hne : ∀ d, ¬ (isNameContinue d ∨ d = '-') → c ≠ d := by
    rintro d hd rfl
    exact hd h
  refine ⟨⟨?_, hne '#' (by decide)⟩, hne '"' (by decide), ?_⟩
  . unfold isIgnored
    simp only [Bool.or_eq_false_iff, beq_eq_false_iff_ne]
    exact ⟨⟨⟨⟨⟨hne _ (by decide), hne _ (by decide)⟩, hne _ (by decide)⟩, hne _ (by decide)⟩,
      hne _ (by decide)⟩, hne _ (by decide)⟩
  . intro afterComma
    unfold punctuation?
    split <;> first | rfl | exact absurd h (by decide)

theorem exists_escape_eq_cons (c : Char) : ∃ d ds, StringLiteral.escape c = d :: ds ∧ d ≠ '"' := by
  unfold StringLiteral.escape
  repeat' split
  all_goals simp_all

section

variable (afterComma : Bool) {rest : List Char} {tokens : List Token}
variable (h : scan?.go false rest = some tokens)

include h

theorem go_name_append (n : Name) (hrest : ∀ c ∈ rest.head?, ¬ isNameContinue c) :
    scan?.go afterComma (n.text.toList ++ rest)
      =
    some (.atom (.name n) afterComma :: tokens) := by
  obtain ⟨c, cs, htext, hstart, hall⟩ := n.toList_text_eq_cons
  obtain ⟨hc, hquote, hpunctuation⟩ := of_isWord (.inl (isNameContinue_of_isNameStart hstart))
  have hcs : ∀ d ∈ cs, isNameContinue d := fun d hd => hall d (List.mem_cons_of_mem _ hd)
  have hname : Name.ofRun c (cs ++ rest) hstart = n := by
    apply Name.ext
    unfold Name.ofRun
    dsimp only
    rw [Name.takeWhile_append hcs hrest, ← htext, String.ofList_toList]
  rw [htext, List.cons_append]
  apply go_of_next? (length_lt_cons_append c cs rest) hc _ h
  rw [next?.eq_3 _ _ _ (fun _ hc _ => hquote hc) hquote, hpunctuation]
  simp [hstart, hname, Name.dropWhile_append hcs hrest]

theorem go_number_append (n : Number) (hrest : Number.Closes rest) :
    scan?.go afterComma (n.text.toList ++ rest)
      =
    some (.atom (.number n) afterComma :: tokens) := by
  have hnumber := n.isNumber_text
  cases htext : n.text.toList with
  | nil =>
    rw [htext] at hnumber
    cases hnumber
  | cons c cs =>
    rw [htext] at hnumber
    have hstart := Number.isStart_of_isNumber hnumber
    obtain ⟨hc, hquote, hpunctuation⟩ := of_isWord (Number.isWord_of_isStart hstart)
    have hnumber? : Number.ofText? (String.ofList (c :: cs)) = some n := by
      rw [← htext, String.ofList_toList]
      exact dif_pos n.isNumber_text
    rw [List.cons_append]
    apply go_of_next? (length_lt_cons_append c cs rest) hc _ h
    rw [next?.eq_3 _ _ _ (fun _ hc _ => hquote hc) hquote, hpunctuation]
    dsimp only
    rw [dif_neg (Number.not_isNameStart_of_isStart hstart)]
    simp only [Number.run_number hnumber hrest, hnumber?, Option.map_some, List.drop_left]

theorem go_literal_append (s : String) (hrest : '"' ∉ rest.head?) :
    scan?.go afterComma ((StringLiteral.render s).toList ++ rest)
      =
    some (.atom (.string s) afterComma :: tokens) := by
  have htext : (StringLiteral.render s).toList ++ rest
      = '"' :: (s.toList.flatMap StringLiteral.escape ++ '"' :: rest) := by
    unfold StringLiteral.render StringLiteral.encode
    simp
  obtain ⟨hlt, hcontents⟩ := StringLiteral.contents?_escape s.toList rest
  -- Only an empty literal has a quote behind the opening one, and then no third one follows.
  have hnot : ∀ cs, s.toList.flatMap StringLiteral.escape ++ '"' :: rest ≠ '"' :: '"' :: cs := by
    intro cs hcs
    cases hs : s.toList with
    | nil =>
      rw [hs] at hcs
      cases rest with
      | nil => cases hcs
      | cons c rest =>
        cases hcs
        exact hrest rfl
    | cons c more =>
      obtain ⟨d, ds, hescape, hd⟩ := exists_escape_eq_cons c
      rw [hs, List.flatMap_cons, hescape] at hcs
      exact hd (List.cons.inj hcs).1
  rw [htext]
  apply go_of_next? (StringLiteral.length_lt_cons_of_lt '"' hlt) (by decide) _ h
  rw [next?.eq_2 _ _ hnot, hcontents]
  simp

theorem go_block_append {s : String} (hs : BlockString.Representable s.toList)
    (hlines : '\n' ∈ s.toList) (level : Nat)
    : scan?.go afterComma ((BlockString.render (newline level) s).toList ++ rest)
        =
      some (.atom (.string s) afterComma :: tokens) := by
  obtain ⟨text, raw, htext, hcontents, hvalue⟩ := BlockString.contents?_render hs hlines level rest
  have hlt : rest.length < ('"' :: '"' :: '"' :: text).length := by
    have := BlockString.length_of_contents? hcontents
    simp only [List.length_cons]
    omega
  rw [htext]
  apply go_of_next? hlt (by decide) _ h
  rw [next?.eq_1]
  split
  . next heq =>
    rw [hcontents] at heq
    cases heq
    simp [hvalue]
  . next heq =>
    rw [hcontents] at heq
    cases heq

theorem go_opening (b : Bracket) :
    scan?.go afterComma (b.openingChar :: rest) = some (.opening b :: tokens) := by
  apply go_of_next? (length_lt_cons_append _ [] rest) _ _ h
  . cases b <;> decide
  . cases b <;> rfl

theorem go_closing (b : Bracket) :
    scan?.go afterComma (b.closingChar :: rest) = some (.closing b :: tokens) := by
  apply go_of_next? (length_lt_cons_append _ [] rest) _ _ h
  . cases b <;> decide
  . cases b <;> rfl

theorem go_colon :
    scan?.go afterComma (':' :: rest) = some (.atom .colon afterComma :: tokens) :=
  go_of_next? (length_lt_cons_append ':' [] rest) (by decide) rfl h

end

end Token

end Supergraph.GraphQL
