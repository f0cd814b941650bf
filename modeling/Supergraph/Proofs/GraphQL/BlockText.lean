import Mathlib.Data.List.Basic
import Supergraph.GraphQL.Layout.Value

/-!
This module contains the reading of block strings that are laid out at a nesting level: the text of
such a block string, without what its lines have in common, is the text that was written.
-/

namespace Supergraph.GraphQL.BlockString

theorem lines_eq_splitOn {cs : List Char} (h : '\r' ∉ cs) : lines cs = cs.splitOn '\n' := by
  rw [List.splitOn_eq_splitOnP]
  fun_induction lines cs with
  | case1 => rfl
  | case2 | case3 => simp at h
  | case4 rest ih =>
    rw [List.splitOnP_cons_eq_if_modifyHead, ih (List.not_mem_of_not_mem_cons h)]
    rfl
  | case5 c rest _ _ hfeed line more hlines ih =>
    have hc : (c == '\n') = false := beq_false_of_ne hfeed
    rw [List.splitOnP_cons_eq_if_modifyHead, ← ih (List.not_mem_of_not_mem_cons h), hlines, hc]
    rfl
  | case6 c rest _ _ _ hlines ih =>
    rw [ih (List.not_mem_of_not_mem_cons h)] at hlines
    exact absurd hlines (List.splitOnP_ne_nil _ _)

theorem not_mem_of_mem_lines {cs line : List Char} (h : line ∈ lines cs) :
    '\n' ∉ line ∧ '\r' ∉ line := by
  fun_induction lines cs generalizing line <;> grind

theorem contents?_cons {c : Char} (hc : c ≠ '"' ∧ c ≠ '\\') {cs raw rest : List Char}
    (h : contents? cs = some (raw, rest)) : contents? (c :: cs) = some (c :: raw, rest) := by
  rw [contents?.eq_3 c cs (fun _ hquote _ => hc.1 hquote) (fun _ hslash _ => hc.2 hslash), h]
  rfl

theorem contents?_append {text : List Char} (htext : ∀ c ∈ text, c ≠ '"' ∧ c ≠ '\\')
    {cs raw rest : List Char} (h : contents? cs = some (raw, rest))
    : contents? (text ++ cs) = some (text ++ raw, rest) := by
  induction text with
  | nil => exact h
  | cons c text ih =>
    exact contents?_cons (htext c List.mem_cons_self) (ih fun d hd => htext d (by simp [hd]))

theorem escape_eq_quote_cons {line tail cs : List Char}
    (h : escape line ++ '\n' :: tail = '"' :: cs)
    : ∃ line', line = '"' :: line' ∧ escape line' ++ '\n' :: tail = cs := by
  cases line with
  | nil => cases h
  | cons c line =>
    unfold escape at h
    split at h
    . cases h
    . next heq =>
      cases heq
      rw [List.cons_append] at h
      cases h
      exact ⟨line, rfl, rfl⟩
    . next heq => cases heq

theorem contents?_escape_append (line : List Char) {tail raw rest : List Char}
    (h : contents? ('\n' :: tail) = some (raw, rest))
    : contents? (escape line ++ '\n' :: tail) = some (line ++ raw, rest) := by
  fun_induction escape line with
  | case1 line ih =>
    -- Three quotes in a row are escaped, and read back as one group.
    change contents? ('\\' :: '"' :: '"' :: '"' :: (escape line ++ '\n' :: tail)) = _
    rw [contents?.eq_2, ih]
    rfl
  | case2 c line hnot ih =>
    rw [List.cons_append, contents?.eq_3, ih]
    . rfl
    -- What is left as it is looks like neither a closing nor an escaped group.
    . intro cs hc hcs
      obtain ⟨_, rfl, hcs₁⟩ := escape_eq_quote_cons hcs
      obtain ⟨line, rfl, -⟩ := escape_eq_quote_cons hcs₁
      exact hnot line hc rfl
    . intro cs _ hcs
      obtain ⟨_, rfl, hcs₁⟩ := escape_eq_quote_cons hcs
      obtain ⟨_, rfl, hcs₂⟩ := escape_eq_quote_cons hcs₁
      obtain ⟨_, rfl, -⟩ := escape_eq_quote_cons hcs₂
      cases hcs
  | case3 => exact h

def indented (indent line : List Char) : List Char := if line.isEmpty then [] else indent ++ line

def blanks (n : Nat) : List Char := List.replicate n ' '

theorem toList_newline (level : Nat) : (newline level).toList = '\n' :: blanks (2 * level) := by
  simp [newline, blanks]

theorem intercalate_cons (line : List Char) (ls : List (List Char)) :
    ['\n'].intercalate (line :: ls) = line ++ ls.flatMap ('\n' :: ·) := by
  induction ls generalizing line with
  | nil => simp
  | cons next ls ih =>
    rw [List.intercalate_cons_cons, ih, List.flatMap_cons]
    simp

theorem isBlankLine_indented (n : Nat) (line : List Char) :
    isBlankLine (indented (blanks n) line) = isBlankLine line := by
  unfold indented blanks isBlankLine
  split
  . next h =>
    rw [List.isEmpty_iff] at h
    rw [h]
  . simp [isBlank]

theorem indentation_indented (n : Nat) {line : List Char} (h : isBlankLine line = false) :
    indentation (indented (blanks n) line) = n + indentation line := by
  have hne : line.isEmpty = false := by
    cases line with
    | nil => cases h
    | cons => rfl
  unfold indented indentation
  rw [hne, if_neg Bool.false_ne_true, List.takeWhile_append_of_pos, List.length_append]
  . simp [blanks]
  . simp [blanks, isBlank]

theorem commonIndentation?_indented (n : Nat) {ls : List (List Char)}
    (h : commonIndentation? ls = some 0)
    : commonIndentation? (ls.map (indented (blanks n)) ++ [blanks n]) = some n := by
  have hfilter : (ls.map (indented (blanks n)) ++ [blanks n]).filter (!isBlankLine ·)
      = (ls.filter (!isBlankLine ·)).map (indented (blanks n)) := by
    have hblanks : isBlankLine (blanks n) := by simp [isBlankLine, blanks, isBlank]
    rw [List.filter_append, List.filter_map]
    simp [Function.comp_def, isBlankLine_indented, hblanks]
  unfold commonIndentation? at *
  rw [hfilter, List.map_map]
  rw [List.min?_eq_some_iff] at *
  obtain ⟨hmem, -⟩ := h
  obtain ⟨line, hline, hzero⟩ := List.mem_map.1 hmem
  have hindented : ∀ line ∈ ls.filter (!isBlankLine ·),
      indentation (indented (blanks n) line) = n + indentation line := by
    intro line hline
    exact indentation_indented n (by simpa using (List.mem_filter.1 hline).2)
  constructor
  . refine List.mem_map.2 ⟨line, hline, ?_⟩
    rw [Function.comp_apply, hindented line hline, hzero, Nat.add_zero]
  . intro k hk
    obtain ⟨line, hline, rfl⟩ := List.mem_map.1 hk
    rw [Function.comp_apply, hindented line hline]
    exact Nat.le_add_right n _

theorem dropBlankEnds_of_not_blank {ls : List (List Char)} (hne : ls ≠ [])
    (hfirst : ls.head?.all (!isBlankLine ·)) (hlast : ls.getLast?.all (!isBlankLine ·))
    : dropBlankEnds ([] :: (ls ++ [[]])) = ls := by
  have hdrop : ∀ ls : List (List Char), ls.head?.all (!isBlankLine ·) →
      ls.dropWhile isBlankLine = ls := by
    intro ls h
    cases ls with
    | nil => rfl
    | cons line more => exact List.dropWhile_cons_of_neg (by simpa using h)
  have hreverse : ls.reverse.head?.all (!isBlankLine ·) := by
    rwa [List.head?_reverse]
  unfold dropBlankEnds
  change (((ls ++ [[]]).dropWhile isBlankLine).reverse.dropWhile isBlankLine).reverse = ls
  rw [hdrop (ls ++ [[]]) (by rwa [List.head?_append_of_ne_nil _ hne]), List.reverse_append]
  change (ls.reverse.dropWhile isBlankLine).reverse = ls
  rw [hdrop _ hreverse, List.reverse_reverse]

def laidOut (n : Nat) (cs : List Char) : List Char :=
  ((lines cs).map (indented (blanks n)) ++ [blanks n]).flatMap ('\n' :: ·)

theorem lines_laidOut (n : Nat) (cs : List Char) :
    lines (laidOut n cs) = [] :: ((lines cs).map (indented (blanks n)) ++ [blanks n]) := by
  have hfree : ∀ line ∈ (lines cs).map (indented (blanks n)) ++ [blanks n],
      '\n' ∉ line ∧ '\r' ∉ line := by
    intro line hline
    rw [List.mem_append, List.mem_map, List.mem_singleton] at hline
    obtain ⟨line, hline, rfl⟩ | rfl := hline
    . have := not_mem_of_mem_lines hline
      unfold indented blanks
      split <;> simp [this]
    . simp [blanks]
  have hlaidOut := intercalate_cons [] ((lines cs).map (indented (blanks n)) ++ [blanks n])
  rw [List.nil_append] at hlaidOut
  rw [lines_eq_splitOn, laidOut, ← hlaidOut, List.splitOn_intercalate]
  . simpa using fun line hline => (hfree line hline).1
  . exact List.cons_ne_nil _ _
  . unfold laidOut
    simp only [List.mem_flatMap, List.mem_cons, not_exists, not_and, not_or]
    exact fun line hline => ⟨by decide, (hfree line hline).2⟩

theorem value_laidOut (n : Nat) {cs : List Char} (h : Representable cs) :
    value (laidOut n cs) = cs := by
  obtain ⟨hreturn, hfirst, hlast, hcommon⟩ := h
  have hne : lines cs ≠ [] := by
    rw [lines_eq_splitOn hreturn]
    exact List.splitOn_ne_nil _ _
  -- The indentation that all lines share is the one they were given.
  have hundo : ((lines cs).map (indented (blanks n)) ++ [blanks n]).map (·.drop n)
      = lines cs ++ [[]] := by
    have hdrop : ((·.drop n) ∘ indented (blanks n)) = id := by
      funext line
      unfold indented blanks
      cases line <;> simp
    rw [List.map_append, List.map_map, hdrop]
    simp [blanks]
  unfold value
  rw [lines_laidOut]
  dsimp only
  rw [commonIndentation?_indented n hcommon, Option.getD_some, hundo,
    dropBlankEnds_of_not_blank hne hfirst hlast, lines_eq_splitOn hreturn]
  exact List.intercalate_splitOn '\n'

theorem isEmpty_escape (line : List Char) : (escape line).isEmpty = line.isEmpty := by
  unfold escape
  split <;> rfl

theorem toList_render {s : String} (hlines : '\n' ∈ s.toList) (level : Nat) :
    (render (newline level) s).toList
      =
    '"' :: '"' :: '"' :: ((lines s.toList).flatMap fun line =>
      '\n' :: indented (blanks (2 * level)) (escape line))
        ++ '\n' :: (blanks (2 * level) ++ ['"', '"', '"']) := by
  have hneeds : needsLines s := by
    unfold needsLines
    simp [hlines]
  have hline : ∀ line : List Char,
      (if line.isEmpty then "\n" else newline level ++ String.ofList (escape line)).toList
        = '\n' :: indented (blanks (2 * level)) (escape line) := by
    intro line
    unfold indented
    rw [isEmpty_escape]
    split
    . rfl
    . simp [toList_newline]
  unfold render
  simp only [hneeds, if_true, String.toList_append, String.toList_join, List.flatMap_map, hline,
    toList_newline]
  simp

theorem contents?_newline_append (n : Nat) {cs raw rest : List Char}
    (h : contents? cs = some (raw, rest))
    : contents? ('\n' :: (blanks n ++ cs)) = some ('\n' :: (blanks n ++ raw), rest) := by
  have hplain : ∀ c ∈ '\n' :: blanks n, c ≠ '"' ∧ c ≠ '\\' := by
    simp [blanks]
  exact contents?_append hplain h

theorem contents?_indented (n : Nat) (line : List Char) {tail raw rest : List Char}
    (h : contents? ('\n' :: tail) = some (raw, rest))
    : contents? ('\n' :: (indented (blanks n) (escape line) ++ '\n' :: tail))
        =
      some ('\n' :: (indented (blanks n) line ++ raw), rest) := by
  unfold indented
  rw [isEmpty_escape]
  split
  . exact contents?_cons (by decide) h
  . rw [List.append_assoc, List.append_assoc]
    exact contents?_newline_append n (contents?_escape_append line h)

theorem contents?_laidOut (n : Nat) (ls : List (List Char)) (rest : List Char) :
    contents? ((ls.flatMap fun line => '\n' :: indented (blanks n) (escape line))
        ++ '\n' :: (blanks n ++ '"' :: '"' :: '"' :: rest))
      =
    some ((ls.map (indented (blanks n)) ++ [blanks n]).flatMap ('\n' :: ·), rest) := by
  induction ls with
  | nil =>
    have h := contents?_newline_append n (contents?.eq_1 rest)
    simpa using h
  | cons line ls ih =>
    -- The rest starts with a line feed, whether it has more lines or not.
    obtain ⟨tail, htail⟩ : ∃ tail,
        (ls.flatMap fun line => '\n' :: indented (blanks n) (escape line))
          ++ '\n' :: (blanks n ++ '"' :: '"' :: '"' :: rest) = '\n' :: tail := by
      cases ls <;> exact ⟨_, rfl⟩
    rw [htail] at ih
    have h := contents?_indented n line ih
    rw [← htail] at h
    simpa using h

theorem contents?_render {s : String} (h : Representable s.toList) (hlines : '\n' ∈ s.toList)
    (level : Nat) (rest : List Char)
    : ∃ text raw, (render (newline level) s).toList ++ rest = '"' :: '"' :: '"' :: text
        ∧ contents? text = some (raw, rest) ∧ value raw = s.toList := by
  rw [toList_render hlines]
  refine ⟨_, _, ?_, contents?_laidOut (2 * level) _ rest, value_laidOut (2 * level) h⟩
  simp

end Supergraph.GraphQL.BlockString
