import Supergraph.GraphQL.Document.Reader
import Supergraph.Proofs.GraphQL.TokenText

/-!
This module contains the reading of values from the text that they are printed as, and the proof
that it gives the value back. So two values with the same text are equal.
-/

namespace Supergraph.GraphQL

namespace Value

mutual

def tree (afterComma : Bool) : Value → TokenTree
  | .null => .atom (.name (.lit "null")) afterComma
  | .boolean b => .atom (.name (if b then .lit "true" else .lit "false")) afterComma
  | .enum e => .atom (.name e.name) afterComma
  | .number n => .atom (.number n) afterComma
  | .string s => .atom (.string s) afterComma
  | .list items => .group .square (itemTrees false items)
  | .object entries => .group .curly (entryTrees false entries)

def itemTrees (afterComma : Bool) : List Value → List TokenTree
  | [] => []
  | v :: vs => tree afterComma v :: itemTrees true vs

def entryTrees (afterComma : Bool) : List (Name × Value) → List TokenTree
  | [] => []
  | (n, v) :: es =>
    .atom (.name n) afterComma :: .atom .colon false :: tree false v :: entryTrees true es

end

theorem ofName_enum (e : EnumName) : ofName e.name = .enum e := by
  have := e.not_reserved
  simp_all [ofName, reservedWords]

mutual

theorem ofTree?_tree (afterComma : Bool) : (v : Value) → ofTree? (v.tree afterComma) = some v
  | .null => rfl
  | .boolean b => by cases b <;> rfl
  | .enum e => by simp only [tree, ofTree?, ofName_enum]
  | .number _ => rfl
  | .string _ => rfl
  | .list items => by
    simp only [tree, ofTree?, itemsOfTrees?_itemTrees false items, Option.map_some]
  | .object entries => by
    simp only [tree, ofTree?, entriesOfTrees?_entryTrees false entries, Option.map_some]

theorem itemsOfTrees?_itemTrees (afterComma : Bool) :
    (vs : List Value) → itemsOfTrees? (itemTrees afterComma vs) = some vs
  | [] => rfl
  | v :: vs => by
    simp [itemTrees, itemsOfTrees?, ofTree?_tree afterComma v, itemsOfTrees?_itemTrees true vs]

theorem entriesOfTrees?_entryTrees (afterComma : Bool) :
    (es : List (Name × Value)) → entriesOfTrees? (entryTrees afterComma es) = some es
  | [] => rfl
  | (n, v) :: es => by
    simp [entryTrees, entriesOfTrees?, ofTree?_tree false v, entriesOfTrees?_entryTrees true es]

end

open Token (scan? go_name_append go_number_append go_literal_append go_block_append go_opening
  go_closing go_colon go_nil go_ignored go_newline_append)

def Ends (rest : List Char) : Prop := ∀ c ∈ rest.head?, c = ','

theorem not_isNameContinue_of_ends {rest : List Char} (h : Ends rest) :
    ∀ c ∈ rest.head?, ¬ isNameContinue c := by
  intro c hc
  cases h c hc
  decide

theorem closes_of_ends {rest : List Char} (h : Ends rest) : Number.Closes rest := by
  intro c hc
  cases h c hc
  decide

theorem go_render_string (s : String) (level : Nat) (afterComma : Bool) {rest : List Char}
    {tokens : List Token} (hrest : Ends rest) (h : scan?.go false rest = some tokens)
    : scan?.go afterComma ((render level (.string s)).toList ++ rest)
        =
      some (.atom (.string s) afterComma :: tokens) := by
  have hquote : '"' ∉ rest.head? := by
    intro hc
    cases hrest _ hc
  unfold render renderText
  split_ifs with hlines hblock
  . exact go_block_append afterComma h hblock (by simpa using hlines) level
  . exact go_literal_append afterComma h s hquote
  . exact go_literal_append afterComma h s hquote

mutual

theorem go_render (level : Nat) (afterComma : Bool) {rest : List Char} {tokens : List Token}
    (hrest : Ends rest) (h : scan?.go false rest = some tokens)
    : (v : Value) →
      scan?.go afterComma ((v.render level).toList ++ rest)
        =
      some ((v.tree afterComma).flatten ++ tokens)
  | .null => go_name_append afterComma h (.lit "null") (not_isNameContinue_of_ends hrest)
  | .boolean true => go_name_append afterComma h (.lit "true") (not_isNameContinue_of_ends hrest)
  | .boolean false => go_name_append afterComma h (.lit "false") (not_isNameContinue_of_ends hrest)
  | .enum e => go_name_append afterComma h e.name (not_isNameContinue_of_ends hrest)
  | .number n => go_number_append afterComma h n (closes_of_ends hrest)
  | .string s => go_render_string s level afterComma hrest h
  | .list [] => by
    have := go_opening afterComma (go_closing false h .square) .square
    simpa [render, tree, itemTrees, TokenTree.flatten, TokenTree.flattenAll, Bracket.openingChar,
      Bracket.closingChar] using this
  | .object [] => by
    have := go_opening afterComma (go_closing false h .curly) .curly
    simpa [render, tree, entryTrees, TokenTree.flatten, TokenTree.flattenAll, Bracket.openingChar,
      Bracket.closingChar] using this
  | .list (v :: vs) => by
    have hclosing : ∀ afterComma, scan?.go afterComma ((newline level).toList ++ ']' :: rest)
        = some (.closing .square :: tokens) :=
      fun afterComma => (go_newline_append level afterComma _).trans (go_closing afterComma h .square)
    have hitems := go_renderItems (level + 1) false hclosing (v :: vs)
    have := go_opening afterComma hitems .square
    simpa [render, tree, TokenTree.flatten, Bracket.openingChar, Bracket.closingChar] using this
  | .object (e :: es) => by
    have hclosing : ∀ afterComma, scan?.go afterComma ((newline level).toList ++ '\x7d' :: rest)
        = some (.closing .curly :: tokens) :=
      fun afterComma => (go_newline_append level afterComma _).trans (go_closing afterComma h .curly)
    have hentries := go_renderEntries (level + 1) false hclosing (e :: es)
    have := go_opening afterComma hentries .curly
    simpa [render, tree, TokenTree.flatten, Bracket.openingChar, Bracket.closingChar] using this

theorem go_renderItems (level : Nat) (afterComma : Bool) {rest : List Char} {tokens : List Token}
    (h : ∀ afterComma, scan?.go afterComma rest = some tokens)
    : (vs : List Value) →
      scan?.go afterComma ((renderItems level vs).toList ++ rest)
        =
      some (TokenTree.flattenAll (itemTrees afterComma vs) ++ tokens)
  | [] => h afterComma
  | v :: vs => by
    have hmore := go_renderItems level true h vs
    have hcomma : scan?.go false (',' :: ((renderItems level vs).toList ++ rest))
        = some (TokenTree.flattenAll (itemTrees true vs) ++ tokens) :=
      (go_ignored rfl false _).trans hmore
    have hv := go_render level afterComma (by rintro c ⟨⟩; rfl) hcomma v
    simpa [renderItems, itemTrees, TokenTree.flattenAll, go_newline_append] using hv

theorem go_renderEntries (level : Nat) (afterComma : Bool) {rest : List Char} {tokens : List Token}
    (h : ∀ afterComma, scan?.go afterComma rest = some tokens)
    : (es : List (Name × Value)) →
      scan?.go afterComma ((renderEntries level es).toList ++ rest)
        =
      some (TokenTree.flattenAll (entryTrees afterComma es) ++ tokens)
  | [] => h afterComma
  | (n, v) :: es => by
    have hmore := go_renderEntries level true h es
    have hcomma : scan?.go false (',' :: ((renderEntries level es).toList ++ rest))
        = some (TokenTree.flattenAll (entryTrees true es) ++ tokens) :=
      (go_ignored rfl false _).trans hmore
    have hv := go_render level false (by rintro c ⟨⟩; rfl) hcomma v
    have hcolon := go_colon false ((go_ignored (c := ' ') rfl false _).trans hv)
    have hn := go_name_append afterComma hcolon n (by rintro c ⟨⟩; decide)
    simpa [renderEntries, entryTrees, TokenTree.flattenAll, TokenTree.flatten, go_newline_append]
      using hn

end

def ofText? (cs : List Char) : Option Value := do
  match ← TokenTree.nest? (← scan? cs) with
  | [t] => ofTree? t
  | _ => none

theorem ofText?_render (level : Nat) (v : Value) : ofText? (v.render level).toList = some v := by
  have hscan : scan? (v.render level).toList = some (TokenTree.flattenAll [v.tree false]) := by
    have := go_render level false (by rintro c ⟨⟩) (go_nil false) v
    simpa [scan?, TokenTree.flattenAll] using this
  simp [ofText?, hscan, TokenTree.nest?_flattenAll, ofTree?_tree]

theorem render_injective (level : Nat) : Function.Injective (render level) := by
  intro v w h
  have hread := ofText?_render level v
  rw [h, ofText?_render level w] at hread
  exact (Option.some.inj hread).symm

end Value

end Supergraph.GraphQL
