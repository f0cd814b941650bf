import Supergraph.GraphQL.Token

/-!
This module contains token trees: tokens grouped by matching brackets. Nesting a list of tokens
fails exactly where brackets do not match, and flattening gives the tokens back.
-/

namespace Supergraph.GraphQL

inductive TokenTree
  | atom (a : Atom) (afterComma : Bool)
  | group (b : Bracket) (items : List TokenTree)
deriving Inhabited

namespace TokenTree

mutual

def flatten : TokenTree → List Token
  | .atom a afterComma => [.atom a afterComma]
  | .group b items => .opening b :: flattenAll items ++ [.closing b]

def flattenAll : List TokenTree → List Token
  | [] => []
  | t :: ts => flatten t ++ flattenAll ts

end

/--
Reads tokens into the group that is open: `items` are its trees so far, in reverse, and `outer` the
groups around it, innermost first, each with its bracket and the trees before it.
-/
def nest?.go (outer : List (Bracket × List TokenTree)) (items : List TokenTree) :
    List Token → Option (List TokenTree)
  | [] => if outer.isEmpty then some items.reverse else none
  | .atom a afterComma :: rest => go outer (.atom a afterComma :: items) rest
  | .opening b :: rest => go ((b, items) :: outer) [] rest
  | .closing b :: rest =>
    match outer with
    | (b', before) :: outer =>
      if b = b' then go outer (.group b items.reverse :: before) rest else none
    | [] => none

def nest? (tokens : List Token) : Option (List TokenTree) := nest?.go [] [] tokens

theorem flattenAll_append (ts us : List TokenTree) :
    flattenAll (ts ++ us) = flattenAll ts ++ flattenAll us := by
  induction ts with
  | nil => rfl
  | cons t ts ih => simp [flattenAll, ih]

def flattenOpen : List (Bracket × List TokenTree) → List TokenTree → List Token
  | [], items => flattenAll items.reverse
  | (b, before) :: outer, items =>
    flattenOpen outer before ++ .opening b :: flattenAll items.reverse

theorem flattenOpen_cons (outer : List (Bracket × List TokenTree)) (t : TokenTree)
    (items : List TokenTree) :
    flattenOpen outer (t :: items) = flattenOpen outer items ++ flatten t := by
  cases outer <;> simp [flattenOpen, flattenAll_append, flattenAll]

theorem nest?.flatten_go {outer : List (Bracket × List TokenTree)} {items ts : List TokenTree}
    {tokens : List Token} (h : go outer items tokens = some ts) :
    flattenAll ts = flattenOpen outer items ++ tokens := by
  induction tokens generalizing outer items with
  | nil =>
    cases outer with
    | nil => simp [go] at h; simp [flattenOpen, h]
    | cons => simp [go] at h
  | cons token rest ih =>
    cases token with
    | atom a afterComma =>
      rw [ih (by simpa only [go] using h), flattenOpen_cons]
      simp [flatten]
    | opening b =>
      rw [ih (by simpa only [go] using h)]
      simp [flattenOpen, flattenAll]
    | closing b =>
      cases outer with
      | nil => simp [go] at h
      | cons frame outer =>
        obtain ⟨b', before⟩ := frame
        simp only [go] at h
        split at h
        . rename_i hb
          subst hb
          rw [ih h, flattenOpen_cons]
          simp [flatten, flattenOpen]
        . cases h

mutual

theorem nest?.go_flatten (outer : List (Bracket × List TokenTree)) (items : List TokenTree)
    (rest : List Token) :
    (t : TokenTree) → go outer items (flatten t ++ rest) = go outer (t :: items) rest
  | .atom a afterComma => by simp [flatten, go]
  | .group b ts => by
    have h := nest?.go_flattenAll ((b, items) :: outer) [] (.closing b :: rest) ts
    simp only [List.append_nil] at h
    simp [flatten, go, h]

theorem nest?.go_flattenAll (outer : List (Bracket × List TokenTree)) (items : List TokenTree)
    (rest : List Token) :
    (ts : List TokenTree) →
      go outer items (flattenAll ts ++ rest) = go outer (ts.reverse ++ items) rest
  | [] => by simp [flattenAll]
  | t :: ts => by
    simp only [flattenAll, List.append_assoc, List.reverse_cons, List.singleton_append]
    rw [nest?.go_flatten outer items _ t, nest?.go_flattenAll outer (t :: items) rest ts]

end

theorem flattenAll_of_nest? {tokens : List Token} {ts : List TokenTree}
    (h : nest? tokens = some ts) : flattenAll ts = tokens := by
  simpa [flattenOpen, flattenAll] using nest?.flatten_go h

theorem nest?_flattenAll (ts : List TokenTree) : nest? (flattenAll ts) = some ts := by
  have h := nest?.go_flattenAll [] [] [] ts
  simp only [List.append_nil] at h
  simp [nest?, h, nest?.go]

theorem nest?_eq_some_iff {tokens : List Token} {ts : List TokenTree} :
    nest? tokens = some ts ↔ flattenAll ts = tokens :=
  ⟨flattenAll_of_nest?, fun h => h ▸ nest?_flattenAll ts⟩

end TokenTree

end Supergraph.GraphQL
