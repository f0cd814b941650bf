import Supergraph.GraphQL.TypeRef
import Supergraph.Proofs.GraphQL.NameText

/-!
This module contains the reading of type references from their text, and the proof that it undoes
rendering.
-/

namespace Supergraph.GraphQL

namespace TypeRef

def Closes (rest : List Char) : Prop := ∀ c ∈ rest.head?, ¬ isNameContinue c ∧ c ≠ '!'

def readMark (unmarked : Bool → TypeRef) : List Char → TypeRef × List Char
  | '!' :: rest => (unmarked true, rest)
  | rest => (unmarked false, rest)

def read? : List Char → Option (TypeRef × List Char)
  | '[' :: cs =>
    match read? cs with
    | some (item, ']' :: rest) => some (readMark (.list item) rest)
    | _ => none
  | cs =>
    (Name.ofText? (String.ofList (cs.takeWhile isNameContinue))).map fun name =>
      readMark (.named name) (cs.dropWhile isNameContinue)

def ofText? (s : String) : Option TypeRef :=
  match read? s.toList with
  | some (t, []) => some t
  | _ => none

theorem readMark_bang_append (unmarked : Bool → TypeRef) (nonNull : Bool) (rest : List Char)
    (h : Closes rest)
    : readMark unmarked ((render.bang nonNull).toList ++ rest) = (unmarked nonNull, rest) := by
  cases nonNull with
  | true => rfl
  | false =>
    cases rest with
    | nil => rfl
    | cons c cs =>
      have hc : c ≠ '!' := (h c rfl).2
      change readMark unmarked (c :: cs) = _
      unfold readMark
      split
      . next heq =>
        cases heq
        exact absurd rfl hc
      . rfl

theorem head?_bang_append (nonNull : Bool) (rest : List Char) (h : Closes rest)
    : ∀ c ∈ ((render.bang nonNull).toList ++ rest).head?, ¬ isNameContinue c := by
  cases nonNull with
  | true =>
    intro c hc
    cases hc
    decide
  | false =>
    intro c hc
    exact (h c hc).1

theorem read?_name_append (name : Name) (rest : List Char)
    (h : ∀ c ∈ rest.head?, ¬ isNameContinue c)
    : read? (name.text.toList ++ rest) = some (readMark (.named name) rest) := by
  obtain ⟨c, cs, hcs, hstart, hall⟩ := name.toList_text_eq_cons
  rw [← hcs] at hall
  unfold read?
  split
  . next heq =>
    rw [hcs, List.cons_append] at heq
    cases heq
    exact absurd hstart (by decide)
  . rw [Name.takeWhile_append hall h, Name.dropWhile_append hall h, String.ofList_toList,
      Name.ofText?_text]
    rfl

theorem read?_bracket {cs rest : List Char} {item : TypeRef}
    (h : read? cs = some (item, ']' :: rest))
    : read? ('[' :: cs) = some (readMark (.list item) rest) := by
  unfold read?
  split
  . next heq =>
    cases heq
    rw [h]
    rfl
  . next hne =>
    exact absurd rfl (hne cs)

theorem read?_render_append (t : TypeRef) (rest : List Char) (h : Closes rest)
    : read? (t.render.toList ++ rest) = some (t, rest) := by
  induction t generalizing rest with
  | named name nonNull =>
    unfold render
    rw [String.toList_append, List.append_assoc, read?_name_append]
    . rw [readMark_bang_append _ _ _ h]
    . exact head?_bang_append nonNull rest h
  | list item nonNull ih =>
    have hclose : Closes (']' :: ((render.bang nonNull).toList ++ rest)) := by
      intro c hc
      cases hc
      decide
    unfold render
    simp only [String.toList_append, List.append_assoc]
    change read? ('[' :: (item.render.toList
      ++ (']' :: ((render.bang nonNull).toList ++ rest)))) = _
    rw [read?_bracket (ih _ hclose)]
    rw [readMark_bang_append _ _ _ h]

@[simp]
theorem ofText?_render (t : TypeRef) : ofText? t.render = some t := by
  have h : Closes [] := by
    intro c hc
    cases hc
  have := read?_render_append t [] h
  rw [List.append_nil] at this
  unfold ofText?
  rw [this]

theorem render_injective {t u : TypeRef} (h : t.render = u.render) : t = u := by
  have := congrArg ofText? h
  rw [ofText?_render, ofText?_render] at this
  exact Option.some.inj this

end TypeRef

end Supergraph.GraphQL
