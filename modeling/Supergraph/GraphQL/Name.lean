namespace Supergraph.GraphQL

def isNameStart (c : Char) : Bool := c.isAlpha || c == '_'

def isNameContinue (c : Char) : Bool := c.isAlphanum || c == '_'

def isName (s : String) : Bool :=
  match s.toList with
  | [] => false
  | c :: rest => isNameStart c && rest.all isNameContinue

theorem isNameContinue_of_isNameStart {c : Char} (h : isNameStart c) : isNameContinue c := by
  simp only [isNameStart, isNameContinue, Char.isAlphanum, Bool.or_eq_true] at h ⊢
  rcases h with h | h
  . exact .inl (.inl h)
  . exact .inr h

structure Name where
  text : String
  isName_text : isName text
deriving DecidableEq

instance : Inhabited Name := ⟨"_", by decide⟩

namespace Name

@[ext]
theorem ext {n m : Name} (h : n.text = m.text) : n = m := by
  cases n; cases m; cases h; rfl

def ofText? (s : String) : Option Name := if h : isName s then some ⟨s, h⟩ else none

theorem ofText?_eq_some_iff {s : String} {n : Name} : ofText? s = some n ↔ n.text = s := by
  unfold ofText?
  constructor
  . intro h
    split at h
    . cases h; rfl
    . cases h
  . intro h
    subst h
    rw [dif_pos n.isName_text]

def ofRun (c : Char) (rest : List Char) (h : isNameStart c) : Name where
  text := String.ofList (c :: rest.takeWhile isNameContinue)
  isName_text := by simp [isName, h]

def lit (text : String) (isName_text : isName text := by exact Eq.refl true) : Name :=
  ⟨text, isName_text⟩

end Name

end Supergraph.GraphQL
