import Supergraph.GraphQL.Name

namespace Supergraph

namespace Text

theorem isLower_iff (c : Char) : c.isLower ↔ 97 ≤ c.toNat ∧ c.toNat ≤ 122 :=
  (Bool.and_eq_true _ _).to_iff.trans (and_congr decide_eq_true_iff decide_eq_true_iff)

theorem isUpper_iff (c : Char) : c.isUpper ↔ 65 ≤ c.toNat ∧ c.toNat ≤ 90 := decide_eq_true_iff

theorem isDigit_iff (c : Char) : c.isDigit ↔ 48 ≤ c.toNat ∧ c.toNat ≤ 57 :=
  (Bool.and_eq_true _ _).to_iff.trans (and_congr decide_eq_true_iff decide_eq_true_iff)

end Text

namespace GraphQL

theorem isNameStart_iff (c : Char) : isNameStart c ↔ (c.isUpper ∨ c.isLower) ∨ c = '_' := by
  change (c.isUpper || c.isLower || c == '_') = true ↔ _
  rw [Bool.or_eq_true, Bool.or_eq_true, beq_iff_eq]

theorem isNameContinue_of_isDigit {c : Char} (h : c.isDigit) : isNameContinue c := by
  simp [isNameContinue, Char.isAlphanum, h]

theorem not_isNameStart_of_isDigit {c : Char} (h : c.isDigit) : ¬ isNameStart c := by
  rw [Text.isDigit_iff] at h
  rw [isNameStart_iff, Text.isUpper_iff, Text.isLower_iff]
  rintro ((hupper | hlower) | rfl)
  . omega
  . omega
  . revert h
    decide

namespace Name

theorem toList_text_eq_cons (n : Name) :
    ∃ c cs, n.text.toList = c :: cs ∧ isNameStart c ∧ ∀ x ∈ c :: cs, isNameContinue x := by
  have h := n.isName_text
  unfold isName at h
  split at h
  . cases h
  . next c cs heq =>
    simp only [Bool.and_eq_true, List.all_eq_true] at h
    refine ⟨c, cs, heq, h.1, ?_⟩
    intro x hx
    cases List.mem_cons.1 hx with
    | inl hxc =>
      rw [hxc]
      exact isNameContinue_of_isNameStart h.1
    | inr hxcs => exact h.2 x hxcs

theorem takeWhile_append {cs rest : List Char} (hcs : ∀ x ∈ cs, isNameContinue x)
    (hrest : ∀ c ∈ rest.head?, ¬ isNameContinue c)
    : (cs ++ rest).takeWhile isNameContinue = cs := by
  rw [List.takeWhile_append_of_pos hcs]
  cases rest with
  | nil => simp
  | cons x xs => simp [hrest x rfl]

theorem dropWhile_append {cs rest : List Char} (hcs : ∀ x ∈ cs, isNameContinue x)
    (hrest : ∀ c ∈ rest.head?, ¬ isNameContinue c)
    : (cs ++ rest).dropWhile isNameContinue = rest := by
  rw [List.dropWhile_append_of_pos hcs]
  cases rest with
  | nil => rfl
  | cons x xs => simp [hrest x rfl]

theorem ofText?_text (n : Name) : ofText? n.text = some n :=
  ofText?_eq_some_iff.2 rfl

end Name

end GraphQL

end Supergraph
