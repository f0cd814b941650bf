import Supergraph.Proofs.GraphQL.NameText
import Supergraph.Proofs.Identity.Numbering

namespace Supergraph

open GraphQL

namespace Text

def IsSmall (code : Nat) : Prop := 0x61 ≤ code ∧ code ≤ 0x7a

instance (code : Nat) : Decidable (IsSmall code) := inferInstanceAs (Decidable (_ ∧ _))

theorem not_isSmall_toNat_ofNat {code : Nat} (h : ¬ IsSmall code) :
    ¬ IsSmall (Char.ofNat code).toNat := by
  by_cases hvalid : code.isValidChar
  . have htoNat : (Char.ofNat code).toNat = code := by
      unfold Char.ofNat
      rw [dif_pos hvalid]
      rfl
    rw [htoNat]
    exact h
  . have htoNat : Char.ofNat code = Char.ofNat 0 := by
      unfold Char.ofNat
      rw [dif_neg hvalid]
      rfl
    rw [htoNat]
    decide

theorem CaseRun.not_isSmall_of_map? {run : CaseRun} {code code' : Nat}
    (hrun : run.last + run.shift < 0x61 ∨ 0x7a < run.first + run.shift)
    (h : run.map? code = some code') : ¬ IsSmall code' := by
  unfold CaseRun.map? at h
  split at h
  . cases h
    unfold IsSmall
    omega
  . cases h

theorem not_isSmall_of_mem_upperChar {c d : Char} (h : d ∈ upperChar c) : ¬ IsSmall d.toNat := by
  have hexpansions : ∀ e ∈ upperExpansions, ∀ code ∈ e.2, ¬ IsSmall code := by decide +kernel
  have hruns : ∀ run ∈ upperRuns,
      run.last + run.shift < 0x61 ∨ 0x7a < run.first + run.shift := by
    decide +kernel
  unfold upperChar mapCase at h
  split at h
  . next codes hlookup =>
    obtain ⟨code, hcode, rfl⟩ := List.mem_map.1 h
    obtain ⟨before, after, hmem, -⟩ := List.lookup_eq_some_iff.1 hlookup
    exact not_isSmall_toNat_ofNat (hexpansions (c.toNat, codes) (by simp [hmem]) code hcode)
  . cases hfind : upperRuns.findSome? (·.map? c.toNat) with
    | some code =>
      rw [hfind] at h
      cases List.mem_singleton.1 h
      obtain ⟨run, hmem, hmap⟩ := List.exists_of_findSome?_eq_some hfind
      exact not_isSmall_toNat_ofNat (CaseRun.not_isSmall_of_map? (hruns run hmem) hmap)
    | none =>
      rw [hfind] at h
      cases List.mem_singleton.1 h
      -- A small letter is in the first run.
      rw [List.findSome?_eq_none_iff] at hfind
      have hfirst := hfind ⟨0x61, 0x7a, 1, -32⟩ (List.mem_cons_self ..)
      intro hsmall
      unfold CaseRun.map? at hfirst
      rw [if_pos ⟨hsmall.1, hsmall.2, Nat.mod_one _⟩] at hfirst
      cases hfirst

theorem isLower_eq_false_of_mem_toUpper {s : String} {c : Char} (h : c ∈ (toUpper s).toList) :
    c.isLower = false := by
  rw [toList_toUpper] at h
  obtain ⟨d, -, hc⟩ := List.mem_flatMap.1 h
  have hsmall := not_isSmall_of_mem_upperChar hc
  rw [Bool.eq_false_iff]
  intro hlower
  exact hsmall ((isLower_iff c).1 hlower)

end Text

namespace GraphQL

def Name.IsCapital (n : Name) : Prop :=
  ∃ c rest, n.text.toList = c :: rest ∧ (c = '_' ∨ c.isUpper)
    ∧ ∀ d ∈ rest, d = '_' ∨ d.isUpper ∨ d.isDigit

end GraphQL

namespace GraphId

theorem enumChar_of_not_isLower {c : Char} (h : c.isLower = false) :
    enumChar c = '_' ∨ (enumChar c).isUpper ∨ (enumChar c).isDigit := by
  unfold enumChar
  split
  . next halphanum =>
    change (c.isUpper || c.isLower || c.isDigit) = true at halphanum
    rw [h, Bool.or_false, Bool.or_eq_true] at halphanum
    exact .inr halphanum
  . exact .inl rfl

theorem isCapital_of_enumValue? {id : GraphId} {v : Name} (h : id.enumValue? = some v) :
    v.IsCapital := by
  unfold enumValue? at h
  rw [Name.ofText?_eq_some_iff] at h
  have hchars : ∀ d ∈ id.enumText.toList, d = '_' ∨ d.isUpper ∨ d.isDigit := by
    have hupper : ∀ d ∈ (Text.toUpper id.text).toList.map enumChar,
        d = '_' ∨ d.isUpper ∨ d.isDigit := by
      intro d hd
      obtain ⟨c, hc, rfl⟩ := List.mem_map.1 hd
      exact enumChar_of_not_isLower (Text.isLower_eq_false_of_mem_toUpper hc)
    intro d hd
    rw [toList_enumText] at hd
    unfold enumChars at hd
    dsimp only at hd
    split at hd
    . cases List.mem_cons.1 hd with
      | inl heq => exact .inl heq
      | inr hd => exact hupper d hd
    . exact hupper d hd
  have hname := v.isName_text
  unfold isName at hname
  split at hname
  . cases hname
  . next c rest htext =>
    rw [← h, htext] at hchars
    refine ⟨c, rest, htext, ?_, fun d hd => hchars d (List.mem_cons_of_mem c hd)⟩
    -- A name does not start with a digit.
    have hstart : isNameStart c := (Bool.and_eq_true_iff.1 hname).1
    obtain heq | hupper | hdigit := hchars c List.mem_cons_self
    . exact .inl heq
    . exact .inr hupper
    . exact absurd hstart (not_isNameStart_of_isDigit hdigit)

end GraphId

end Supergraph
