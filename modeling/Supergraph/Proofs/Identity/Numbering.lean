import Mathlib.Data.List.Perm.Subperm
import Mathlib.Data.List.Nodup
import Mathlib.Order.Bounds.Defs
import Std.Data.String.ToNat
import Supergraph.Identity

/-!
This module contains the proof that numbering succeeds: different numbers of one text have different
enum values, so one of them is free.
-/

namespace Supergraph

open GraphQL

namespace GraphId

def enumChar (c : Char) : Char := if c.isAlphanum then c else '_'

theorem isNameContinue_enumChar (c : Char) : isNameContinue (enumChar c) := by
  unfold enumChar isNameContinue
  split
  . next h => simp [h]
  . decide

theorem isNameStart_enumChar (c : Char) (h : (enumChar c).isDigit = false) :
    isNameStart (enumChar c) := by
  have := isNameContinue_enumChar c
  unfold isNameContinue Char.isAlphanum at this
  rw [h] at this
  simpa [isNameStart] using this

def enumChars (upper : List Char) : List Char :=
  let cs := upper.map enumChar
  if cs.head?.any Char.isDigit then '_' :: cs else cs

theorem toList_enumText (id : GraphId) :
    id.enumText.toList = enumChars (Text.toUpper id.text).toList := by
  unfold enumText enumChars enumChar
  rw [String.toList_ofList]

theorem isName_enumText {id : GraphId} (h : (Text.toUpper id.text).toList ≠ []) :
    isName id.enumText := by
  unfold isName
  rw [toList_enumText]
  obtain ⟨c, cs, hcs⟩ := List.exists_cons_of_ne_nil h
  have hrest : (cs.map enumChar).all isNameContinue := by
    rw [List.all_map, List.all_eq_true]
    intro x _
    exact isNameContinue_enumChar x
  rw [hcs]
  unfold enumChars
  cases hdigit : (enumChar c).isDigit with
  | true =>
    simp only [List.map_cons, List.head?_cons, Option.any_some, hdigit, if_true, List.all_cons,
      isNameContinue_enumChar, hrest]
    decide
  | false =>
    simp only [List.map_cons, List.head?_cons, Option.any_some, hdigit, Bool.false_eq_true,
      if_false, hrest, isNameStart_enumChar c hdigit, Bool.and_self]

end GraphId

namespace Text

theorem upperChar_of_lt {c : Char} (h : c.toNat < 0x61) : upperChar c = [c] := by
  have hexpansions : ∀ e ∈ upperExpansions, 0x60 < e.1 := by decide +kernel
  have hruns : ∀ run ∈ upperRuns, 0x60 < run.first := by decide +kernel
  have hlookup : upperExpansions.lookup c.toNat = none := by
    rw [List.lookup_eq_none_iff]
    intro e he
    have := hexpansions e he
    rw [bne_iff_ne]
    omega
  have hrun : upperRuns.findSome? (·.map? c.toNat) = none := by
    rw [List.findSome?_eq_none_iff]
    intro run hmem
    have := hruns run hmem
    unfold CaseRun.map?
    rw [if_neg]
    omega
  unfold upperChar mapCase
  rw [hlookup, hrun]
  rfl

theorem toList_toUpper (s : String) : (toUpper s).toList = s.toList.flatMap upperChar := by
  unfold toUpper
  rw [String.toList_ofList]

theorem toList_toUpper_ne_nil {s : String} (h : s ≠ "") : (toUpper s).toList ≠ [] := by
  rw [toList_toUpper, Ne, List.flatMap_eq_nil_iff]
  intro hall
  apply h
  rw [← String.toList_eq_nil_iff]
  apply List.eq_nil_iff_forall_not_mem.2
  intro c hc
  exact upperChar_ne_nil c (hall c hc)

theorem toNat_lt_of_isDigit {c : Char} (h : c.isDigit) : c.toNat < 0x61 := by
  simp only [Char.isDigit, Bool.and_eq_true, decide_eq_true_eq, UInt32.le_iff_toNat_le] at h
  have := h.2
  change c.toNat ≤ 57 at this
  omega

theorem flatMap_upperChar_digits {cs : List Char} (h : ∀ c ∈ cs, c.isDigit) :
    cs.flatMap upperChar = cs := by
  induction cs with
  | nil => rfl
  | cons c cs ih =>
    rw [List.flatMap_cons, ih (fun x hx => h x (by simp [hx]))]
    rw [upperChar_of_lt (toNat_lt_of_isDigit (h c (by simp)))]
    rfl

end Text

namespace Identities

theorem toList_toUpper_numbered (canonical : String) (number : Nat) :
    (Text.toUpper (numbered canonical number).text).toList
      =
    (Text.toUpper canonical).toList.flatMap Text.upperChar ++ '_' :: number.repr.toList := by
  have hdigits : ∀ c ∈ number.repr.toList, c.isDigit := by
    intro c hc
    rw [Nat.toList_repr] at hc
    exact Nat.isDigit_of_mem_toDigits (by omega) (by omega) hc
  have hunderscore : Text.upperChar '_' = ['_'] := Text.upperChar_of_lt (by decide)
  unfold numbered
  rw [Text.toList_toUpper]
  simp only [String.toList_append, List.flatMap_append, Text.flatMap_upperChar_digits hdigits]
  simp [hunderscore]

theorem isSome_enumValue?_numbered (canonical : String) (number : Nat) :
    (numbered canonical number).enumValue?.isSome := by
  have h : (Text.toUpper (numbered canonical number).text).toList ≠ [] := by
    rw [toList_toUpper_numbered]
    simp
  unfold GraphId.enumValue? Name.ofText?
  rw [dif_pos (GraphId.isName_enumText h)]
  rfl

theorem enumValue?_numbered_injective (canonical : String) {i j : Nat}
    (h : (numbered canonical i).enumValue? = (numbered canonical j).enumValue?) : i = j := by
  obtain ⟨v, hi⟩ := Option.isSome_iff_exists.1 (isSome_enumValue?_numbered canonical i)
  have hj := h ▸ hi
  unfold GraphId.enumValue? at hi hj
  rw [Name.ofText?_eq_some_iff] at hi hj
  have htext := congrArg String.toList (hi.symm.trans hj)
  rw [GraphId.toList_enumText, GraphId.toList_enumText, toList_toUpper_numbered,
    toList_toUpper_numbered] at htext
  generalize (Text.toUpper canonical).toList.flatMap Text.upperChar = upper at htext
  have hhead : ∀ k : Nat,
      ((upper ++ '_' :: k.repr.toList).map GraphId.enumChar).head?
        =
      ((upper ++ ['_']).map GraphId.enumChar).head? := by
    intro k
    cases upper <;> rfl
  have hdigits : (i.repr.toList).map GraphId.enumChar = (j.repr.toList).map GraphId.enumChar := by
    unfold GraphId.enumChars at htext
    simp only [hhead] at htext
    split at htext
    . simpa using htext
    . simpa using htext
  have hclean : ∀ k : Nat, (k.repr.toList).map GraphId.enumChar = k.repr.toList := by
    intro k
    refine (List.map_congr_left ?_).trans (List.map_id _)
    intro c hc
    rw [Nat.toList_repr] at hc
    have hdigit := Nat.isDigit_of_mem_toDigits (by omega) (by omega) hc
    simp [GraphId.enumChar, Char.isAlphanum, hdigit]
  rw [hclean, hclean, String.toList_inj] at hdigits
  exact Nat.repr_injective hdigits

theorem exists_not_mem_taken {value : Nat → Option Name} (hsome : ∀ i, (value i).isSome)
    (hinj : ∀ i j, value i = value j → i = j) (taken : List Name) (start : Nat)
    : ∃ number ∈ List.range' start (taken.length + 1), (value number).all (· ∉ taken) := by
  by_contra hnone
  have hsubset : (List.range' start (taken.length + 1)).map value ⊆ taken.map some := by
    intro v hv
    obtain ⟨number, hmem, rfl⟩ := List.mem_map.1 hv
    obtain ⟨w, hw⟩ := Option.isSome_iff_exists.1 (hsome number)
    rw [hw]
    apply List.mem_map.2
    refine ⟨w, ?_, rfl⟩
    by_contra hnot
    exact hnone ⟨number, hmem, by simpa [hw] using hnot⟩
  have hnodup : ((List.range' start (taken.length + 1)).map value).Nodup :=
    List.Nodup.map hinj List.nodup_range'
  -- Too many different enum values for the taken ones.
  have := (List.subperm_of_subset hnodup hsubset).length_le
  rw [List.length_map, List.length_map, List.length_range'] at this
  omega

theorem isLeast_freeNumber (canonical : String) (taken : List Name) (start : Nat) :
    IsLeast {number | start ≤ number ∧ isFree taken (numbered canonical number)}
      (freeNumber canonical taken start) := by
  obtain ⟨number, hmem, hfree⟩ := exists_not_mem_taken (isSome_enumValue?_numbered canonical)
    (fun _ _ => enumValue?_numbered_injective canonical) taken start
  have hisSome : ((List.range' start (taken.length + 1)).find? fun number =>
      isFree taken (numbered canonical number)).isSome :=
    List.find?_isSome.2 ⟨number, hmem, hfree⟩
  obtain ⟨found, hfound⟩ := Option.isSome_iff_exists.1 hisSome
  have hfree : freeNumber canonical taken start = found := by
    unfold freeNumber
    rw [hfound]
    rfl
  rw [hfree]
  rw [List.find?_range'_eq_some] at hfound
  obtain ⟨hfound, hrange, hleast⟩ := hfound
  constructor
  . exact ⟨(List.mem_range'_1.1 hrange).1, hfound⟩
  . rintro other ⟨hstart, hother⟩
    apply Nat.le_of_not_lt
    intro hlt
    have := hleast other hstart hlt
    rw [hother] at this
    cases this

theorem isFree_freeNumber (canonical : String) (taken : List Name) (start : Nat) :
    isFree taken (numbered canonical (freeNumber canonical taken start)) :=
  (isLeast_freeNumber canonical taken start).1.2

structure Distinct (taken : List Name) (ids : List (String × GraphId)) : Prop where
  isSome : ∀ e ∈ ids, e.2.enumValue?.isSome
  nodup : (taken ++ ids.filterMap (·.2.enumValue?)).Nodup

theorem Distinct.nil {taken : List Name} (h : taken.Nodup) : Distinct taken [] :=
  ⟨by simp, by simpa using h⟩

theorem Distinct.append {taken : List Name} {ids ids' : List (String × GraphId)}
    (h : Distinct taken ids) (h' : Distinct (taken ++ ids.filterMap (·.2.enumValue?)) ids')
    : Distinct taken (ids ++ ids') := by
  constructor
  . intro e he
    cases List.mem_append.1 he with
    | inl he => exact h.isSome e he
    | inr he => exact h'.isSome e he
  . rw [List.filterMap_append, ← List.append_assoc]
    exact h'.nodup

theorem numberGroup_snd (canonical : String) (taken : List Name) (start : Nat)
    (names : List String)
    : (numberGroup canonical taken start names).2
        =
      taken ++ (numberGroup canonical taken start names).1.filterMap (·.2.enumValue?) := by
  induction names generalizing taken start with
  | nil => simp [numberGroup]
  | cons name rest ih =>
    unfold numberGroup
    dsimp only
    generalize numbered canonical (freeNumber canonical taken start) = id
    rw [ih, List.append_assoc, List.filterMap_cons]
    cases id.enumValue? <;> rfl

theorem map_fst_numberGroup (canonical : String) (taken : List Name) (start : Nat)
    (names : List String)
    : (numberGroup canonical taken start names).1.map Prod.fst = names := by
  induction names generalizing taken start with
  | nil => rfl
  | cons name rest ih =>
    unfold numberGroup
    dsimp only
    rw [List.map_cons, ih]

theorem distinct_numberGroup (canonical : String) (taken : List Name) (start : Nat)
    (names : List String) (htaken : taken.Nodup)
    : Distinct taken (numberGroup canonical taken start names).1 := by
  induction names generalizing taken start with
  | nil => exact .nil htaken
  | cons name rest ih =>
    have hfree := isFree_freeNumber canonical taken start
    have hsome := isSome_enumValue?_numbered canonical (freeNumber canonical taken start)
    unfold numberGroup
    dsimp only
    generalize numbered canonical (freeNumber canonical taken start) = id at hfree hsome ⊢
    obtain ⟨v, hv⟩ := Option.isSome_iff_exists.1 hsome
    have hnot : v ∉ taken := by simpa [isFree, hv] using hfree
    -- The rest of the group is numbered with this enum value taken as well.
    have hfirst : Distinct taken [(name, id)] := by
      constructor
      . simpa using hsome
      . simpa [hv, List.nodup_append, htaken] using fun w hw heq => hnot (by rwa [← heq])
    apply hfirst.append
    have heq : [(name, id)].filterMap (·.2.enumValue?) = id.enumValue?.toList := by simp [hv]
    rw [heq]
    apply ih
    simpa [hv] using hfirst.nodup

theorem map_fst_numberGroups (taken : List Name) (groups : List (String × List String)) :
    (numberGroups taken groups).map Prod.fst
      =
    (groups.filter (·.2.length > 1)).flatMap (·.2) := by
  induction groups generalizing taken with
  | nil => rfl
  | cons group rest ih =>
    obtain ⟨canonical, names⟩ := group
    unfold numberGroups
    by_cases h : names.length > 1
    . rw [if_pos h, List.filter_cons_of_pos (by simpa using h)]
      dsimp only
      rw [List.map_append, map_fst_numberGroup, ih, List.flatMap_cons]
    . rw [if_neg h, List.filter_cons_of_neg (by simpa using h), ih]

theorem distinct_numberGroups (taken : List Name) (groups : List (String × List String))
    (htaken : taken.Nodup) : Distinct taken (numberGroups taken groups) := by
  induction groups generalizing taken with
  | nil => exact .nil htaken
  | cons group rest ih =>
    obtain ⟨canonical, names⟩ := group
    unfold numberGroups
    split
    . have hgroup := distinct_numberGroup canonical taken 1 names htaken
      dsimp only
      apply hgroup.append
      rw [numberGroup_snd]
      exact ih _ hgroup.nodup
    . exact ih taken htaken

end Identities

end Supergraph
