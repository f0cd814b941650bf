import Mathlib.Data.List.Induction
import Supergraph.Proofs.Identity.Acceptance

/-!
This module contains the identifiers that names get. Case variants are numbered group by group, each
with the least number above those of its group whose enum value nobody else has by then.
-/

namespace Supergraph

open GraphQL

theorem pairwise_idxOf_of_nodup {α : Type} [DecidableEq α] {xs : List α} (h : xs.Nodup) :
    xs.Pairwise fun a b => xs.idxOf a < xs.idxOf b := by
  rw [List.pairwise_iff_getElem]
  intro i j hi hj hlt
  rwa [h.idxOf_getElem, h.idxOf_getElem]

namespace Identities

/--
Whether a name is numbered before another one: groups come in the order of their first names, and
within a group the order of the names counts.
-/
def NumberedBefore (names : List String) (a b : String) : Prop :=
  (names.map Text.toLower).idxOf (Text.toLower a) < (names.map Text.toLower).idxOf (Text.toLower b)
    ∨ Text.toLower a = Text.toLower b ∧ names.idxOf a < names.idxOf b

theorem NumberedBefore.asymm {names : List String} {a b : String} (h : NumberedBefore names a b) :
    ¬ NumberedBefore names b a := by
  unfold NumberedBefore at h ⊢
  obtain h | ⟨heq, h⟩ := h
  . rintro (h' | ⟨heq, h'⟩)
    . omega
    . rw [heq] at h
      omega
  . rw [heq]
    omega

theorem toLower_of_mem_caseGroups {names : List String} {group : String × List String}
    (h : group ∈ (caseGroups names).toList) {name : String} (hname : name ∈ group.2)
    : Text.toLower name = group.1 := by
  obtain ⟨canonical, group⟩ := group
  rw [OrderedMap.mem_toList_iff] at h
  dsimp only at hname
  rw [get?_caseGroups h] at hname
  simpa using (List.mem_filter.1 hname).2

theorem pairwise_numberedBefore {names : List String} (hnodup : names.Nodup)
    (p : String × List String → Bool)
    : (((caseGroups names).toList.filter p).flatMap (·.2)).Pairwise (NumberedBefore names) := by
  have hkeys : (caseGroups names).toList.Pairwise fun g g' =>
      (names.map Text.toLower).idxOf g.1 < (names.map Text.toLower).idxOf g'.1 := by
    have h := OrderedMap.pairwise_keys_group (names.map fun name => (Text.toLower name, name))
    rw [List.map_map] at h
    unfold OrderedMap.keys at h
    rwa [List.pairwise_map] at h
  rw [List.pairwise_flatMap]
  constructor
  . intro group hgroup
    have hmem := (List.mem_filter.1 hgroup).1
    have hnames : group.2 = names.filter (Text.toLower · = group.1) :=
      get?_caseGroups ((OrderedMap.mem_toList_iff _ _ _).1 hmem)
    have hsublist : group.2.Sublist names := by
      rw [hnames]
      exact List.filter_sublist
    apply ((pairwise_idxOf_of_nodup hnodup).sublist hsublist).imp_of_mem
    intro a b ha hb hlt
    refine .inr ⟨?_, hlt⟩
    rw [toLower_of_mem_caseGroups hmem ha, toLower_of_mem_caseGroups hmem hb]
  . apply (hkeys.filter p).imp_of_mem
    intro g g' hg hg' hlt a ha b hb
    refine .inl ?_
    rwa [toLower_of_mem_caseGroups (List.mem_filter.1 hg).1 ha,
      toLower_of_mem_caseGroups (List.mem_filter.1 hg').1 hb]

theorem numbered_injective (canonical : String) {i j : Nat}
    (h : numbered canonical i = numbered canonical j) : i = j :=
  enumValue?_numbered_injective canonical (congrArg GraphId.enumValue? h)

def numbersAfter (taken : List Name) (canonical : String) (earlier : List (String × GraphId)) :
    Set Nat :=
  {number | 0 < number
    ∧ (∀ e ∈ earlier, Text.toLower e.1 = canonical → ∀ j, e.2 = numbered canonical j → j < number)
    ∧ isFree (taken ++ earlier.filterMap (·.2.enumValue?)) (numbered canonical number)}

def NumberedAfter (taken : List Name) (earlier : List (String × GraphId)) :
    List (String × GraphId) → Prop
  | [] => True
  | e :: rest =>
    (∃ number, e.2 = numbered (Text.toLower e.1) number
      ∧ IsLeast (numbersAfter taken (Text.toLower e.1) earlier) number)
      ∧ NumberedAfter taken (earlier ++ [e]) rest

theorem numberedAfter_append {taken : List Name} {earlier ids ids' : List (String × GraphId)} :
    NumberedAfter taken earlier (ids ++ ids')
      ↔
    NumberedAfter taken earlier ids ∧ NumberedAfter taken (earlier ++ ids) ids' := by
  induction ids generalizing earlier with
  | nil => simp [NumberedAfter]
  | cons e rest ih =>
    rw [List.cons_append, NumberedAfter, NumberedAfter, ih, List.append_assoc, and_assoc]
    rfl

theorem numberedAfter_numberGroup {canonical : String} {names : List String}
    (hnames : ∀ name ∈ names, Text.toLower name = canonical) {taken : List Name}
    {earlier : List (String × GraphId)} {start : Nat}
    (hstart : ∀ number, start ≤ number ↔ 0 < number ∧ ∀ e ∈ earlier,
      Text.toLower e.1 = canonical → ∀ j, e.2 = numbered canonical j → j < number)
    : NumberedAfter taken earlier
        (numberGroup canonical (taken ++ earlier.filterMap (·.2.enumValue?)) start names).1 := by
  induction names generalizing earlier start with
  | nil => trivial
  | cons name rest ih =>
    have hname := hnames name List.mem_cons_self
    have hleast := isLeast_freeNumber canonical (taken ++ earlier.filterMap (·.2.enumValue?)) start
    unfold numberGroup
    dsimp only
    generalize freeNumber canonical (taken ++ earlier.filterMap (·.2.enumValue?)) start = number
      at hleast ⊢
    constructor
    . rw [hname]
      refine ⟨number, rfl, ?_⟩
      unfold numbersAfter
      simp only [← and_assoc, ← hstart]
      exact hleast
    . have htaken : (taken ++ earlier.filterMap (·.2.enumValue?))
            ++ (numbered canonical number).enumValue?.toList
          = taken ++ (earlier ++ [(name, numbered canonical number)]).filterMap
            (·.2.enumValue?) := by
        rw [List.append_assoc, List.filterMap_append]
        cases h : (numbered canonical number).enumValue? <;> simp [h]
      rw [htaken]
      apply ih fun other hother => hnames other (List.mem_cons_of_mem name hother)
      -- What lies above this number lies above all numbers of the group so far.
      intro other
      constructor
      . intro hlt
        have habove := (hstart other).1 (Nat.le_trans hleast.1.1 (Nat.le_of_succ_le hlt))
        refine ⟨habove.1, ?_⟩
        intro e he hlower j hj
        cases List.mem_append.1 he with
        | inl he => exact habove.2 e he hlower j hj
        | inr he =>
          cases List.mem_singleton.1 he
          rw [← numbered_injective canonical hj]
          exact hlt
      . rintro ⟨-, habove⟩
        exact habove (name, numbered canonical number) (by simp) hname number rfl

theorem numberedAfter_numberGroups {groups : List (String × List String)}
    (hgroups : ∀ group ∈ groups, ∀ name ∈ group.2, Text.toLower name = group.1)
    (hnodup : (groups.map Prod.fst).Nodup) {taken : List Name} {earlier : List (String × GraphId)}
    (hearlier : ∀ e ∈ earlier, Text.toLower e.1 ∉ groups.map Prod.fst)
    : NumberedAfter taken earlier
        (numberGroups (taken ++ earlier.filterMap (·.2.enumValue?)) groups) := by
  induction groups generalizing earlier with
  | nil => trivial
  | cons group rest ih =>
    obtain ⟨canonical, names⟩ := group
    have hrest : ∀ group ∈ rest, ∀ name ∈ group.2, Text.toLower name = group.1 :=
      fun group hgroup => hgroups group (List.mem_cons_of_mem _ hgroup)
    have hnames := hgroups (canonical, names) List.mem_cons_self
    rw [List.map_cons, List.nodup_cons] at hnodup
    unfold numberGroups
    split
    . dsimp only
      rw [numberedAfter_append, numberGroup_snd, List.append_assoc, ← List.filterMap_append]
      constructor
      . apply numberedAfter_numberGroup hnames
        intro number
        constructor
        . intro hpos
          refine ⟨hpos, ?_⟩
          intro e he hlower
          exact absurd (by rw [hlower]; simp) (hearlier e he)
        . exact fun h => h.1
      . apply ih hrest hnodup.2
        intro e he
        cases List.mem_append.1 he with
        | inl he =>
          intro hmem
          exact hearlier e he (List.mem_cons_of_mem _ hmem)
        | inr he =>
          have hfst : e.1 ∈ names := by
            rw [← map_fst_numberGroup canonical _ 1 names]
            exact List.mem_map.2 ⟨e, he, rfl⟩
          rw [hnames e.1 hfst]
          exact hnodup.1
    . apply ih hrest hnodup.2
      intro e he hmem
      exact hearlier e he (List.mem_cons_of_mem _ hmem)

def numbersFor (names : List String) (ids : String → GraphId) (name : String) : Set Nat :=
  {number | 0 < number
    ∧ (∀ other ∈ names, Text.toLower other = Text.toLower name → NumberedBefore names other name →
      ∀ j, ids other = numbered (Text.toLower name) j → j < number)
    ∧ ∀ other ∈ names, other ∈ lone names ∨ NumberedBefore names other name →
      (ids other).enumValue? ≠ (numbered (Text.toLower name) number).enumValue?}

theorem mem_lone_iff_of_toLower_eq {names : List String} {name other : String}
    (hname : name ∈ names) (hother : other ∈ names) (h : Text.toLower other = Text.toLower name)
    : other ∈ lone names ↔ name ∈ lone names := by
  unfold lone
  rw [List.mem_filter, List.mem_filter, h]
  simp [hname, hother]

def numberedIds (names : List String) : List (String × GraphId) :=
  numberGroups (keptEnumValues (caseGroups names).toList) (caseGroups names).toList

theorem numberedAfter_numberedIds (names : List String) :
    NumberedAfter (keptEnumValues (caseGroups names).toList) [] (numberedIds names) := by
  have h : NumberedAfter (keptEnumValues (caseGroups names).toList) []
      (numberGroups (keptEnumValues (caseGroups names).toList ++ []) (caseGroups names).toList) :=
    numberedAfter_numberGroups (fun _ hgroup _ => toLower_of_mem_caseGroups hgroup)
      (caseGroups names).nodup_keys (by simp)
  rwa [List.append_nil] at h

section

variable {names : List String} (hnodup : names.Nodup)

include hnodup

theorem perm_lone_numberedIds : names.Perm (lone names ++ (numberedIds names).map Prod.fst) :=
  perm_lone_append hnodup _

theorem assign_of_mem_lone {name : String} (h : name ∈ lone names) : assign names name = ⟨name⟩ := by
  have hdisjoint := List.nodup_append.1 ((perm_lone_numberedIds hnodup).nodup_iff.1 hnodup)
  have hnone : (numberedIds names).lookup name = none := by
    rw [List.lookup_eq_none_iff]
    intro e he
    have := hdisjoint.2.2 name h e.1 (List.mem_map.2 ⟨e, he, rfl⟩)
    simpa using this
  change ((numberedIds names).lookup name).getD ⟨name⟩ = _
  rw [hnone]
  rfl

theorem assign_of_mem_numberedIds {e : String × GraphId} (h : e ∈ numberedIds names) :
    assign names e.1 = e.2 := by
  have hdisjoint := List.nodup_append.1 ((perm_lone_numberedIds hnodup).nodup_iff.1 hnodup)
  change ((numberedIds names).lookup e.1).getD ⟨e.1⟩ = _
  rw [lookup_of_mem hdisjoint.2.1 h]
  rfl

theorem exists_mem_numberedIds {name : String} (hname : name ∈ names) (hlone : name ∉ lone names) :
    ∃ e ∈ numberedIds names, e.1 = name := by
  cases List.mem_append.1 ((perm_lone_numberedIds hnodup).mem_iff.1 hname) with
  | inl h => exact absurd h hlone
  | inr h => exact List.mem_map.1 h

theorem mem_keptEnumValues_iff (v : Name) :
    v ∈ keptEnumValues (caseGroups names).toList
      ↔
    ∃ name ∈ lone names, (assign names name).enumValue? = some v := by
  rw [(perm_keptEnumValues hnodup).mem_iff, List.mem_filterMap]
  simp only [List.mem_map, exists_exists_and_eq_and]
  apply exists_congr
  intro name
  apply and_congr_right
  intro hname
  rw [assign_of_mem_lone hnodup hname]

section

variable {before after : List (String × GraphId)} {e : String × GraphId}
variable (hids : numberedIds names = before ++ e :: after)

include hids

theorem numberedBefore_of_mem {x : String × GraphId} (hx : x ∈ before) :
    x.1 ∈ names ∧ NumberedBefore names x.1 e.1 ∧ assign names x.1 = x.2 := by
  have hmem : x ∈ numberedIds names := by
    rw [hids]
    exact List.mem_append_left _ hx
  have hpairwise := pairwise_numberedBefore hnodup (·.2.length > 1)
  rw [← map_fst_numberGroups (keptEnumValues (caseGroups names).toList)] at hpairwise
  change ((numberedIds names).map Prod.fst).Pairwise _ at hpairwise
  rw [hids, List.map_append] at hpairwise
  refine ⟨?_, ?_, assign_of_mem_numberedIds hnodup hmem⟩
  . apply (perm_lone_numberedIds hnodup).mem_iff.2
    exact List.mem_append_right _ (List.mem_map.2 ⟨x, hmem, rfl⟩)
  . exact (List.pairwise_append.1 hpairwise).2.2 _ (List.mem_map.2 ⟨x, hx, rfl⟩) _ (by simp)

theorem exists_mem_of_numberedBefore {name : String} (hname : name ∈ names)
    (hlone : name ∉ lone names) (hbefore : NumberedBefore names name e.1)
    : ∃ x ∈ before, x.1 = name := by
  obtain ⟨x, hx, rfl⟩ := exists_mem_numberedIds hnodup hname hlone
  have hpairwise := pairwise_numberedBefore hnodup (·.2.length > 1)
  rw [← map_fst_numberGroups (keptEnumValues (caseGroups names).toList)] at hpairwise
  change ((numberedIds names).map Prod.fst).Pairwise _ at hpairwise
  rw [hids] at hx hpairwise
  refine ⟨x, ?_, rfl⟩
  obtain hx | rfl | hx := (List.mem_append.1 hx).imp_right List.mem_cons.1
  . exact hx
  . exact absurd hbefore hbefore.asymm
  . exfalso
    rw [List.map_append, List.map_cons] at hpairwise
    have hrest := (List.pairwise_append.1 hpairwise).2.1
    exact hbefore.asymm (List.rel_of_pairwise_cons hrest (List.mem_map.2 ⟨x, hx, rfl⟩))

theorem isFree_append_before_iff (id : GraphId) (hid : id.enumValue?.isSome) :
    isFree (keptEnumValues (caseGroups names).toList ++ before.filterMap (·.2.enumValue?)) id
      ↔
    ∀ other ∈ names, other ∈ lone names ∨ NumberedBefore names other e.1 →
      (assign names other).enumValue? ≠ id.enumValue? := by
  obtain ⟨v, hv⟩ := Option.isSome_iff_exists.1 hid
  unfold isFree
  simp only [hv, Option.all_some, decide_eq_true_eq, List.mem_append, not_or,
    mem_keptEnumValues_iff hnodup, List.mem_filterMap]
  constructor
  . rintro ⟨hkept, hbefore⟩ other hother hcase heq
    by_cases hlone : other ∈ lone names
    . exact hkept ⟨other, hlone, heq⟩
    . obtain ⟨x, hx, rfl⟩ := exists_mem_of_numberedBefore hnodup hids hother hlone
        (hcase.resolve_left hlone)
      rw [(numberedBefore_of_mem hnodup hids hx).2.2] at heq
      exact hbefore ⟨x, hx, heq⟩
  . intro h
    constructor
    . rintro ⟨other, hother, heq⟩
      exact h other (List.mem_filter.1 hother).1 (.inl hother) heq
    . rintro ⟨x, hx, heq⟩
      obtain ⟨hmem, hbefore, hassign⟩ := numberedBefore_of_mem hnodup hids hx
      exact h x.1 hmem (.inr hbefore) (by rw [hassign, heq])

theorem numbersAfter_eq_numbersFor (hlone : e.1 ∉ lone names) :
    numbersAfter (keptEnumValues (caseGroups names).toList) (Text.toLower e.1) before
      =
    numbersFor names (assign names) e.1 := by
  have hmem : e ∈ numberedIds names := by simp [hids]
  have hname : e.1 ∈ names := (perm_lone_numberedIds hnodup).mem_iff.2
    (List.mem_append_right _ (List.mem_map.2 ⟨e, hmem, rfl⟩))
  apply Set.ext
  intro number
  apply and_congr_right
  intro _
  apply and_congr
  . constructor
    . intro h other hother hlower hbefore j hj
      have hnot : other ∉ lone names := by
        rwa [mem_lone_iff_of_toLower_eq hname hother hlower]
      obtain ⟨x, hx, rfl⟩ := exists_mem_of_numberedBefore hnodup hids hother hnot hbefore
      rw [(numberedBefore_of_mem hnodup hids hx).2.2] at hj
      exact h x hx hlower j hj
    . intro h x hx hlower j hj
      obtain ⟨hmem, hbefore, hassign⟩ := numberedBefore_of_mem hnodup hids hx
      exact h x.1 hmem hlower hbefore j (hassign.trans hj)
  . exact isFree_append_before_iff hnodup hids _ (isSome_enumValue?_numbered _ _)

end

theorem isLeast_assign {name : String} (hname : name ∈ names) (hlone : name ∉ lone names) :
    ∃ number, assign names name = numbered (Text.toLower name) number
      ∧ IsLeast (numbersFor names (assign names) name) number := by
  obtain ⟨e, he, rfl⟩ := exists_mem_numberedIds hnodup hname hlone
  obtain ⟨before, after, hids⟩ := List.append_of_mem he
  have hnumbered := numberedAfter_numberedIds names
  rw [hids, numberedAfter_append, List.nil_append] at hnumbered
  obtain ⟨number, hnumber, hleast⟩ := hnumbered.2.1
  rw [numbersAfter_eq_numbersFor hnodup hids hlone] at hleast
  exact ⟨number, (assign_of_mem_numberedIds hnodup he).trans hnumber, hleast⟩

end

end Identities

end Supergraph
