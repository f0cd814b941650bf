import Mathlib.Logic.Relation
import Supergraph.Proofs.Identity.Assignment

/-!
This module contains the proof that the search for free numbers ends. A group has passed only
numbers of taken enum values, and there are no more of these than names that are done.
-/

namespace Supergraph.Identities

open GraphQL

/--
The state of a search: the groups with the names that are left, the number that the current group
has come to, the enum values that are taken, and the identifiers given so far.
-/
structure Search where
  groups : List (String × List String)
  reached : Nat
  taken : List Name
  ids : List (String × GraphId)
deriving DecidableEq

namespace Search

def start (names : List String) : Search where
  groups := (caseGroups names).toList.filter (·.2.length > 1)
  reached := 0
  taken := keptEnumValues (caseGroups names).toList
  ids := []

def trial? (s : Search) : Option (String × Nat) :=
  match s.groups with
  | (canonical, _ :: _) :: _ => some (canonical, s.reached + 1)
  | _ => none

def step? (s : Search) : Option Search :=
  match s.groups with
  | [] => none
  | (_, []) :: rest => some { s with groups := rest, reached := 0 }
  | (canonical, name :: names) :: rest =>
    let id := numbered canonical (s.reached + 1)
    let given := {
      groups := (canonical, names) :: rest
      reached := s.reached + 1
      taken := s.taken ++ id.enumValue?.toList
      ids := s.ids ++ [(name, id)] }
    match id.enumValue? with
    | none => some given
    | some v => if v ∈ s.taken then some { s with reached := s.reached + 1 } else some given

def Step (s s' : Search) : Prop := s.step? = some s'

def Reachable (names : List String) (s : Search) : Prop :=
  Relation.ReflTransGen Step (start names) s

theorem exists_of_trial? {s : Search} {canonical : String} {number : Nat}
    (h : s.trial? = some (canonical, number))
    : number = s.reached + 1
        ∧ ∃ name names rest, s.groups = (canonical, name :: names) :: rest := by
  unfold trial? at h
  split at h
  . next name names rest hgroups =>
    cases h
    exact ⟨rfl, name, names, rest, hgroups⟩
  . cases h

section

variable {s : Search} {canonical name : String} {names : List String}
variable {rest : List (String × List String)}

theorem step?_of_done (h : s.groups = (canonical, []) :: rest) :
    s.step? = some { s with groups := rest, reached := 0 } := by
  unfold step?
  rw [h]

variable (hgroups : s.groups = (canonical, name :: names) :: rest)

include hgroups

theorem step?_of_not_isFree (h : isFree s.taken (numbered canonical (s.reached + 1)) = false) :
    s.step? = some { s with reached := s.reached + 1 } := by
  unfold step?
  rw [hgroups]
  dsimp only
  unfold isFree at h
  cases hv : (numbered canonical (s.reached + 1)).enumValue? with
  | none =>
    rw [hv] at h
    cases h
  | some v =>
    rw [hv] at h
    dsimp only
    rw [if_pos]
    simpa using h

theorem step?_of_isFree (h : isFree s.taken (numbered canonical (s.reached + 1))) :
    s.step? = some {
      groups := (canonical, names) :: rest
      reached := s.reached + 1
      taken := s.taken ++ (numbered canonical (s.reached + 1)).enumValue?.toList
      ids := s.ids ++ [(name, numbered canonical (s.reached + 1))] } := by
  unfold step?
  rw [hgroups]
  dsimp only
  unfold isFree at h
  cases hv : (numbered canonical (s.reached + 1)).enumValue? with
  | none => rfl
  | some v =>
    rw [hv] at h
    dsimp only
    rw [if_neg]
    simpa using h

end

theorem Step.cases {s s' : Search} (h : Step s s') :
    (∃ canonical rest, s.groups = (canonical, []) :: rest
      ∧ s' = { s with groups := rest, reached := 0 })
      ∨ ∃ canonical name names rest v, s.groups = (canonical, name :: names) :: rest
        ∧ (numbered canonical (s.reached + 1)).enumValue? = some v
        ∧ (v ∈ s.taken ∧ s' = { s with reached := s.reached + 1 }
          ∨ v ∉ s.taken ∧ s' = {
            groups := (canonical, names) :: rest
            reached := s.reached + 1
            taken := s.taken ++ [v]
            ids := s.ids ++ [(name, numbered canonical (s.reached + 1))] }) := by
  unfold Step at h
  match hgroups : s.groups with
  | [] =>
    unfold step? at h
    rw [hgroups] at h
    cases h
  | (canonical, []) :: rest =>
    rw [step?_of_done hgroups] at h
    exact .inl ⟨canonical, rest, rfl, (Option.some.inj h).symm⟩
  | (canonical, name :: names) :: rest =>
    obtain ⟨v, hv⟩ := Option.isSome_iff_exists.1
      (isSome_enumValue?_numbered canonical (s.reached + 1))
    refine .inr ⟨canonical, name, names, rest, v, rfl, hv, ?_⟩
    by_cases hmem : v ∈ s.taken
    . rw [step?_of_not_isFree hgroups (by simpa [isFree, hv] using hmem)] at h
      rw [← hgroups]
      exact .inl ⟨hmem, (Option.some.inj h).symm⟩
    . rw [step?_of_isFree hgroups (by simpa [isFree, hv] using hmem), hv] at h
      exact .inr ⟨hmem, (Option.some.inj h).symm⟩

/--
The number that the current group has come to is bounded by the enum values that are taken, and
these by the names that are done.
-/
structure Bounded (names : List String) (s : Search) : Prop where
  passed : ∀ canonical group rest, s.groups = (canonical, group) :: rest →
    ∀ number, 0 < number → number ≤ s.reached →
      isFree s.taken (numbered canonical number) = false
  length : s.taken.length + (s.groups.flatMap (·.2)).length ≤ names.length

theorem isFree_append_eq_false {taken : List Name} {id : GraphId} (h : isFree taken id = false)
    (vs : List Name) : isFree (taken ++ vs) id = false := by
  unfold isFree at h ⊢
  cases hv : id.enumValue? with
  | none =>
    rw [hv] at h
    cases h
  | some v =>
    rw [hv] at h
    simp only [Option.all_some, decide_eq_false_iff_not, not_not] at h ⊢
    exact List.mem_append_left vs h

theorem bounded_start (names : List String) : Bounded names (start names) := by
  constructor
  . intro canonical group rest _ number hpos hle
    exact absurd hpos (Nat.not_lt.2 hle)
  . have hkept : (keptEnumValues (caseGroups names).toList).length
        ≤ (((caseGroups names).toList.filter (·.2.length == 1)).flatMap (·.2)).length := by
      unfold keptEnumValues
      rw [← List.filterMap_flatMap]
      exact List.length_filterMap_le _ _
    have hsplit := (perm_flatMap_filter_length (caseGroups names).toList).length_eq
    rw [(perm_caseGroups names).length_eq, List.length_append] at hsplit
    unfold start
    dsimp only
    omega

theorem Bounded.step {names : List String} {s s' : Search} (h : Bounded names s)
    (hstep : Step s s') : Bounded names s' := by
  have hlength := h.length
  obtain ⟨canonical, rest, hgroups, rfl⟩
    | ⟨canonical, name, group, rest, v, hgroups, hv, ⟨hmem, rfl⟩ | ⟨hmem, rfl⟩⟩ := hstep.cases
  -- The next group starts from the beginning.
  . constructor
    . intro canonical group rest _ number hpos hle
      exact absurd hpos (Nat.not_lt.2 hle)
    . rw [hgroups] at hlength
      simpa using hlength
  . refine ⟨?_, hlength⟩
    intro canonical' group' rest' hgroups' number hpos hle
    dsimp only at hgroups' hle ⊢
    cases Nat.le_succ_iff.1 hle with
    | inl hle => exact h.passed canonical' group' rest' hgroups' number hpos hle
    | inr heq =>
      rw [hgroups] at hgroups'
      cases hgroups'
      rw [heq]
      simpa [isFree, hv] using hmem
  . constructor
    . intro canonical' group' rest' hgroups' number hpos hle
      cases hgroups'
      dsimp only at hle ⊢
      cases Nat.le_succ_iff.1 hle with
      | inl hle =>
        exact isFree_append_eq_false (h.passed canonical _ rest hgroups number hpos hle) [v]
      | inr heq =>
        rw [heq]
        simp [isFree, hv]
    . rw [hgroups] at hlength
      simp only [List.flatMap_cons, List.length_append, List.length_cons, List.length_nil]
        at hlength ⊢
      omega

theorem Reachable.bounded {names : List String} {s : Search} (h : Reachable names s) :
    Bounded names s := by
  unfold Reachable at h
  induction h with
  | refl => exact bounded_start names
  | tail _ hstep ih => exact ih.step hstep

theorem Bounded.reached_le {names : List String} {s : Search} (h : Bounded names s)
    {canonical : String} {group : List String} {rest : List (String × List String)}
    (hgroups : s.groups = (canonical, group) :: rest) : s.reached ≤ s.taken.length := by
  -- Of one number more than there are taken enum values, one is free.
  by_contra hlt
  obtain ⟨number, hmem, hfree⟩ := exists_not_mem_taken (isSome_enumValue?_numbered canonical)
    (fun _ _ => enumValue?_numbered_injective canonical) s.taken 1
  have hrange := List.mem_range'_1.1 hmem
  have hpassed := h.passed canonical group rest hgroups number (by omega) (by omega)
  unfold isFree at hpassed
  rw [hfree] at hpassed
  cases hpassed

theorem Bounded.trial_le {names : List String} {s : Search} (h : Bounded names s)
    {canonical : String} {number : Nat} (htrial : s.trial? = some (canonical, number))
    : number ≤ names.length := by
  obtain ⟨rfl, name, group, rest, hgroups⟩ := exists_of_trial? htrial
  have hreached := h.reached_le hgroups
  have hlength := h.length
  rw [hgroups, List.flatMap_cons, List.length_append, List.length_cons] at hlength
  omega

theorem reach_of_not_isFree {canonical : String} (name : String) (names : List String)
    (rest : List (String × List String)) {taken : List Name} (ids : List (String × GraphId))
    {reached number : Nat} (hle : reached ≤ number)
    (h : ∀ i, reached < i → i ≤ number → isFree taken (numbered canonical i) = false)
    : Relation.ReflTransGen Step
        { groups := (canonical, name :: names) :: rest, reached, taken, ids }
        { groups := (canonical, name :: names) :: rest, reached := number, taken, ids } := by
  induction hle with
  | refl => exact .refl
  | step hle ih =>
    apply (ih fun i hlt hi => h i hlt (Nat.le_succ_of_le hi)).tail
    exact step?_of_not_isFree rfl (h _ (Nat.lt_succ_of_le hle) (Nat.le_refl _))

theorem reach_numberGroup (canonical : String) (names : List String)
    (rest : List (String × List String)) (taken : List Name) (ids : List (String × GraphId))
    (reached : Nat)
    : Relation.ReflTransGen Step
        { groups := (canonical, names) :: rest, reached, taken, ids }
        {
          groups := rest
          reached := 0
          taken := (numberGroup canonical taken (reached + 1) names).2
          ids := ids ++ (numberGroup canonical taken (reached + 1) names).1 } := by
  induction names generalizing taken ids reached with
  | nil =>
    unfold numberGroup
    rw [List.append_nil]
    exact .single (step?_of_done rfl)
  | cons name names ih =>
    have hleast := isLeast_freeNumber canonical taken (reached + 1)
    unfold numberGroup
    dsimp only
    generalize freeNumber canonical taken (reached + 1) = number at hleast ⊢
    obtain ⟨number, rfl⟩ := Nat.exists_eq_succ_of_ne_zero
      (Nat.ne_of_gt (Nat.lt_of_lt_of_le (Nat.succ_pos reached) hleast.1.1))
    have hbusy : ∀ i, reached < i → i ≤ number → isFree taken (numbered canonical i) = false := by
      intro i hlt hle
      rw [Bool.eq_false_iff]
      intro hfree
      exact absurd (hleast.2 ⟨hlt, hfree⟩) (Nat.not_le.2 (Nat.lt_succ_of_le hle))
    -- The numbers before it are passed over, and then it is given away.
    have hpass := reach_of_not_isFree name names rest ids (Nat.le_of_succ_le_succ hleast.1.1) hbusy
    have hgive := step?_of_isFree (s := {
      groups := (canonical, name :: names) :: rest, reached := number, taken, ids }) rfl hleast.1.2
    have hrest := ih (taken ++ (numbered canonical (number + 1)).enumValue?.toList)
      (ids ++ [(name, numbered canonical (number + 1))]) (number + 1)
    rw [List.append_assoc] at hrest
    exact (hpass.tail hgive).trans hrest

theorem reach_numberGroups (groups : List (String × List String)) (taken : List Name)
    (ids : List (String × GraphId))
    : ∃ taken', Relation.ReflTransGen Step
        { groups := groups.filter (·.2.length > 1), reached := 0, taken, ids }
        {
          groups := []
          reached := 0
          taken := taken'
          ids := ids ++ numberGroups taken groups } := by
  induction groups generalizing taken ids with
  | nil =>
    refine ⟨taken, ?_⟩
    unfold numberGroups
    rw [List.append_nil]
    exact .refl
  | cons group rest ih =>
    obtain ⟨canonical, names⟩ := group
    unfold numberGroups
    by_cases hlength : names.length > 1
    . rw [if_pos hlength, List.filter_cons_of_pos (by simpa using hlength)]
      dsimp only
      obtain ⟨taken', hrest⟩ := ih (numberGroup canonical taken 1 names).2
        (ids ++ (numberGroup canonical taken 1 names).1)
      rw [List.append_assoc] at hrest
      exact ⟨taken', (reach_numberGroup canonical names _ taken ids 0).trans hrest⟩
    . rw [if_neg hlength, List.filter_cons_of_neg (by simpa using hlength)]
      exact ih taken ids

theorem Step.rightUnique : Relator.RightUnique Step := by
  intro s s₁ s₂ h₁ h₂
  exact Option.some.inj (h₁.symm.trans h₂)

theorem Reachable.reach_of_step?_eq_none {names : List String} {s last : Search}
    (h : Reachable names s) (hlast : Reachable names last) (hnone : last.step? = none)
    : Relation.ReflTransGen Step s last := by
  -- Steps are unique, so one of the two states comes after the other.
  cases Relation.ReflTransGen.total_of_right_unique Step.rightUnique h hlast with
  | inl h => exact h
  | inr h =>
    cases h.cases_head with
    | inl heq => exact heq ▸ .refl
    | inr h =>
      obtain ⟨s', hstep, -⟩ := h
      unfold Step at hstep
      rw [hnone] at hstep
      cases hstep

end Search

theorem search_ends (subgraphs : List Subgraph) :
    (∀ s, Search.Reachable (subgraphs.map (·.name)) s →
      ∀ canonical number, s.trial? = some (canonical, number) →
        number ≤ subgraphs.length
          ∧ (subgraphs.length ≤ Int32.maxValue.toInt → (Int32.ofNat number).toInt = number)
          ∧ (numbered canonical number).enumValue?.isSome)
      ∧ ∃ last, Search.Reachable (subgraphs.map (·.name)) last ∧ last.step? = none
        ∧ (∀ s, Search.Reachable (subgraphs.map (·.name)) s →
          Relation.ReflTransGen Search.Step s last)
        ∧ last.ids.map Prod.fst
          = ((caseGroups (subgraphs.map (·.name))).toList.filter (·.2.length > 1)).flatMap (·.2)
        ∧ ∀ name, assign (subgraphs.map (·.name)) name
          = (last.ids.lookup name).getD ⟨name⟩ := by
  constructor
  . intro s hs canonical number htrial
    have hle := hs.bounded.trial_le htrial
    rw [List.length_map] at hle
    refine ⟨hle, ?_, isSome_enumValue?_numbered canonical number⟩
    intro hmax
    have hvalue : Int32.maxValue.toInt = 2147483647 := by decide
    apply Int32.toInt_ofNat_of_lt
    omega
  . generalize subgraphs.map (·.name) = names
    obtain ⟨taken, hlast⟩ := Search.reach_numberGroups (caseGroups names).toList
      (keptEnumValues (caseGroups names).toList) []
    refine ⟨_, hlast, rfl, fun s hs => hs.reach_of_step?_eq_none hlast rfl, ?_, ?_⟩
    . exact map_fst_numberGroups _ _
    . intro name
      rfl

def literalSubgraphs : List Subgraph := ["Foo", "foo", "FOO_1"].map fun name =>
  { name, schema := { directiveDefs := ∅, types := ∅ } }

def passedSearch : Search where
  groups := [("foo", ["Foo", "foo"])]
  reached := 1
  taken := [.lit "FOO_1"]
  ids := []

def givenSearch : Search where
  groups := [("foo", ["foo"])]
  reached := 2
  taken := [.lit "FOO_1", .lit "FOO_2"]
  ids := [("Foo", ⟨"FOO_2"⟩)]

theorem search_ends_literal :
    Search.Reachable (literalSubgraphs.map (·.name)) givenSearch
      ∧ givenSearch.trial? = some ("foo", 3) ∧ 3 ≤ literalSubgraphs.length
      ∧ (Int32.ofNat 3).toInt = 3 ∧ (numbered "foo" 3).enumValue?.isSome := by
  have hpassed : Search.Step (Search.start (literalSubgraphs.map (·.name))) passedSearch := by
    unfold Search.Step
    decide +kernel
  have hgiven : Search.Step passedSearch givenSearch := by
    unfold Search.Step
    decide +kernel
  have hreachable := (Relation.ReflTransGen.single hpassed).tail hgiven
  obtain ⟨hle, hcounter, hsome⟩ := (search_ends literalSubgraphs).1 _ hreachable "foo" 3 rfl
  exact ⟨hreachable, rfl, hle, hcounter (by decide), hsome⟩

end Supergraph.Identities
