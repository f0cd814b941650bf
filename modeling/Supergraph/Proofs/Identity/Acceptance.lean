import Mathlib.Data.List.Perm.Basic
import Supergraph.Proofs.Identity.Resolution

/-!
This module contains the condition under which names are accepted. Numbered identifiers never stand
in the way, so it is up to the names that agree with no other name up to letter case.
-/

namespace Supergraph.Identities

open GraphQL

/--
The names that agree with no other name up to letter case, and so are identifiers themselves.
-/
def lone (names : List String) : List String :=
  names.filter fun name => (names.filter (Text.toLower · = Text.toLower name)).length = 1

theorem lone_perm {names names' : List String} (h : names.Perm names') :
    (lone names).Perm (lone names') := by
  unfold lone
  have hlength : ∀ name, (names.filter (Text.toLower · = Text.toLower name)).length
      = (names'.filter (Text.toLower · = Text.toLower name)).length := by
    intro name
    exact (h.filter _).length_eq
  simp only [hlength]
  exact h.filter _

theorem get?_caseGroups {names : List String} {canonical : String} {group : List String}
    (h : (caseGroups names).get? canonical = some group)
    : group = names.filter (Text.toLower · = canonical) := by
  have hgroup := OrderedMap.get?_group_getD
    (names.map fun name => (Text.toLower name, name)) canonical
  unfold caseGroups at h
  rw [h, List.filter_map, List.map_map] at hgroup
  simpa [Function.comp_def] using hgroup

theorem perm_caseGroups (names : List String) :
    ((caseGroups names).toList.flatMap (·.2)).Perm names := by
  have h := OrderedMap.perm_group (names.map fun name => (Text.toLower name, name))
  rw [List.map_map] at h
  simpa [caseGroups, Function.comp_def] using h

theorem mem_singleGroups (names : List String) (name : String) :
    name ∈ ((caseGroups names).toList.filter (·.2.length == 1)).flatMap (·.2)
      ↔
    name ∈ lone names := by
  unfold lone
  rw [List.mem_flatMap, List.mem_filter]
  constructor
  . rintro ⟨⟨canonical, group⟩, hmem, hname⟩
    rw [List.mem_filter, OrderedMap.mem_toList_iff] at hmem
    have hgroup := get?_caseGroups hmem.1
    have hlength : group.length = 1 := by simpa using hmem.2
    dsimp only at hname
    rw [hgroup, List.mem_filter] at hname
    have hcanonical : Text.toLower name = canonical := by simpa using hname.2
    refine ⟨hname.1, ?_⟩
    rw [hcanonical, ← hgroup]
    simpa using hlength
  . rintro ⟨hmem, hlength⟩
    have hkey : Text.toLower name ∈ (caseGroups names).keys := by
      unfold caseGroups
      rw [OrderedMap.mem_keys_group, List.map_map]
      exact List.mem_map.2 ⟨name, hmem, rfl⟩
    obtain ⟨group, hget⟩ := OrderedMap.exists_get?_of_mem_keys hkey
    have hgroup := get?_caseGroups hget
    refine ⟨(Text.toLower name, group), ?_, ?_⟩
    . rw [List.mem_filter, OrderedMap.mem_toList_iff]
      refine ⟨hget, ?_⟩
      rw [hgroup]
      simpa using hlength
    . rw [hgroup, List.mem_filter]
      exact ⟨hmem, by simp⟩

theorem perm_flatMap_filter_length (groups : List (String × List String)) :
    (groups.flatMap (·.2)).Perm
      ((groups.filter (·.2.length == 1)).flatMap (·.2)
        ++ (groups.filter (·.2.length > 1)).flatMap (·.2)) := by
  induction groups with
  | nil => exact .refl _
  | cons group rest ih =>
    obtain ⟨canonical, names⟩ := group
    match names with
    | [] => simpa using ih
    | [name] => simpa using ih
    | first :: second :: names =>
      have hperm := (ih.append_left (first :: second :: names)).trans
        (List.perm_append_comm_assoc _ _ _)
      simpa using hperm

theorem perm_singleGroups {names : List String} (hnodup : names.Nodup) :
    (((caseGroups names).toList.filter (·.2.length == 1)).flatMap (·.2)).Perm (lone names) := by
  have hsplit := (perm_caseGroups names).symm.trans
    (perm_flatMap_filter_length (caseGroups names).toList)
  apply (List.perm_ext_iff_of_nodup ?_ (hnodup.filter _)).2 (mem_singleGroups names)
  exact (List.nodup_append.1 (hsplit.nodup_iff.1 hnodup)).1

theorem perm_lone_append {names : List String} (hnodup : names.Nodup) (taken : List Name) :
    names.Perm (lone names ++ (numberGroups taken (caseGroups names).toList).map Prod.fst) := by
  rw [map_fst_numberGroups]
  apply (perm_caseGroups names).symm.trans
  apply (perm_flatMap_filter_length (caseGroups names).toList).trans
  exact (perm_singleGroups hnodup).append_right _

theorem perm_keptEnumValues {names : List String} (hnodup : names.Nodup) :
    (keptEnumValues (caseGroups names).toList).Perm
      (((lone names).map GraphId.mk).filterMap GraphId.enumValue?) := by
  unfold keptEnumValues
  rw [← List.filterMap_flatMap, List.filterMap_map, Function.comp_def]
  exact (perm_singleGroups hnodup).filterMap _

theorem lookup_of_mem {entries : List (String × GraphId)} (hnodup : (entries.map Prod.fst).Nodup)
    {e : String × GraphId} (h : e ∈ entries) : entries.lookup e.1 = some e.2 := by
  obtain ⟨before, rest, rfl⟩ := List.append_of_mem h
  rw [List.lookup_eq_some_iff]
  refine ⟨before, rest, rfl, ?_⟩
  intro x hx
  rw [List.map_append, List.nodup_append] at hnodup
  have := hnodup.2.2 x.1 (List.mem_map.2 ⟨x, hx, rfl⟩) e.1 (by simp)
  simpa using this.symm

theorem perm_map_assign {names : List String} (hnodup : names.Nodup) :
    (names.map (assign names)).Perm
      ((lone names).map GraphId.mk
        ++ (numberGroups (keptEnumValues (caseGroups names).toList)
          (caseGroups names).toList).map (·.2)) := by
  have hperm := perm_lone_append hnodup (keptEnumValues (caseGroups names).toList)
  have hassign : ∀ name, assign names name
      = ((numberGroups (keptEnumValues (caseGroups names).toList)
        (caseGroups names).toList).lookup name).getD ⟨name⟩ := fun _ => rfl
  generalize numberGroups (keptEnumValues (caseGroups names).toList)
    (caseGroups names).toList = numbered at hperm hassign ⊢
  -- No name is both lone and numbered, so a look-up tells which of the two it is.
  have hdisjoint := List.nodup_append.1 (hperm.nodup_iff.1 hnodup)
  have hlone : (lone names).map (assign names) = (lone names).map GraphId.mk := by
    apply List.map_congr_left
    intro name hname
    have hnone : numbered.lookup name = none := by
      rw [List.lookup_eq_none_iff]
      intro e he
      have := hdisjoint.2.2 name hname e.1 (List.mem_map.2 ⟨e, he, rfl⟩)
      simpa using this
    rw [hassign, hnone]
    rfl
  have hnumbered : (numbered.map Prod.fst).map (assign names) = numbered.map (·.2) := by
    rw [List.map_map]
    apply List.map_congr_left
    intro e he
    rw [Function.comp_apply, hassign, lookup_of_mem hdisjoint.2.1 he]
    rfl
  rw [← hlone, ← hnumbered, ← List.map_append]
  exact hperm.map _

theorem of_map_identified?_eq (assign : String → GraphId) (subgraphs : List Subgraph)
    (entries : List (GraphId × Identity))
    (h : subgraphs.map (identified? assign) = entries.map some)
    : subgraphs.map (fun s => assign s.name) = entries.map Prod.fst
        ∧ subgraphs.map (fun s => (assign s.name).enumValue?)
          = entries.map (fun e => some e.2.enumValue)
        ∧ subgraphs.map (·.name) = entries.map (·.2.name) := by
  induction subgraphs generalizing entries with
  | nil =>
    cases entries with
    | nil => exact ⟨rfl, rfl, rfl⟩
    | cons e entries => cases h
  | cons s rest ih =>
    cases entries with
    | nil => cases h
    | cons e entries =>
      rw [List.map_cons, List.map_cons, List.cons.injEq] at h
      obtain ⟨hkeys, hvalues, hnames⟩ := ih entries h.2
      have he := h.1
      unfold identified? at he
      simp only [List.map_cons, hkeys, hvalues, hnames]
      generalize assign s.name = id at he ⊢
      obtain ⟨v, hv, rfl⟩ := Option.map_eq_some_iff.1 he
      exact ⟨rfl, by rw [hv], rfl⟩

theorem map_eq_map_some_filterMap {α β : Type} {f : α → Option β} {xs : List α}
    (h : ∀ x ∈ xs, (f x).isSome) : xs.map f = (xs.filterMap f).map some := by
  induction xs with
  | nil => rfl
  | cons x rest ih =>
    obtain ⟨y, hy⟩ := Option.isSome_iff_exists.1 (h x List.mem_cons_self)
    rw [List.map_cons, List.filterMap_cons_some hy, List.map_cons, hy,
      ih fun x hx => h x (List.mem_cons_of_mem _ hx)]

theorem exists_identities_iff (assign : String → GraphId) (subgraphs : List Subgraph) :
    (∃ graphs : Identities, subgraphs.map (identified? assign) = graphs.toList.map some
      ∧ (graphs.toList.map (·.2.enumValue)).Nodup)
      ↔
    (∀ s ∈ subgraphs, (assign s.name).enumValue?.isSome)
      ∧ (subgraphs.map fun s => (assign s.name).enumValue?).Nodup := by
  constructor
  . rintro ⟨graphs, hentries, hvalues⟩
    obtain ⟨-, henum, -⟩ := of_map_identified?_eq assign _ _ hentries
    constructor
    . intro s hs
      have hmem : (assign s.name).enumValue? ∈ graphs.toList.map fun e => some e.2.enumValue := by
        rw [← henum]
        exact List.mem_map.2 ⟨s, hs, rfl⟩
      obtain ⟨e, -, he⟩ := List.mem_map.1 hmem
      rw [← he]
      rfl
    . rw [henum, ← Function.comp_def some, ← List.map_map]
      exact hvalues.map fun _ _ => Option.some.inj
  . rintro ⟨hsome, hvalues⟩
    have hentries : subgraphs.map (identified? assign)
        = (subgraphs.filterMap (identified? assign)).map some := by
      apply map_eq_map_some_filterMap
      intro s hs
      unfold identified?
      rw [Option.isSome_map]
      exact hsome s hs
    obtain ⟨hkeys, henum, -⟩ := of_map_identified?_eq assign _ _ hentries
    have hnodup : ((subgraphs.filterMap (identified? assign)).map Prod.fst).Nodup := by
      rw [← hkeys]
      apply List.Nodup.of_map GraphId.enumValue?
      rw [List.map_map, Function.comp_def]
      exact hvalues
    refine ⟨⟨_, hnodup⟩, hentries, ?_⟩
    rw [henum, ← Function.comp_def some, ← List.map_map] at hvalues
    exact hvalues.of_map _

theorem nodup_append_numbered_iff {kept : List Name} {lone : List GraphId}
    {numbered : List (String × GraphId)} (hkept : kept.Perm (lone.filterMap GraphId.enumValue?))
    (hdistinct : kept.Nodup → Distinct kept numbered)
    : (∀ id ∈ lone ++ numbered.map (·.2), id.enumValue?.isSome)
        ∧ ((lone ++ numbered.map (·.2)).map GraphId.enumValue?).Nodup
        ↔
      (∀ id ∈ lone, id.enumValue?.isSome) ∧ (lone.map GraphId.enumValue?).Nodup := by
  constructor
  . rintro ⟨hsome, hvalues⟩
    rw [List.map_append, List.nodup_append] at hvalues
    exact ⟨fun id hid => hsome id (List.mem_append_left _ hid), hvalues.1⟩
  . rintro ⟨hsome, hvalues⟩
    rw [map_eq_map_some_filterMap hsome] at hvalues
    -- Numbered names have enum values that differ from one another and from the kept ones.
    have hnumbered := hdistinct (hkept.nodup_iff.2 (hvalues.of_map _))
    have hall : ∀ id ∈ lone ++ numbered.map (·.2), id.enumValue?.isSome := by
      intro id hid
      cases List.mem_append.1 hid with
      | inl hid => exact hsome id hid
      | inr hid =>
        obtain ⟨e, he, rfl⟩ := List.mem_map.1 hid
        exact hnumbered.isSome e he
    refine ⟨hall, ?_⟩
    rw [map_eq_map_some_filterMap hall, List.filterMap_append, List.filterMap_map,
      Function.comp_def]
    apply List.Nodup.map fun _ _ => Option.some.inj
    exact (hkept.append_right _).nodup_iff.1 hnumbered.nodup

theorem exists_resolve_eq_ok_iff (subgraphs : List Subgraph) :
    (∃ graphs, resolve subgraphs = .ok graphs)
      ↔
    (subgraphs.map (·.name)).Nodup
      ∧ (∀ id ∈ (lone (subgraphs.map (·.name))).map GraphId.mk, id.enumValue?.isSome)
      ∧ (((lone (subgraphs.map (·.name))).map GraphId.mk).map GraphId.enumValue?).Nodup := by
  simp only [resolve_eq_ok_iff, exists_and_left, exists_identities_iff]
  generalize hnames : subgraphs.map (·.name) = names
  apply and_congr_right
  intro hnodup
  have hperm := perm_map_assign hnodup
  have hkept := perm_keptEnumValues hnodup
  rw [← nodup_append_numbered_iff hkept (distinct_numberGroups _ (caseGroups names).toList)]
  rw [← (hperm.map GraphId.enumValue?).nodup_iff]
  simp only [← hperm.mem_iff]
  rw [← hnames]
  simp only [List.mem_map, List.map_map, Function.comp_def, forall_exists_index, and_imp,
    forall_apply_eq_imp_iff₂]

theorem exists_resolve_eq_ok_of_perm {subgraphs subgraphs' : List Subgraph}
    (h : subgraphs.Perm subgraphs')
    : (∃ graphs, resolve subgraphs = .ok graphs) ↔ ∃ graphs, resolve subgraphs' = .ok graphs := by
  have hnames := h.map (·.name)
  have hlone := (lone_perm hnames).map GraphId.mk
  rw [exists_resolve_eq_ok_iff, exists_resolve_eq_ok_iff, hnames.nodup_iff,
    (hlone.map GraphId.enumValue?).nodup_iff]
  simp only [hlone.mem_iff]

theorem keys_of_resolve {subgraphs : List Subgraph} {graphs : Identities}
    (h : resolve subgraphs = .ok graphs)
    : graphs.keys = subgraphs.map fun s => assign (subgraphs.map (·.name)) s.name := by
  rw [resolve_eq_ok_iff] at h
  exact (of_map_identified?_eq _ _ _ h.2.1).1.symm

theorem names_of_resolve {subgraphs : List Subgraph} {graphs : Identities}
    (h : resolve subgraphs = .ok graphs)
    : graphs.toList.map (·.2.name) = subgraphs.map (·.name) := by
  rw [resolve_eq_ok_iff] at h
  exact (of_map_identified?_eq _ _ _ h.2.1).2.2.symm

theorem size_of_resolve {subgraphs : List Subgraph} {graphs : Identities}
    (h : resolve subgraphs = .ok graphs) : graphs.size = subgraphs.length := by
  rw [← OrderedMap.length_keys, keys_of_resolve h, List.length_map]

end Supergraph.Identities
