import Supergraph.Proofs.Grouping
import Supergraph.Proofs.Identity.Numbering

/-!
This module contains the theory of resolution: identities stand in the order of the subgraphs, each
under an identifier of its own, and their enum values differ.
-/

namespace Supergraph

open GraphQL

theorem Except.bind_eq_ok_iff {ε α β : Type} (x : Except ε α) (f : α → Except ε β) (b : β) :
    x >>= f = .ok b ↔ ∃ a, x = .ok a ∧ f a = .ok b := by
  cases x with
  | error e => exact iff_of_false (by rintro ⟨⟩) (by rintro ⟨a, ⟨⟩, -⟩)
  | ok a =>
    constructor
    . intro h
      exact ⟨a, rfl, h⟩
    . rintro ⟨a', ha', h⟩
      cases ha'
      exact h

namespace GraphId

theorem isSome_enumValue?_iff (id : GraphId) : id.enumValue?.isSome ↔ id.text ≠ "" := by
  constructor
  . intro h htext
    have : id = ⟨""⟩ := by
      cases id
      cases htext
      rfl
    rw [this] at h
    revert h
    decide
  . intro h
    unfold enumValue? Name.ofText?
    rw [dif_pos (isName_enumText (Text.toList_toUpper_ne_nil h))]
    rfl

end GraphId

namespace Identities

theorem repeated?_eq_none_iff (seen names : List String) :
    repeated? seen names = none ↔ names.Nodup ∧ ∀ name ∈ names, name ∉ seen := by
  induction names generalizing seen with
  | nil => simp [repeated?]
  | cons name rest ih =>
    unfold repeated?
    split
    . next h => simp [h]
    . next h =>
      rw [ih]
      simp only [List.mem_cons, not_or, List.nodup_cons, forall_eq_or_imp, h, not_false_eq_true,
        true_and]
      constructor
      . rintro ⟨hnodup, hall⟩
        exact ⟨⟨fun hmem => (hall name hmem).1 rfl, hnodup⟩, fun x hx => (hall x hx).2⟩
      . rintro ⟨⟨hnot, hnodup⟩, hall⟩
        exact ⟨hnodup, fun x hx => ⟨fun heq => hnot (heq ▸ hx), hall x hx⟩⟩

def identified? (assign : String → GraphId) (s : Subgraph) : Option (GraphId × Identity) :=
  (assign s.name).enumValue?.map fun enumValue =>
    (assign s.name, { name := s.name, url := s.url, enumValue })

theorem enumValue?_of_identified? {assign : String → GraphId} {s : Subgraph}
    {e : GraphId × Identity} (h : identified? assign s = some e)
    : e.1.enumValue? = some e.2.enumValue := by
  unfold identified? at h
  generalize assign s.name = id at h
  obtain ⟨v, hv, rfl⟩ := Option.map_eq_some_iff.1 h
  exact hv

structure Consistent (ids : Identities) : Prop where
  enumValue : ∀ e ∈ ids.toList, e.1.enumValue? = some e.2.enumValue
  nodup : (ids.toList.map (·.2.enumValue)).Nodup

theorem add_eq_ok_iff {ids ids' : Identities} (h : Consistent ids) (assign : String → GraphId)
    (s : Subgraph)
    : ids.add (assign s.name) s = .ok ids'
        ↔
      ∃ e, identified? assign s = some e ∧ e.2.enumValue ∉ ids.toList.map (·.2.enumValue)
        ∧ ids'.toList = ids.toList ++ [e] := by
  unfold add identified?
  generalize assign s.name = id
  cases hv : id.enumValue? with
  | none => simp
  | some v =>
    dsimp only
    cases hfind : ids.values.find? (·.enumValue = v) with
    | some other =>
      refine iff_of_false (by rintro ⟨⟩) ?_
      rintro ⟨e, he, hnot, -⟩
      cases he
      apply hnot
      have hother : other.enumValue = v := by simpa using List.find?_some hfind
      obtain ⟨e, hmem, rfl⟩ := List.mem_map.1 (List.mem_of_find?_eq_some hfind)
      exact List.mem_map.2 ⟨e, hmem, hother⟩
    | none =>
      rw [List.find?_eq_none] at hfind
      have hnot : v ∉ ids.toList.map (·.2.enumValue) := by
        intro hmem
        obtain ⟨e, he, hev⟩ := List.mem_map.1 hmem
        exact hfind e.2 (List.mem_map.2 ⟨e, he, rfl⟩) (by simpa using hev)
      -- An identifier that is there already would have brought its enum value along.
      have hkey : id ∉ ids.keys := by
        intro hmem
        obtain ⟨e, he, rfl⟩ := List.mem_map.1 hmem
        apply hnot
        rw [h.enumValue e he] at hv
        exact List.mem_map.2 ⟨e, he, Option.some.inj hv⟩
      constructor
      . rintro ⟨⟩
        exact ⟨_, rfl, hnot, OrderedMap.toList_insert_of_not_mem _ hkey⟩
      . rintro ⟨e, ⟨⟩, -, htoList⟩
        apply congrArg Except.ok
        apply OrderedMap.ext
        rw [htoList, OrderedMap.toList_insert_of_not_mem _ hkey]

theorem Consistent.append {ids ids' : Identities} (h : Consistent ids)
    {assign : String → GraphId} {s : Subgraph} {e : GraphId × Identity}
    (he : identified? assign s = some e) (hnot : e.2.enumValue ∉ ids.toList.map (·.2.enumValue))
    (htoList : ids'.toList = ids.toList ++ [e]) : Consistent ids' := by
  constructor
  . intro x hx
    rw [htoList] at hx
    cases List.mem_append.1 hx with
    | inl hx => exact h.enumValue x hx
    | inr hx =>
      cases List.mem_singleton.1 hx
      exact enumValue?_of_identified? he
  . rw [htoList, List.map_append, List.nodup_append]
    refine ⟨h.nodup, by simp, ?_⟩
    intro v hv w hw heq
    simp only [List.map_cons, List.map_nil, List.mem_singleton] at hw
    exact hnot (hw ▸ heq ▸ hv)

theorem foldlM_add_eq_ok_iff (assign : String → GraphId) (subgraphs : List Subgraph)
    {ids ids' : Identities} (h : Consistent ids)
    : subgraphs.foldlM (fun ids s => ids.add (assign s.name) s) ids = .ok ids'
        ↔
      ∃ entries, subgraphs.map (identified? assign) = entries.map some
        ∧ ((ids.toList ++ entries).map (·.2.enumValue)).Nodup
        ∧ ids'.toList = ids.toList ++ entries := by
  induction subgraphs generalizing ids with
  | nil =>
    rw [List.foldlM_nil]
    constructor
    . rintro ⟨⟩
      exact ⟨[], rfl, by simpa using h.nodup, by simp⟩
    . rintro ⟨entries, hentries, -, htoList⟩
      cases entries with
      | cons e rest => cases hentries
      | nil =>
        rw [List.append_nil] at htoList
        rw [OrderedMap.ext htoList]
        rfl
  | cons s rest ih =>
    rw [List.foldlM_cons, Except.bind_eq_ok_iff]
    constructor
    . rintro ⟨ids₁, hadd, hrest⟩
      obtain ⟨e, he, hnot, htoList⟩ := (add_eq_ok_iff h assign s).1 hadd
      obtain ⟨entries, hentries, hnodup, htoList'⟩ := (ih (h.append he hnot htoList)).1 hrest
      rw [htoList, List.append_assoc] at hnodup htoList'
      exact ⟨e :: entries, by rw [List.map_cons, hentries, he]; rfl, hnodup, htoList'⟩
    . rintro ⟨entries, hentries, hnodup, htoList⟩
      cases entries with
      | nil => cases hentries
      | cons e entries =>
        rw [List.map_cons, List.map_cons, List.cons.injEq] at hentries
        rw [List.append_cons] at hnodup htoList
        have hnot : e.2.enumValue ∉ ids.toList.map (·.2.enumValue) := by
          intro hmem
          rw [List.map_append, List.map_append] at hnodup
          have := (List.nodup_append.1 (List.nodup_append.1 hnodup).1).2.2
          exact this _ hmem e.2.enumValue (by simp) rfl
        -- Different enum values keep identifiers apart, so the entry goes to the end.
        have hkey : e.1 ∉ ids.keys := by
          intro hmem
          obtain ⟨x, hx, hxe⟩ := List.mem_map.1 hmem
          have hvalue := h.enumValue x hx
          rw [hxe, enumValue?_of_identified? hentries.1] at hvalue
          exact hnot (List.mem_map.2 ⟨x, hx, (Option.some.inj hvalue).symm⟩)
        have htoList₁ := OrderedMap.toList_insert_of_not_mem (m := ids) e.2 hkey
        refine ⟨ids.insert e.1 e.2, ?_, ?_⟩
        . exact (add_eq_ok_iff h assign s).2 ⟨e, hentries.1, hnot, htoList₁⟩
        . apply (ih (h.append hentries.1 hnot htoList₁)).2
          rw [htoList₁]
          exact ⟨entries, hentries.2, hnodup, htoList⟩

theorem consistent_empty : Consistent ∅ := ⟨by simp, by simp⟩

theorem foldlM_add_empty_eq_ok_iff (assign : String → GraphId) (subgraphs : List Subgraph)
    (graphs : Identities)
    : subgraphs.foldlM (fun (ids : Identities) s => ids.add (assign s.name) s) ∅ = .ok graphs
        ↔
      subgraphs.map (identified? assign) = graphs.toList.map some
        ∧ (graphs.toList.map (·.2.enumValue)).Nodup := by
  rw [foldlM_add_eq_ok_iff _ _ consistent_empty]
  simp only [OrderedMap.toList_empty, List.nil_append]
  constructor
  . rintro ⟨entries, hentries, hnodup, rfl⟩
    exact ⟨hentries, hnodup⟩
  . rintro ⟨hentries, hnodup⟩
    exact ⟨graphs.toList, hentries, hnodup, rfl⟩

theorem resolve_eq_ok_iff (subgraphs : List Subgraph) (graphs : Identities) :
    resolve subgraphs = .ok graphs
      ↔
    (subgraphs.map (·.name)).Nodup
      ∧ subgraphs.map (identified? (assign (subgraphs.map (·.name)))) = graphs.toList.map some
      ∧ (graphs.toList.map (·.2.enumValue)).Nodup := by
  unfold resolve
  dsimp only
  cases hrepeated : repeated? [] (subgraphs.map (·.name)) with
  | some name =>
    refine iff_of_false (by rintro ⟨⟩) ?_
    rintro ⟨hnodup, -⟩
    rw [(repeated?_eq_none_iff [] _).2 ⟨hnodup, by simp⟩] at hrepeated
    cases hrepeated
  | none =>
    dsimp only
    rw [foldlM_add_empty_eq_ok_iff]
    exact (and_iff_right ((repeated?_eq_none_iff [] _).1 hrepeated).1).symm

theorem code_of_resolve_eq_error {subgraphs : List Subgraph} {e : CompositionError}
    (h : resolve subgraphs = .error e)
    : e.code
        =
      if (subgraphs.map (·.name)).Nodup then .invalidSubgraphName else .duplicateSubgraphName := by
  -- Once no name is repeated, only an enum value can be in the way.
  have hfold : ∀ (assign : String → GraphId) (subgraphs : List Subgraph) (ids : Identities),
      subgraphs.foldlM (fun ids s => ids.add (assign s.name) s) ids = .error e
        → e.code = .invalidSubgraphName := by
    intro assign subgraphs
    induction subgraphs with
    | nil =>
      intro ids h
      cases h
    | cons s rest ih =>
      intro ids h
      rw [List.foldlM_cons] at h
      cases hadd : ids.add (assign s.name) s with
      | ok ids' =>
        rw [hadd] at h
        exact ih ids' h
      | error e' =>
        rw [hadd] at h
        cases h
        unfold add at hadd
        split at hadd
        . cases hadd
          rfl
        . split at hadd
          . cases hadd
            rfl
          . cases hadd
  unfold resolve at h
  dsimp only at h
  cases hrepeated : repeated? [] (subgraphs.map (·.name)) with
  | some name =>
    rw [hrepeated] at h
    cases h
    rw [if_neg]
    . rfl
    . intro hnodup
      rw [(repeated?_eq_none_iff [] _).2 ⟨hnodup, by simp⟩] at hrepeated
      cases hrepeated
  | none =>
    rw [hrepeated] at h
    rw [if_pos ((repeated?_eq_none_iff [] _).1 hrepeated).1]
    exact hfold _ subgraphs ∅ h

end Identities

end Supergraph
