import Supergraph.Proofs.Identity.Assignment

/-!
This module contains the errors that names are rejected with. A name given twice comes first; what
is numbered never clashes, neither with a name nor among itself.
-/

namespace Supergraph

open GraphQL

namespace Text

theorem lowerChar_ne_nil (c : Char) : lowerChar c ≠ [] :=
  mapCase_ne_nil (by decide) c

theorem toLower_eq_empty_iff (s : String) : toLower s = "" ↔ s = "" := by
  unfold toLower
  rw [← String.toList_eq_nil_iff, ← String.toList_eq_nil_iff, String.toList_ofList]
  cases s.toList with
  | nil => exact Iff.rfl
  | cons c rest =>
    refine iff_of_false ?_ (List.cons_ne_nil c rest)
    unfold toLower.go
    rw [List.append_eq_nil_iff]
    rintro ⟨hnil, -⟩
    split at hnil
    . cases hnil
    . exact lowerChar_ne_nil c hnil

end Text

theorem Except.foldlM_eq_error_iff {ε α β : Type} {f : β → α → Except ε β} {xs : List α} {b : β}
    {e : ε}
    : xs.foldlM f b = .error e
        ↔
      ∃ before x after b', xs = before ++ x :: after ∧ before.foldlM f b = .ok b'
        ∧ f b' x = .error e := by
  induction xs generalizing b with
  | nil =>
    refine iff_of_false (by rintro ⟨⟩) ?_
    rintro ⟨before, x, after, b', hsplit, -⟩
    cases before <;> cases hsplit
  | cons x rest ih =>
    rw [List.foldlM_cons]
    cases hx : f b x with
    | error e' =>
      constructor
      . rintro ⟨⟩
        exact ⟨[], x, rest, b, rfl, rfl, hx⟩
      . rintro ⟨before, y, after, b', hsplit, hbefore, hy⟩
        cases before with
        | nil =>
          cases hsplit
          cases hbefore
          rw [hx] at hy
          exact hy
        | cons z before =>
          cases hsplit
          rw [List.foldlM_cons, hx] at hbefore
          cases hbefore
    | ok b₁ =>
      refine (ih (b := b₁)).trans ?_
      constructor
      . rintro ⟨before, y, after, b', rfl, hbefore, hy⟩
        refine ⟨x :: before, y, after, b', rfl, ?_, hy⟩
        rw [List.foldlM_cons, hx]
        exact hbefore
      . rintro ⟨before, y, after, b', hsplit, hbefore, hy⟩
        cases before with
        | nil =>
          cases hsplit
          cases hbefore
          rw [hx] at hy
          cases hy
        | cons z before =>
          cases hsplit
          rw [List.foldlM_cons, hx] at hbefore
          exact ⟨before, y, after, b', rfl, hbefore, hy⟩

namespace Identities

structure Clash (names : List String) (a b : String) : Prop where
  left : a ∈ lone names
  right : b ∈ lone names
  ne : a ≠ b
  enumValue : GraphId.enumValue? ⟨a⟩ = GraphId.enumValue? ⟨b⟩

structure Acceptable (names earlier : List String) : Prop where
  nonempty : "" ∉ earlier
  apart : ∀ a ∈ earlier, ∀ b ∈ earlier, ¬ Clash names a b

/--
The error that names are rejected with. Unless a name is repeated, it is up to the first one that is
not acceptable.
-/
inductive Rejects (names : List String) : CompositionError → Prop
  | repeated (earlier later : List String) (name : String)
    (hnames : names = earlier ++ name :: later) (hnodup : earlier.Nodup) (hname : name ∈ earlier)
    : Rejects names (.duplicateName name)
  | empty (earlier later : List String) (hnames : names = earlier ++ "" :: later)
    (hnodup : names.Nodup) (hearlier : Acceptable names earlier)
    : Rejects names (.unrepresentableName "")
  | clash (earlier later : List String) (other name : String) (enumValue : Name)
    (hnames : names = earlier ++ name :: later) (hnodup : names.Nodup)
    (hearlier : Acceptable names earlier) (hother : other ∈ earlier)
    (hclash : Clash names other name) (hvalue : GraphId.enumValue? ⟨name⟩ = some enumValue)
    : Rejects names (.collidingNames other name enumValue)

theorem repeated?_eq_some_iff {seen names : List String} {name : String} :
    repeated? seen names = some name
      ↔
    ∃ earlier later, names = earlier ++ name :: later ∧ earlier.Nodup ∧ (∀ x ∈ earlier, x ∉ seen)
      ∧ (name ∈ seen ∨ name ∈ earlier) := by
  induction names generalizing seen with
  | nil =>
    refine iff_of_false (by rintro ⟨⟩) ?_
    rintro ⟨earlier, later, hsplit, -⟩
    cases earlier <;> cases hsplit
  | cons x rest ih =>
    unfold repeated?
    split
    . next hseen =>
      constructor
      . rintro ⟨⟩
        exact ⟨[], rest, rfl, List.nodup_nil, by simp, .inl hseen⟩
      . rintro ⟨earlier, later, hsplit, -, hfresh, -⟩
        cases earlier with
        | nil =>
          cases hsplit
          rfl
        | cons y earlier =>
          cases hsplit
          exact absurd hseen (hfresh x List.mem_cons_self)
    . next hseen =>
      rw [ih]
      constructor
      . rintro ⟨earlier, later, rfl, hnodup, hfresh, hname⟩
        have hx : x ∉ earlier := fun hx => hfresh x hx List.mem_cons_self
        refine ⟨x :: earlier, later, rfl, List.nodup_cons.2 ⟨hx, hnodup⟩, ?_, ?_⟩
        . rw [List.forall_mem_cons]
          exact ⟨hseen, fun y hy => List.not_mem_of_not_mem_cons (hfresh y hy)⟩
        . rw [List.mem_cons] at hname ⊢
          tauto
      . rintro ⟨earlier, later, hsplit, hnodup, hfresh, hname⟩
        cases earlier with
        | nil =>
          cases hsplit
          exact absurd (hname.resolve_right List.not_mem_nil) hseen
        | cons y earlier =>
          cases hsplit
          rw [List.nodup_cons] at hnodup
          rw [List.forall_mem_cons] at hfresh
          refine ⟨earlier, later, rfl, hnodup.2, ?_, ?_⟩
          . intro y hy hmem
            cases List.mem_cons.1 hmem with
            | inl heq => exact hnodup.1 (heq ▸ hy)
            | inr hmem => exact hfresh.2 y hy hmem
          . rw [List.mem_cons] at hname ⊢
            tauto

theorem NumberedBefore.total {names : List String} {a b : String} (ha : a ∈ names) (hne : a ≠ b) :
    NumberedBefore names a b ∨ NumberedBefore names b a := by
  unfold NumberedBefore
  obtain hlt | heq | hlt := Nat.lt_trichotomy ((names.map Text.toLower).idxOf (Text.toLower a))
    ((names.map Text.toLower).idxOf (Text.toLower b))
  . exact .inl (.inl hlt)
  . have hlower : Text.toLower a = Text.toLower b :=
      (List.idxOf_inj (List.mem_map_of_mem ha)).1 heq
    have hidx : names.idxOf a ≠ names.idxOf b := fun h => hne ((List.idxOf_inj ha).1 h)
    obtain hlt | hlt := Nat.lt_or_gt_of_ne hidx
    . exact .inl (.inr ⟨hlower, hlt⟩)
    . exact .inr (.inr ⟨hlower.symm, hlt⟩)
  . exact .inr (.inl hlt)

section

variable {names : List String} (hnodup : names.Nodup)

include hnodup

theorem empty_mem_lone (h : "" ∈ names) : "" ∈ lone names := by
  have hfilter : names.filter (Text.toLower · = Text.toLower "") = names.filter (· == "") := by
    apply List.filter_congr
    intro name _
    rw [(Text.toLower_eq_empty_iff "").2 rfl, Bool.beq_eq_decide_eq]
    exact decide_eq_decide.2 (Text.toLower_eq_empty_iff name)
  unfold lone
  rw [List.mem_filter, hfilter, ← List.countP_eq_length_filter]
  exact ⟨h, decide_eq_true (List.count_eq_one_of_mem hnodup h)⟩

theorem enumValue?_assign_eq_none_iff {name : String} (hname : name ∈ names) :
    (assign names name).enumValue? = none ↔ name = "" := by
  by_cases hlone : name ∈ lone names
  . rw [assign_of_mem_lone hnodup hlone, ← Option.not_isSome_iff_eq_none,
      GraphId.isSome_enumValue?_iff, not_not]
  . obtain ⟨number, hassign, -⟩ := isLeast_assign hnodup hname hlone
    rw [hassign, ← Option.not_isSome_iff_eq_none]
    apply iff_of_false (not_not_intro (isSome_enumValue?_numbered _ _))
    rintro rfl
    exact hlone (empty_mem_lone hnodup hname)

theorem enumValue?_assign_ne {a b : String} (ha : a ∈ names) (hb : b ∈ names)
    (hlone : b ∉ lone names) (h : a ∈ lone names ∨ NumberedBefore names a b)
    : (assign names a).enumValue? ≠ (assign names b).enumValue? := by
  obtain ⟨number, hassign, hleast⟩ := isLeast_assign hnodup hb hlone
  rw [hassign]
  exact hleast.1.2.2 a ha h

theorem enumValue?_assign_eq_iff {a b : String} (ha : a ∈ names) (hb : b ∈ names) (hne : a ≠ b) :
    (assign names a).enumValue? = (assign names b).enumValue? ↔ Clash names a b := by
  constructor
  . intro heq
    by_cases hla : a ∈ lone names
    . by_cases hlb : b ∈ lone names
      . rw [assign_of_mem_lone hnodup hla, assign_of_mem_lone hnodup hlb] at heq
        exact ⟨hla, hlb, hne, heq⟩
      . exact absurd heq (enumValue?_assign_ne hnodup ha hb hlb (.inl hla))
    . by_cases hlb : b ∈ lone names
      . exact absurd heq.symm (enumValue?_assign_ne hnodup hb ha hla (.inl hlb))
      -- Of two numbered names the later one avoids the enum value of the other.
      . cases NumberedBefore.total ha hne with
        | inl h => exact absurd heq (enumValue?_assign_ne hnodup ha hb hlb (.inr h))
        | inr h => exact absurd heq.symm (enumValue?_assign_ne hnodup hb ha hla (.inr h))
  . intro h
    rw [assign_of_mem_lone hnodup h.left, assign_of_mem_lone hnodup h.right, h.enumValue]

theorem acceptable_iff {earlier : List String} (hsublist : earlier.Sublist names) :
    Acceptable names earlier
      ↔
    (∀ a ∈ earlier, (assign names a).enumValue?.isSome)
      ∧ (earlier.map fun a => (assign names a).enumValue?).Nodup := by
  have hsome : (∀ a ∈ earlier, (assign names a).enumValue?.isSome) ↔ "" ∉ earlier := by
    constructor
    . intro h hmem
      have hnone := (enumValue?_assign_eq_none_iff hnodup (hsublist.subset hmem)).2 rfl
      have := h "" hmem
      rw [hnone] at this
      cases this
    . intro h a ha
      rw [Option.isSome_iff_ne_none, Ne, enumValue?_assign_eq_none_iff hnodup (hsublist.subset ha)]
      rintro rfl
      exact h ha
  rw [hsome, List.nodup_map_iff_inj_on (hnodup.sublist hsublist)]
  constructor
  . intro h
    refine ⟨h.nonempty, ?_⟩
    intro a ha b hb heq
    by_contra hne
    exact h.apart a ha b hb
      ((enumValue?_assign_eq_iff hnodup (hsublist.subset ha) (hsublist.subset hb) hne).1 heq)
  . rintro ⟨hempty, hinj⟩
    refine ⟨hempty, ?_⟩
    intro a ha b hb hclash
    apply hclash.ne
    apply hinj a ha b hb
    exact (enumValue?_assign_eq_iff hnodup (hsublist.subset ha) (hsublist.subset hb) hclash.ne).2
      hclash

end

theorem add_eq_error_iff {ids : Identities} (h : Consistent ids) {id : GraphId} {s : Subgraph}
    {e : CompositionError}
    : ids.add id s = .error e
        ↔
      (id.enumValue? = none ∧ e = .unrepresentableName id.text)
        ∨ ∃ x ∈ ids.toList, id.enumValue? = some x.2.enumValue
          ∧ e = .collidingNames x.2.name s.name x.2.enumValue := by
  unfold add
  cases hv : id.enumValue? with
  | none => simp [eq_comm]
  | some v =>
    dsimp only
    cases hfind : ids.values.find? (·.enumValue = v) with
    | none =>
      refine iff_of_false (by rintro ⟨⟩) ?_
      rintro (⟨⟨⟩, -⟩ | ⟨x, hx, ⟨⟩, -⟩)
      rw [List.find?_eq_none] at hfind
      exact hfind x.2 (List.mem_map_of_mem hx) (by simp)
    | some other =>
      have hother : other.enumValue = v := by simpa using List.find?_some hfind
      obtain ⟨y, hy, rfl⟩ := List.mem_map.1 (List.mem_of_find?_eq_some hfind)
      constructor
      . rintro ⟨⟩
        exact .inr ⟨y, hy, by rw [hother], by rw [hother]⟩
      . rintro (⟨⟨⟩, -⟩ | ⟨x, hx, ⟨⟩, rfl⟩)
        rw [List.inj_on_of_nodup_map h.nodup hy hx hother]

theorem mem_iff_of_map_identified? {assign : String → GraphId} {subgraphs : List Subgraph}
    {entries : List (GraphId × Identity)}
    (h : subgraphs.map (identified? assign) = entries.map some) (x : GraphId × Identity)
    : x ∈ entries ↔ ∃ s ∈ subgraphs, identified? assign s = some x := by
  rw [← List.mem_map_of_injective fun _ _ => Option.some.inj, ← h, List.mem_map]

theorem consistent_of_map_identified? {assign : String → GraphId} {subgraphs : List Subgraph}
    {ids : Identities} (h : subgraphs.map (identified? assign) = ids.toList.map some)
    (hnodup : (ids.toList.map (·.2.enumValue)).Nodup) : Consistent ids := by
  refine ⟨?_, hnodup⟩
  intro x hx
  obtain ⟨s, -, hs⟩ := (mem_iff_of_map_identified? h x).1 hx
  exact enumValue?_of_identified? hs

theorem exists_identities_iff_names (assign : String → GraphId) (subgraphs : List Subgraph) :
    (∃ graphs : Identities, subgraphs.map (identified? assign) = graphs.toList.map some
      ∧ (graphs.toList.map (·.2.enumValue)).Nodup)
      ↔
    (∀ a ∈ subgraphs.map (·.name), (assign a).enumValue?.isSome)
      ∧ ((subgraphs.map (·.name)).map fun a => (assign a).enumValue?).Nodup := by
  rw [exists_identities_iff, List.forall_mem_map, List.map_map, Function.comp_def]

theorem exists_collidingNames_iff {assign : String → GraphId} {subgraphs : List Subgraph}
    {entries : List (GraphId × Identity)}
    (h : subgraphs.map (identified? assign) = entries.map some) (name : String)
    (e : CompositionError)
    : (∃ x ∈ entries, (assign name).enumValue? = some x.2.enumValue
          ∧ e = .collidingNames x.2.name name x.2.enumValue)
        ↔
      ∃ other ∈ subgraphs.map (·.name), ∃ v, (assign other).enumValue? = some v
        ∧ (assign name).enumValue? = some v ∧ e = .collidingNames other name v := by
  simp only [mem_iff_of_map_identified? h, identified?, List.mem_map, Option.map_eq_some_iff]
  constructor
  . rintro ⟨x, ⟨other, hother, v, hv, rfl⟩, hname, he⟩
    exact ⟨other.name, ⟨other, hother, rfl⟩, v, hv, hname, he⟩
  . rintro ⟨-, ⟨other, hother, rfl⟩, v, hv, hname, he⟩
    exact ⟨_, ⟨other, hother, v, hv, rfl⟩, hname, he⟩

theorem foldlM_add_eq_error_iff {assign : String → GraphId} {subgraphs : List Subgraph}
    {e : CompositionError}
    : subgraphs.foldlM (fun (ids : Identities) s => ids.add (assign s.name) s) ∅ = .error e
        ↔
      ∃ earlier name later, subgraphs.map (·.name) = earlier ++ name :: later
        ∧ ((∀ a ∈ earlier, (assign a).enumValue?.isSome)
          ∧ (earlier.map fun a => (assign a).enumValue?).Nodup)
        ∧ ((assign name).enumValue? = none ∧ e = .unrepresentableName (assign name).text
          ∨ ∃ other ∈ earlier, ∃ v, (assign other).enumValue? = some v
            ∧ (assign name).enumValue? = some v ∧ e = .collidingNames other name v) := by
  rw [Except.foldlM_eq_error_iff]
  constructor
  . rintro ⟨before, s, after, ids, rfl, hbefore, hs⟩
    rw [foldlM_add_empty_eq_ok_iff] at hbefore
    rw [add_eq_error_iff (consistent_of_map_identified? hbefore.1 hbefore.2),
      exists_collidingNames_iff hbefore.1] at hs
    exact ⟨before.map (·.name), s.name, after.map (·.name), by simp,
      (exists_identities_iff_names assign before).1 ⟨ids, hbefore⟩, hs⟩
  . rintro ⟨earlier, name, later, hsplit, hearlier, hname⟩
    obtain ⟨before, rest, rfl, rfl, hrest⟩ := List.map_eq_append_iff.1 hsplit
    obtain ⟨s, after, rfl, rfl, rfl⟩ := List.map_eq_cons_iff.1 hrest
    obtain ⟨ids, hids⟩ := (exists_identities_iff_names assign before).2 hearlier
    refine ⟨before, s, after, ids, rfl, (foldlM_add_empty_eq_ok_iff _ _ _).2 hids, ?_⟩
    rw [add_eq_error_iff (consistent_of_map_identified? hids.1 hids.2),
      exists_collidingNames_iff hids.1]
    exact hname

theorem resolve_eq_error_iff_of_nodup {subgraphs : List Subgraph} {e : CompositionError}
    (hnodup : (subgraphs.map (·.name)).Nodup)
    : resolve subgraphs = .error e ↔ Rejects (subgraphs.map (·.name)) e := by
  have hfold : resolve subgraphs = subgraphs.foldlM (fun (ids : Identities) s =>
      ids.add (assign (subgraphs.map (·.name)) s.name) s) ∅ := by
    unfold resolve
    dsimp only
    rw [(repeated?_eq_none_iff [] _).2 ⟨hnodup, by simp⟩]
  rw [hfold, foldlM_add_eq_error_iff]
  generalize subgraphs.map (·.name) = names at hnodup ⊢
  constructor
  . rintro ⟨earlier, name, later, hnames, hearlier, hname⟩
    have hsublist : earlier.Sublist names := hnames ▸ List.sublist_append_left _ _
    have hmem : name ∈ names := by simp [hnames]
    rw [← acceptable_iff hnodup hsublist] at hearlier
    obtain ⟨hnone, rfl⟩ | ⟨other, hother, v, hv, hv', rfl⟩ := hname
    . rw [enumValue?_assign_eq_none_iff hnodup hmem] at hnone
      subst hnone
      rw [assign_of_mem_lone hnodup (empty_mem_lone hnodup hmem)]
      exact .empty earlier later hnames hnodup hearlier
    . have hne : other ≠ name := by
        rintro rfl
        rw [hnames, List.nodup_append] at hnodup
        exact hnodup.2.2 other hother other List.mem_cons_self rfl
      have hclash := (enumValue?_assign_eq_iff hnodup (hsublist.subset hother) hmem hne).1
        (hv.trans hv'.symm)
      rw [assign_of_mem_lone hnodup hclash.right] at hv'
      exact .clash earlier later other name v hnames hnodup hearlier hother hclash hv'
  . intro h
    cases h with
    | repeated earlier later name hnames _ hname =>
      rw [hnames, List.nodup_append] at hnodup
      exact absurd rfl (hnodup.2.2 name hname name List.mem_cons_self)
    | empty earlier later hnames _ hearlier =>
      have hsublist : earlier.Sublist names := hnames ▸ List.sublist_append_left _ _
      have hmem : "" ∈ names := by simp [hnames]
      refine ⟨earlier, "", later, hnames, (acceptable_iff hnodup hsublist).1 hearlier, .inl ?_⟩
      rw [enumValue?_assign_eq_none_iff hnodup hmem,
        assign_of_mem_lone hnodup (empty_mem_lone hnodup hmem)]
      exact ⟨rfl, rfl⟩
    | clash earlier later other name v hnames _ hearlier hother hclash hv =>
      have hsublist : earlier.Sublist names := hnames ▸ List.sublist_append_left _ _
      refine ⟨earlier, name, later, hnames, (acceptable_iff hnodup hsublist).1 hearlier,
        .inr ⟨other, hother, v, ?_, ?_, rfl⟩⟩
      . rw [assign_of_mem_lone hnodup hclash.left, hclash.enumValue, hv]
      . rw [assign_of_mem_lone hnodup hclash.right, hv]

theorem resolve_eq_error_iff_of_not_nodup {subgraphs : List Subgraph} {e : CompositionError}
    (hnodup : ¬ (subgraphs.map (·.name)).Nodup)
    : resolve subgraphs = .error e ↔ Rejects (subgraphs.map (·.name)) e := by
  unfold resolve
  dsimp only
  generalize subgraphs.map (·.name) = names at hnodup ⊢
  cases hrepeated : repeated? [] names with
  | none => exact absurd ((repeated?_eq_none_iff [] names).1 hrepeated).1 hnodup
  | some name =>
    constructor
    . rintro ⟨⟩
      obtain ⟨earlier, later, hnames, hearlier, -, hname⟩ := repeated?_eq_some_iff.1 hrepeated
      exact .repeated earlier later name hnames hearlier (hname.resolve_left List.not_mem_nil)
    . intro h
      cases h with
      | repeated earlier later name' hnames hearlier hname =>
        have hsome : repeated? [] names = some name' :=
          repeated?_eq_some_iff.2 ⟨earlier, later, hnames, hearlier, by simp, .inr hname⟩
        rw [hrepeated] at hsome
        cases hsome
        rfl
      | empty _ _ _ h => exact absurd h hnodup
      | clash _ _ _ _ _ _ h => exact absurd h hnodup

theorem resolve_eq_error_iff (subgraphs : List Subgraph) (e : CompositionError) :
    resolve subgraphs = .error e ↔ Rejects (subgraphs.map (·.name)) e := by
  by_cases hnodup : (subgraphs.map (·.name)).Nodup
  . exact resolve_eq_error_iff_of_nodup hnodup
  . exact resolve_eq_error_iff_of_not_nodup hnodup

theorem exists_resolve_eq_ok_iff_not_clash (subgraphs : List Subgraph) :
    (∃ graphs, resolve subgraphs = .ok graphs)
      ↔
    (subgraphs.map (·.name)).Nodup
      ∧ "" ∉ subgraphs.map (·.name) ∧ ∀ a b, ¬ Clash (subgraphs.map (·.name)) a b := by
  simp only [resolve_eq_ok_iff, exists_and_left, exists_identities_iff_names]
  apply and_congr_right
  intro hnodup
  rw [← acceptable_iff hnodup (List.Sublist.refl _)]
  constructor
  . intro h
    refine ⟨h.nonempty, ?_⟩
    intro a b hclash
    exact h.apart a (List.mem_filter.1 hclash.left).1 b (List.mem_filter.1 hclash.right).1 hclash
  . rintro ⟨hempty, hclash⟩
    exact ⟨hempty, fun a _ b _ => hclash a b⟩

theorem exists_resolve_eq_error_iff (subgraphs : List Subgraph) :
    (∃ e, resolve subgraphs = .error e) ↔ ¬ ∃ graphs, resolve subgraphs = .ok graphs := by
  cases resolve subgraphs <;> simp

theorem exists_duplicateSubgraphName_iff (subgraphs : List Subgraph) :
    (∃ e, resolve subgraphs = .error e ∧ e.code = .duplicateSubgraphName)
      ↔
    ¬ (subgraphs.map (·.name)).Nodup := by
  constructor
  . rintro ⟨e, he, hcode⟩ hnodup
    rw [code_of_resolve_eq_error he, if_pos hnodup] at hcode
    cases hcode
  . intro hnodup
    obtain ⟨e, he⟩ := (exists_resolve_eq_error_iff subgraphs).2 fun hok =>
      hnodup ((exists_resolve_eq_ok_iff_not_clash subgraphs).1 hok).1
    exact ⟨e, he, by rw [code_of_resolve_eq_error he, if_neg hnodup]⟩

theorem exists_invalidSubgraphName_iff (subgraphs : List Subgraph) :
    (∃ e, resolve subgraphs = .error e ∧ e.code = .invalidSubgraphName)
      ↔
    (subgraphs.map (·.name)).Nodup
      ∧ ("" ∈ subgraphs.map (·.name) ∨ ∃ a b, Clash (subgraphs.map (·.name)) a b) := by
  have hok := exists_resolve_eq_ok_iff_not_clash subgraphs
  constructor
  . rintro ⟨e, he, hcode⟩
    have hnodup : (subgraphs.map (·.name)).Nodup := by
      by_contra hnodup
      rw [code_of_resolve_eq_error he, if_neg hnodup] at hcode
      cases hcode
    refine ⟨hnodup, ?_⟩
    by_contra hnone
    rw [not_or, not_exists] at hnone
    have hclash := fun a => not_exists.1 (hnone.2 a)
    exact (exists_resolve_eq_error_iff subgraphs).1 ⟨e, he⟩ (hok.2 ⟨hnodup, hnone.1, hclash⟩)
  . rintro ⟨hnodup, hbad⟩
    have hfails : ¬ ∃ graphs, resolve subgraphs = .ok graphs := by
      intro h
      obtain ⟨-, hempty, hclash⟩ := hok.1 h
      obtain hmem | ⟨a, b, hab⟩ := hbad
      . exact hempty hmem
      . exact hclash a b hab
    obtain ⟨e, he⟩ := (exists_resolve_eq_error_iff subgraphs).2 hfails
    exact ⟨e, he, by rw [code_of_resolve_eq_error he, if_pos hnodup]⟩

theorem resolve_rejects (subgraphs : List Subgraph) :
    (∀ e, resolve subgraphs = .error e ↔ Rejects (subgraphs.map (·.name)) e)
      ∧ ((∃ e, resolve subgraphs = .error e ∧ e.code = .duplicateSubgraphName)
        ↔ ¬ (subgraphs.map (·.name)).Nodup)
      ∧ ((∃ e, resolve subgraphs = .error e ∧ e.code = .invalidSubgraphName)
        ↔ (subgraphs.map (·.name)).Nodup
          ∧ ("" ∈ subgraphs.map (·.name) ∨ ∃ a b, Clash (subgraphs.map (·.name)) a b))
      ∧ ((∃ graphs, resolve subgraphs = .ok graphs)
        ↔ (subgraphs.map (·.name)).Nodup
          ∧ "" ∉ subgraphs.map (·.name) ∧ ∀ a b, ¬ Clash (subgraphs.map (·.name)) a b) := by
  refine ⟨resolve_eq_error_iff subgraphs, ?_, ?_, ?_⟩
  . exact exists_duplicateSubgraphName_iff subgraphs
  . exact exists_invalidSubgraphName_iff subgraphs
  . exact exists_resolve_eq_ok_iff_not_clash subgraphs

end Identities

end Supergraph
