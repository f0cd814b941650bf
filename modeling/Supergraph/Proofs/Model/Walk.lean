import Mathlib.Data.List.Lex
import Mathlib.Logic.Relation
import Supergraph.Rule
import Supergraph.Proofs.Identity.Assignment
import Supergraph.Proofs.Model.Invariant

/-!
This module contains the order of a walk. Every element has a position in its model, below that of
the element it is a part of, and a walk goes through the positions in increasing order.
-/

namespace Supergraph

open GraphQL

def Slot.category : Slot → Nat
  | .namedType => 0
  | .objectType | .objectField | .objectFieldArgument => 1
  | .interfaceType | .interfaceField | .interfaceFieldArgument => 2
  | .inputObjectType | .inputObjectField => 3
  | .enumType | .enumValue => 4
  | .unionType => 5
  | .scalarType => 6
  | .directive | .directiveArgument => 7

theorem OrderedMap.pairwise_toList {α β : Type} [DecidableEq α] (m : OrderedMap α β) :
    m.toList.Pairwise fun e e' => m.keys.idxOf e.1 < m.keys.idxOf e'.1 :=
  (List.pairwise_map (R := fun k k' => m.keys.idxOf k < m.keys.idxOf k')).1
    (pairwise_idxOf_of_nodup m.keys_nodup)

namespace Visit

/--
The category of an element, and then its place among the elements of the model, level by level.
Positions are compared like words.
-/
def position (m : Model) (v : Visit) : List Nat :=
  v.slot.category :: match v with
    | .namedType name _ => [m.kinds.keys.idxOf name]
    | .objectType name _ => [m.objects.keys.idxOf name]
    | .objectField typeName type name _ =>
      [m.objects.keys.idxOf typeName, type.fields.keys.idxOf name]
    | .objectFieldArgument typeName type fieldName field name _ =>
      [m.objects.keys.idxOf typeName, type.fields.keys.idxOf fieldName,
        field.arguments.keys.idxOf name]
    | .interfaceType name _ => [m.interfaces.keys.idxOf name]
    | .interfaceField typeName type name _ =>
      [m.interfaces.keys.idxOf typeName, type.fields.keys.idxOf name]
    | .interfaceFieldArgument typeName type fieldName field name _ =>
      [m.interfaces.keys.idxOf typeName, type.fields.keys.idxOf fieldName,
        field.arguments.keys.idxOf name]
    | .inputObjectType name _ => [m.inputObjects.keys.idxOf name]
    | .inputObjectField typeName type name _ =>
      [m.inputObjects.keys.idxOf typeName, type.fields.keys.idxOf name]
    | .enumType name _ => [m.enums.keys.idxOf name]
    | .enumValue typeName type name _ =>
      [m.enums.keys.idxOf typeName, type.values.keys.idxOf name]
    | .unionType name _ => [m.unions.keys.idxOf name]
    | .scalarType name _ => [m.scalars.keys.idxOf name]
    | .directive name _ => [m.directives.keys.idxOf name]
    | .directiveArgument directiveName entry name _ =>
      [m.directives.keys.idxOf directiveName, entry.arguments.keys.idxOf name]

def Precedes (m : Model) (v w : Visit) : Prop := v.position m < w.position m

def Contains : Visit → Visit → Prop :=
  Relation.TransGen fun whole part => part.parent? = some whole

variable {m : Model} {v w : Visit}

theorem Precedes.asymm (h : v.Precedes m w) : ¬ w.Precedes m v := List.lt_asymm h

theorem Precedes.trans {x : Visit} (h : v.Precedes m w) (h' : w.Precedes m x) : v.Precedes m x :=
  List.lt_trans h h'

theorem Precedes.of_category (h : v.slot.category < w.slot.category) : v.Precedes m w :=
  List.cons_lt_cons_iff.2 (.inl h)

theorem Precedes.of_lt {path : List Nat} {i j : Nat} (h : i < j)
    (hv : path ++ [i] <+: v.position m) (hw : path ++ [j] <+: w.position m) : v.Precedes m w := by
  obtain ⟨rest, hv⟩ := hv
  obtain ⟨rest', hw⟩ := hw
  unfold Precedes
  rw [← hv, ← hw, List.append_assoc, List.append_assoc]
  exact List.append_left_lt (List.cons_lt_cons_iff.2 (.inl h))

theorem Precedes.of_position_append {i : Nat} (h : v.position m ++ [i] <+: w.position m) :
    v.Precedes m w := by
  obtain ⟨rest, h⟩ := h
  have hlt : v.position m ++ [] < v.position m ++ i :: rest := List.append_left_lt List.Lex.nil
  rw [List.append_nil, List.append_cons, h] at hlt
  exact hlt

theorem Precedes.of_parent? (h : w.parent? = some v) : v.Precedes m w := by
  have hposition : ∃ i, v.position m ++ [i] = w.position m := by
    cases w <;> cases h <;> exact ⟨_, rfl⟩
  obtain ⟨i, hi⟩ := hposition
  exact .of_position_append ⟨[], by rw [List.append_nil, hi]⟩

theorem Precedes.of_contains (h : v.Contains w) : v.Precedes m w := by
  induction h with
  | single h => exact .of_parent? h
  | tail _ h ih => exact ih.trans (.of_parent? h)

theorem Contains.isPartOf (h : v.Contains w) (hw : w.IsPartOf m) : v.IsPartOf m := by
  induction h with
  | single h => exact isPartOf_parent hw h
  | tail _ h ih => exact ih (isPartOf_parent hw h)

end Visit

namespace Model

structure Ordered (m : Model) (path : List Nat) (vs : List Visit) : Prop where
  below : ∀ v ∈ vs, path <+: v.position m
  pairwise : vs.Pairwise (Visit.Precedes m)

namespace Ordered

variable {α β : Type} [DecidableEq α] {m : Model} {path : List Nat} {v : Visit}
variable {es : OrderedMap α β} {f : α × β → List Visit} {g : α × β → Visit}

theorem single (hv : v.position m = path) : Ordered m path [v] where
  below := by simp [hv]
  pairwise := List.pairwise_singleton _ _

theorem entries (h : ∀ e ∈ es.toList, Ordered m (path ++ [es.keys.idxOf e.1]) (f e)) :
    Ordered m path (es.toList.flatMap f) where
  below := by
    intro v hv
    obtain ⟨e, he, hv⟩ := List.mem_flatMap.1 hv
    exact (List.prefix_append _ _).trans ((h e he).below v hv)
  pairwise := by
    rw [List.pairwise_flatMap]
    refine ⟨fun e he => (h e he).pairwise, ?_⟩
    apply es.pairwise_toList.imp_of_mem
    intro e e' he he' hlt v hv w hw
    exact .of_lt hlt ((h e he).below v hv) ((h e' he').below w hw)

theorem node (hv : v.position m = path)
    (h : ∀ e ∈ es.toList, Ordered m (path ++ [es.keys.idxOf e.1]) (f e))
    : Ordered m path (v :: es.toList.flatMap f) where
  below := List.forall_mem_cons.2 ⟨hv ▸ List.prefix_rfl, (entries h).below⟩
  pairwise := by
    refine List.pairwise_cons.2 ⟨?_, (entries h).pairwise⟩
    intro w hw
    obtain ⟨e, he, hw⟩ := List.mem_flatMap.1 hw
    apply Visit.Precedes.of_position_append
    rw [hv]
    exact (h e he).below w hw

theorem leaves (h : ∀ e ∈ es.toList, (g e).position m = path ++ [es.keys.idxOf e.1]) :
    Ordered m path (es.toList.map g) := by
  rw [List.map_eq_flatMap]
  exact entries fun e he => single (h e he)

theorem nodeOfLeaves (hv : v.position m = path)
    (h : ∀ e ∈ es.toList, (g e).position m = path ++ [es.keys.idxOf e.1])
    : Ordered m path (v :: es.toList.map g) := by
  rw [List.map_eq_flatMap]
  exact node hv fun e he => single (h e he)

end Ordered

theorem ordered_namedTypeVisits (m : Model) :
    m.Ordered [0] (m.kinds.toList.map fun (name, kinds) => .namedType name kinds) :=
  .leaves fun _ _ => rfl

theorem ordered_objectVisits (m : Model) : m.Ordered [1] m.objectVisits := by
  apply Ordered.entries
  rintro ⟨typeName, type⟩ -
  refine .node ?_ ?_
  . rfl
  rintro ⟨fieldName, field⟩ -
  refine .nodeOfLeaves ?_ ?_
  . rfl
  . exact fun _ _ => rfl

theorem ordered_interfaceVisits (m : Model) : m.Ordered [2] m.interfaceVisits := by
  apply Ordered.entries
  rintro ⟨typeName, type⟩ -
  refine .node ?_ ?_
  . rfl
  rintro ⟨fieldName, field⟩ -
  refine .nodeOfLeaves ?_ ?_
  . rfl
  . exact fun _ _ => rfl

theorem ordered_inputObjectVisits (m : Model) : m.Ordered [3] m.inputObjectVisits := by
  apply Ordered.entries
  rintro ⟨name, entry⟩ -
  refine .nodeOfLeaves ?_ ?_
  . rfl
  . exact fun _ _ => rfl

theorem ordered_enumVisits (m : Model) : m.Ordered [4] m.enumVisits := by
  apply Ordered.entries
  rintro ⟨name, entry⟩ -
  refine .nodeOfLeaves ?_ ?_
  . rfl
  . exact fun _ _ => rfl

theorem ordered_unionVisits (m : Model) :
    m.Ordered [5] (m.unions.toList.map fun (name, type) => .unionType name type) :=
  .leaves fun _ _ => rfl

theorem ordered_scalarVisits (m : Model) :
    m.Ordered [6] (m.scalars.toList.map fun (name, type) => .scalarType name type) :=
  .leaves fun _ _ => rfl

theorem ordered_directiveVisits (m : Model) : m.Ordered [7] m.directiveVisits := by
  apply Ordered.entries
  rintro ⟨name, entry⟩ -
  refine .nodeOfLeaves ?_ ?_
  . rfl
  . exact fun _ _ => rfl

structure OrderedUpTo (m : Model) (category : Nat) (vs : List Visit) : Prop where
  lt : ∀ v ∈ vs, v.slot.category < category
  pairwise : vs.Pairwise (Visit.Precedes m)

theorem Ordered.category {m : Model} {category : Nat} {vs : List Visit}
    (h : m.Ordered [category] vs) : ∀ v ∈ vs, v.slot.category = category := by
  intro v hv
  exact (List.cons_prefix_cons.1 (h.below v hv)).1.symm

theorem OrderedUpTo.append {m : Model} {category : Nat} {vs ws : List Visit}
    (h : m.OrderedUpTo category vs) (h' : m.Ordered [category] ws)
    : m.OrderedUpTo (category + 1) (vs ++ ws) where
  lt := by
    intro v hv
    cases List.mem_append.1 hv with
    | inl hv => exact Nat.lt_succ_of_lt (h.lt v hv)
    | inr hv => exact Nat.lt_succ_of_le (Nat.le_of_eq (h'.category v hv))
  pairwise := by
    refine List.pairwise_append.2 ⟨h.pairwise, h'.pairwise, ?_⟩
    intro v hv w hw
    apply Visit.Precedes.of_category
    rw [h'.category w hw]
    exact h.lt v hv

theorem pairwise_visits (m : Model) : m.visits.Pairwise (Visit.Precedes m) := by
  have hnone : m.OrderedUpTo 0 [] := ⟨by simp, List.Pairwise.nil⟩
  have hall := hnone.append m.ordered_namedTypeVisits
    |>.append m.ordered_objectVisits
    |>.append m.ordered_interfaceVisits
    |>.append m.ordered_inputObjectVisits
    |>.append m.ordered_enumVisits
    |>.append m.ordered_unionVisits
    |>.append m.ordered_scalarVisits
    |>.append m.ordered_directiveVisits
  exact hall.pairwise

end Model

structure Call where
  visitor : Nat
  element : Visit

section

variable {ε : Type}

def Visitor.logged (visitor : Visitor ε) (i : Nat) : Visitor Call where
  slots := visitor.slots
  report v := [{ visitor := i, element := v }]

def Model.calls (m : Model) (visitors : List (Visitor ε)) : List Call :=
  m.walk (visitors.zipIdx.map fun (visitor, i) => visitor.logged i)

def Call.reports (visitors : List (Visitor ε)) (c : Call) : List ε :=
  visitors[c.visitor]?.elim [] (·.report c.element)

def Visit.calls (visitors : List (Visitor ε)) (v : Visit) : List Call :=
  (visitors.zipIdx.filter fun (visitor, _) => v.slot ∈ visitor.slots).map fun (_, i) =>
    { visitor := i, element := v }

def Call.Precedes (m : Model) (c d : Call) : Prop :=
  c.element.Precedes m d.element ∨ c.element = d.element ∧ c.visitor < d.visitor

variable (m : Model) (visitors : List (Visitor ε))

theorem Visit.mem_calls_iff (v : Visit) (c : Call) :
    c ∈ v.calls visitors
      ↔
    c.element = v ∧ ∃ visitor, visitors[c.visitor]? = some visitor ∧ v.slot ∈ visitor.slots := by
  obtain ⟨i, w⟩ := c
  simp only [calls, List.mem_map, List.mem_filter, List.mem_zipIdx_iff_getElem?, Prod.exists,
    decide_eq_true_eq, Call.mk.injEq]
  constructor
  . rintro ⟨visitor, i, ⟨hvisitor, hslot⟩, rfl, rfl⟩
    exact ⟨rfl, visitor, hvisitor, hslot⟩
  . rintro ⟨rfl, visitor, hvisitor, hslot⟩
    exact ⟨visitor, i, ⟨hvisitor, hslot⟩, rfl, rfl⟩

theorem Visit.pairwise_calls (v : Visit) : (v.calls visitors).Pairwise (Call.Precedes m) := by
  have hplaces : visitors.zipIdx.Pairwise fun e e' => e.2 < e'.2 := by
    rw [← List.pairwise_map, List.zipIdx_map_snd]
    exact List.pairwise_lt_range'
  unfold calls
  rw [List.pairwise_map]
  apply (hplaces.filter _).imp
  intro e e' hlt
  exact .inr ⟨rfl, hlt⟩

theorem Model.calls_eq : m.calls visitors = m.visits.flatMap (·.calls visitors) := by
  unfold calls walk Visit.calls
  apply List.flatMap_congr
  intro v _
  rw [List.flatMap_map]
  induction visitors.zipIdx with
  | nil => rfl
  | cons e rest ih =>
    rw [List.flatMap_cons, ih, List.filter_cons]
    by_cases hslot : v.slot ∈ e.1.slots <;> simp [Visitor.visit, Visitor.logged, hslot]

theorem Model.mem_calls_iff (c : Call) :
    c ∈ m.calls visitors
      ↔
    c.element.IsPartOf m
      ∧ ∃ visitor, visitors[c.visitor]? = some visitor ∧ c.element.slot ∈ visitor.slots := by
  simp only [calls_eq, List.mem_flatMap, Visit.mem_calls_iff, mem_visits_iff]
  constructor
  . rintro ⟨v, hv, rfl, hvisitor⟩
    exact ⟨hv, hvisitor⟩
  . rintro ⟨hv, hvisitor⟩
    exact ⟨_, hv, rfl, hvisitor⟩

theorem Model.pairwise_calls : (m.calls visitors).Pairwise (Call.Precedes m) := by
  rw [calls_eq, List.pairwise_flatMap]
  refine ⟨fun v _ => v.pairwise_calls m visitors, ?_⟩
  apply m.pairwise_visits.imp
  intro v w hlt c hc d hd
  rw [Visit.mem_calls_iff] at hc hd
  left
  rwa [hc.1, hd.1]

theorem Call.Precedes.asymm {m : Model} {c d : Call} (h : c.Precedes m d) : ¬ d.Precedes m c := by
  rintro (h' | ⟨helement, hlt⟩)
  . obtain h | ⟨helement, -⟩ := h
    . exact h.asymm h'
    . rw [helement] at h'
      exact h'.asymm h'
  . obtain h | ⟨-, hlt'⟩ := h
    . rw [helement] at h
      exact h.asymm h
    . exact Nat.lt_asymm hlt hlt'

theorem Model.exists_split_of_mem_calls {c : Call} (hc : c ∈ m.calls visitors) :
    ∃ before after, m.calls visitors = before ++ c :: after ∧ c ∉ before ∧ c ∉ after
      ∧ ∀ d ∈ m.calls visitors, d.Precedes m c → d ∈ before := by
  obtain ⟨before, after, hsplit⟩ := List.append_of_mem hc
  have hpairwise := m.pairwise_calls visitors
  rw [hsplit, List.pairwise_append, List.pairwise_cons] at hpairwise
  obtain ⟨-, ⟨hafter, -⟩, hbefore⟩ := hpairwise
  refine ⟨before, after, hsplit, ?_, ?_, ?_⟩
  . intro hmem
    have hself := hbefore c hmem c List.mem_cons_self
    exact hself.asymm hself
  . intro hmem
    have hself := hafter c hmem
    exact hself.asymm hself
  . intro d hd hlt
    rw [hsplit, List.mem_append, List.mem_cons] at hd
    obtain hd | rfl | hd := hd
    . exact hd
    . exact absurd hlt hlt.asymm
    . exact absurd hlt (hafter d hd).asymm

theorem Model.walk_eq_flatMap_calls :
    m.walk visitors = (m.calls visitors).flatMap (·.reports visitors) := by
  rw [calls_eq, List.flatMap_assoc]
  unfold walk
  apply List.flatMap_congr
  intro v _
  unfold Visit.calls
  rw [List.flatMap_map]
  have hmem : ∀ e ∈ visitors.zipIdx, visitors[e.2]? = some e.1 :=
    fun e he => List.mem_zipIdx_iff_getElem?.1 he
  calc visitors.flatMap (·.visit v)
    _ = (visitors.zipIdx.map Prod.fst).flatMap (·.visit v) := by rw [List.zipIdx_map_fst]
    _ = _ := by
      rw [List.flatMap_map]
      generalize visitors.zipIdx = entries at hmem
      induction entries with
      | nil => rfl
      | cons e rest ih =>
        rw [List.forall_mem_cons] at hmem
        rw [List.flatMap_cons, ih hmem.2, List.filter_cons]
        by_cases hslot : v.slot ∈ e.1.slots <;>
          simp [Visitor.visit, Call.reports, hslot, hmem.1]

theorem filter_zipIdx {α : Type} (xs : List α) (start i : Nat) :
    (xs.zipIdx start).filter (·.2 = start + i) = xs[i]?.toList.map (·, start + i) := by
  induction xs generalizing start i with
  | nil => rfl
  | cons x rest ih =>
    rw [List.zipIdx_cons, List.filter_cons]
    cases i with
    | zero =>
      have hnil : (rest.zipIdx (start + 1)).filter (·.2 = start) = [] := by
        rw [List.filter_eq_nil_iff]
        intro e he heq
        have hle := List.le_snd_of_mem_zipIdx he
        rw [of_decide_eq_true heq] at hle
        exact Nat.not_succ_le_self _ hle
      simp [hnil]
    | succ i =>
      have hrest := ih (start + 1) i
      rw [Nat.add_assoc, Nat.add_comm 1 i] at hrest
      simp [hrest]

theorem Visit.filter_calls {i : Nat} {visitor : Visitor ε}
    (hvisitor : visitors[i]? = some visitor) (v : Visit)
    : ((v.calls visitors).filter (·.visitor = i)).map (·.element)
        =
      [v].filter (·.slot ∈ visitor.slots) := by
  have hzip := filter_zipIdx visitors 0 i
  rw [hvisitor, Nat.zero_add] at hzip
  unfold calls
  rw [List.filter_map, List.map_map]
  simp only [Function.comp_def]
  rw [List.filter_comm, hzip]
  by_cases hslot : v.slot ∈ visitor.slots <;> simp [hslot]

theorem Model.filter_calls {i : Nat} {visitor : Visitor ε}
    (hvisitor : visitors[i]? = some visitor)
    : ((m.calls visitors).filter (·.visitor = i)).map (·.element)
        =
      m.visits.filter (·.slot ∈ visitor.slots) := by
  rw [calls_eq, List.filter_flatMap, List.map_flatMap]
  simp only [Visit.filter_calls visitors hvisitor]
  rw [← List.filter_flatMap, List.flatMap_singleton']

theorem Model.calls_exact :
    (∃ elements : List Visit, (∀ v, v ∈ elements ↔ v.IsPartOf m)
        ∧ elements.Pairwise (Visit.Precedes m)
        ∧ m.calls visitors = elements.flatMap (·.calls visitors))
      ∧ (∀ c, c ∈ m.calls visitors
        ↔ c.element.IsPartOf m
          ∧ ∃ visitor, visitors[c.visitor]? = some visitor ∧ c.element.slot ∈ visitor.slots)
      ∧ (∀ c ∈ m.calls visitors, ∃ before after,
        m.calls visitors = before ++ c :: after ∧ c ∉ before ∧ c ∉ after
          ∧ ∀ whole, whole.Contains c.element → whole.IsPartOf m
            ∧ ∀ i visitor, visitors[i]? = some visitor → whole.slot ∈ visitor.slots →
              { visitor := i, element := whole } ∈ before)
      ∧ (∀ i visitor, visitors[i]? = some visitor →
        ((m.calls visitors).filter (·.visitor = i)).map (·.element)
          = (m.calls [visitor]).map (·.element))
      ∧ m.walk visitors = (m.calls visitors).flatMap (·.reports visitors) := by
  refine ⟨⟨m.visits, m.mem_visits_iff, m.pairwise_visits, m.calls_eq visitors⟩,
    m.mem_calls_iff visitors, ?_, ?_, m.walk_eq_flatMap_calls visitors⟩
  . intro c hc
    obtain ⟨before, after, hsplit, hbefore, hafter, hprecede⟩ :=
      m.exists_split_of_mem_calls visitors hc
    refine ⟨before, after, hsplit, hbefore, hafter, ?_⟩
    intro whole hcontains
    have hwhole := hcontains.isPartOf ((m.mem_calls_iff visitors c).1 hc).1
    refine ⟨hwhole, ?_⟩
    intro i visitor hvisitor hslot
    apply hprecede
    . exact (m.mem_calls_iff visitors _).2 ⟨hwhole, visitor, hvisitor, hslot⟩
    . exact .inl (.of_contains hcontains)
  . intro i visitor hvisitor
    have hall : ∀ c ∈ m.calls [visitor], c.visitor = 0 := by
      intro c hc
      obtain ⟨-, visitor', hvisitor', -⟩ := (m.mem_calls_iff [visitor] c).1 hc
      obtain ⟨hlt, -⟩ := List.getElem?_eq_some_iff.1 hvisitor'
      exact Nat.lt_one_iff.1 hlt
    rw [m.filter_calls visitors hvisitor, ← m.filter_calls [visitor] (i := 0) rfl,
      List.filter_eq_self.2 (by simpa using hall)]

end

theorem calls_exact_sample :
    let m := Model.ofSubgraphs sampleGraphs sampleSubgraphs
    let visitors := Rule.all.map (·.visitor sampleGraphs)
    ∃ c ∈ m.calls visitors,
      c.visitor = 2 ∧ c.element.place = .argument (.lit "Query") (.lit "a") (.lit "x")
        ∧ ∃ before after, m.calls visitors = before ++ c :: after ∧ c ∉ before ∧ c ∉ after
          ∧ ∃ d ∈ before, d.visitor = 1 ∧ d.element.place = .member (.lit "Query") (.lit "a") := by
  intro m visitors
  have hv := (m.mem_visits_iff _).1 (List.get_mem m.visits ⟨3, by decide⟩)
  have hslot : (m.visits.get ⟨3, by decide⟩).slot
      ∈ (Rule.argumentTypes.visitor sampleGraphs).slots := by
    decide
  obtain ⟨-, hmem, honce, -⟩ := m.calls_exact visitors
  have hc := (hmem ⟨2, _⟩).2 ⟨hv, Rule.argumentTypes.visitor sampleGraphs, rfl, hslot⟩
  obtain ⟨before, after, hsplit, hbefore, hafter, hwhole⟩ := honce _ hc
  obtain ⟨-, hfield⟩ := hwhole (m.visits.get ⟨2, by decide⟩) (.single rfl)
  have hd := hfield 1 (Rule.fieldTypes.visitor sampleGraphs) rfl (by decide)
  exact ⟨_, hc, rfl, rfl, before, after, hsplit, hbefore, hafter, _, hd, rfl, rfl⟩

end Supergraph
