import Supergraph.Proofs.Composition.Outcome
import Supergraph.Proofs.Model.Shape

/-!
This module contains the proof that the order of subgraphs does not decide about acceptance: what is
reported of an element depends on the set of schemas, apart from the wording.
-/

namespace Supergraph

open GraphQL

def Conflict.signature (c : Conflict) : ErrorCode × Coordinate := (c.code, c.place)

def CompositionError.place? : CompositionError → Option Coordinate
  | .conflict c => some c.place
  | _ => none

def CompositionError.signature (e : CompositionError) : ErrorCode × Option Coordinate :=
  (e.code, e.place?)

theorem schemaSet_perm {schemas schemas' : List Schema} (h : schemas.Perm schemas') :
    schemaSet schemas = schemaSet schemas' := by
  apply Set.ext
  intro s
  exact h.mem_iff

/--
Whether the signatures of what is reported of an element are a function of the set of schemas and
the place of the element.
-/
def DecidedBySchemas (report : Identities → Visit → List Conflict) : Prop :=
  ∃ signatures : Set Schema → Slot × Coordinate → List (ErrorCode × Coordinate),
    ∀ subgraphs graphs, Identities.resolve subgraphs = .ok graphs →
      (∀ s ∈ subgraphs, s.schema.DistinctArguments) →
        ∀ v ∈ (Model.ofSubgraphs graphs subgraphs).visits,
          (report graphs v).map Conflict.signature
            = signatures (schemaSet (subgraphs.map (·.schema))) v.key

namespace DecidedBySchemas

open Classical in
theorem of_reports {report : Identities → Visit → List Conflict} (code : Slot → ErrorCode)
    (finding : Set Schema → Slot → Coordinate → Prop)
    (h : ∀ subgraphs graphs, Identities.resolve subgraphs = .ok graphs →
      (∀ s ∈ subgraphs, s.schema.DistinctArguments) →
        ∀ v ∈ (Model.ofSubgraphs graphs subgraphs).visits,
          Reports (report graphs v) (code v.slot) v.place
            (finding (schemaSet (subgraphs.map (·.schema))) v.slot v.place))
    : DecidedBySchemas report := by
  refine ⟨fun S key => if finding S key.1 key.2 then [(code key.1, key.2)] else [], ?_⟩
  intro subgraphs graphs hresolve hdistinct v hv
  have hreports := h subgraphs graphs hresolve hdistinct v hv
  unfold Visit.key
  dsimp only
  split
  . next hfinding =>
    obtain ⟨c, hc, hcode, hplace⟩ := hreports.of_true hfinding
    rw [hc, ← hcode, ← hplace]
    rfl
  . next hfinding =>
    rw [hreports.of_false hfinding]
    rfl

theorem flatMap {α : Type} {report : α → Identities → Visit → List Conflict} {xs : List α}
    (h : ∀ x ∈ xs, DecidedBySchemas (report x))
    : DecidedBySchemas fun graphs v => xs.flatMap fun x => report x graphs v := by
  induction xs with
  | nil => exact ⟨fun _ _ => [], fun _ _ _ _ _ _ => rfl⟩
  | cons x rest ih =>
    obtain ⟨first, hfirst⟩ := h x List.mem_cons_self
    obtain ⟨others, hothers⟩ := ih fun y hy => h y (List.mem_cons_of_mem x hy)
    refine ⟨fun S key => first S key ++ others S key, ?_⟩
    intro subgraphs graphs hresolve hdistinct v hv
    dsimp only
    rw [List.flatMap_cons, List.map_append, hfirst subgraphs graphs hresolve hdistinct v hv,
      hothers subgraphs graphs hresolve hdistinct v hv]

end DecidedBySchemas

theorem Rule.decidedBySchemas {r : Rule} (hr : r ∈ all) :
    DecidedBySchemas fun graphs v => (r.visitor graphs).visit v := by
  simp only [all, List.mem_cons, List.not_mem_nil, or_false] at hr
  obtain rfl | rfl | rfl | rfl | rfl | rfl := hr
  . exact .of_reports (fun _ => .typeKindMismatch) Finding.kind
      fun _ _ h _ v hv => reports_typeKinds h hv
  . exact .of_reports (fun _ => .fieldTypeMismatch)
      (fun S slot place => slot ∈ [.objectField, .interfaceField, .inputObjectField]
        ∧ Finding.type S slot place)
      fun _ _ h hdistinct v hv => reports_fieldTypes h hv hdistinct
  . exact .of_reports (fun _ => .fieldArgumentTypeMismatch)
      (fun S slot place => (slot = .objectFieldArgument
        ∨ slot = .directiveArgument ∧ Finding.usable S place) ∧ Finding.type S slot place)
      fun _ _ h hdistinct v hv => reports_argumentTypes h hv hdistinct
  . exact .of_reports (fun _ => .requiredArgumentMissingInSomeSubgraph)
      (fun S slot place => slot ∈ [.objectFieldArgument, .interfaceFieldArgument]
        ∧ Finding.lost S slot place)
      fun _ _ h _ v hv => reports_requiredArguments h hv
  . exact .of_reports (fun _ => .fieldArgumentDefaultMismatch)
      (fun S slot place => slot = .objectFieldArgument ∧ Finding.default S slot place)
      fun _ _ h _ v hv => reports_argumentDefaults h hv
  . exact .of_reports (fun slot => if slot = .inputObjectType then .emptyMergedInputType
        else .requiredInputFieldMissingInSomeSubgraph)
      (fun S slot place => slot = .inputObjectType ∧ Finding.empty S place
        ∨ slot = .inputObjectField ∧ Finding.lost S slot place)
      fun _ _ h _ v hv => reports_inputFields h hv

theorem Model.conflicts_enabled (m : Model) (disabled : List String) :
    m.conflicts (Rule.enabled disabled)
      =
    m.visits.flatMap fun v => (Rule.enabled disabled).flatMap fun r =>
      (r.visitor m.graphs).visit v := by
  unfold conflicts walk
  simp only [List.flatMap_map]

variable {subgraphs subgraphs' : List Subgraph}

theorem conflicts_perm {graphs graphs' : Identities} (hperm : subgraphs.Perm subgraphs')
    (hdistinct : ∀ s ∈ subgraphs, s.schema.DistinctArguments)
    (h : Identities.resolve subgraphs = .ok graphs)
    (h' : Identities.resolve subgraphs' = .ok graphs') (disabled : List String)
    : (((Model.ofSubgraphs graphs subgraphs).conflicts (Rule.enabled disabled)).map
        Conflict.signature).Perm
        (((Model.ofSubgraphs graphs' subgraphs').conflicts (Rule.enabled disabled)).map
          Conflict.signature) := by
  have hdecided : DecidedBySchemas fun graphs v =>
      (Rule.enabled disabled).flatMap fun r => (r.visitor graphs).visit v := by
    apply DecidedBySchemas.flatMap
    intro r hr
    exact Rule.decidedBySchemas ((Rule.mem_enabled_iff disabled r).1 hr).1
  obtain ⟨signatures, hsignatures⟩ := hdecided
  -- All signatures of a run, read off the elements that its model has.
  have hconflicts : ∀ subgraphs graphs, Identities.resolve subgraphs = .ok graphs →
      (∀ s ∈ subgraphs, s.schema.DistinctArguments) →
        ((Model.ofSubgraphs graphs subgraphs).conflicts (Rule.enabled disabled)).map
            Conflict.signature
          = ((Model.ofSubgraphs graphs subgraphs).visits.map Visit.key).flatMap
            (signatures (schemaSet (subgraphs.map (·.schema)))) := by
    intro subgraphs graphs h hdistinct
    rw [Model.conflicts_enabled, Model.graphs_ofSubgraphs, List.map_flatMap, List.flatMap_map]
    apply List.flatMap_congr
    intro v hv
    exact hsignatures subgraphs graphs h hdistinct v hv
  have hdistinct' : ∀ s ∈ subgraphs', s.schema.DistinctArguments := by
    intro s hs
    exact hdistinct s (hperm.mem_iff.2 hs)
  rw [hconflicts subgraphs graphs h hdistinct, hconflicts subgraphs' graphs' h' hdistinct',
    schemaSet_perm (hperm.map (·.schema))]
  exact (Model.perm_visitKeys hperm h h').flatMap_right _

theorem exists_resolve_error_of_perm (hperm : subgraphs.Perm subgraphs') {code : ErrorCode}
    (h : ∃ e, Identities.resolve subgraphs = .error e ∧ e.code = code)
    : ∃ e, Identities.resolve subgraphs' = .error e ∧ e.code = code := by
  obtain ⟨e, he, rfl⟩ := h
  cases h' : Identities.resolve subgraphs' with
  | ok graphs' =>
    obtain ⟨graphs, hgraphs⟩ :=
      (Identities.exists_resolve_eq_ok_of_perm hperm).2 ⟨graphs', h'⟩
    rw [he] at hgraphs
    cases hgraphs
  | error e' =>
    refine ⟨e', rfl, ?_⟩
    rw [Identities.code_of_resolve_eq_error he, Identities.code_of_resolve_eq_error h']
    simp only [(hperm.map (·.name)).nodup_iff]

theorem place?_of_resolve_eq_error {e : CompositionError}
    (h : Identities.resolve subgraphs = .error e) : e.place? = none := by
  have hcode := Identities.code_of_resolve_eq_error h
  cases e with
  | conflict c =>
    exfalso
    change c.code = _ at hcode
    split at hcode <;> cases c <;> cases hcode
  | _ => rfl

theorem compose_of_resolve {graphs : Identities} (h : Identities.resolve subgraphs = .ok graphs)
    (disabled : List String)
    : compose subgraphs disabled
        =
      if ((Model.ofSubgraphs graphs subgraphs).conflicts (Rule.enabled disabled)).isEmpty then
        .ok { schema := (Model.ofSubgraphs graphs subgraphs).toSchema, graphs }
      else
        .error (((Model.ofSubgraphs graphs subgraphs).conflicts (Rule.enabled disabled)).map
          .conflict) := by
  unfold compose
  rw [h]

theorem map_signature_conflict (conflicts : List Conflict) :
    (conflicts.map CompositionError.conflict).map CompositionError.signature
      =
    (conflicts.map Conflict.signature).map fun signature => (signature.1, some signature.2) := by
  rw [List.map_map, List.map_map]
  rfl

theorem exists_compose_error_of_perm (hperm : subgraphs.Perm subgraphs')
    (hdistinct : ∀ s ∈ subgraphs, s.schema.DistinctArguments) {disabled : List String}
    {errors : List CompositionError} (h : compose subgraphs disabled = .error errors)
    : ∃ errors', compose subgraphs' disabled = .error errors'
        ∧ (errors.map CompositionError.signature).Perm
          (errors'.map CompositionError.signature) := by
  cases hresolve : Identities.resolve subgraphs with
  | error e =>
    obtain ⟨e', he', hcode⟩ := exists_resolve_error_of_perm hperm ⟨e, hresolve, rfl⟩
    unfold compose at h
    rw [hresolve] at h
    cases h
    refine ⟨[e'], by unfold compose; rw [he'], ?_⟩
    unfold CompositionError.signature
    rw [List.map_singleton, List.map_singleton, hcode, place?_of_resolve_eq_error hresolve,
      place?_of_resolve_eq_error he']
  | ok graphs =>
    obtain ⟨graphs', hresolve'⟩ :=
      (Identities.exists_resolve_eq_ok_of_perm hperm).1 ⟨graphs, hresolve⟩
    have hconflicts := conflicts_perm hperm hdistinct hresolve hresolve' disabled
    rw [compose_of_resolve hresolve] at h
    rw [compose_of_resolve hresolve']
    split at h
    . cases h
    . next hempty =>
      cases h
      have hempty' : ¬ ((Model.ofSubgraphs graphs' subgraphs').conflicts
          (Rule.enabled disabled)).isEmpty := by
        have hlength := hconflicts.length_eq
        rw [List.length_map, List.length_map] at hlength
        rwa [List.isEmpty_iff_length_eq_zero, ← hlength, ← List.isEmpty_iff_length_eq_zero]
      rw [if_neg hempty']
      refine ⟨_, rfl, ?_⟩
      rw [map_signature_conflict, map_signature_conflict]
      exact hconflicts.map _

theorem compose_perm (hperm : subgraphs.Perm subgraphs')
    (hdistinct : ∀ s ∈ subgraphs, s.schema.DistinctArguments) (disabled : List String)
    : ((∃ c, compose subgraphs disabled = .ok c) ↔ ∃ c, compose subgraphs' disabled = .ok c)
        ∧ (∀ code, (∃ e, Identities.resolve subgraphs = .error e ∧ e.code = code)
          ↔ ∃ e, Identities.resolve subgraphs' = .error e ∧ e.code = code)
        ∧ ∀ errors, compose subgraphs disabled = .error errors →
          ∃ errors', compose subgraphs' disabled = .error errors'
            ∧ (errors.map CompositionError.signature).Perm
              (errors'.map CompositionError.signature) := by
  have hdistinct' : ∀ s ∈ subgraphs', s.schema.DistinctArguments := by
    intro s hs
    exact hdistinct s (hperm.mem_iff.2 hs)
  have hok : ∀ {first second : List Subgraph}, first.Perm second →
      (∀ s ∈ second, s.schema.DistinctArguments) →
        (∃ c, compose first disabled = .ok c) → ∃ c, compose second disabled = .ok c := by
    rintro first second hperm hdistinct ⟨c, hc⟩
    cases hsecond : compose second disabled with
    | ok c' => exact ⟨c', rfl⟩
    | error errors =>
      obtain ⟨errors', herrors', -⟩ := exists_compose_error_of_perm hperm.symm hdistinct hsecond
      rw [hc] at herrors'
      cases herrors'
  refine ⟨⟨hok hperm hdistinct', hok hperm.symm hdistinct⟩, ?_, ?_⟩
  . intro code
    exact ⟨exists_resolve_error_of_perm hperm, exists_resolve_error_of_perm hperm.symm⟩
  . intro errors herrors
    exact exists_compose_error_of_perm hperm hdistinct herrors

theorem compose_perm_sample :
    ∃ errors, compose sampleSubgraphs [] = .error errors
      ∧ ∃ errors', compose sampleSubgraphs.reverse [] = .error errors'
        ∧ (errors.map CompositionError.signature).Perm
          (errors'.map CompositionError.signature) := by
  have hperm := compose_perm sampleSubgraphs.reverse_perm.symm distinctArguments_sampleSubgraphs []
  exact ⟨_, rfl, hperm.2.2 _ rfl⟩

end Supergraph
