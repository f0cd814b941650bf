import Supergraph.Proofs.Composition.Attribution
import Supergraph.Proofs.Identity.Assignment
import Supergraph.Proofs.Identity.EnumValue

/-!
This module contains the proof that every subgraph of a run has an identity of its own, and that the
supergraph lists these identities and no others.
-/

namespace Supergraph

open GraphQL

theorem map_eq_map_of_map_eq_map_some {α β γ : Type} {f : α → Option β} {g : β → γ} {k : α → γ}
    {xs : List α} {ys : List β} (h : xs.map f = ys.map some) (hgk : ∀ x y, f x = some y → g y = k x)
    : ys.map g = xs.map k := by
  induction xs generalizing ys with
  | nil =>
    cases ys with
    | nil => rfl
    | cons y ys => cases h
  | cons x xs ih =>
    cases ys with
    | nil => cases h
    | cons y ys =>
      rw [List.map_cons, List.map_cons, List.cons.injEq] at h
      rw [List.map_cons, List.map_cons, ih h.2, hgk x y h.1]

namespace Identities

def names (graphs : Identities) : List String := graphs.values.map (·.name)

/--
The numbers that a name with case variants may get: above those of the variants that are numbered
before it, and with an enum value that no lone name and no name numbered before has.
-/
def numbersLeft (graphs : Identities) (name : String) : Set Nat :=
  {number | 0 < number
    ∧ (∀ e ∈ graphs.toList, Text.toLower e.2.name = Text.toLower name →
      NumberedBefore graphs.names e.2.name name →
        ∀ j, e.1 = numbered (Text.toLower name) j → j < number)
    ∧ ∀ e ∈ graphs.toList, e.2.name ∈ lone graphs.names ∨ NumberedBefore graphs.names e.2.name name →
      some e.2.enumValue ≠ (numbered (Text.toLower name) number).enumValue?}

structure Represents (graphs : Identities) (s : Subgraph) (id : GraphId) (identity : Identity) :
    Prop where
  name : identity.name = s.name
  url : identity.url = s.url
  enumValue : id.enumValue? = some identity.enumValue
  isCapital : identity.enumValue.IsCapital
  isName : s.name ∈ lone graphs.names → id = ⟨s.name⟩
  isNumbered : s.name ∉ lone graphs.names →
    ∃ number, id = ⟨Text.toUpper (Text.toLower s.name) ++ "_" ++ number.repr⟩
      ∧ IsLeast (graphs.numbersLeft s.name) number

variable {subgraphs : List Subgraph} {graphs : Identities}
variable (h : resolve subgraphs = .ok graphs)

include h

theorem names_eq : graphs.names = subgraphs.map (·.name) := by
  rw [← names_of_resolve h]
  unfold names OrderedMap.values
  rw [List.map_map]
  rfl

theorem numbersLeft_eq (name : String) :
    graphs.numbersLeft name
      =
    numbersFor (subgraphs.map (·.name)) (assign (subgraphs.map (·.name))) name := by
  obtain ⟨-, hidentified, -⟩ := (resolve_eq_ok_iff subgraphs graphs).1 h
  have hentries : graphs.toList.map (fun e => (e.2.name, e.1, some e.2.enumValue))
      = subgraphs.map fun s => (s.name, assign (subgraphs.map (·.name)) s.name,
        (assign (subgraphs.map (·.name)) s.name).enumValue?) := by
    apply map_eq_map_of_map_eq_map_some hidentified
    intro s e he
    unfold identified? at he
    obtain ⟨v, hv, rfl⟩ := Option.map_eq_some_iff.1 he
    rw [hv]
  have hall : ∀ P : String × GraphId × Option Name → Prop,
      (∀ e ∈ graphs.toList, P (e.2.name, e.1, some e.2.enumValue))
        ↔ ∀ other ∈ subgraphs.map (·.name), P (other, assign (subgraphs.map (·.name)) other,
          (assign (subgraphs.map (·.name)) other).enumValue?) := by
    intro P
    rw [← List.forall_mem_map (P := P), hentries, List.forall_mem_map, List.forall_mem_map]
  unfold numbersLeft numbersFor
  rw [names_eq h]
  apply Set.ext
  intro number
  change _ ∧ _ ∧ _ ↔ _ ∧ _ ∧ _
  have hbefore := hall fun t => Text.toLower t.1 = Text.toLower name →
      NumberedBefore (subgraphs.map (·.name)) t.1 name →
        ∀ j, t.2.1 = numbered (Text.toLower name) j → j < number
  have hvalues := hall fun t => t.1 ∈ lone (subgraphs.map (·.name))
      ∨ NumberedBefore (subgraphs.map (·.name)) t.1 name →
        t.2.2 ≠ (numbered (Text.toLower name) number).enumValue?
  dsimp only at hbefore hvalues
  rw [hbefore, hvalues]

theorem represents_of_getElem? {i : Nat} {s : Subgraph} (hs : subgraphs[i]? = some s) :
    ∃ id identity, graphs.toList[i]? = some (id, identity) ∧ graphs.Represents s id identity := by
  obtain ⟨hnodup, hidentified, -⟩ := (resolve_eq_ok_iff subgraphs graphs).1 h
  have hget := congrArg (fun xs => xs[i]?) hidentified
  simp only [List.getElem?_map, hs, Option.map_some] at hget
  obtain ⟨e, he, heq⟩ := Option.map_eq_some_iff.1 hget.symm
  have hmem : s.name ∈ subgraphs.map (·.name) :=
    List.mem_map.2 ⟨s, List.mem_of_getElem? hs, rfl⟩
  obtain ⟨v, hv, rfl⟩ := Option.map_eq_some_iff.1 heq.symm
  refine ⟨_, _, he, rfl, rfl, hv, GraphId.isCapital_of_enumValue? hv, ?_, ?_⟩
  . rw [names_eq h]
    exact assign_of_mem_lone hnodup
  . rw [names_eq h, numbersLeft_eq h]
    exact isLeast_assign hnodup hmem

omit h in
theorem getElem?_sources {i : Nat} {s : Subgraph} (hs : subgraphs[i]? = some s) {id : GraphId}
    {identity : Identity} (hid : graphs.toList[i]? = some (id, identity))
    : (Model.sources graphs subgraphs)[i]? = some (id, s.schema) := by
  unfold Model.sources OrderedMap.keys
  rw [List.getElem?_zip_eq_some, List.getElem?_map, List.getElem?_map, hs, hid]
  exact ⟨rfl, rfl⟩

theorem get?_kinds_of_getElem?_sources {i : Nat} {id : GraphId} {schema : Schema}
    (hsource : (Model.sources graphs subgraphs)[i]? = some (id, schema)) {type : Name}
    {kinds : ByGraph TypeKind}
    (hkinds : (Model.ofSubgraphs graphs subgraphs).kinds.get? type = some kinds)
    : kinds.get? id = (schema.userType? type).map (·.kind) := by
  rw [Model.kinds_eq_records graphs subgraphs hkinds,
    get?_records (Model.nodup_sources h) (List.mem_of_getElem? hsource)]
  cases schema.userType? type <;> rfl

end Identities

theorem resolve_isBijection {subgraphs : List Subgraph} {graphs : Identities}
    (h : Identities.resolve subgraphs = .ok graphs)
    : graphs.size = subgraphs.length
        ∧ (∀ (i : Nat) (s : Subgraph), subgraphs[i]? = some s → ∃ id identity,
          graphs.toList[i]? = some (id, identity) ∧ graphs.Represents s id identity
            ∧ (Model.sources graphs subgraphs)[i]? = some (id, s.schema)
            ∧ ∀ type kinds, (Model.ofSubgraphs graphs subgraphs).kinds.get? type = some kinds →
              kinds.get? id = (s.schema.userType? type).map (·.kind))
        ∧ graphs.keys.Nodup
        ∧ (graphs.values.map (·.enumValue)).Nodup
        ∧ ∀ disabled c, compose subgraphs disabled = .ok c →
          c.graphs = graphs
            ∧ ∃ values, c.schema.types.get? Join.graphType = some { body := .enum values }
              ∧ values.toList = graphs.values.map fun identity => (identity.enumValue, {
                directives := [{
                  name := .lit "join__graph"
                  arguments := [(.lit "name", .string identity.name),
                    (.lit "url", .string (identity.url.getD ""))] }] }) := by
  have hvalues : (graphs.values.map (·.enumValue)).Nodup := by
    unfold OrderedMap.values
    rw [List.map_map]
    exact ((Identities.resolve_eq_ok_iff subgraphs graphs).1 h).2.2
  refine ⟨Identities.size_of_resolve h, ?_, graphs.keys_nodup, hvalues, ?_⟩
  . intro i s hs
    obtain ⟨id, identity, hid, hrepresents⟩ := Identities.represents_of_getElem? h hs
    have hsource := Identities.getElem?_sources hs hid
    refine ⟨id, identity, hid, hrepresents, hsource, ?_⟩
    intro type kinds hkinds
    exact Identities.get?_kinds_of_getElem?_sources h hsource hkinds
  . intro disabled c hc
    obtain ⟨graphs', h', -, rfl⟩ := (compose_eq_ok_iff subgraphs disabled c).1 hc
    rw [h] at h'
    cases h'
    refine ⟨rfl, _, Model.get?_graphType graphs subgraphs, ?_⟩
    apply OrderedMap.toList_ofList_of_nodup
    rw [List.map_map]
    exact hvalues

def variantSubgraphs : List Subgraph := ["Foo", "foo", "Foo-1"].map fun name =>
  { name, schema := { directiveDefs := ∅, types := ∅ } }

def variantGraphs : Identities where
  toList := [
    (⟨"FOO_2"⟩, { name := "Foo", url := none, enumValue := .lit "FOO_2" }),
    (⟨"FOO_3"⟩, { name := "foo", url := none, enumValue := .lit "FOO_3" }),
    (⟨"Foo-1"⟩, { name := "Foo-1", url := none, enumValue := .lit "FOO_1" })]
  nodup_keys := by decide

theorem resolve_isBijection_variants :
    Identities.resolve variantSubgraphs = .ok variantGraphs
      ∧ ∃ id identity, variantGraphs.toList[1]? = some (id, identity)
        ∧ variantGraphs.Represents variantSubgraphs[1] id identity := by
  have h : Identities.resolve variantSubgraphs = .ok variantGraphs := by
    rw [Identities.resolve_eq_ok_iff]
    decide +kernel
  obtain ⟨id, identity, hid, hrepresents, -⟩ := (resolve_isBijection h).2.1 1 _ rfl
  exact ⟨h, id, identity, hid, hrepresents⟩

end Supergraph
