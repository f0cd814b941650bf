import Supergraph.Proofs.Command.Run
import Supergraph.Proofs.Composition.Graphs

/-!
This module contains the proof that one subgraph reaches the supergraph for each name that is
listed: of those that are listed with the same name, all but the last are lost.
-/

namespace Supergraph

open GraphQL

namespace Config

/--
Whether subgraphs are those that are listed with every name once: a name stands where it is listed
first, and has what is listed for it last.
-/
structure IsKept (listed kept : List (String × SubgraphSource)) : Prop where
  names : kept.map Prod.fst = (listed.map Prod.fst).eraseDups
  source : ∀ e ∈ kept, ((listed.filter (·.1 = e.1)).map Prod.snd).getLast? = some e.2

theorem isKept_ofList (listed : List (String × SubgraphSource)) :
    IsKept listed (OrderedMap.ofList listed).toList where
  names := OrderedMap.keys_ofList listed
  source := by
    rintro ⟨name, source⟩ he
    rw [← OrderedMap.get?_ofList]
    exact (OrderedMap.mem_toList_iff _ _ _).1 he

theorem IsKept.mem_of_mem {listed kept : List (String × SubgraphSource)} (h : IsKept listed kept)
    {e : String × SubgraphSource} (he : e ∈ kept) : e ∈ listed := by
  obtain ⟨name, source⟩ := e
  obtain ⟨⟨name', source'⟩, hmem, heq⟩ := List.mem_map.1 (List.mem_of_getLast? (h.source _ he))
  obtain ⟨hmem, hname⟩ := List.mem_filter.1 hmem
  cases heq
  cases of_decide_eq_true hname
  exact hmem

end Config

namespace Command

open Config

section

variable (read : String → Option String) (config : String)

structure IsListed (e : String × SubgraphSource) (s : Subgraph) : Prop where
  name : s.name = e.1
  url : s.url = e.2.url
  schema : (read (schemaPath config e.2)).bind Schema.parse? = some s.schema

end

section

variable {read : String → Option String} {config : String}
variable {entries : List (String × SubgraphSource)} {subgraphs : List Subgraph}

theorem map_name_of_isListed (h : List.Forall₂ (IsListed read config) entries subgraphs) :
    subgraphs.map (·.name) = entries.map Prod.fst := by
  induction h with
  | nil => rfl
  | cons hfirst _ ih => rw [List.map_cons, List.map_cons, hfirst.name, ih]

theorem forall₂_isListed {texts : List SubgraphText}
    (hread : List.Forall₂ (IsRead read config) entries texts)
    (hparsed : List.Forall₂ IsParsed texts subgraphs)
    : List.Forall₂ (IsListed read config) entries subgraphs := by
  induction hread generalizing subgraphs with
  | nil =>
    cases hparsed
    exact .nil
  | cons hfirst _ ih =>
    cases hparsed with
    | cons hfirst' hrest' =>
      refine .cons ⟨hfirst'.name.trans hfirst.name, hfirst'.url.trans hfirst.url, ?_⟩ (ih hrest')
      rw [hfirst.text]
      exact hfirst'.schema

theorem filter_isInvalid_eq_nil {texts : List SubgraphText}
    (hread : List.Forall₂ (IsRead read config) entries texts)
    (hvalid : ∀ e ∈ entries, ∃ s, IsListed read config e s) : texts.filter isInvalid = [] := by
  induction hread with
  | nil => rfl
  | @cons e t entries texts hfirst _ ih =>
    rw [List.forall_mem_cons] at hvalid
    obtain ⟨⟨s, hs⟩, hrest⟩ := hvalid
    have hschema := hs.schema
    rw [hfirst.text, Option.bind_some] at hschema
    rw [List.filter_cons_of_neg (by simp [isInvalid, hschema]), ih hrest]

theorem exists_result_of_valid {text : String} (htext : read config = some text) {c : Config}
    (hc : Config.parse? text = some c)
    (hvalid : ∀ e ∈ c.subgraphs.toList, ∃ s, IsListed read config e s)
    : ∃ subgraphs, List.Forall₂ (IsListed read config) c.subgraphs.toList subgraphs
        ∧ ∀ disabled json arguments, Asks config disabled json arguments →
          result read arguments = outcome json (compose subgraphs disabled) := by
  have hreadable : c.subgraphs.toList.find? (isUnreadable read config) = none := by
    rw [List.find?_eq_none]
    intro e he hunreadable
    obtain ⟨s, hs⟩ := hvalid e he
    unfold isUnreadable at hunreadable
    have hschema := hs.schema
    rw [Option.isNone_iff_eq_none.1 hunreadable] at hschema
    cases hschema
  obtain ⟨texts, htexts, hread⟩ := exists_readSchemas hreadable
  obtain ⟨subgraphs, hparsed, hcompose⟩ :=
    exists_composeTexts (filter_isInvalid_eq_nil hread hvalid)
  refine ⟨subgraphs, forall₂_isListed hread hparsed, ?_⟩
  intro disabled json arguments hasks
  rw [result_eq htext hasks hc, htexts, ← hcompose]

def IsGraphValue (e : String × SubgraphSource) (value : Name × EnumValueDef) : Prop :=
  value.2 = {
    directives := [{
      name := .lit "join__graph"
      arguments := [(.lit "name", .string e.1), (.lit "url", .string (e.2.url.getD ""))] }] }

theorem forall₂_isGraphValue {graphs : Identities}
    (hlisted : List.Forall₂ (IsListed read config) entries subgraphs)
    (h : Identities.resolve subgraphs = .ok graphs)
    : List.Forall₂ IsGraphValue entries (graphs.values.map Join.graphValue) := by
  obtain ⟨-, hidentified, -⟩ := (Identities.resolve_eq_ok_iff subgraphs graphs).1 h
  unfold OrderedMap.values
  rw [List.map_map]
  clear h
  generalize Identities.assign (subgraphs.map (·.name)) = assign at hidentified
  generalize graphs.toList = identities at *
  induction hlisted generalizing identities with
  | nil =>
    cases identities with
    | nil => exact .nil
    | cons => cases hidentified
  | @cons e s _ _ hfirst _ ih =>
    cases identities with
    | nil => cases hidentified
    | cons identity identities =>
      rw [List.map_cons, List.map_cons, List.cons.injEq] at hidentified
      refine .cons ?_ (ih identities hidentified.2)
      obtain ⟨enumValue, -, rfl⟩ := Option.map_eq_some_iff.1 hidentified.1
      unfold IsGraphValue
      rw [← hfirst.name, ← hfirst.url]
      rfl

theorem exists_graphValues
    (hlisted : List.Forall₂ (IsListed read config) entries subgraphs) {disabled : List String}
    {c : Composition} (h : compose subgraphs disabled = .ok c)
    : ∃ values, c.schema.types.get? Join.graphType = some { body := .enum values }
        ∧ List.Forall₂ IsGraphValue entries values.toList := by
  obtain ⟨graphs, hgraphs, -, rfl⟩ := (compose_eq_ok_iff subgraphs disabled c).1 h
  refine ⟨_, Model.get?_graphType graphs subgraphs, ?_⟩
  rw [Model.toList_graphValues hgraphs]
  exact forall₂_isGraphValue hlisted hgraphs

theorem code_ne_of_compose_eq_error {disabled : List String} {errors : List CompositionError}
    (hnames : (subgraphs.map (·.name)).Nodup)
    (h : compose subgraphs disabled = .error errors)
    : ∀ e ∈ errors, e.code ≠ .duplicateSubgraphName := by
  unfold compose at h
  cases hresolve : Identities.resolve subgraphs with
  | error e =>
    rw [hresolve] at h
    cases h
    have hcode := Identities.code_of_resolve_eq_error hresolve
    rw [if_pos hnames] at hcode
    simp [hcode]
  | ok graphs =>
    rw [hresolve] at h
    dsimp only at h
    split at h
    . cases h
    . cases h
      intro e he
      obtain ⟨c, -, rfl⟩ := List.mem_map.1 he
      cases c <;> rintro ⟨⟩

end

section

variable {read : String → Option String} {config text : String}
variable (htext : read config = some text)
variable {listed : List (String × SubgraphSource)} (hlisted : Config.listing? text = some listed)

include htext hlisted

theorem kept_exact (hvalid : ∀ e ∈ listed, ∃ s, IsListed read config e s) (disabled : List String) :
    ∃ kept subgraphs, IsKept listed kept
      ∧ ((listed.map Prod.fst).Nodup → kept = listed)
      ∧ (¬ (listed.map Prod.fst).Nodup → kept.length < listed.length)
      ∧ List.Forall₂ (IsListed read config) kept subgraphs
      ∧ ∀ json arguments, Asks config disabled json arguments →
        match compose subgraphs disabled with
        | .ok c => (result read arguments).Shows json (some c.text) []
          ∧ ∃ values, c.schema.types.get? Join.graphType = some { body := .enum values }
            ∧ List.Forall₂ IsGraphValue kept values.toList
        | .error errors => (result read arguments).Shows json none (errors.map (·.report))
          ∧ ∀ e ∈ errors, e.code ≠ .duplicateSubgraphName := by
  have hkept := isKept_ofList listed
  obtain ⟨subgraphs, hsubgraphs, hresult⟩ := exists_result_of_valid htext
    (parse?_of_listing? hlisted) fun e he => hvalid e (hkept.mem_of_mem he)
  refine ⟨_, subgraphs, hkept, OrderedMap.toList_ofList_of_nodup, OrderedMap.size_ofList_lt,
    hsubgraphs, ?_⟩
  intro json arguments hasks
  rw [hresult disabled json arguments hasks]
  split
  . next c hc =>
    rw [hc]
    exact ⟨outcome_ok_shows json c, exists_graphValues hsubgraphs hc⟩
  . next errors herrors =>
    rw [herrors]
    refine ⟨outcome_error_shows json errors, ?_⟩
    apply code_ne_of_compose_eq_error ?_ herrors
    rw [map_name_of_isListed hsubgraphs]
    exact (OrderedMap.ofList listed).keys_nodup

end

def repeatedListing : List (String × SubgraphSource) := [
  ("a", { url := none, file := "a.graphql" }), ("a", { url := none, file := "b.graphql" })]

def repeatedConfig : String :=
  "subgraphs: \x7ba: \x7bschema: \x7bfile: a.graphql\x7d\x7d, "
    ++ "a: \x7bschema: \x7bfile: b.graphql\x7d\x7d\x7d"

def repeatedFiles (path : String) : Option String :=
  [("supergraph.yaml", repeatedConfig), ("a.graphql", "type Query \x7b a: Int \x7d"),
    ("b.graphql", "type Query \x7b b: Int \x7d")].lookup path

theorem listing?_repeatedConfig : Config.listing? repeatedConfig = some repeatedListing := by
  decide +kernel

theorem exists_isListed_repeated :
    ∀ e ∈ repeatedListing, ∃ s, IsListed repeatedFiles "supergraph.yaml" e s := by
  have hvalid : ∀ e ∈ repeatedListing,
      ((repeatedFiles (schemaPath "supergraph.yaml" e.2)).bind Schema.parse?).isSome := by
    decide +kernel
  intro e he
  obtain ⟨schema, hschema⟩ := Option.isSome_iff_exists.1 (hvalid e he)
  exact ⟨{ name := e.1, url := e.2.url, schema }, rfl, rfl, hschema⟩

theorem asks_repeated : Asks "supergraph.yaml" [] false ["compose", "supergraph.yaml"] := by
  unfold Asks
  decide +kernel

theorem read_repeated : repeatedFiles "supergraph.yaml" = some repeatedConfig := rfl

theorem toList_ofList_repeated :
    (OrderedMap.ofList repeatedListing).toList = [("a", { url := none, file := "b.graphql" })] := by
  decide

theorem exitCode_repeated :
    (result repeatedFiles ["compose", "supergraph.yaml"]).exitCode = 0 := by
  have hread : repeatedFiles (schemaPath "supergraph.yaml" { url := none, file := "b.graphql" })
      = some "type Query \x7b b: Int \x7d" := by
    decide +kernel
  have hok : (composeTexts
      [{ name := "a", url := none, text := "type Query \x7b b: Int \x7d" }] []).isOk := by
    decide +kernel
  rw [result_eq read_repeated asks_repeated (parse?_of_listing? listing?_repeatedConfig),
    toList_ofList_repeated, readSchemas_cons, hread]
  change (if (composeTexts _ _).isOk then (0 : UInt32) else 1) = 0
  exact if_pos hok

theorem kept_exact_repeated :
    ∃ kept, IsKept repeatedListing kept
      ∧ kept.length < repeatedListing.length
      ∧ ∃ (c : Composition) (values : OrderedMap Name EnumValueDef),
        (result repeatedFiles ["compose", "supergraph.yaml"]).Shows false (some c.text) []
          ∧ c.schema.types.get? Join.graphType = some { body := .enum values }
          ∧ List.Forall₂ IsGraphValue kept values.toList := by
  obtain ⟨kept, subgraphs, hkept, -, hlt, -, hresult⟩ :=
    kept_exact read_repeated listing?_repeatedConfig exists_isListed_repeated []
  refine ⟨kept, hkept, hlt (by decide), ?_⟩
  have hcase := hresult false _ asks_repeated
  split at hcase
  . next c _ =>
    obtain ⟨hshows, values, hvalues, hgraphs⟩ := hcase
    exact ⟨c, values, hshows, hvalues, hgraphs⟩
  . have hexit := hcase.1.exitCode
    rw [exitCode_repeated] at hexit
    cases hexit

theorem exists_listed_not_kept :
    repeatedFiles "supergraph.yaml" = some repeatedConfig
      ∧ Config.listing? repeatedConfig = some repeatedListing
      ∧ repeatedListing.length = 2
      ∧ (∀ e ∈ repeatedListing, ∃ s, IsListed repeatedFiles "supergraph.yaml" e s)
      ∧ ∃ (c : Composition) (values : OrderedMap Name EnumValueDef),
        (result repeatedFiles ["compose", "supergraph.yaml"]).Shows false (some c.text) []
          ∧ c.schema.types.get? Join.graphType = some { body := .enum values }
          ∧ values.size = 1 := by
  refine ⟨read_repeated, listing?_repeatedConfig, rfl, exists_isListed_repeated, ?_⟩
  have hvalid : ∀ e ∈ (OrderedMap.ofList repeatedListing).toList,
      ∃ s, IsListed repeatedFiles "supergraph.yaml" e s := by
    intro e he
    exact exists_isListed_repeated e ((isKept_ofList repeatedListing).mem_of_mem he)
  obtain ⟨subgraphs, hsubgraphs, hresult⟩ :=
    exists_result_of_valid read_repeated (parse?_of_listing? listing?_repeatedConfig) hvalid
  have hexit := exitCode_repeated
  rw [hresult [] false _ asks_repeated] at hexit ⊢
  cases hc : compose subgraphs [] with
  | error errors =>
    rw [hc] at hexit
    cases hexit
  | ok c =>
    obtain ⟨values, hvalues, hgraphs⟩ := exists_graphValues hsubgraphs hc
    refine ⟨c, values, outcome_ok_shows false c, hvalues, ?_⟩
    change values.toList.length = 1
    rw [← hgraphs.length_eq, toList_ofList_repeated]
    rfl

end Command

end Supergraph
