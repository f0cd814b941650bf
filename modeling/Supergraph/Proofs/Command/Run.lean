import Mathlib.Data.List.Forall2
import Supergraph.Command
import Supergraph.Proofs.OrderedMap
import Supergraph.Proofs.Text.JsonText

/-!
This module contains what comes of a run of the command: the first unreadable file is named, or else
the texts that are no schemas are, or else the subgraphs are composed.
-/

namespace Supergraph

open GraphQL Text

namespace Config

def listing? (text : String) : Option (List (String × SubgraphSource)) := do
  let d ← Yaml.Document.parse? text
  if d.maxReferences < references d then none
  else
    let field ← d.fields? ["subgraphs"] d.root
    let entries ← d.entries? (← field "subgraphs")
    entries.mapM fun (name, node) => (SubgraphSource.ofNode? d node).map (name, ·)

theorem parse?_eq (text : String) :
    parse? text = (listing? text).map fun listed => { subgraphs := .ofList listed } := by
  unfold parse? listing? ofDocument?
  cases Yaml.Document.parse? text with
  | none => rfl
  | some d =>
    simp only [Option.bind_eq_bind, Option.bind_some]
    split
    . rfl
    . simp only [Option.map_eq_bind, Option.bind_assoc]
      rfl

theorem parse?_of_listing? {text : String} {listed : List (String × SubgraphSource)}
    (h : listing? text = some listed) : parse? text = some { subgraphs := .ofList listed } := by
  rw [parse?_eq, h]
  rfl

end Config

namespace Command

def schemaPath (config : String) (source : SubgraphSource) : String :=
  FilePath.join (FilePath.directory config) source.file

def result (read : String → Option String) (arguments : List String) : Outcome :=
  Id.run (run read arguments)

section

variable (read : String → Option String) (config : String)

def isUnreadable (e : String × SubgraphSource) : Bool := (read (schemaPath config e.2)).isNone

structure IsRead (e : String × SubgraphSource) (t : SubgraphText) : Prop where
  name : t.name = e.1
  url : t.url = e.2.url
  text : read (schemaPath config e.2) = some t.text

variable {read config} {listed : List (String × SubgraphSource)}

theorem readSchemas_cons (first : String × SubgraphSource) :
    readSchemas (m := Id) read (FilePath.directory config) (first :: listed)
      =
    match read (schemaPath config first.2) with
    | none => .error (.unreadableSchema first.1 (schemaPath config first.2))
    | some text =>
      (readSchemas (m := Id) read (FilePath.directory config) listed).map fun texts =>
        { name := first.1, url := first.2.url, text } :: texts := by
  obtain ⟨name, source⟩ := first
  rw [readSchemas]
  change (match read (schemaPath config source) with
    | none => _
    | some text => _) = _
  cases read (schemaPath config source) with
  | none => rfl
  | some text =>
    dsimp only
    cases readSchemas (m := Id) read (FilePath.directory config) listed <;> rfl

theorem readSubgraphs_eq :
    Id.run (readSubgraphs (m := Id) read config)
      =
    match read config with
    | none => .error (.unreadableConfig config)
    | some text =>
      match Config.parse? text with
      | none => .error (.invalidConfig config)
      | some c => readSchemas (m := Id) read (FilePath.directory config) c.subgraphs.toList :=
  rfl

theorem readSchemas_of_find? {e : String × SubgraphSource}
    (h : listed.find? (isUnreadable read config) = some e)
    : readSchemas (m := Id) read (FilePath.directory config) listed
        =
      .error (.unreadableSchema e.1 (schemaPath config e.2)) := by
  induction listed with
  | nil => cases h
  | cons first rest ih =>
    rw [readSchemas_cons]
    rw [List.find?_cons] at h
    unfold isUnreadable at h
    cases hread : read (schemaPath config first.2) with
    | none =>
      rw [hread] at h
      cases h
      rfl
    | some text =>
      rw [hread] at h
      dsimp only
      rw [ih h]
      rfl

theorem exists_readSchemas (h : listed.find? (isUnreadable read config) = none) :
    ∃ texts, readSchemas (m := Id) read (FilePath.directory config) listed = .ok texts
      ∧ List.Forall₂ (IsRead read config) listed texts := by
  induction listed with
  | nil => exact ⟨[], rfl, .nil⟩
  | cons first rest ih =>
    rw [readSchemas_cons]
    rw [List.find?_cons] at h
    cases hread : read (schemaPath config first.2) with
    | none =>
      unfold isUnreadable at h
      rw [hread] at h
      cases h
    | some text =>
      have hrest : rest.find? (isUnreadable read config) = none := by
        unfold isUnreadable at h
        rwa [hread] at h
      obtain ⟨texts, htexts, hread'⟩ := ih hrest
      refine ⟨{ name := first.1, url := first.2.url, text } :: texts, ?_,
        .cons ⟨rfl, rfl, hread⟩ hread'⟩
      dsimp only
      rw [htexts]
      rfl

end

def isInvalid (t : SubgraphText) : Bool := (Schema.parse? t.text).isNone

structure IsParsed (t : SubgraphText) (s : Subgraph) : Prop where
  name : s.name = t.name
  url : s.url = t.url
  schema : Schema.parse? t.text = some s.schema

theorem filterMap_error_parse (texts : List SubgraphText) :
    (texts.map Subgraph.parse).filterMap (fun
        | .ok _ => none
        | .error e => some e)
      =
    (texts.filter isInvalid).map fun t => CompositionError.invalidSchema t.name none := by
  induction texts with
  | nil => rfl
  | cons t texts ih =>
    rw [List.map_cons, List.filterMap_cons, ih, Subgraph.parse]
    cases hparse : Schema.parse? t.text <;> simp [isInvalid, hparse]

theorem parseAll_eq (texts : List SubgraphText) :
    Subgraph.parseAll texts
      =
    if texts.filter isInvalid = [] then .ok ((texts.map Subgraph.parse).filterMap Except.toOption)
    else .error ((texts.filter isInvalid).map fun t => .invalidSchema t.name none) := by
  have hall : Subgraph.parseAll texts
      = let errors := (texts.filter isInvalid).map fun t =>
          CompositionError.invalidSchema t.name none
        if errors.isEmpty then .ok ((texts.map Subgraph.parse).filterMap Except.toOption)
        else .error errors := by
    rw [← filterMap_error_parse]
    rfl
  rw [hall]
  simp only [List.isEmpty_iff, List.map_eq_nil_iff]

theorem forall₂_isParsed {texts : List SubgraphText} (h : texts.filter isInvalid = []) :
    List.Forall₂ IsParsed texts ((texts.map Subgraph.parse).filterMap Except.toOption) := by
  induction texts with
  | nil => exact .nil
  | cons t texts ih =>
    rw [List.filter_eq_nil_iff, List.forall_mem_cons, ← List.filter_eq_nil_iff] at h
    obtain ⟨hvalid, hrest⟩ := h
    cases hparse : Schema.parse? t.text with
    | none => exact absurd (by rw [isInvalid, hparse]; rfl) hvalid
    | some schema =>
      rw [List.map_cons, Subgraph.parse, hparse]
      exact .cons ⟨rfl, rfl, hparse⟩ (ih hrest)

theorem composeTexts_of_invalid {texts : List SubgraphText} (h : texts.filter isInvalid ≠ [])
    (disabled : List String)
    : composeTexts texts disabled
        =
      .error ((texts.filter isInvalid).map fun t => .invalidSchema t.name none) := by
  rw [composeTexts, parseAll_eq, if_neg h]

theorem exists_composeTexts {texts : List SubgraphText} (h : texts.filter isInvalid = []) :
    ∃ subgraphs, List.Forall₂ IsParsed texts subgraphs
      ∧ ∀ disabled, composeTexts texts disabled = compose subgraphs disabled := by
  refine ⟨_, forall₂_isParsed h, ?_⟩
  intro disabled
  rw [composeTexts, parseAll_eq, if_pos h]

end Command

structure Reply where
  supergraphSdl : Option String
  errors : List ErrorReport

namespace ErrorCode

def all : List ErrorCode := [
  .duplicateSubgraphName, .invalidSubgraphName, .invalidGraphQL, .typeKindMismatch,
  .fieldTypeMismatch, .fieldArgumentTypeMismatch, .fieldArgumentDefaultMismatch,
  .requiredArgumentMissingInSomeSubgraph, .requiredInputFieldMissingInSomeSubgraph,
  .emptyMergedInputType]

def ofText? (text : String) : Option ErrorCode := all.find? (·.text = text)

theorem ofText?_text (code : ErrorCode) : ofText? code.text = some code := by
  cases code <;> decide

end ErrorCode

namespace Reply

def reportOfJson? : Json → Option ErrorReport
  | .object entries =>
    match entries.lookup "code", entries.lookup "message" with
    | some (.string code), some (.string message) => (ErrorCode.ofText? code).map (⟨·, message⟩)
    | _, _ => none
  | _ => none

def ofJson? : Json → Option Reply
  | .object entries => do
    let errors ← match entries.lookup "errors" with
      | some (.array items) => items.mapM reportOfJson?
      | _ => none
    match entries.lookup "supergraphSdl" with
    | none => some { supergraphSdl := none, errors }
    | some (.string text) => some { supergraphSdl := some text, errors }
    | _ => none
  | _ => none

def ofText? (text : String) : Option Reply := (Json.ofText? text).bind ofJson?

theorem reportOfJson?_jsonOfReport (r : ErrorReport) :
    reportOfJson? (Command.jsonOfReport r) = some r := by
  change (ErrorCode.ofText? r.code.text).map _ = _
  rw [ErrorCode.ofText?_text]
  rfl

theorem mapM_reportOfJson? (reports : List ErrorReport) :
    (reports.map Command.jsonOfReport).mapM reportOfJson? = some reports := by
  induction reports with
  | nil => rfl
  | cons r reports ih =>
    rw [List.map_cons, List.mapM_cons, reportOfJson?_jsonOfReport, ih]
    rfl

theorem ofText?_renderJson (result : Except (List CompositionError) Composition) :
    ofText? (Command.renderJson result ++ "\n")
      =
    some (match result with
      | .ok c => { supergraphSdl := some c.text, errors := [] }
      | .error errors => { supergraphSdl := none, errors := errors.map (·.report) }) := by
  unfold ofText?
  cases result with
  | ok c =>
    rw [Command.renderJson, Json.ofText?_render_append]
    rfl
  | error errors =>
    have hreports : (errors.map fun e => Command.jsonOfReport e.report).mapM reportOfJson?
        = some (errors.map (·.report)) := by
      rw [← mapM_reportOfJson?, List.map_map]
      rfl
    rw [Command.renderJson, Json.ofText?_render_append]
    change Option.bind (List.mapM reportOfJson? _) _ = _
    rw [hreports]
    rfl

end Reply

namespace Command

structure Outcome.Shows (o : Outcome) (json : Bool) (supergraph? : Option String)
    (reports : List ErrorReport) : Prop where
  exitCode : o.exitCode = if supergraph?.isSome then 0 else 1
  error : o.error = ""
  text : json = false →
    o.output = supergraph?.getD ("\n".intercalate (reports.map ErrorReport.render)) ++ "\n"
  json : json = true →
    Reply.ofText? o.output = some { supergraphSdl := supergraph?, errors := reports }

theorem outcome_ok_shows (json : Bool) (c : Composition) :
    (outcome json (.ok c)).Shows json (some c.text) [] where
  exitCode := rfl
  error := rfl
  text := by
    rintro rfl
    rfl
  json := by
    rintro rfl
    exact Reply.ofText?_renderJson (.ok c)

theorem outcome_error_shows (json : Bool) (errors : List CompositionError) :
    (outcome json (.error errors)).Shows json none (errors.map (·.report)) where
  exitCode := rfl
  error := rfl
  text := by
    rintro rfl
    change "\n".intercalate _ ++ "\n" = "\n".intercalate _ ++ "\n"
    rw [List.map_map]
    rfl
  json := by
    rintro rfl
    exact Reply.ofText?_renderJson (.error errors)

def Asks (config : String) (disabled : List String) (json : Bool) (arguments : List String) :
    Prop :=
  Request.ofArguments? arguments = some { config, json, disabledRules := disabled }

section

variable {read : String → Option String} {config text : String}
variable (htext : read config = some text) {disabled : List String} {json : Bool}
variable {arguments : List String} (hasks : Asks config disabled json arguments)

include htext hasks

omit htext in
theorem result_eq_readSubgraphs :
    result read arguments
      =
    match Id.run (readSubgraphs (m := Id) read config) with
    | .error failure => failure.outcome
    | .ok texts => outcome json (composeTexts texts disabled) := by
  unfold result run
  rw [hasks]
  rfl

theorem result_eq {c : Config} (hc : Config.parse? text = some c) :
    result read arguments
      =
    match readSchemas (m := Id) read (FilePath.directory config) c.subgraphs.toList with
    | .error failure => failure.outcome
    | .ok texts => outcome json (composeTexts texts disabled) := by
  rw [result_eq_readSubgraphs hasks, readSubgraphs_eq, htext]
  simp only [hc]
  rfl

theorem result_of_unreadable {c : Config} (hc : Config.parse? text = some c)
    {e : String × SubgraphSource}
    (h : c.subgraphs.toList.find? (isUnreadable read config) = some e)
    : result read arguments = (Failure.unreadableSchema e.1 (schemaPath config e.2)).outcome := by
  rw [result_eq htext hasks hc, readSchemas_of_find? h]

end

section

variable {read : String → Option String} {config text : String}
variable (htext : read config = some text)
variable {listed : List (String × SubgraphSource)} (hlisted : Config.listing? text = some listed)

include htext hlisted

theorem result_exact (hnames : (listed.map Prod.fst).Nodup) (disabled : List String) :
    (∀ e, listed.find? (isUnreadable read config) = some e →
        ∀ json arguments, Asks config disabled json arguments → result read arguments = {
          exitCode := 1
          output := ""
          error := "Error: failed to read schema of subgraph " ++ e.1 ++ " at "
            ++ schemaPath config e.2 ++ "\n" })
      ∧ (listed.find? (isUnreadable read config) = none →
        ∃ texts, List.Forall₂ (IsRead read config) listed texts
          ∧ (texts.filter isInvalid ≠ [] →
            ∀ json arguments, Asks config disabled json arguments →
              (result read arguments).Shows json none
                ((texts.filter isInvalid).map fun t => ⟨.invalidGraphQL, "[" ++ t.name ++ "]"⟩))
          ∧ (texts.filter isInvalid = [] →
            ∃ subgraphs, List.Forall₂ IsParsed texts subgraphs
              ∧ ∀ json arguments, Asks config disabled json arguments →
                match compose subgraphs disabled with
                | .ok c => (result read arguments).Shows json (some c.text) []
                | .error errors =>
                  (result read arguments).Shows json none (errors.map (·.report)))) := by
  have hlist : (OrderedMap.ofList listed).toList = listed :=
    OrderedMap.toList_ofList_of_nodup hnames
  have hparse := Config.parse?_of_listing? hlisted
  refine ⟨?_, ?_⟩
  . intro e he json arguments hasks
    rw [result_of_unreadable htext hasks hparse (hlist.symm ▸ he)]
    rfl
  . intro hreadable
    obtain ⟨texts, htexts, hread⟩ := exists_readSchemas hreadable
    have hresult : ∀ json arguments, Asks config disabled json arguments →
        result read arguments = outcome json (composeTexts texts disabled) := by
      intro json arguments hasks
      rw [result_eq htext hasks hparse, hlist, htexts]
    refine ⟨texts, hread, ?_, ?_⟩
    . intro hinvalid json arguments hasks
      rw [hresult json arguments hasks, composeTexts_of_invalid hinvalid]
      have hshows := outcome_error_shows json
        ((texts.filter isInvalid).map fun t => CompositionError.invalidSchema t.name none)
      rwa [List.map_map] at hshows
    . intro hvalid
      obtain ⟨subgraphs, hparsed, hcompose⟩ := exists_composeTexts hvalid
      refine ⟨subgraphs, hparsed, ?_⟩
      intro json arguments hasks
      rw [hresult json arguments hasks, hcompose]
      split
      . next hc => rw [hc]; exact outcome_ok_shows json _
      . next herrors => rw [herrors]; exact outcome_error_shows json _

end

def brokenConfig : String :=
  "subgraphs: \x7ba: \x7bschema: \x7bfile: a\x7d\x7d, b: \x7bschema: \x7bfile: b\x7d\x7d\x7d"

def brokenFiles (second : Option String) (path : String) : Option String :=
  if path = "b" then second
  else [("s.yaml", brokenConfig), ("a", "type Query \x7b")].lookup path

theorem listing?_brokenConfig :
    Config.listing? brokenConfig
      =
    some [("a", { url := none, file := "a" }), ("b", { url := none, file := "b" })] := by
  decide +kernel

theorem result_exact_broken :
    result (brokenFiles none) ["compose", "--json", "s.yaml"]
        = { exitCode := 1, error := "Error: failed to read schema of subgraph b at b\n" }
      ∧ (result (brokenFiles "type Query") ["compose", "--json", "s.yaml"]).Shows true none
        [⟨.invalidGraphQL, "[a]"⟩] := by
  have hasks : Asks "s.yaml" [] true ["compose", "--json", "s.yaml"] := by
    unfold Asks
    decide +kernel
  have htext : ∀ second, brokenFiles second "s.yaml" = some brokenConfig := by
    intro second
    rfl
  refine ⟨?_, ?_⟩
  . have hfirst := (result_exact (htext none) listing?_brokenConfig (by decide) []).1
      ("b", { url := none, file := "b" }) (by decide +kernel)
    rw [hfirst true _ hasks]
    decide +kernel
  . obtain ⟨texts, hread, hinvalid, -⟩ :=
      (result_exact (htext "type Query") listing?_brokenConfig (by decide) []).2 (by decide +kernel)
    obtain ⟨a, _, ha, hrest, rfl⟩ := List.forall₂_cons_left_iff.1 hread
    obtain ⟨b, _, hb, hnil, rfl⟩ := List.forall₂_cons_left_iff.1 hrest
    obtain rfl := List.forall₂_nil_left_iff.1 hnil
    have hatext : a.text = "type Query \x7b" := by
      have hfile : brokenFiles "type Query" (schemaPath "s.yaml" { url := none, file := "a" })
          = some "type Query \x7b" := by decide +kernel
      exact Option.some.inj (ha.text.symm.trans hfile)
    have hbtext : b.text = "type Query" := by
      have hfile : brokenFiles "type Query" (schemaPath "s.yaml" { url := none, file := "b" })
          = some "type Query" := by decide +kernel
      exact Option.some.inj (hb.text.symm.trans hfile)
    have hfilter : [a, b].filter isInvalid = [a] := by
      have hinvalid : isInvalid a = true := by
        rw [isInvalid, hatext]
        decide +kernel
      have hvalid : isInvalid b = false := by
        rw [isInvalid, hbtext]
        decide +kernel
      rw [List.filter_cons_of_pos hinvalid, List.filter_cons_of_neg (by simp [hvalid])]
      rfl
    rw [hfilter] at hinvalid
    have hshows := hinvalid (List.cons_ne_nil _ _) true _ hasks
    rwa [List.map_singleton, ha.name] at hshows

end Command

end Supergraph
