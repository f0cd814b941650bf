import Supergraph.Proofs.Composition.Disabled
import Supergraph.Proofs.Composition.Graphs
import Supergraph.Proofs.Composition.Growth
import Supergraph.Proofs.Model.Elected

/-!
This module contains what the messages about mismatches say: every subgraph that declares the
element is named once, next to what it declares.
-/

namespace Supergraph

open GraphQL

namespace Wording

inductive Piece
  | said (text : String)
  | subgraph (name : String)
  | inSubgraph
  | inSubgraphs
  | comma
  | but
  | and
deriving DecidableEq

def Piece.text : Piece → String
  | .said text => text
  | .subgraph name => "\"" ++ name ++ "\""
  | .inSubgraph => " in subgraph "
  | .inSubgraphs => " in subgraphs "
  | .comma => ", "
  | .but => " but "
  | .and => " and "

def text (pieces : List Piece) : String := String.join (pieces.map Piece.text)

/--
The names in a sequence of pieces, each with what is said last before it.
-/
def mentions (said : String) : List Piece → List (String × String)
  | [] => []
  | .said said' :: rest => mentions said' rest
  | .subgraph name :: rest => (said, name) :: mentions said rest
  | .inSubgraph :: rest => mentions said rest
  | .inSubgraphs :: rest => mentions said rest
  | .comma :: rest => mentions said rest
  | .but :: rest => mentions said rest
  | .and :: rest => mentions said rest

def namePieces (names : List String) : List Piece :=
  [Piece.comma].intercalate (names.map fun name => [.subgraph name])

def sidePieces (side : String × List String) : List Piece :=
  .said side.1 :: (if side.2.length > 1 then .inSubgraphs else .inSubgraph) :: namePieces side.2

def disagreementPieces : List (String × List String) → List Piece
  | [] => []
  | [only] => sidePieces only
  | first :: second :: rest =>
    sidePieces first ++ .but :: [Piece.and].intercalate ((second :: rest).map sidePieces)

@[simp]
theorem text_nil : text [] = "" := rfl

@[simp]
theorem text_cons (piece : Piece) (pieces : List Piece) :
    text (piece :: pieces) = piece.text ++ text pieces :=
  String.join_cons

@[simp]
theorem text_append (pieces pieces' : List Piece) :
    text (pieces ++ pieces') = text pieces ++ text pieces' := by
  simp [text, String.join_append]

theorem text_intercalate (joint : Piece) (parts : List (List Piece)) :
    text ([joint].intercalate parts) = joint.text.intercalate (parts.map text) := by
  induction parts with
  | nil => rfl
  | cons part rest ih =>
    cases rest with
    | nil => simp [String.intercalate_singleton]
    | cons part' rest =>
      rw [List.intercalate_cons_cons, List.map_cons, List.map_cons, String.intercalate_cons_cons,
        text_append, text_append, ih]
      simp

theorem text_sidePieces (side : String × List String) :
    text (sidePieces side) = side.1 ++ " in " ++ subgraphs side.2 := by
  have hnames : text (namePieces side.2)
      = ", ".intercalate (side.2.map fun name => "\"" ++ name ++ "\"") := by
    rw [namePieces, text_intercalate, List.map_map]
    simp [Function.comp_def, Piece.text]
  have hjoint : (if side.2.length > 1 then Piece.inSubgraphs else Piece.inSubgraph).text
      = " in " ++ (if side.2.length > 1 then "subgraphs " else "subgraph ") := by
    split <;> rfl
  unfold sidePieces subgraphs
  rw [text_cons, text_cons, hnames, hjoint]
  simp only [Piece.text, String.append_assoc]

theorem text_disagreementPieces (groups : List (String × List String)) :
    text (disagreementPieces groups) = disagreement groups := by
  unfold disagreement
  match groups with
  | [] => rfl
  | [only] => exact text_sidePieces only
  | first :: second :: rest =>
    rw [disagreementPieces, text_append, text_cons, text_intercalate, List.map_map]
    simp only [Function.comp_def, text_sidePieces]
    exact (String.append_assoc ..).symm

theorem mentions_namePieces (said : String) (names : List String) (rest : List Piece) :
    mentions said (namePieces names ++ rest) = names.map (said, ·) ++ mentions said rest := by
  unfold namePieces
  induction names with
  | nil => rfl
  | cons name names ih =>
    cases names with
    | nil => simp [mentions]
    | cons name' names =>
      simp only [List.map_cons, List.intercalate_cons_cons] at ih ⊢
      simpa [mentions] using ih

theorem mentions_sidePieces (said : String) (side : String × List String) (rest : List Piece) :
    mentions said (sidePieces side ++ rest)
      =
    side.2.map (side.1, ·) ++ mentions side.1 rest := by
  unfold sidePieces
  rw [List.cons_append, List.cons_append, mentions, ← mentions_namePieces]
  split <;> rfl

theorem mentions_sides (said : String) (groups : List (String × List String)) :
    mentions said ([Piece.and].intercalate (groups.map sidePieces))
      =
    groups.flatMap fun side => side.2.map (side.1, ·) := by
  induction groups generalizing said with
  | nil => rfl
  | cons side groups ih =>
    cases groups with
    | nil => simpa [mentions] using mentions_sidePieces said side []
    | cons side' groups =>
      rw [List.map_cons, List.map_cons, List.intercalate_cons_cons, ← List.map_cons,
        List.append_assoc, mentions_sidePieces, List.flatMap_cons, ← ih side.1]
      rfl

theorem mentions_disagreementPieces (groups : List (String × List String)) :
    mentions "" (disagreementPieces groups)
      =
    groups.flatMap fun side => side.2.map (side.1, ·) := by
  match groups with
  | [] => rfl
  | [only] => simpa [mentions, disagreementPieces] using mentions_sidePieces "" only []
  | first :: second :: rest =>
    rw [disagreementPieces, mentions_sidePieces, mentions, mentions_sides]
    rfl

end Wording

namespace ErrorCode

def mismatches : List ErrorCode := [
  .typeKindMismatch, .fieldTypeMismatch, .fieldArgumentTypeMismatch, .fieldArgumentDefaultMismatch]

def opening (code : ErrorCode) (place : Coordinate) : String :=
  let quoted := "\"" ++ place.render ++ "\""
  match code with
  | .typeKindMismatch => "Type " ++ quoted ++ " has mismatched kind: it is defined as "
  | .fieldTypeMismatch =>
    "Type of field " ++ quoted ++ " is incompatible across subgraphs: it has "
  | .fieldArgumentTypeMismatch =>
    "Type of argument " ++ quoted ++ " is incompatible across subgraphs: it has "
  | .fieldArgumentDefaultMismatch =>
    "Argument " ++ quoted ++ " has incompatible default values across subgraphs: it has "
  | _ => ""

end ErrorCode

namespace Conflict

def sides : Conflict → List (String × List String)
  | .typeKind _ groups => groups.map fun (kind, names) => (kind.describe, names)
  | .fieldType _ groups => groups.map fun (type, names) => ("type \"" ++ type ++ "\"", names)
  | .argumentType _ groups => groups.map fun (type, names) => ("type \"" ++ type ++ "\"", names)
  | .argumentDefault _ groups =>
    groups.map fun (value, names) => ("default value " ++ value, names)
  | _ => []

theorem message_eq {c : Conflict} (hc : c.code ∈ ErrorCode.mismatches) :
    c.message = c.code.opening c.place ++ Wording.disagreement c.sides := by
  cases c with
  | typeKind | fieldType | argumentType | argumentDefault => rfl
  | _ => simp [code, ErrorCode.mismatches] at hc

end Conflict

/--
What the message of a mismatch at an element says of a subgraph with a schema, if it says anything:
its kind of type, its type as it reads against the elected one, or its default value.
-/
def Visit.said? (v : Visit) (code : ErrorCode) (s : Schema) : Option String :=
  match code with
  | .typeKindMismatch => (s.kindsAt v.slot v.place).getLast?.map (·.describe)
  | .fieldTypeMismatch | .fieldArgumentTypeMismatch => do
    let elected ← v.electedType?
    let declared ← (s.typesAt v.slot v.place).getLast?
    return "type \"" ++ (elected.normalize (!v.isOutput) declared).render ++ "\""
  | .fieldArgumentDefaultMismatch => do
    let declared ← (s.inputsAt v.slot v.place).getLast?
    let value ← declared.defaultValue
    return "default value " ++ value.render 0
  | _ => none

def Visit.sides (v : Visit) (code : ErrorCode) (subgraphs : List Subgraph) :
    OrderedMap String (List String) :=
  .group (subgraphs.filterMap fun s => (v.said? code s.schema).map (·, s.name))

structure Conflict.TellsAll (c : Conflict) (subgraphs : List Subgraph) (v : Visit) : Prop where
  place : c.place = v.place
  sides : c.sides = (v.sides c.code subgraphs).toList
  two_le_size : 2 ≤ (v.sides c.code subgraphs).size

namespace Rule

theorem describe_injective : TypeKind.describe.Injective := by
  intro a b
  cases a <;> cases b <;> decide

theorem quoted_type_injective : Function.Injective ("type \"" ++ · ++ "\"") := by
  intro a b hab
  simpa [String.append_left_inj, String.append_right_inj] using hab

theorem default_value_injective : Function.Injective ("default value " ++ ·) := by
  intro a b hab
  simpa [String.append_right_inj] using hab

section

variable {subgraphs : List Subgraph} {graphs : Identities}
variable (h : Identities.resolve subgraphs = .ok graphs)

include h

theorem map_name_sources :
    (Model.sources graphs subgraphs).map (fun (graph, s) => (graphs.name graph, s))
      =
    subgraphs.map fun s => (s.name, s.schema) := by
  -- Identifiers stand in the order of the subgraphs, and name them.
  have hkeys : graphs.keys.map graphs.name = subgraphs.map (·.name) := by
    rw [← Identities.names_of_resolve h]
    unfold OrderedMap.keys
    rw [List.map_map]
    apply List.map_congr_left
    rintro ⟨id, identity⟩ hid
    rw [OrderedMap.mem_toList_iff] at hid
    simp [Identities.name, hid]
  have hzip : (subgraphs.map (·.name)).zip (subgraphs.map (·.schema))
      = subgraphs.map fun s => (s.name, s.schema) :=
    List.zip_map'
  rw [← hkeys, List.zip_map_left] at hzip
  exact hzip

omit h in
theorem tellsAll_of_mem_sides? {ν : Type} [DecidableEq ν] {v : Visit} (code : ErrorCode)
    (report : List (ν × List String) → Conflict) {say : ν → String} (hsay : say.Injective)
    (hreport : ∀ groups, (report groups).code = code ∧ (report groups).place = v.place
      ∧ (report groups).sides = groups.map fun (value, names) => (say value, names))
    {declared : List (ν × GraphId)}
    (hdeclared : declared.map (Prod.map say graphs.name)
      = subgraphs.filterMap fun s => (v.said? code s.schema).map (·, s.name))
    {c : Conflict} (hc : c ∈ ((sides? graphs declared).map report).toList)
    : c.TellsAll subgraphs v := by
  obtain ⟨groups, hgroups, rfl⟩ := Option.map_eq_some_iff.1 (Option.mem_toList.1 hc)
  obtain ⟨hcode, hplace, hsides⟩ := hreport groups
  -- Different values are said differently, so both groupings have the same groups.
  have hgroup := OrderedMap.toList_group_map hsay graphs.name declared
  have hsize : (v.sides code subgraphs).size = (OrderedMap.group declared).size := by
    unfold Visit.sides OrderedMap.size
    rw [← hdeclared, hgroup, List.length_map]
  unfold sides? at hgroups
  dsimp only at hgroups
  split at hgroups
  . cases hgroups
  . next hlt =>
    cases hgroups
    refine ⟨hplace, ?_, ?_⟩
    . rw [hsides, hcode, Visit.sides, ← hdeclared, hgroup, List.map_map]
      rfl
    . rw [hcode, hsize]
      exact Nat.not_lt.1 hlt

theorem filterMap_name_records {δ ρ : Type} (keeps : Schema → Directive → Bool)
    (contents : Schema → List δ) (record : (Directive → Bool) → δ → ρ) (say : ρ → Option String)
    {said : Schema → Option String}
    (hsaid : ∀ s, said s = (contents s).getLast?.bind fun d => say (record (keeps s) d))
    : (Declared.records (declared keeps (Model.sources graphs subgraphs) contents)
        record).toList.filterMap (fun (graph, d) => (say d).map (·, graphs.name graph))
        =
      subgraphs.filterMap fun s => (said s.schema).map (·, s.name) := by
  have hsubgraphs : subgraphs.filterMap (fun s => (said s.schema).map (·, s.name))
      = (subgraphs.map fun s => (s.name, s.schema)).filterMap
        fun (name, s) => (said s).map (·, name) := by
    rw [List.filterMap_map]
    rfl
  rw [hsubgraphs, ← map_name_sources h, toList_records_getLast? (Model.nodup_sources h),
    List.filterMap_filterMap, List.filterMap_map]
  apply List.filterMap_congr
  rintro ⟨graph, s⟩ -
  dsimp only [Function.comp_apply]
  rw [hsaid]
  cases (contents s).getLast? <;> rfl

theorem map_name_types {δ ρ : Type} (keeps : Schema → Directive → Bool) {v : Visit}
    {elected : TypeRef} (helected : v.electedType? = some elected) (code : ErrorCode)
    (hcode : code ∈ [.fieldTypeMismatch, .fieldArgumentTypeMismatch]) {contents : Schema → List δ}
    {type : δ → TypeRef}
    (hcontents : (fun s : Schema => s.typesAt v.slot v.place) = fun s => (contents s).map type)
    (record : (Directive → Bool) → δ → ρ) (typeOf : ρ → TypeRef)
    (htype : ∀ keeps d, typeOf (record keeps d) = type d)
    : ((Declared.records (declared keeps (Model.sources graphs subgraphs) contents)
        record).toList.map fun (graph, d) =>
          ((elected.normalize (!v.isOutput) (typeOf d)).render, graph)).map
          (Prod.map ("type \"" ++ · ++ "\"") graphs.name)
        =
      subgraphs.filterMap fun s => (v.said? code s.schema).map (·, s.name) := by
  have hsaid : ∀ s, v.said? code s = (contents s).getLast?.bind fun d =>
      some ("type \"" ++ (elected.normalize (!v.isOutput) (typeOf (record (keeps s) d))).render
        ++ "\"") := by
    intro s
    have hlast := congrArg List.getLast? (congrFun hcontents s)
    rw [List.getLast?_map] at hlast
    have hsaid : v.said? code s = (do
        let elected ← v.electedType?
        let declared ← (s.typesAt v.slot v.place).getLast?
        return "type \"" ++ (elected.normalize (!v.isOutput) declared).render ++ "\"") := by
      simp only [List.mem_cons, List.not_mem_nil, or_false] at hcode
      obtain rfl | rfl := hcode <;> rfl
    rw [hsaid, helected, hlast]
    cases (contents s).getLast? <;> simp [htype]
  rw [← filterMap_name_records h keeps contents record (fun d =>
    some ("type \"" ++ (elected.normalize (!v.isOutput) (typeOf d)).render ++ "\"")) hsaid,
    List.map_map]
  exact (congrFun List.filterMap_eq_map _).symm

theorem map_name_kinds {name : Name} {kinds : ByGraph TypeKind}
    (hkinds : (Model.ofSubgraphs graphs subgraphs).kinds.get? name = some kinds)
    : (kinds.toList.map fun (graph, kind) => (kind, graph)).map
          (Prod.map TypeKind.describe graphs.name)
        =
      subgraphs.filterMap fun s =>
        ((Visit.namedType name kinds).said? .typeKindMismatch s.schema).map (·, s.name) := by
  have hsaid : ∀ s, (Visit.namedType name kinds).said? .typeKindMismatch s
      = ((s.userType? name).map (·.kind)).toList.getLast?.bind fun kind => some kind.describe := by
    intro s
    change ((s.userType? name).map (·.kind)).toList.getLast?.map (·.describe) = _
    cases (s.userType? name) <;> rfl
  rw [← filterMap_name_records h Schema.keeps _ (fun _ kind => kind)
    (fun kind => some (TypeKind.describe kind)) hsaid,
    ← Model.kinds_eq_records graphs subgraphs hkinds, List.map_map]
  exact (congrFun List.filterMap_eq_map _).symm

variable {v : Visit} (hv : v ∈ (Model.ofSubgraphs graphs subgraphs).visits)

include hv

theorem map_name_outputTypes {e : FieldEntry} (he : v.fieldEntry? = some e) :
    (outputTypes e).map (Prod.map ("type \"" ++ · ++ "\"") graphs.name)
      =
    subgraphs.filterMap fun s => (v.said? .fieldTypeMismatch s.schema).map (·, s.name) := by
  have helected : v.electedType? = some e.type := by
    rw [Visit.electedType?, he]
    rfl
  have houtput : v.isOutput := by
    cases v <;> first | rfl | cases he
  have htypes := map_name_types h Schema.keeps helected .fieldTypeMismatch (by simp)
    (typesAt_of_fieldEntry he) FieldInGraph.ofDef (·.type) fun _ _ => rfl
  rw [houtput, ← (FieldEntry.merges (Visit.ofDeclared?_fieldEntry hv he)).byGraph] at htypes
  unfold outputTypes
  rw [← htypes, TypeRef.normalizeOutput_eq]
  rfl

theorem map_name_inputTypes {e : InputEntry} (he : v.inputEntry? = some e) {code : ErrorCode}
    (hcode : code ∈ [.fieldTypeMismatch, .fieldArgumentTypeMismatch])
    : (inputTypes e).map (Prod.map ("type \"" ++ · ++ "\"") graphs.name)
        =
      subgraphs.filterMap fun s => (v.said? code s.schema).map (·, s.name) := by
  obtain ⟨keeps, hmerged⟩ := Visit.ofDeclared?_inputEntry hv he
  have helected : v.electedType? = some e.type := by
    have hnone : v.fieldEntry? = none := by
      cases v <;> first | rfl | cases he
    rw [Visit.electedType?, hnone, he]
    rfl
  have hinput : v.isOutput = false := by
    cases v <;> first | rfl | cases he
  have htypes := map_name_types h keeps helected code hcode (typesAt_of_inputEntry he)
    InputInGraph.ofDef (·.type) fun _ _ => rfl
  rw [hinput, ← (InputEntry.merges hmerged).byGraph] at htypes
  unfold inputTypes
  rw [← htypes, TypeRef.normalizeInput_eq]
  rfl

theorem map_name_defaults {e : InputEntry} (he : v.inputEntry? = some e) :
    (defaults e).map (Prod.map ("default value " ++ ·) graphs.name)
      =
    subgraphs.filterMap fun s =>
      (v.said? .fieldArgumentDefaultMismatch s.schema).map (·, s.name) := by
  obtain ⟨keeps, hmerged⟩ := Visit.ofDeclared?_inputEntry hv he
  have hsaid : ∀ s, v.said? .fieldArgumentDefaultMismatch s
      = (s.inputsAt v.slot v.place).getLast?.bind fun d =>
        (InputInGraph.ofDef (keeps s) d).defaultValue.map fun x =>
          "default value " ++ x.render 0 := by
    intro s
    unfold Visit.said?
    cases (s.inputsAt v.slot v.place).getLast? with
    | none => rfl
    | some d => cases hx : d.defaultValue <;> simp [InputInGraph.ofDef, hx]
  rw [← filterMap_name_records h keeps (·.inputsAt v.slot v.place) InputInGraph.ofDef
    (fun d => d.defaultValue.map fun x => "default value " ++ x.render 0) hsaid,
    ← (InputEntry.merges hmerged).byGraph]
  unfold defaults
  rw [List.map_filterMap]
  apply List.filterMap_congr
  rintro ⟨graph, d⟩ -
  dsimp only
  cases d.defaultValue <;> rfl

theorem tellsAll_typeKinds {c : Conflict} (hc : c ∈ (typeKinds.visitor graphs).visit v) :
    c.TellsAll subgraphs v := by
  cases v with
  | namedType name kinds =>
    exact tellsAll_of_mem_sides? .typeKindMismatch (.typeKind name) describe_injective
      (fun _ => ⟨rfl, rfl, rfl⟩) (map_name_kinds h ((Model.mem_visits_iff _ _).1 hv)) hc
  | _ => cases hc

theorem tellsAll_fieldTypes {c : Conflict} (hc : c ∈ (fieldTypes.visitor graphs).visit v) :
    c.TellsAll subgraphs v := by
  cases v with
  | objectField | interfaceField =>
    exact tellsAll_of_mem_sides? .fieldTypeMismatch (.fieldType _) quoted_type_injective
      (fun _ => ⟨rfl, rfl, rfl⟩) (map_name_outputTypes h hv rfl) hc
  | inputObjectField =>
    exact tellsAll_of_mem_sides? .fieldTypeMismatch (.fieldType _) quoted_type_injective
      (fun _ => ⟨rfl, rfl, rfl⟩) (map_name_inputTypes h hv rfl (by simp)) hc
  | _ => cases hc

theorem tellsAll_argumentTypes {c : Conflict} (hc : c ∈ (argumentTypes.visitor graphs).visit v) :
    c.TellsAll subgraphs v := by
  cases v with
  | objectFieldArgument =>
    exact tellsAll_of_mem_sides? .fieldArgumentTypeMismatch (.argumentType _)
      quoted_type_injective (fun _ => ⟨rfl, rfl, rfl⟩) (map_name_inputTypes h hv rfl (by simp)) hc
  | directiveArgument directiveName entry name argument =>
    change c ∈ ((sides? graphs (if _ then inputTypes argument else [])).map _).toList at hc
    split at hc
    . exact tellsAll_of_mem_sides? .fieldArgumentTypeMismatch (.argumentType _)
        quoted_type_injective (fun _ => ⟨rfl, rfl, rfl⟩)
        (map_name_inputTypes h hv rfl (by simp)) hc
    . cases hc
  | _ => cases hc

theorem tellsAll_argumentDefaults {c : Conflict}
    (hc : c ∈ (argumentDefaults.visitor graphs).visit v) : c.TellsAll subgraphs v := by
  cases v with
  | objectFieldArgument =>
    exact tellsAll_of_mem_sides? .fieldArgumentDefaultMismatch (.argumentDefault _)
      default_value_injective (fun _ => ⟨rfl, rfl, rfl⟩) (map_name_defaults h hv rfl) hc
  | _ => cases hc

theorem tellsAll_of_mem_visit {r : Rule} (hr : r ∈ all) {c : Conflict}
    (hc : c ∈ (r.visitor graphs).visit v) (hcode : c.code ∈ ErrorCode.mismatches)
    : c.TellsAll subgraphs v := by
  have hrule := rule?_code_of_mem_visit hr hc
  simp only [ErrorCode.mismatches, List.mem_cons, List.not_mem_nil, or_false] at hcode
  obtain hcode | hcode | hcode | hcode := hcode <;> rw [hcode] at hrule <;> cases hrule
  case inl => exact tellsAll_typeKinds h hv hc
  case inr.inl => exact tellsAll_fieldTypes h hv hc
  case inr.inr.inl => exact tellsAll_argumentTypes h hv hc
  case inr.inr.inr => exact tellsAll_argumentDefaults h hv hc

end

end Rule

theorem Visit.nodup_sides {subgraphs : List Subgraph} (hnames : (subgraphs.map (·.name)).Nodup)
    (v : Visit) (code : ErrorCode)
    : (((v.sides code subgraphs).toList.flatMap fun side => side.2.map (side.1, ·)).map
        Prod.snd).Nodup := by
  have hperm := (OrderedMap.perm_entries_group
    (subgraphs.filterMap fun s => (v.said? code s.schema).map (·, s.name))).map Prod.snd
  apply hperm.nodup_iff.2
  rw [List.map_filterMap]
  refine List.Sublist.nodup ?_ hnames
  clear hperm hnames
  induction subgraphs with
  | nil => exact .refl _
  | cons s subgraphs ih =>
    cases hsaid : v.said? code s.schema with
    | none => simpa [hsaid] using ih.cons s.name
    | some said => simpa [hsaid] using ih

theorem exists_conflict_of_compose {subgraphs : List Subgraph} {disabled : List String}
    {errors : List CompositionError} (h : compose subgraphs disabled = .error errors)
    {e : CompositionError} (he : e ∈ errors) (hcode : e.code ∈ ErrorCode.mismatches)
    : ∃ graphs, Identities.resolve subgraphs = .ok graphs
        ∧ ∃ v ∈ (Model.ofSubgraphs graphs subgraphs).visits,
          ∃ r ∈ Rule.enabled disabled, ∃ c ∈ (r.visitor graphs).visit v, e = .conflict c := by
  cases hresolve : Identities.resolve subgraphs with
  | error error =>
    unfold compose at h
    rw [hresolve] at h
    cases h
    rw [List.mem_singleton.1 he, Identities.code_of_resolve_eq_error hresolve] at hcode
    split at hcode <;> exact absurd hcode (by decide)
  | ok graphs =>
    rw [compose_of_resolve hresolve] at h
    split at h
    . cases h
    . cases h
      obtain ⟨c, hc, rfl⟩ := List.mem_map.1 he
      rw [Model.mem_conflicts_iff, Model.graphs_ofSubgraphs] at hc
      obtain ⟨v, hv, r, hr, hc⟩ := hc
      exact ⟨graphs, rfl, v, hv, r, hr, c, hc, rfl⟩

theorem mismatch_messages :
    (∀ {α β : Type} [DecidableEq α] (entries : List (α × β)),
        OrderedMap.IsGrouping entries (.group entries))
      ∧ ∀ subgraphs disabled errors, compose subgraphs disabled = .error errors →
        ∀ e ∈ errors, e.code ∈ ErrorCode.mismatches →
          ∃ graphs, Identities.resolve subgraphs = .ok graphs
            ∧ ∃ v ∈ (Model.ofSubgraphs graphs subgraphs).visits,
              (∃ r ∈ Rule.enabled disabled, ∃ c ∈ (r.visitor graphs).visit v, e = .conflict c)
                ∧ e.place? = some v.place
                ∧ ∃ pieces, pieces = Wording.disagreementPieces (v.sides e.code subgraphs).toList
                  ∧ e.message = e.code.opening v.place ++ Wording.text pieces
                  ∧ (Wording.mentions "" pieces).Perm
                    (subgraphs.filterMap fun s => (v.said? e.code s.schema).map (·, s.name))
                  ∧ ((Wording.mentions "" pieces).map Prod.snd).Nodup
                  ∧ 2 ≤ (v.sides e.code subgraphs).size := by
  refine ⟨OrderedMap.isGrouping_group, ?_⟩
  intro subgraphs disabled errors herrors e he hcode
  obtain ⟨graphs, hresolve, v, hv, r, hr, c, hc, rfl⟩ :=
    exists_conflict_of_compose herrors he hcode
  have htells := Rule.tellsAll_of_mem_visit hresolve hv ((Rule.mem_enabled_iff _ _).1 hr).1 hc hcode
  have hnames := ((Identities.resolve_eq_ok_iff subgraphs graphs).1 hresolve).1
  refine ⟨graphs, hresolve, v, hv, ⟨r, hr, c, hc, rfl⟩, congrArg some htells.place, _, rfl, ?_⟩
  rw [Wording.text_disagreementPieces, Wording.mentions_disagreementPieces]
  refine ⟨?_, OrderedMap.perm_entries_group _, v.nodup_sides hnames _, htells.two_le_size⟩
  change c.message
    = c.code.opening v.place ++ Wording.disagreement (v.sides c.code subgraphs).toList
  rw [← htells.sides, ← htells.place]
  exact Conflict.message_eq hcode

def interleavedSubgraphs : List SubgraphText := [
  { name := "a", text := "type Query \x7b x: Int \x7d" },
  { name := "b", text := "type Query \x7b x: String \x7d" },
  { name := "c", text := "type Query \x7b x: Int! \x7d" },
  { name := "d", text := "type Query \x7b y: Int \x7d" },
  { name := "e", text := "type Query \x7b x: [Int] \x7d" }]

def onlyError? : Except (List CompositionError) Composition → Option CompositionError
  | .error [e] => some e
  | _ => none

theorem eq_error_of_onlyError? {result : Except (List CompositionError) Composition}
    {e : CompositionError} (h : onlyError? result = some e) : result = .error [e] := by
  unfold onlyError? at h
  split at h
  . cases h
    rfl
  . cases h

theorem mismatch_messages_interleaved :
    ∃ subgraphs e, Subgraph.parseAll interleavedSubgraphs = .ok subgraphs
      ∧ compose subgraphs [] = .error [e]
      ∧ e.message = "Type of field \"Query.x\" is incompatible across subgraphs: it has "
        ++ "type \"Int\" in subgraphs \"a\", \"c\" but type \"String\" in subgraph \"b\" "
        ++ "and type \"[Int]\" in subgraph \"e\""
      ∧ ∃ graphs, Identities.resolve subgraphs = .ok graphs
        ∧ ∃ v ∈ (Model.ofSubgraphs graphs subgraphs).visits, e.place? = some v.place
          ∧ ∃ pieces, e.message = e.code.opening v.place ++ Wording.text pieces
            ∧ ((Wording.mentions "" pieces).map Prod.snd).Nodup := by
  have hany : (Subgraph.parseAll interleavedSubgraphs).toOption.any fun subgraphs =>
      (onlyError? (compose subgraphs [])).any fun e => e.code = .fieldTypeMismatch
        ∧ e.message = "Type of field \"Query.x\" is incompatible across subgraphs: it has "
          ++ "type \"Int\" in subgraphs \"a\", \"c\" but type \"String\" in subgraph \"b\" "
          ++ "and type \"[Int]\" in subgraph \"e\"" := by
    decide +kernel
  obtain ⟨subgraphs, hsubgraphs, hany⟩ := Except.exists_ok_of_any hany
  obtain ⟨e, he, hsays⟩ := (Option.any_eq_true _ _).1 hany
  obtain ⟨hcode, hmessage⟩ := of_decide_eq_true hsays
  have herror := eq_error_of_onlyError? he
  obtain ⟨graphs, hgraphs, v, hv, -, hplace, pieces, -, htext, -, hnodup, -⟩ :=
    mismatch_messages.2 subgraphs [] [e] herror e (List.mem_singleton_self e)
      (by rw [hcode]; decide)
  exact ⟨subgraphs, e, hsubgraphs, herror, hmessage, graphs, hgraphs, v, hv, hplace, pieces,
    htext, hnodup⟩

end Supergraph
