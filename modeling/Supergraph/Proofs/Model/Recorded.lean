import Supergraph.Proofs.Model.Lookup

namespace Supergraph

open GraphQL

theorem toList_ne_nil_iff {α : Type} (o : Option α) : o.toList ≠ [] ↔ o.isSome := by
  cases o <;> simp

section

variable {δ ρ : Type} {keeps : Schema → Directive → Bool} {sources : List (GraphId × Schema)}
variable {contents : Schema → List δ} {record : (Directive → Bool) → δ → ρ}

theorem map_declared (f : Declared δ → ρ) :
    (declared keeps sources contents).map f
      =
    sources.flatMap fun (graph, s) => (contents s).map fun d => f (⟨graph, keeps s⟩, d) := by
  unfold declared
  rw [List.map_flatMap]
  apply List.flatMap_congr
  intro source _
  rw [List.map_map]
  rfl

theorem isSome_merged?_declared_iff {ε : Type} (declare : Declared δ → Option ε → ε) :
    (merged? declare (declared keeps sources contents)).isSome
      ↔
    ∃ s ∈ sources.map Prod.snd, contents s ≠ [] := by
  rw [isSome_merged?_iff, Ne, declared_eq_nil_iff]
  simp only [not_forall, exists_prop, List.mem_map]
  constructor
  . rintro ⟨source, hmem, hne⟩
    exact ⟨source.2, ⟨source, hmem, rfl⟩, hne⟩
  . rintro ⟨_, ⟨source, hmem, rfl⟩, hne⟩
    exact ⟨source, hmem, hne⟩

theorem mem_keys_records (graph : GraphId) :
    graph ∈ (Declared.records (declared keeps sources contents) record).keys
      ↔
    ∃ s, (graph, s) ∈ sources ∧ contents s ≠ [] := by
  unfold Declared.records
  rw [OrderedMap.mem_keys_ofList, List.map_map, List.mem_map]
  constructor
  . rintro ⟨d, hd, rfl⟩
    obtain ⟨graph, s, hmem, hdeclarer, hx⟩ := mem_declared.1 hd
    refine ⟨s, ?_, List.ne_nil_of_mem hx⟩
    simpa [hdeclarer] using hmem
  . rintro ⟨s, hmem, hne⟩
    obtain ⟨x, hx⟩ := List.exists_mem_of_ne_nil _ hne
    exact ⟨(⟨graph, keeps s⟩, x), mem_declared.2 ⟨graph, s, hmem, rfl, hx⟩, rfl⟩

theorem filter_records (hnodup : (sources.map Prod.fst).Nodup) {graph : GraphId} {s : Schema}
    (hmem : (graph, s) ∈ sources)
    : (((declared keeps sources contents).map fun d => (d.1.graph, record d.1.keeps d.2)).filter
        (·.1 = graph)).map (·.2)
        =
      (contents s).map (record (keeps s)) := by
  rw [map_declared, List.filter_flatMap, List.map_flatMap]
  induction sources with
  | nil => cases hmem
  | cons source rest ih =>
    obtain ⟨graph', s'⟩ := source
    have hnot := (List.nodup_cons.1 hnodup).1
    rw [List.flatMap_cons]
    cases List.mem_cons.1 hmem with
    | inl heq =>
      cases heq
      -- Later subgraphs have other identifiers.
      have hrest : (rest.flatMap fun source => ((((contents source.2).map fun d =>
          (source.1, record (keeps source.2) d)).filter (·.1 = graph)).map (·.2))) = [] := by
        rw [List.flatMap_eq_nil_iff]
        intro source hsource
        have hne : source.1 ≠ graph := by
          intro heq
          exact hnot (List.mem_map.2 ⟨source, hsource, heq⟩)
        simp [List.filter_map, Function.comp_def, hne]
      rw [hrest]
      simp [List.filter_map, Function.comp_def]
    | inr hin =>
      have hne : graph' ≠ graph := by
        intro heq
        exact hnot (List.mem_map.2 ⟨_, hin, heq.symm⟩)
      rw [ih (List.nodup_cons.1 hnodup).2 hin]
      simp [List.filter_map, Function.comp_def, hne]

theorem get?_records (hnodup : (sources.map Prod.fst).Nodup) {graph : GraphId} {s : Schema}
    (hmem : (graph, s) ∈ sources)
    : (Declared.records (declared keeps sources contents) record).get? graph
        =
      (contents s).getLast?.map (record (keeps s)) := by
  unfold Declared.records
  rw [OrderedMap.get?_ofList, filter_records hnodup hmem, List.getLast?_map]

theorem mem_values_records (hnodup : (sources.map Prod.fst).Nodup) (v : ρ) :
    v ∈ (Declared.records (declared keeps sources contents) record).values
      ↔
    ∃ s ∈ sources.map Prod.snd, ∃ d ∈ (contents s).getLast?, record (keeps s) d = v := by
  rw [OrderedMap.mem_values_iff]
  constructor
  . rintro ⟨graph, hget⟩
    obtain ⟨s, hmem, -⟩ := (mem_keys_records graph).1 (OrderedMap.mem_keys_of_get? hget)
    rw [get?_records hnodup hmem, Option.map_eq_some_iff] at hget
    exact ⟨s, List.mem_map.2 ⟨_, hmem, rfl⟩, hget⟩
  . rintro ⟨s, hs, d, hd, rfl⟩
    obtain ⟨⟨graph, s⟩, hmem, rfl⟩ := List.mem_map.1 hs
    refine ⟨graph, ?_⟩
    rw [get?_records hnodup hmem, hd]
    rfl

theorem toList_records {content? : Schema → Option δ} (hnodup : (sources.map Prod.fst).Nodup) :
    (Declared.records (declared keeps sources fun s => (content? s).toList) record).toList
      =
    sources.filterMap fun (graph, s) => (content? s).map fun d => (graph, record (keeps s) d) := by
  unfold Declared.records
  have heq : (declared keeps sources fun s => (content? s).toList).map
      (fun d => (d.1.graph, record d.1.keeps d.2))
      =
      sources.filterMap fun (graph, s) =>
        (content? s).map fun d => (graph, record (keeps s) d) := by
    rw [map_declared, List.filterMap_eq_flatMap_toList]
    apply List.flatMap_congr
    intro source _
    obtain ⟨graph, s⟩ := source
    cases h : content? s <;> simp [h]
  rw [heq]
  apply OrderedMap.toList_ofList_of_nodup
  refine List.Sublist.nodup ?_ hnodup
  clear heq hnodup
  induction sources with
  | nil => simp
  | cons source rest ih =>
    obtain ⟨graph, s⟩ := source
    cases h : content? s with
    | none => simpa [h] using ih.cons graph
    | some d => simpa [h] using ih

theorem records_getLast? :
    Declared.records (declared keeps sources contents) record
      =
    Declared.records (declared keeps sources fun s => (contents s).getLast?.toList) record := by
  unfold Declared.records OrderedMap.ofList
  rw [map_declared, map_declared]
  generalize OrderedMap.empty = m
  induction sources generalizing m with
  | nil => rfl
  | cons source rest ih =>
    obtain ⟨graph, s⟩ := source
    have hkey : ∀ ds : List δ, ds.map (fun d => (graph, record (keeps s) d))
        = (ds.map (record (keeps s))).map (graph, ·) := by
      intro ds
      rw [List.map_map]
      rfl
    have hlast : (contents s).getLast?.toList.getLast? = (contents s).getLast? := by
      cases (contents s).getLast? <;> rfl
    rw [List.flatMap_cons, List.flatMap_cons, OrderedMap.insertMany_append,
      OrderedMap.insertMany_append, ih]
    dsimp only
    rw [hkey, hkey, OrderedMap.insertMany_map_key, OrderedMap.insertMany_map_key,
      List.getLast?_map, List.getLast?_map, hlast]

theorem toList_records_getLast? (hnodup : (sources.map Prod.fst).Nodup) :
    (Declared.records (declared keeps sources contents) record).toList
      =
    sources.filterMap fun (graph, s) =>
      (contents s).getLast?.map fun d => (graph, record (keeps s) d) := by
  rw [records_getLast?, toList_records hnodup]

theorem map_values_records {σ : Type} (hnodup : (sources.map Prod.fst).Nodup) (f : ρ → σ) :
    (Declared.records (declared keeps sources contents) record).values.map f
      =
    (sources.map Prod.snd).filterMap fun s =>
      (contents s).getLast?.map fun d => f (record (keeps s) d) := by
  unfold OrderedMap.values
  rw [toList_records_getLast? hnodup, List.filterMap_map, List.map_map, List.map_filterMap]
  apply List.filterMap_congr
  intro source _
  obtain ⟨graph, s⟩ := source
  dsimp only [Function.comp_apply]
  rw [Option.map_map]
  rfl

theorem flatMap_values_records {σ : Type} (hnodup : (sources.map Prod.fst).Nodup)
    (f : ρ → List σ)
    : (Declared.records (declared keeps sources contents) record).values.flatMap f
        =
      (sources.map Prod.snd).flatMap fun s =>
        (contents s).getLast?.elim [] fun d => f (record (keeps s) d) := by
  rw [List.flatMap_def, map_values_records hnodup, List.filterMap_eq_flatMap_toList,
    ← List.flatMap_id, List.flatMap_assoc]
  apply List.flatMap_congr
  intro s _
  cases (contents s).getLast? <;> simp

theorem keys_records_sublist {π σ : Type} {content? : Schema → Option δ} {part? : Schema → Option π}
    {recordPart : (Directive → Bool) → π → σ} (hnodup : (sources.map Prod.fst).Nodup)
    (hpart : ∀ s, (part? s).isSome → (content? s).isSome)
    : (Declared.records (declared keeps sources fun s => (part? s).toList) recordPart).keys.Sublist
        (Declared.records (declared keeps sources fun s => (content? s).toList) record).keys := by
  unfold OrderedMap.keys
  rw [toList_records hnodup, toList_records hnodup]
  clear hnodup
  induction sources with
  | nil => simp
  | cons source rest ih =>
    obtain ⟨graph, s⟩ := source
    cases hp : part? s with
    | none =>
      cases hc : content? s with
      | none => simpa [hp, hc] using ih
      | some d => simpa [hp, hc] using ih.cons graph
    | some p =>
      have hsome := hpart s (by rw [hp]; rfl)
      obtain ⟨d, hd⟩ := Option.isSome_iff_exists.1 hsome
      simpa [hp, hd] using ih

end

theorem CompositeEntry.get?_fields {keeps : Schema → Directive → Bool}
    {sources : List (GraphId × Schema)}
    {composite? : TypeDef → Option (TypeDef × CompositeBody)} {type : Name} {e : CompositeEntry}
    (h : ofDeclared? (declared keeps sources fun s =>
      ((s.userType? type).bind composite?).toList) = some e) (field : Name)
    : e.fields.get? field
        =
      FieldEntry.ofDeclared?
        (declared keeps sources fun s => (s.field? composite? type field).toList) := by
  rw [(merges h).fields, parts_declared]
  congr 2
  funext s
  unfold Schema.field?
  cases (s.userType? type).bind composite? <;> simp

theorem FieldEntry.get?_arguments {keeps : Schema → Directive → Bool}
    {sources : List (GraphId × Schema)}
    {composite? : TypeDef → Option (TypeDef × CompositeBody)} {type field : Name} {e : FieldEntry}
    (h : ofDeclared? (declared keeps sources fun s =>
      (s.field? composite? type field).toList) = some e) (argument : Name)
    : e.arguments.get? argument
        =
      InputEntry.ofDeclared?
        (declared keeps sources fun s => s.arguments composite? type field argument) := by
  rw [(merges h).arguments, parts_declared]
  rfl

theorem InputObjectEntry.get?_fields {keeps : Schema → Directive → Bool}
    {sources : List (GraphId × Schema)} {type : Name} {e : InputObjectEntry}
    (h : ofDeclared? (declared keeps sources fun s =>
      ((s.userType? type).bind TypeDef.inputObject?).toList) = some e) (field : Name)
    : e.fields.get? field
        =
      InputEntry.ofDeclared?
        (declared keeps sources fun s => (s.inputField? type field).toList) := by
  rw [(merges h).fields, parts_declared]
  congr 2
  funext s
  unfold Schema.inputField?
  cases (s.userType? type).bind TypeDef.inputObject? <;> simp

theorem EnumEntry.get?_values {keeps : Schema → Directive → Bool}
    {sources : List (GraphId × Schema)} {type : Name} {e : EnumEntry}
    (h : ofDeclared? (declared keeps sources fun s =>
      ((s.userType? type).bind TypeDef.enum?).toList) = some e) (value : Name)
    : e.values.get? value
        =
      EnumValueEntry.ofDeclared?
        (declared keeps sources fun s => (s.enumValue? type value).toList) := by
  rw [get?_values_ofDeclared? h, parts_declared]
  congr 2
  funext s
  unfold Schema.enumValue?
  cases (s.userType? type).bind TypeDef.enum? <;> simp

theorem DirectiveEntry.exists_userDirective? {sources : List (GraphId × Schema)} {directive : Name}
    {e : DirectiveEntry}
    (h : ofDeclared? (declared (fun _ _ => false) sources fun s =>
      (s.directiveUse? directive).toList) = some e)
    : ∃ s ∈ sources.map Prod.snd, (s.userDirective? directive).isSome := by
  obtain ⟨s, hs, hne⟩ := (isSome_merged?_declared_iff _).1 (Option.isSome_of_eq_some h)
  rw [toList_ne_nil_iff, Schema.directiveUse?, Option.isSome_map] at hne
  exact ⟨s, hs, hne⟩

theorem DirectiveEntry.get?_arguments {sources : List (GraphId × Schema)} {directive : Name}
    {e : DirectiveEntry}
    (h : ofDeclared? (declared (fun _ _ => false) sources fun s =>
      (s.directiveUse? directive).toList) = some e) (argument : Name)
    : e.arguments.get? argument
        =
      InputEntry.ofDeclared?
        (declared (fun _ _ => false) sources fun s => s.directiveArguments directive argument) := by
  have hkeeps : ∀ d ∈ (declared (fun _ _ => false) sources fun s =>
      (s.directiveUse? directive).toList), d.1.keeps = fun _ => false := by
    intro d hd
    obtain ⟨graph, s, -, hdeclarer, -⟩ := mem_declared.1 hd
    rw [hdeclarer]
  rw [(merges h).arguments hkeeps, parts_declared]
  congr 2
  funext s
  unfold Schema.directiveUse? Schema.directiveArguments
  cases s.userDirective? directive <;> simp

end Supergraph
