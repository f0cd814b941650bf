import Supergraph.Federation
import Supergraph.Join
import Supergraph.Proofs.OrderedMap
import Supergraph.Proofs.GraphQL.TypeText

namespace Supergraph

open GraphQL

namespace GraphQL.Value

def toName? : Value → Option Name
  | .boolean true => some (.lit "true")
  | .boolean false => some (.lit "false")
  | .null => some (.lit "null")
  | .enum name => some name.name
  | _ => none

@[simp]
theorem toName?_ofName (n : Name) : (ofName n).toName? = some n := by
  unfold ofName
  split
  . next h => exact congrArg some (Name.ext h.symm)
  . split
    . next h => exact congrArg some (Name.ext h.symm)
    . split
      . next h => exact congrArg some (Name.ext h.symm)
      . split
        . next htrue hfalse hnull hreserved =>
          simp [reservedWords, htrue, hfalse, hnull] at hreserved
        . rfl

end GraphQL.Value

structure Attribution where
  type : TypeRef
  external : Bool
  requires : Option String
  provides : Option String
deriving DecidableEq

def Attribution.plain (type : TypeRef) : Attribution where
  type := type
  external := false
  requires := none
  provides := none

def FieldInGraph.attribution (d : FieldInGraph) : Attribution where
  type := d.type
  external := d.external
  requires := d.requires
  provides := d.provides

namespace Join

def typeName : Name := .lit "join__type"

def fieldName : Name := .lit "join__field"

def graph? (d : Directive) : Option Name := (d.argument? "graph").bind Value.toName?

def attribution? (merged : TypeRef) (d : Directive) : Option Attribution :=
  (declared? merged (d.stringArgument? "type")).map fun type => {
    type
    external := (d.boolArgument? "external").getD false
    requires := d.stringArgument? "requires"
    provides := d.stringArgument? "provides" }
where
  declared? (merged : TypeRef) : Option String → Option TypeRef
    | some text => TypeRef.ofText? text
    | none => some merged

def typeGraphs (directives : List Directive) : List Name :=
  (OrderedSet.ofList ((directives.filter (·.name = typeName)).filterMap graph?)).toList

/--
The subgraphs that declare a field, with what each says about it, given how enum values translate to
subgraphs and the applications on the type of the field. Without applications of its own, a field is
in all subgraphs with its type and the same in all of them.
-/
def attributions? {γ : Type} (translate : Name → Option γ) (directives : List Directive)
    (field : FieldDef) : Option (List (γ × Attribution)) :=
  match field.directives.filter (·.name = fieldName) with
  | [] => (typeGraphs directives).mapM fun graph =>
    (translate graph).map (·, .plain field.type)
  | facts => facts.mapM fun d =>
    ((graph? d).bind translate).bind fun graph => (attribution? field.type d).map (graph, ·)

theorem attributions?_of_eq_nil {γ : Type} {translate : Name → Option γ}
    {directives : List Directive} {field : FieldDef}
    (h : field.directives.filter (·.name = fieldName) = [])
    : attributions? translate directives field
        =
      (typeGraphs directives).mapM fun graph => (translate graph).map (·, .plain field.type) := by
  unfold attributions?
  rw [h]

theorem attributions?_of_ne_nil {γ : Type} {translate : Name → Option γ}
    {directives : List Directive} {field : FieldDef} {facts : List Directive}
    (h : field.directives.filter (·.name = fieldName) = facts) (hne : facts ≠ [])
    : attributions? translate directives field
        =
      facts.mapM fun d =>
        ((graph? d).bind translate).bind fun graph =>
          (attribution? field.type d).map (graph, ·) := by
  obtain ⟨d, rest, rfl⟩ := List.exists_cons_of_ne_nil hne
  unfold attributions?
  rw [h]

def graphName? (schema : Schema) (enumValue : Name) : Option String :=
  match schema.types.get? graphType with
  | some { body := .enum values, .. } => (values.get? enumValue).bind fun value =>
    (value.directives.find? (·.name = .lit "join__graph")).bind (·.stringArgument? "name")
  | _ => none

end Join

namespace JoinFact

def graph : JoinFact → Name
  | .type graph _ => graph
  | .implements graph _ => graph
  | .field graph _ _ _ _ => graph
  | .unionMember graph _ => graph
  | .enumValue graph => graph

@[simp]
theorem graph?_toDirective (f : JoinFact) : Join.graph? f.toDirective = some f.graph := by
  have h : ∀ graph : Name, (Value.ofName graph).toName? = some graph := Value.toName?_ofName
  cases f <;> exact h _

theorem attribution?_toDirective (merged : TypeRef) (graph : Name) (d : FieldInGraph) :
    Join.attribution? merged (JoinFact.field graph d.requires d.provides
      (if d.type = merged then none else some d.type) d.external).toDirective
      =
    some d.attribution := by
  obtain ⟨type, external, requires, provides, directives⟩ := d
  dsimp only
  split
  . next h =>
    subst h
    cases requires <;> cases provides <;> cases external <;> rfl
  . have htype : ∀ requires provides, Join.attribution? merged (JoinFact.field graph requires
        provides (some type) external).toDirective
        = (TypeRef.ofText? type.render).map fun type => { type, external, requires, provides } := by
      intro requires provides
      cases requires <;> cases provides <;> cases external <;> rfl
    rw [htype, TypeRef.ofText?_render]
    rfl

end JoinFact

namespace JoinFact

def key? : JoinFact → Option (Option Key)
  | .type _ key => some key
  | _ => none

def interface? : JoinFact → Option Name
  | .implements _ interface => some interface
  | _ => none

def member? : JoinFact → Option Name
  | .unionMember _ member => some member
  | _ => none

end JoinFact

namespace Join

def nameArgument? (d : Directive) (argument : String) : Option Name :=
  (d.stringArgument? argument).bind Name.ofText?

def key? (d : Directive) : Option Key :=
  (d.stringArgument? "key").map fun fields =>
    { fields, resolvable := (d.boolArgument? "resolvable").getD true }

def field? (graph : Name) (d : Directive) : Option JoinFact :=
  (declared? (d.stringArgument? "type")).map fun declared =>
    .field graph (d.stringArgument? "requires") (d.stringArgument? "provides") declared
      ((d.boolArgument? "external").getD false)
where
  declared? : Option String → Option (Option TypeRef)
    | some text => (TypeRef.ofText? text).map some
    | none => some none

def fact? (d : Directive) : Option JoinFact :=
  (graph? d).bind fun graph =>
    if d.name = typeName then some (.type graph (key? d))
    else if d.name = .lit "join__implements" then
      (nameArgument? d "interface").map (.implements graph)
    else if d.name = fieldName then field? graph d
    else if d.name = .lit "join__unionMember" then
      (nameArgument? d "member").map (.unionMember graph)
    else if d.name = .lit "join__enumValue" then some (.enumValue graph)
    else none

theorem nameArgument?_eq_some {d : Directive} {argument : String} {name : Name}
    (h : d.stringArgument? argument = some name.text) : nameArgument? d argument = some name := by
  unfold nameArgument?
  rw [h]
  exact Name.ofText?_eq_some_iff.2 rfl

theorem fact?_toDirective (f : JoinFact) : fact? f.toDirective = some f := by
  unfold fact?
  rw [JoinFact.graph?_toDirective, Option.bind_some]
  cases f with
  | type graph key =>
    cases key with
    | none => rfl
    | some key =>
      obtain ⟨fields, resolvable⟩ := key
      cases resolvable <;> rfl
  | implements graph interface =>
    have h : nameArgument? (JoinFact.implements graph interface).toDirective "interface"
        = some interface := nameArgument?_eq_some rfl
    exact congrArg (Option.map (JoinFact.implements graph)) h
  | field graph requires provides declared external =>
    cases declared with
    | none => cases requires <;> cases provides <;> cases external <;> rfl
    | some type =>
      have h : field? graph
          (JoinFact.field graph requires provides (some type) external).toDirective
          = ((TypeRef.ofText? type.render).map some).map fun declared =>
            .field graph requires provides declared external := by
        cases requires <;> cases provides <;> cases external <;> rfl
      rw [TypeRef.ofText?_render] at h
      exact h
  | unionMember graph member =>
    have h : nameArgument? (JoinFact.unionMember graph member).toDirective "member"
        = some member := nameArgument?_eq_some rfl
    exact congrArg (Option.map (JoinFact.unionMember graph)) h
  | enumValue graph => rfl

theorem fact?_eq_none_of_isUserDirective {d : Directive} (h : Federation.isUserDirective d.name) :
    fact? d = none := by
  have hne : ∀ name ∈ [typeName, .lit "join__implements", fieldName, .lit "join__unionMember",
      .lit "join__enumValue"], d.name ≠ name := by
    have hjoin : ∀ name ∈ [typeName, .lit "join__implements", fieldName, .lit "join__unionMember",
        .lit "join__enumValue"], Federation.isUserDirective name = false := by
      decide
    rintro name hname rfl
    rw [hjoin _ hname] at h
    cases h
  simp only [List.forall_mem_cons] at hne
  unfold fact?
  simp [hne.1, hne.2.1, hne.2.2.1, hne.2.2.2.1, hne.2.2.2.2.1]

def facts (ds : List Directive) : List JoinFact := ds.filterMap fact?

theorem facts_append (ds ds' : List Directive) : facts (ds ++ ds') = facts ds ++ facts ds' :=
  List.filterMap_append

theorem facts_map_toDirective (fs : List JoinFact) : facts (fs.map (·.toDirective)) = fs := by
  unfold facts
  rw [List.filterMap_map]
  have h : fact? ∘ (·.toDirective) = some := by
    funext f
    exact fact?_toDirective f
  rw [h, List.filterMap_some]

def factsOn (graph : Name) (ds : List Directive) : List JoinFact :=
  (facts ds).filter (·.graph = graph)

def keysIn (graph : Name) (ds : List Directive) : Option (List Key) :=
  match (factsOn graph ds).filterMap JoinFact.key? with
  | [] => none
  | keys => some (keys.filterMap id)

def interfacesIn (graph : Name) (ds : List Directive) : List Name :=
  (factsOn graph ds).filterMap JoinFact.interface?

def membersIn (graph : Name) (ds : List Directive) : List Name :=
  (factsOn graph ds).filterMap JoinFact.member?

theorem factsOn_append (graph : Name) (ds ds' : List Directive) :
    factsOn graph (ds ++ ds') = factsOn graph ds ++ factsOn graph ds' := by
  unfold factsOn
  rw [facts_append, List.filter_append]

end Join

end Supergraph
