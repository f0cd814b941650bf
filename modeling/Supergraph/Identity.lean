import Supergraph.Subgraph
import Supergraph.Text.Casing

/-!
This module contains the identifiers of subgraphs. Names that agree up to letter case, as `Foo` and
`foo` do, get an identifier of their common upper-case form and a number; numbers whose enum value
another subgraph has are passed over.
-/

namespace Supergraph

open GraphQL

structure GraphId where
  text : String
deriving DecidableEq, Inhabited

namespace GraphId

def enumText (id : GraphId) : String :=
  let cs := (Text.toUpper id.text).toList.map fun c => if c.isAlphanum then c else '_'
  String.ofList (if cs.head?.any Char.isDigit then '_' :: cs else cs)

def enumValue? (id : GraphId) : Option Name := Name.ofText? id.enumText

end GraphId

structure Identity where
  name : String
  url : Option String
  enumValue : Name
deriving DecidableEq, Inhabited

abbrev Identities := OrderedMap GraphId Identity

namespace Identities

def name (ids : Identities) (id : GraphId) : String := ((ids.get? id).map (·.name)).getD id.text

def url? (ids : Identities) (id : GraphId) : Option String := (ids.get? id).bind (·.url)

def enumValue? (ids : Identities) (id : GraphId) : Option Name := (ids.get? id).map (·.enumValue)

def describe (ids : Identities) : String :=
  ", ".intercalate (ids.toList.map fun (id, identity) => id.text ++ "=" ++ identity.name)

def repeated? (seen : List String) : List String → Option String
  | [] => none
  | name :: rest => if name ∈ seen then some name else repeated? (name :: seen) rest

def caseGroups (names : List String) : OrderedMap String (List String) :=
  .group (names.map fun name => (Text.toLower name, name))

def numbered (canonical : String) (number : Nat) : GraphId :=
  ⟨Text.toUpper canonical ++ "_" ++ number.repr⟩

def isFree (taken : List Name) (id : GraphId) : Bool := id.enumValue?.all (· ∉ taken)

def freeNumber (canonical : String) (taken : List Name) (start : Nat) : Nat :=
  -- One of these numbers is free, as no two of them have the same enum value.
  ((List.range' start (taken.length + 1)).find? fun number =>
    isFree taken (numbered canonical number)).getD start

def numberGroup (canonical : String) (taken : List Name) (start : Nat) :
    List String → List (String × GraphId) × List Name
  | [] => ([], taken)
  | name :: rest =>
    let number := freeNumber canonical taken start
    let id := numbered canonical number
    -- Numbers go up within a group.
    let (ids, taken) := numberGroup canonical (taken ++ id.enumValue?.toList) (number + 1) rest
    ((name, id) :: ids, taken)

def numberGroups (taken : List Name) : List (String × List String) → List (String × GraphId)
  | [] => []
  | (canonical, names) :: rest =>
    if names.length > 1 then
      let (ids, taken) := numberGroup canonical taken 1 names
      ids ++ numberGroups taken rest
    else numberGroups taken rest

def keptEnumValues (groups : List (String × List String)) : List Name :=
  (groups.filter (·.2.length == 1)).flatMap fun (_, names) =>
    names.filterMap fun name => GraphId.enumValue? ⟨name⟩

def assign (names : List String) (name : String) : GraphId :=
  let groups := (caseGroups names).toList
  ((numberGroups (keptEnumValues groups) groups).lookup name).getD ⟨name⟩

def add (ids : Identities) (id : GraphId) (subgraph : Subgraph) :
    Except CompositionError Identities :=
  match id.enumValue? with
  | none => .error (.unrepresentableName id.text)
  | some enumValue =>
    match ids.values.find? (·.enumValue = enumValue) with
    | some other => .error (.collidingNames other.name subgraph.name enumValue)
    | none => .ok (ids.insert id { name := subgraph.name, url := subgraph.url, enumValue })

/--
The identities of the subgraphs, or why there are none. A name given twice is reported before
anything else; where a subgraph is served plays no role.
-/
def resolve (subgraphs : List Subgraph) : Except CompositionError Identities :=
  let names := subgraphs.map (·.name)
  match repeated? [] names with
  | some name => .error (.duplicateName name)
  | none => subgraphs.foldlM (fun ids subgraph => ids.add (assign names subgraph.name) subgraph) ∅

end Identities

end Supergraph
