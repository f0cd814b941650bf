import Supergraph.GraphQL.Document.Schema
import Supergraph.Error

namespace Supergraph

open GraphQL

structure Subgraph where
  name : String
  url : Option String := none
  schema : Schema
deriving Inhabited

structure SubgraphText where
  name : String
  url : Option String := none
  text : String
deriving DecidableEq, Inhabited

namespace Subgraph

def parse (s : SubgraphText) : Except CompositionError Subgraph :=
  match Schema.parse? s.text with
  | some schema => .ok { name := s.name, url := s.url, schema }
  | none => .error (.invalidSchema s.name none)

def parseAll (texts : List SubgraphText) : Except (List CompositionError) (List Subgraph) :=
  let results := texts.map parse
  let errors := results.filterMap fun
    | .ok _ => none
    | .error e => some e
  if errors.isEmpty then .ok (results.filterMap Except.toOption) else .error errors

end Subgraph

end Supergraph
