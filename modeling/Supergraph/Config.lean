import Supergraph.OrderedMap
import Supergraph.Yaml.Document.Reader

namespace Supergraph

open Yaml

structure SubgraphSource where
  url : Option String
  file : String
deriving DecidableEq, Inhabited

def SubgraphSource.ofNode? (d : Document) (node : Node) : Option SubgraphSource := do
  let field ← d.fields? ["routing_url", "schema"] node
  let url ← ((field "routing_url").map d.optionalText?).getD (some none)
  let schemaField ← d.fields? ["file"] (← field "schema")
  let file ← d.text? (← schemaField "file")
  return { url, file }

def SubgraphSource.references (d : Document) (node : Node) : Nat :=
  let field (names : List String) (node : Node) (name : String) : Option Node :=
    (d.fields? names node).bind (· name)
  let value (node : Option Node) : Nat := node.elim 0 Node.references
  let schema := (field ["routing_url", "schema"] node "schema").elim 0 fun node =>
    d.references node + value (field ["file"] node "file")
  d.references node + value (field ["routing_url", "schema"] node "routing_url") + schema

structure Config where
  subgraphs : OrderedMap String SubgraphSource
deriving Inhabited

namespace Config

def ofDocument? (d : Document) : Option Config := do
  let field ← d.fields? ["subgraphs"] d.root
  let entries ← d.entries? (← field "subgraphs")
  let sources ← entries.mapM fun (name, node) => (SubgraphSource.ofNode? d node).map (name, ·)
  -- A name given twice keeps its first place and takes what is said last.
  return { subgraphs := .ofList sources }

def references (d : Document) : Nat :=
  let subgraphs := ((d.fields? ["subgraphs"] d.root).bind (· "subgraphs")).elim 0 fun node =>
    let entries := (d.entries? node).getD []
    entries.foldl (fun n (_, node) => n + SubgraphSource.references d node) (d.references node)
  d.references d.root + subgraphs

def parse? (text : String) : Option Config := do
  let d ← Document.parse? text
  if d.maxReferences < references d then none else ofDocument? d

end Config

end Supergraph
