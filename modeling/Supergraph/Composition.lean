import Supergraph.Rule
import Supergraph.Model.Declaration
import Supergraph.Model.Emission
import Supergraph.GraphQL.Layout.Schema

namespace Supergraph

open GraphQL

structure Composition where
  schema : Schema
  graphs : Identities
deriving Inhabited

def Composition.text (c : Composition) : String := c.schema.render

/--
Composes subgraphs, without the disabled rules. Names that cannot be told apart are reported alone;
otherwise all conflicts are reported together.
-/
def compose (subgraphs : List Subgraph) (disabledRules : List String := []) :
    Except (List CompositionError) Composition :=
  match Identities.resolve subgraphs with
  | .error e => .error [e]
  | .ok graphs =>
    let m := Model.ofSubgraphs graphs subgraphs
    let conflicts := m.conflicts (Rule.enabled disabledRules)
    if conflicts.isEmpty then .ok { schema := m.toSchema, graphs }
    else .error (conflicts.map .conflict)

end Supergraph
