import Supergraph.Yaml.Node

/-!
This module contains YAML documents. What a node means is asked of its document, which looks up the
references.
-/

namespace Supergraph.Yaml

structure Document where
  root : Node
  anchored : List (Nat × Node)
deriving Inhabited

namespace Document

def resolve (d : Document) (node : Node) : Node :=
  match node with
  | .reference anchor => (d.anchored.lookup anchor).getD node
  | node => node

def text? (d : Document) (node : Node) : Option String :=
  match d.resolve node with
  | .scalar text _ _ => some text
  | _ => none

def optionalText? (d : Document) (node : Node) : Option (Option String) :=
  match d.resolve node with
  | .scalar text true none => some (if isNull text then none else some text)
  | .scalar text true (some tag) =>
    if tag ≠ .null then some (some text) else if isNull text then some none else none
  | .scalar text false _ => some (some text)
  | _ => none
where
  isNull (text : String) : Bool := text == "~" || text == "null"

def entries? (d : Document) (node : Node) : Option (List (String × Node)) :=
  match d.resolve node with
  | .mapping entries => entries.mapM fun (key, value) => (d.text? key).map (·, value)
  | _ => none

/--
The values of the named fields of a record: by key, where other keys mean nothing and no field
occurs twice, or by position, where no field is missing.
-/
def fields? (d : Document) (names : List String) (node : Node) : Option (String → Option Node) :=
  match d.resolve node with
  | .sequence items =>
    if items.length = names.length then some fun name => (names.zip items).lookup name else none
  | node => do
    let keyed ← d.entries? node
    if ((keyed.map (·.1)).filter names.contains).Nodup then some fun name => keyed.lookup name
    else none

def references (d : Document) (node : Node) : Nat :=
  match d.resolve node with
  | .mapping entries => entries.foldl (fun n (key, _) => n + key.references) node.references
  | _ => node.references

/--
How many references may be followed in a document. Few of them can make a small document stand for
a very large one.
-/
def maxReferences (d : Document) : Nat := 100 * d.root.size

end Document

end Supergraph.Yaml
