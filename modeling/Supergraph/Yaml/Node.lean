import Supergraph.Yaml.Tag

/-!
This module contains the nodes of YAML documents. They form trees, in which a node may also refer to
another one by its anchor.
-/

namespace Supergraph.Yaml

inductive Node
  | scalar (text : String) (plain : Bool) (tag : Option Tag)
  | sequence (items : List Node)
  | mapping (entries : List (Node × Node))
  | reference (anchor : Nat)
deriving Inhabited

namespace Node

def absent : Node := .scalar "~" true none

def references : Node → Nat
  | .reference _ => 1
  | _ => 0

mutual

def size : Node → Nat
  | .sequence items => sizeOfItems items + 2
  | .mapping entries => sizeOfEntries entries + 2
  | _ => 1

def sizeOfItems : List Node → Nat
  | [] => 0
  | item :: items => size item + sizeOfItems items

def sizeOfEntries : List (Node × Node) → Nat
  | [] => 0
  | (key, value) :: entries => size key + size value + sizeOfEntries entries

end

end Node

end Supergraph.Yaml
