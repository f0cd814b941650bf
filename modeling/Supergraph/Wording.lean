namespace Supergraph.Wording

def subgraphs (names : List String) : String :=
  let noun := if names.length > 1 then "subgraphs " else "subgraph "
  noun ++ ", ".intercalate (names.map fun name => "\"" ++ name ++ "\"")

def sides : List String → String
  | [] => ""
  | [only] => only
  | first :: second :: rest => first ++ " but " ++ " and ".intercalate (second :: rest)

def disagreement (groups : List (String × List String)) : String :=
  sides (groups.map fun (said, names) => said ++ " in " ++ subgraphs names)

end Supergraph.Wording
