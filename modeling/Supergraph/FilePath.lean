namespace Supergraph.FilePath

/--
The directory that a file is in: the path without its last name, and without what adds nothing at
its end. It is empty for a single name.
-/
def directory (path : String) : String :=
  String.ofList (strip (path.toList.reverse.dropWhile (· != '/'))).reverse
where
  strip : List Char → List Char
    | ['/'] => ['/']
    | '/' :: rest => strip rest
    | '.' :: '/' :: rest => strip ('/' :: rest)
    | rest => rest

def join (directory file : String) : String :=
  if file.toList.head? = some '/' then file
  else if directory.toList.getLast?.all (· = '/') then directory ++ file
  else directory ++ "/" ++ file

end Supergraph.FilePath
