/-!
This module contains directory trees of text files, in which commands can run without a file system.
-/

namespace Supergraph

structure FileTree where
  files : List (String × String)

namespace FileTree

def names (path : String) : List String := path.splitOn "/"

def file? (tree : FileTree) (path : List String) : Option String :=
  (tree.files.find? fun (p, _) => names p == path).map (·.2)

def hasDirectory (tree : FileTree) (path : List String) : Bool :=
  tree.files.any fun (p, _) => path.isPrefixOf (names p).dropLast

def follow? (tree : FileTree) (directory : List String) : List String → Option String
  | [] => none
  | name :: rest =>
    if name = "" ∨ name = "." then follow? tree directory rest
    else if name = ".." then
      -- The tree cannot be left.
      if directory.isEmpty then none else follow? tree directory.dropLast rest
    else if rest.isEmpty then tree.file? (directory ++ [name])
    else if tree.hasDirectory (directory ++ [name]) then follow? tree (directory ++ [name]) rest
    else none

def read? (tree : FileTree) (path : String) : Option String :=
  if path.toList.head? = some '/' then none else tree.follow? [] (names path)

end FileTree

end Supergraph
