/-!
# Workspaces

A set of files by their paths, as a directory holds them.
-/

namespace Parcel

/-- Files by the paths under which they were written, in that order. The directories along a path
are there as well. -/
structure Workspace where
  files : List (String × String)

namespace Workspace

def names (path : String) : List String :=
  (path.splitOn "/").filter fun name => name ≠ "" ∧ name ≠ "."

/-- Where names lead to when every one of them can be followed: `..` leads to the directory around
the one before it. -/
def destination (path : List String) : List String :=
  path.foldl (fun place name => if name = ".." then place.dropLast else place ++ [name]) []

/-- The directories along names, of which the last is a file. -/
def directoriesAlong (path : List String) : List (List String) :=
  (List.range path.length).map fun count => destination (path.take count)

def isDirectory (w : Workspace) (path : List String) : Bool :=
  path.isEmpty || w.files.any fun file => (directoriesAlong (names file.1)).contains path

/-- Follows names from a directory; `..` leads to the directory around it, and every other name but
the last has to be a directory. -/
def follow? (w : Workspace) (directory : List String) : List String → Option (List String)
  | [] => some directory
  | name :: rest =>
    if name = ".." then
      if directory.isEmpty then none else w.follow? directory.dropLast rest
    else if rest.isEmpty || w.isDirectory (directory ++ [name]) then
      w.follow? (directory ++ [name]) rest
    else none

/-- The file that a path leads to. A path from the root, or one that ends as that of a directory,
leads to none. -/
def locate? (w : Workspace) (path : String) : Option (List String) :=
  if path.startsWith "/" || path.endsWith "/" || path.endsWith "/." then none
  else w.follow? [] (names path)

/-- The contents of the file that a path leads to; what was written last stands. -/
def read? (w : Workspace) (path : String) : Option String := do
  let place ← w.locate? path
  let (_, text) ← w.files.reverse.find? fun file => destination (names file.1) = place
  return text

end Workspace

end Parcel
