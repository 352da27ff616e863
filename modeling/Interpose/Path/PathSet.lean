import Interpose.Path.Keyed

set_option autoImplicit false

namespace Interpose

/-- Paths in ascending order, no two the same. -/
abbrev PathSet := List KeyedPath

namespace PathSet

def insert (path : KeyedPath) : PathSet → PathSet
  | [] => [path]
  | first :: rest =>
    if path.same first then path :: rest
    else if path.before first then path :: first :: rest
    else first :: insert path rest

def ofPaths (paths : List KeyedPath) : PathSet := paths.foldr insert []

def toList (set : PathSet) : List FilePath := set.map KeyedPath.path

def contains (set : PathSet) (path : FilePath) : Bool := set.any path.keyed.same

end PathSet

end Interpose
