import Interpose.FileTree.Find

set_option autoImplicit false

namespace Interpose

namespace Directory

def maxNameBytes : Nat := 255

def allows (name : String) : Bool :=
  name ≠ "" && name ≠ "." && name ≠ ".." && name.utf8ByteSize ≤ maxNameBytes &&
    !name.contains '\x00'

def set (dir : Directory) (name : String) (entry : Entry) : Directory :=
  if allows name then (name, entry) :: dir.filter (·.1 != name) else dir

def put : Directory → Location → Entry → Directory
  | dir, [], _ => dir
  | dir, [name], entry => set dir name entry
  | dir, name :: next :: rest, entry =>
    match dir.lookup name with
    | none => set dir name (.directory (put [] (next :: rest) entry))
    | some (.directory inner) => set dir name (.directory (put inner (next :: rest) entry))
    | some _ => dir

def erase : Directory → Location → Directory
  | dir, [] => dir
  | dir, [name] => dir.filter (·.1 != name)
  | dir, name :: next :: rest =>
    match dir.lookup name with
    | some (.directory inner) => set dir name (.directory (erase inner (next :: rest)))
    | _ => dir

end Directory

namespace FileTree

def put (tree : FileTree) (location : Location) (entry : Entry) : FileTree :=
  { tree with root := Directory.put tree.root location entry }

def erase (tree : FileTree) (location : Location) : FileTree :=
  { tree with root := Directory.erase tree.root location }

def bare (workingDir : Location) : FileTree :=
  ⟨Directory.put [] workingDir (.directory []), workingDir⟩

/-- The tree with a new entry in the directory that the names above lead to; a name that is taken
stays. -/
def create (tree : FileTree) (start : Location) (above : List String) (name : String)
    (entry : Entry) : FileTree :=
  match tree.placeFrom Trail.anywhere start above with
  | some ⟨here, some (.directory entries)⟩ =>
    if (entries.lookup name).isSome then tree else tree.put (here ++ [name]) entry
  | _ => tree

def makeDirs (tree : FileTree) (start : Location) : List String → FileTree
  | [] => tree
  | name :: above =>
    match tree.placeFrom Trail.anywhere start (name :: above).reverse with
    | some ⟨_, some _⟩ => tree
    | _ => (tree.makeDirs start above).create start above.reverse name (.directory [])

def makeDir (tree : FileTree) (path : FilePath) : FileTree :=
  if fits path then tree.makeDirs (tree.origin path) (names path).reverse else tree

def makeDirOf (tree : FileTree) (path : FilePath) : FileTree :=
  match path.parent with
  | some dir => tree.makeDir dir
  | none => tree

/-- The tree with a file where the path leads, also through links; a directory stays. -/
def write (tree : FileTree) (path : FilePath) (content : Content) : FileTree :=
  let tree := tree.makeDirOf path
  match tree.placeAt path with
  | some ⟨_, some (.directory _)⟩ => tree
  | some place => tree.put place.location (.file content)
  | none => tree

def link (tree : FileTree) (path target : FilePath) : FileTree :=
  if target.text = "" || !fits target || !fits path then tree
  else
    (tree.makeDirOf path).create (tree.origin path) (names path).dropLast
      ((names path).getLast?.getD "") (.link target)

/-- The tree without the entry that the path names, be it a file, a link or a directory. -/
def remove (tree : FileTree) (path : FilePath) : FileTree :=
  match tree.placeFrom Trail.anywhere (tree.origin path) (names path).dropLast with
  | some place => tree.erase (place.location ++ [(names path).getLast?.getD ""])
  | none => tree

end FileTree

end Interpose
