import Interpose.FileTree.Basic

/-!
Where a path leads in a tree of files. Every part of a path but the last has to be a directory, even
where `..` follows; a link is followed wherever it stands. The last part may be a name that no entry
has yet.
-/

set_option autoImplicit false

namespace Interpose

structure Place where
  location : Location
  entry : Option Entry

def maxPathBytes : Nat := 4095

/-- The directories from one up to the root, which is not listed itself. -/
abbrev Trail := List (String × Directory)

namespace Trail

def here (root : Directory) : Trail → Directory
  | [] => root
  | (_, dir) :: _ => dir

def location (trail : Trail) : Location := (trail.map Prod.fst).reverse

def pathBytes (trail : Trail) : Nat :=
  trail.foldl (fun bytes step => bytes + (step.1.utf8ByteSize + 1)) 0

def descend (root : Directory) : Trail → Location → Option Trail
  | trail, [] => some trail
  | trail, name :: rest =>
    match (here root trail).lookup name with
    | some (.directory inner) => descend root ((name, inner) :: trail) rest
    | _ => none

/-- Goes on name by name where `sees` allows it. A link hands its trail, its target and the names
left to `follow`. -/
def walk (root : Directory) (sees : Trail → String → Bool)
    (follow : Trail → FilePath → List String → Option Place) : Trail → List String → Option Place
  | trail, [] => some ⟨location trail, some (.directory (here root trail))⟩
  | trail, name :: rest =>
    if !sees trail name then none
    else if name = "" ∨ name = "." then walk root sees follow trail rest
    else if name = ".." then walk root sees follow trail.tail rest
    else
      match (here root trail).lookup name with
      | some (.link target) => follow trail target rest
      | some (.directory inner) => walk root sees follow ((name, inner) :: trail) rest
      | found => if rest = [] then some ⟨location trail ++ [name], found⟩ else none

def anywhere (_ : Trail) (_ : String) : Bool := true

/-- Allows a step if the path of the directory with a slash and the name behind is short enough to
look at; `.` and `..` need no room. -/
def withinLimit (trail : Trail) (name : String) : Bool :=
  trail.pathBytes + 1 + (if name = "." ∨ name = ".." then 0 else name.utf8ByteSize) ≤ maxPathBytes

end Trail

namespace FileTree

def names (path : FilePath) : List String := (segments path.text.toList).map String.ofList

def walk (tree : FileTree) (sees : Trail → String → Bool) :
    Nat → Trail → List String → Option Place
  | 0 => Trail.walk tree.root sees fun _ _ _ => none
  | links + 1 => Trail.walk tree.root sees fun trail target rest =>
    walk tree sees links (if target.isAbsolute then [] else trail) (names target ++ rest)

def maxLinks : Nat := 40

def origin (tree : FileTree) (path : FilePath) : Location :=
  if path.isAbsolute then [] else tree.workingDir

def placeFrom (tree : FileTree) (sees : Trail → String → Bool) (dir : Location)
    (names : List String) : Option Place := do
  tree.walk sees maxLinks (← Trail.descend tree.root [] dir) names

def placeOf (tree : FileTree) (sees : Trail → String → Bool) (path : FilePath) : Option Place :=
  if path.text = "" then none else tree.placeFrom sees (tree.origin path) (names path)

def fits (path : FilePath) : Bool := path.text.utf8ByteSize ≤ maxPathBytes

def placeAt (tree : FileTree) (path : FilePath) : Option Place :=
  if fits path then tree.placeOf Trail.anywhere path else none

def entryAt (tree : FileTree) (path : FilePath) : Option Entry :=
  (tree.placeAt path).bind Place.entry

def isFile (tree : FileTree) (path : FilePath) : Bool :=
  match tree.entryAt path with
  | some (.file _) => true
  | _ => false

def isDir (tree : FileTree) (path : FilePath) : Bool :=
  match tree.entryAt path with
  | some (.directory _) => true
  | _ => false

def read (tree : FileTree) (path : FilePath) : Option Content :=
  match tree.entryAt path with
  | some (.file content) => some content
  | _ => none

/-- The path without links and relative parts. One that leads nowhere stays as it is written, and so
does one on whose way something stands that cannot be looked at within `maxPathBytes`; how long the
path itself is does not matter. -/
def canonical (tree : FileTree) (path : FilePath) : FilePath :=
  match tree.placeOf Trail.withinLimit path with
  | some ⟨location, some _⟩ => pathOf location
  | _ => path

end FileTree

end Interpose
