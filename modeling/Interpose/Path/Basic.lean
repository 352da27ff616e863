/-!
Paths as they are written, and the components that they are compared by. Spelling is kept; doubled
and trailing slashes and inner `.` parts make no component, so they make no difference between
paths.
-/

set_option autoImplicit false

namespace Interpose

/-- The texts between slashes, empty ones included; there is always at least one. -/
def segments : List Char → List (List Char)
  | [] => [[]]
  | c :: rest =>
    if c = '/' then [] :: segments rest
    else
      match segments rest with
      | [] => [[c]]
      | first :: others => (c :: first) :: others

inductive Component where
  | root
  | current
  | parent
  | name (text : String)
deriving DecidableEq, Repr

namespace Component

def ofSegment (segment : List Char) : Component :=
  if segment = ['.', '.'] then parent else name (.ofList segment)

def text : Component → String
  | root => "/"
  | current => "."
  | parent => ".."
  | name text => text

def rank : Component → Nat
  | root => 0
  | current => 1
  | parent => 2
  | name _ => 3

/-- The root comes first, then `.` and `..`, then names in the order of their bytes. -/
def before : Component → Component → Bool
  | name a, name b => a < b
  | a, b => a.rank < b.rank

end Component

structure FilePath where
  text : String
deriving DecidableEq, Repr

namespace FilePath

structure Part where
  component : Component
  stop : Nat
deriving DecidableEq, Repr

def partsOf : List (List Char) → Nat → List Part
  | [], _ => []
  | segment :: rest, offset =>
    let stop := offset + segment.length
    if segment = [] ∨ segment = ['.'] then partsOf rest (stop + 1)
    else ⟨.ofSegment segment, stop⟩ :: partsOf rest (stop + 1)

/-- A leading slash is the root, and a leading `.` counts as a component of its own. -/
def parts (path : FilePath) : List Part :=
  match segments path.text.toList with
  | [[]] => []
  | [] :: rest => ⟨.root, 1⟩ :: partsOf rest 1
  | ['.'] :: rest => ⟨.current, 1⟩ :: partsOf rest 2
  | all => partsOf all 0

def components (path : FilePath) : List Component := path.parts.map Part.component

def same (a b : FilePath) : Bool := a.components == b.components

def before (a b : FilePath) : Bool := List.lex a.components b.components Component.before

def isAbsolute (path : FilePath) : Bool := path.text.startsWith '/'

def take (path : FilePath) (n : Nat) : FilePath := ⟨.ofList (path.text.toList.take n)⟩

/-- The path without its last component; a root has none to lose, nor has the empty path. -/
def parent (path : FilePath) : Option FilePath :=
  match path.parts.reverse with
  | [] => none
  | [only] => if only.component = .root then none else some ⟨""⟩
  | _ :: previous :: _ => some (path.take previous.stop)

def ancestors (path : FilePath) : List FilePath :=
  match path.parts.reverse with
  | [] => [path]
  | _ :: earlier =>
    let cs := path.text.toList
    path :: earlier.map (fun part => ⟨.ofList (cs.take part.stop)⟩) ++
      if path.isAbsolute then [] else [⟨""⟩]

/-- The second path as seen from the first; a slash is put between them if none is there, and an
absolute path is the same from everywhere. -/
def join (base path : FilePath) : FilePath :=
  if path.isAbsolute then path
  else if base.text = "" ∨ base.text.endsWith '/' then ⟨base.text ++ path.text⟩
  else ⟨base.text ++ "/" ++ path.text⟩

def joinName (base : FilePath) (name : String) : FilePath := base.join ⟨name⟩

def fileName (path : FilePath) : Option (String × Nat) :=
  match path.parts.getLast? with
  | some ⟨.name text, stop⟩ => some (text, stop)
  | _ => none

/-- What follows the last dot of a name; a dot that starts the name does not count. -/
def extensionOf (name : String) : Option String :=
  let reversed := name.toList.reverse
  match reversed.dropWhile (· != '.') with
  | [] | [_] => none
  | _ => some (.ofList (reversed.takeWhile (· != '.')).reverse)

/-- Appends an extension to the file name and drops what is written behind the name; gives nothing
if the name has an extension. A path that ends in no name stays as it is. -/
def addExtension? (path : FilePath) (extension : String) : Option FilePath :=
  match path.fileName with
  | none => some path
  | some (name, stop) =>
    if (extensionOf name).isSome then none
    else some ⟨(path.take stop).text ++ "." ++ extension⟩

def isWithin (path base : FilePath) : Bool := base.components.isPrefixOf path.components

def ofComponents (components : List Component) : FilePath :=
  match components.dropWhile (· != .root) with
  | _ :: rest => ⟨"/" ++ "/".intercalate (rest.map Component.text)⟩
  | [] => ⟨"/".intercalate (components.map Component.text)⟩

def plain (path : FilePath) : FilePath := ofComponents path.components

end FilePath

end Interpose
