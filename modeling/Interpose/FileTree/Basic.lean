import Interpose.Path.Basic

set_option autoImplicit false

namespace Interpose

/-- Where a file or directory is: the names from the root down to it, none of them a link. -/
abbrev Location := List String

inductive Content where
  | text (source : String)
  /-- Bytes that are no UTF-8 text. -/
  | binary
deriving DecidableEq, Repr

inductive Entry where
  | file (content : Content)
  | link (target : FilePath)
  | directory (entries : List (String × Entry))

abbrev Directory := List (String × Entry)

structure FileTree where
  root : Directory
  workingDir : Location

namespace Directory

def at? : Directory → Location → Option Entry
  | dir, [] => some (.directory dir)
  | dir, name :: rest =>
    match dir.lookup name with
    | some (.directory inner) => at? inner rest
    | some entry => if rest = [] then some entry else none
    | none => none

mutual

def filesBelow (here : Location) : List (String × Entry) → List (Location × Content)
  | [] => []
  | (name, entry) :: rest => filesOf (here ++ [name]) entry ++ filesBelow here rest

def filesOf (here : Location) : Entry → List (Location × Content)
  | .file content => [(here, content)]
  | .link _ => []
  | .directory entries => filesBelow here entries

end

end Directory

namespace FileTree

def at? (tree : FileTree) (location : Location) : Option Entry := Directory.at? tree.root location

def files (tree : FileTree) : List (Location × Content) := Directory.filesBelow [] tree.root

def pathOf (location : Location) : FilePath := ⟨"/" ++ "/".intercalate location⟩

end FileTree

end Interpose
