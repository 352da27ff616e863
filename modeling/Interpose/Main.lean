import Interpose.CommandLine.Reach
import Interpose.FileTree.Change

set_option autoImplicit false

namespace Interpose

def locationOf (path : String) : Location :=
  ((segments path.toList).filter (· != [])).map String.ofList

def spelling (tree : FileTree) (place : Location) : String :=
  if tree.workingDir.isPrefixOf place && place != tree.workingDir then
    "/".intercalate (place.drop tree.workingDir.length)
  else (FileTree.pathOf place).text

def addReal (tree : FileTree) (place : Location) : IO FileTree := do
  let path := spelling tree place
  if (tree.at? place).isSome then return tree
  let .ok metadata ← (System.mkFilePath [path]).metadata.toBaseIO | return tree
  match metadata.type with
  | .dir => return tree.put place (.directory [])
  | .file =>
    let .ok bytes ← (IO.FS.readBinFile path).toBaseIO | return tree
    return tree.put place (.file (((String.fromUTF8? bytes).map .text).getD .binary))
  | _ => return tree

/-- Goes from a location name by name and adds what it comes by. What has too long a path for a real
path to be found is taken for no link. -/
def addNames (tree : FileTree) (here : Location) : List String → IO FileTree
  | [] => return tree
  | name :: rest => do
    if name = "" ∨ name = "." then addNames tree here rest
    else if name = ".." then addNames tree here.dropLast rest
    else
      let place := here ++ [name]
      let target ← match ← (IO.FS.realPath (spelling tree place)).toBaseIO with
        | .ok real => pure (locationOf real.toString)
        | .error _ => pure place
      let tree := if target = place then tree else tree.put place (.link (FileTree.pathOf target))
      addNames (← addReal tree target) target rest

def addPath (tree : FileTree) (path : FilePath) : IO FileTree :=
  addNames tree (tree.origin path) (FileTree.names path)

partial def addReach (arguments : CommandLine.Arguments) (tree : FileTree) : IO FileTree := do
  let more ← (arguments.reach tree).foldlM addPath tree
  if more.files.length = tree.files.length then return more else addReach arguments more

def bareTree : IO FileTree := do
  let here := locationOf (← IO.currentDir).toString
  return .bare here

end Interpose

open Interpose in
def main (arguments : List String) : IO UInt32 := do
  let bare ← bareTree
  let tree ← match CommandLine.parse arguments with
    | .ok arguments => addReach arguments bare
    | .error _ => pure bare
  let outcome := CommandLine.run tree arguments
  (← IO.getStdout).putStr outcome.output
  (← IO.getStderr).putStr outcome.errors
  return outcome.exit.toUInt32
