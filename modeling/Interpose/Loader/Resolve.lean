import Interpose.FileTree.Find
import Interpose.Module.Error

set_option autoImplicit false

namespace Interpose

structure Layout where
  entryDir : Option FilePath
  dependencyDir : String
  scriptPaths : List FilePath
deriving DecidableEq, Repr

def defaultDependencyDir : String := "solvra_modules"

def FileTree.fileInside (tree : FileTree) (candidate : FilePath) : Option FilePath :=
  let inside := candidate.joinName "mod.svs"
  if tree.isDir candidate && tree.isFile inside then some inside else none

/-- The file that a candidate stands for: itself, itself with the extension added if it has none, or
the module file of the directory that it is. -/
def FileTree.moduleFile (tree : FileTree) (candidate : FilePath) : Option FilePath :=
  if tree.isFile candidate then some candidate
  else
    match candidate.addExtension? "svs" with
    | some extended => if tree.isFile extended then some extended else tree.fileInside candidate
    | none => tree.fileInside candidate

namespace Layout

def ofEntryDir (tree : FileTree) (dir : FilePath) : Layout :=
  ⟨some (tree.canonical dir), defaultDependencyDir, []⟩

def withoutEntryDir : Layout := ⟨none, defaultDependencyDir, []⟩

def withScriptPath (layout : Layout) (path : FilePath) : Layout :=
  if layout.scriptPaths.any path.same then layout
  else { layout with scriptPaths := layout.scriptPaths ++ [path] }

def baseDir (layout : Layout) (tree : FileTree) (requester : Option FilePath) : FilePath :=
  ((requester.bind FilePath.parent).or layout.entryDir).getD (FileTree.pathOf tree.workingDir)

def isRelativeSpecifier (specifier : String) : Bool :=
  ['.', '/'].isPrefixOf specifier.toList || ['.', '.', '/'].isPrefixOf specifier.toList

def candidates (layout : Layout) (base : FilePath) (specifier : String) : List FilePath :=
  if (FilePath.mk specifier).isAbsolute then [⟨specifier⟩]
  else if isRelativeSpecifier specifier then [base.joinName specifier]
  else
    layout.scriptPaths.map (·.joinName specifier) ++
      base.ancestors.map fun dir => (dir.joinName layout.dependencyDir).joinName specifier

def spellings (candidate : FilePath) : List FilePath :=
  candidate :: (candidate.addExtension? "svs").toList ++ [candidate.joinName "mod.svs"]

def resolve (layout : Layout) (tree : FileTree) (specifier : String)
    (requester : Option FilePath) : Except ModuleError FilePath :=
  let base := layout.baseDir tree requester
  match (layout.candidates base specifier).findSome? tree.moduleFile with
  | some file => .ok (tree.canonical file)
  | none => .error (.notFound specifier)

end Layout

end Interpose
