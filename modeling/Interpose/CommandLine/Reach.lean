import Interpose.CommandLine.Run

/-!
The paths that a run of the program may look at, as far as the files that are known tell. Reading
what they lead to and asking again until nothing new turns up gives a tree on which the run does
what it would do on all the files there are.
-/

set_option autoImplicit false

namespace Interpose.CommandLine
open Script

def importsOf (source : String) : List String :=
  match parseText source with
  | .ok program => program.statements.filterMap fun
    | .imports _ source _ => some source.value
    | _ => none
  | .error _ => []

def Arguments.specifiers (arguments : Arguments) (source : String) : List String :=
  importsOf source ++
    match Edit.replaceStrings arguments.replacements source with
    | .ok output => importsOf output
    | .error _ => []

def Arguments.lookups (arguments : Arguments) (layout : Layout) (tree : FileTree) :
    Location × Content → List FilePath
  | (location, .text source) =>
    let base := layout.baseDir tree (some (FileTree.pathOf location))
    (arguments.specifiers source).flatMap fun specifier =>
      (layout.candidates base specifier).flatMap Layout.spellings
  | _ => []

def Arguments.reach (arguments : Arguments) (tree : FileTree) : List FilePath :=
  let named := arguments.entry :: arguments.config.toList
  match arguments.readConfig tree with
  | .error _ => named
  | .ok config =>
    let config := arguments.amend config
    let layout := config.layout tree arguments.entry
    let selected := match config.policy with
      | .paths paths => paths
      | _ => []
    named ++ config.entryDirFor arguments.entry :: selected ++
      tree.files.flatMap (arguments.lookups layout tree)

end Interpose.CommandLine
