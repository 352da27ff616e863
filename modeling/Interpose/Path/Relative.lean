import Interpose.Path.Basic

set_option autoImplicit false

namespace Interpose

def sharedLength : List Component → List Component → Nat
  | a :: as, b :: bs => if a = b then sharedLength as bs + 1 else 0
  | _, _ => 0

namespace FilePath

/-- Up from the base as far as the paths differ, then down to the target. -/
def relative (base target : FilePath) : FilePath :=
  let shared := sharedLength base.components target.components
  let up := List.replicate (base.components.length - shared) Component.parent
  ofComponents (up ++ target.components.drop shared)

/-- Whether the way from the entry directory to the path leads through a directory of this name. -/
def isDependency (entryDir path : FilePath) (dependencyDir : String) : Bool :=
  (relative entryDir path).components.contains (.name dependencyDir)

end FilePath

end Interpose
