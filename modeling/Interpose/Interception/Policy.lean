import Interpose.Loader.Resolve
import Interpose.Path.PathSet
import Interpose.Path.Relative
import Interpose.Text.Blank

set_option autoImplicit false

namespace Interpose

inductive InterceptError where
  | unknownCode (code : Int64)
  | unknownName (name : String)
  | busy (holder : Nat)
deriving DecidableEq, Repr

def InterceptError.message : InterceptError → String
  | unknownCode code =>
    "invalid interception policy: unknown policy code " ++ Text.showInt64 code
  | unknownName name => "invalid interception policy: unknown policy name '" ++ name ++ "'"
  | busy holder => "module loading is already intercepted by interceptor #" ++ toString holder

inductive Policy where
  | allModules
  | noDependencies
  /-- Modules that the host or a module outside dependency directories asks for. -/
  | topLevelDependencies
  | explicit (paths : PathSet)
deriving DecidableEq

inductive PolicySpec where
  | code (code : Int64)
  | name (name : String)
  | paths (paths : List FilePath)
deriving DecidableEq, Repr

namespace Policy

/-- Paths that exist are taken in their canonical form, others in plain spelling. -/
def ofPaths (tree : FileTree) (paths : List FilePath) : Policy :=
  explicit (.ofPaths (paths.map fun path => (tree.canonical path).plain.keyed))

def ofCode (code : Int64) : Except InterceptError Policy :=
  if code = 1 then .ok noDependencies
  else if code = 2 then .ok topLevelDependencies
  else if code = 3 then .ok allModules
  else .error (.unknownCode code)

def ofName (name : String) : Except InterceptError Policy :=
  let name := Text.trim name
  if name = "all" then .ok allModules
  else if name = "no-dependencies" then .ok noDependencies
  else if name = "top-level-dependencies" then .ok topLevelDependencies
  else .error (.unknownName name)

def ofSpec (tree : FileTree) : PolicySpec → Except InterceptError Policy
  | .code code => ofCode code
  | .name name => ofName name
  | .paths paths => .ok (ofPaths tree paths)

def text : Policy → String
  | allModules => "all"
  | noDependencies => "no-dependencies"
  | topLevelDependencies => "top-level-dependencies"
  | explicit paths => "explicit(" ++ toString paths.length ++ " paths)"

def regardsDependencies : Policy → Bool
  | noDependencies | topLevelDependencies => true
  | allModules | explicit _ => false

/-- Whether a load of the path is transformed; a load without a requester is the host's own. -/
def selects (policy : Policy) (layout : Layout) (path : FilePath)
    (requester : Option FilePath) : Except ModuleError Bool :=
  match policy, layout.entryDir with
  | allModules, _ => .ok true
  | explicit paths, _ => .ok (paths.contains path)
  | _, none => .error (.unsupportedPlatform path)
  | noDependencies, some entryDir =>
    .ok !(FilePath.isDependency entryDir path layout.dependencyDir)
  | topLevelDependencies, some entryDir =>
    .ok (requester.all fun requester =>
      !(FilePath.isDependency entryDir requester layout.dependencyDir))

end Policy

end Interpose
