import Interpose.Loader.Cache
import Interpose.Loader.Evaluate

/-!
Loading modules. A module is compiled by the stage in the slot when it is first asked for and is
served from the cache afterwards. While it is being compiled it is in flight, and asking for it then
is a cycle. A load that fails or unwinds caches nothing and leaves nothing in flight.
-/

set_option autoImplicit false

namespace Interpose
open Edit

structure Loader where
  layout : Layout
  slot : Slot
  cache : Cache
  /-- The modules that are being compiled, innermost first. -/
  inFlight : List KeyedPath

namespace Loader

def ofLayout (layout : Layout) : Loader := ⟨layout, .initial, [], []⟩

def isInFlight (loader : Loader) (path : KeyedPath) : Bool := loader.inFlight.any path.same

end Loader

structure TransformCall where
  owner : OwnerId
  path : FilePath
  source : String

structure LoadState where
  loader : Loader
  calls : List TransformCall

/-- A load changes the loader also when it ends early. -/
abbrev Load (α : Type) := ExceptT (Halt ModuleError) (StateM LoadState) α

namespace Load

def fail {α : Type} (error : ModuleError) : Load α := throw (.error error)

def ofExcept {α : Type} : Except ModuleError α → Load α
  | .ok value => pure value
  | .error error => fail error

/-- Runs with the path in flight, and takes it out again however the run ends. -/
def whileInFlight {α : Type} (path : KeyedPath) (body : Load α) : Load α := fun state =>
  let loader := state.loader
  let (result, state) := body { state with loader.inFlight := path :: loader.inFlight }
  (result, { state with loader.inFlight := state.loader.inFlight.filter (! ·.same path) })

def record (call : TransformCall) : Load Unit :=
  modify fun state => { state with calls := state.calls ++ [call] }

def transform (transformer : Transformer) (request : StageInput) : Load StageInput :=
  match transformer request.content with
  | .ok content => return { request with content }
  | .error (.error cause) => fail (.transform request.path cause)
  | .error (.panic message) => throw (.panic message)

def compile (layout : Layout) (require : FilePath → String → Load Module) :
    Stage → StageInput → Load Module
  | .native, request => compileNative require request
  | .echo, request => return echoModule request
  | .refuse, request => fail (.evaluate request.path .refused)
  | .intercepting owner policy transformer ⟨_, _, underlying⟩, request => do
    if ← ofExcept (policy.selects layout request.path request.requester) then
      record ⟨owner, request.path, request.content⟩
      let request ← transform transformer request
      compile layout require underlying request
    else compile layout require underlying request

def compileFile (tree : FileTree) (require : FilePath → String → Load Module) (path : FilePath)
    (requester : Option FilePath) : Load Module := do
  match tree.read path with
  | some (.text content) =>
    let loader := (← get).loader
    compile loader.layout require loader.slot.current.stage ⟨content, path, requester⟩
  | _ => fail (.unreadable path)

def keep (path : KeyedPath) (module : Module) : Load Module := fun state =>
  let (kept, cache) := state.loader.cache.getOrInsert path module
  (.ok kept, { state with loader.cache := cache })

/-- The module at a path that `resolve` gives. At most `depth` modules are compiled one inside the
other. -/
def atPath (tree : FileTree) (depth : Nat) (path : FilePath) (requester : Option FilePath) :
    Load Module := do
  let loader := (← get).loader
  let key := path.keyed
  match loader.cache.get? key with
  | some module => return module
  | none =>
    if loader.isInFlight key then fail (.cyclic path)
    else
      match depth with
      | 0 => fail (.cyclic path)
      | depth + 1 =>
        let require (importer : FilePath) (specifier : String) : Load Module := do
          let file ← ofExcept (loader.layout.resolve tree specifier (some importer))
          atPath tree depth file (some importer)
        let module ← whileInFlight key (compileFile tree require path requester)
        keep key module

/-- How deep loads may nest. Each module that is being compiled has another path, and there are
fewer paths than this that are short enough to lead to a file; a file may have many of them, as a
path stays as it is written where its canonical form is too long. -/
def maxDepth : Nat := Nat.pow 256 (maxPathBytes + 1)

def bySpecifier (tree : FileTree) (specifier : String) (requester : Option FilePath) :
    Load Module := do
  let layout := (← get).loader.layout
  let path ← ofExcept (layout.resolve tree specifier requester)
  atPath tree maxDepth path requester

def byPath (tree : FileTree) (path : FilePath) : Load Module :=
  if tree.isFile path then atPath tree maxDepth (tree.canonical path) none
  else fail (.notFound path.text)

/-- Compiles a text by a stage that need not be in the slot, and caches nothing but its imports. -/
def compileBy (tree : FileTree) (stage : Stage) (request : StageInput) : Load Module := do
  let layout := (← get).loader.layout
  let require (importer : FilePath) (specifier : String) : Load Module :=
    bySpecifier tree specifier (some importer)
  compile layout require stage request

end Load

end Interpose
