import Interpose.Config
import Interpose.Loader.Evaluate
import Interpose.Edit.Stock

set_option autoImplicit false

namespace Interpose.Session

inductive Handle where
  | loader
  | interceptor
  | token
  | guard
  | future
  | snapshot
  | module
  | config
deriving DecidableEq, Repr

inductive LoadRequest where
  | path (path : FilePath)
  | specifier (specifier : String) (requester : Option FilePath)

/-- The stages that a script can put into the slot by itself. -/
inductive PlainStage where
  | native
  | echo
  | refuse

def PlainStage.stage : PlainStage → Stage
  | native => .native
  | echo => .echo
  | refuse => .refuse

inductive ConfigSource where
  | file (path : FilePath)
  | text (toml : String)

inductive Action where
  | write (path : FilePath) (content : Content)
  | remove (path : FilePath)
  | newLoader (entryDir : Option FilePath) (dependencyDir : Option String)
      (scriptPaths : List FilePath) (name : String)
  | readConfig (source : ConfigSource) (rebase : Option FilePath) (name : String)
  | loaderOf (config : String) (entryFile : FilePath) (name : String)
  | load (loader : String) (request : LoadRequest) (name : Option String)
  | resolve (loader specifier : String) (requester : Option FilePath)
  | cached (loader : String) (path : FilePath)
  | cacheKeys (loader : String)
  | evict (loader : String) (path : FilePath)
  | retain (loader : String) (keep : List FilePath)
  | lookup (module name : String)
  | exportsJson (module : String)
  | snapshot (loader name : String)
  | claim (loader : String) (owner : OwnerId) (stage : PlainStage)
  | release (loader : String) (owner : OwnerId) (expected : Option StageId) (snapshot : String)
  /-- Compiles a text by the stage of a snapshot, or else by the one in the slot. -/
  | compile (loader : String) (request : StageInput) (snapshot : Option String)
      (name : Option String)
  | newInterceptor (loader : String) (policy : PolicySpec) (transformer : Edit.Transformer)
      (name : String)
  | transformed (interceptor : String)
  | isActive (interceptor : String)
  | deactivate (interceptor : String)
  | activate (interceptor name : String)
  | restore (token : String)
  | forget (token : String)
  | guard (token name : String)
  | releaseGuard (guard : String)
  | dropGuard (guard : String)
  | dropFuture (future : String)

inductive Step where
  | act (action : Action)
  | scope (interceptor : String) (steps : List Step)
  /-- Starts work; each list of `polls` runs when the future is polled. -/
  | async (interceptor : String) (start : List Step) (polls : List (List Step)) (name : String)
  | poll (future : String)
  /-- Unwinds to the step that runs the list that this one is in. -/
  | panic (message : String)

mutual

def Step.size : Step → Nat
  | .act _ | .poll _ | .panic _ => 1
  | .scope _ steps => Step.sizeOfList steps + 1
  | .async _ start polls _ => Step.sizeOfList start + Step.sizeOfLists polls + 1

def Step.sizeOfList : List Step → Nat
  | [] => 0
  | step :: rest => step.size + Step.sizeOfList rest

def Step.sizeOfLists : List (List Step) → Nat
  | [] => 0
  | steps :: rest => Step.sizeOfList steps + Step.sizeOfLists rest

end

end Interpose.Session
