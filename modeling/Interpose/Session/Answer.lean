import Interpose.Interception.Scope
import Interpose.Session.Step

set_option autoImplicit false

namespace Interpose.Session

inductive Answer where
  | nothing
  | flag (value : Bool)
  | count (n : Nat)
  | path (path : FilePath)
  | paths (paths : List FilePath)
  | text (text : String)
  | texts (texts : List String)
  | module (module : Module)
  | layout (layout : Layout)
  | config (config : Config) (policy : Except InterceptError Policy)
  | exported (value : Option Value)
  | installed (id : StageId) (owner : Option OwnerId)
  | claimed (claim : Claim)
  | heldBy (owner : OwnerId)
  | interceptor (id : OwnerId) (policy : Policy)
  | activated (stage : StageId) (outermost : Bool)
  | moduleError (error : ModuleError)
  | interceptError (error : InterceptError)
  | configError (error : ConfigError)
  | missing (handle : Handle)
  | panicked (message : String)

structure LoaderSummary where
  name : String
  stage : StageId
  owner : Option OwnerId
  cached : Nat

inductive Result where
  | answer (answer : Answer)
  | steps (entries : List (Result × List LoaderSummary))
  | started (entries : List (Result × List LoaderSummary)) (pending : Bool)
  | polled (ready : Option (List (List (Result × List LoaderSummary)))) (pending : Bool)

abbrev Record := Result × List LoaderSummary

/-- Work that a future still has to do, and what it has done. -/
structure Work where
  remaining : List (List Step)
  done : List (List Record)

abbrev Table (α : Type) := List (String × α)

def Table.put {α : Type} (table : Table α) (name : String) (value : α) : Table α :=
  (name, value) :: table.filter (·.1 != name)

def Table.without {α : Type} (table : Table α) (name : String) : Table α :=
  table.filter (·.1 != name)

structure Names where
  loaders : Table LoaderId
  interceptors : Table Interceptor
  tokens : Table Activation
  guards : Table ScopeGuard
  futures : Table (ScopedWork Work)
  snapshots : Table Occupant
  modules : Table Module
  configs : Table Config

def Names.none : Names := ⟨[], [], [], [], [], [], [], []⟩

abbrev SessionM := HostedM Names

def summaries : SessionM (List LoaderSummary) := do
  let names ← getThe Names
  let host ← getThe Host
  return names.loaders.map fun (name, id) =>
    let loader := host.loader id
    ⟨name, loader.slot.current.id, loader.slot.current.owner, loader.cache.length⟩

end Interpose.Session
