import Interpose.Loader.Load

set_option autoImplicit false

namespace Interpose

abbrev LoaderId := Nat

structure Host where
  tree : FileTree
  loaders : List Loader
  nextOwner : OwnerId
  calls : List TransformCall

abbrev HostM := StateM Host

namespace Host

def start (tree : FileTree) : Host := ⟨tree, [], 1, []⟩

/-- A loader for each number; one that was never built is as if just built. -/
def loader (host : Host) (id : LoaderId) : Loader :=
  host.loaders.getD id (.ofLayout .withoutEntryDir)

def setLoader (host : Host) (id : LoaderId) (loader : Loader) : Host :=
  { host with loaders := host.loaders.set id loader }

def sourcesOf (host : Host) (owner : OwnerId) : List String :=
  (host.calls.filter (·.owner == owner)).map TransformCall.source

end Host

namespace HostM

def newLoader (layout : Layout) : HostM LoaderId := fun host =>
  (host.loaders.length, { host with loaders := host.loaders ++ [.ofLayout layout] })

def load {α : Type} (id : LoaderId) (load : FileTree → Load α) :
    HostM (Outcome ModuleError α) := fun host =>
  let (result, state) := load host.tree ⟨host.loader id, host.calls⟩
  (result, { host.setLoader id state.loader with calls := state.calls })

def onSlot {α : Type} (id : LoaderId) (change : Slot → α × Slot) : HostM α :=
  fun host =>
    let loader := host.loader id
    let (result, slot) := change loader.slot
    (result, host.setLoader id { loader with slot })

/-- Keeps the cached modules whose path passes the test, and counts those that go. -/
def retain (id : LoaderId) (keep : FilePath → Bool) : HostM Nat := fun host =>
  let loader := host.loader id
  let cache := loader.cache.retain keep
  (loader.cache.length - cache.length, host.setLoader id { loader with cache })

end HostM

end Interpose
