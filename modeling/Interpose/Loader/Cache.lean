import Interpose.Module.Value
import Interpose.Path.PathSet

set_option autoImplicit false

namespace Interpose

abbrev Cache := List (KeyedPath × Module)

namespace Cache

def get? (cache : Cache) (path : KeyedPath) : Option Module :=
  (cache.find? fun entry => entry.1.same path).map Prod.snd

/-- The module that is there, or else the new one, which is then kept. -/
def getOrInsert (cache : Cache) (path : KeyedPath) (module : Module) : Module × Cache :=
  match cache.get? path with
  | some kept => (kept, cache)
  | none => (module, cache ++ [(path, module)])

def keys (cache : Cache) : PathSet := .ofPaths (cache.map Prod.fst)

def retain (cache : Cache) (keep : FilePath → Bool) : Cache := cache.filter (keep ·.1.path)

def evict (cache : Cache) (path : FilePath) : Cache := cache.retain (! ·.same path)

end Cache

end Interpose
