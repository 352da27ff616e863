import Interpose.Host

/-!
Interceptors. An interceptor remembers the stage and the cached paths of its loader from when it was
built; while it is active its own stage stands in the slot, and when it ends the remembered stage
comes back and all modules go that were not cached then.
-/

set_option autoImplicit false

namespace Interpose

structure Interceptor where
  id : OwnerId
  loader : LoaderId
  policy : Policy
  transformer : Edit.Transformer
  underlying : Occupant
  /-- The paths that were cached when the interceptor was built. -/
  cachedPaths : PathSet

/-- What an interceptor gives for being activated. Only an activation that filled the slot restores
anything. -/
structure Activation where
  interceptor : Interceptor
  stage : StageId
  fresh : Bool

namespace Interceptor

def stage (interceptor : Interceptor) : Stage :=
  .intercepting interceptor.id interceptor.policy interceptor.transformer interceptor.underlying

/-- Builds an interceptor for a loader that no other one holds. Only those that are built are
counted. -/
def new (loader : LoaderId) (policy : Policy) (transformer : Edit.Transformer) :
    HostM (Except InterceptError Interceptor) := fun host =>
  let target := host.loader loader
  let underlying := target.slot.current
  match underlying.owner with
  | some holder => (.error (.busy holder), host)
  | none =>
    (.ok ⟨host.nextOwner, loader, policy, transformer, underlying, target.cache.keys⟩,
      { host with nextOwner := host.nextOwner + 1 })

def isActive (interceptor : Interceptor) (host : Host) : Bool :=
  (host.loader interceptor.loader).slot.current.owner == some interceptor.id

def activate (interceptor : Interceptor) : HostM (Except InterceptError Activation) := do
  let claim ← HostM.onSlot interceptor.loader (·.claim interceptor.id interceptor.stage)
  return match claim with
    | .ok claim => .ok ⟨interceptor, claim.stage, claim.fresh⟩
    | .error holder => .error (.busy holder)

/-- Ends interception if the interceptor holds the slot, with the expected stage if one is given. -/
def release (interceptor : Interceptor) (expected : Option StageId) : HostM Bool := do
  let released ← HostM.onSlot interceptor.loader
    (·.release interceptor.id expected interceptor.underlying)
  if released then
    let _ ← HostM.retain interceptor.loader interceptor.cachedPaths.contains
  return released

def deactivate (interceptor : Interceptor) : HostM Bool := interceptor.release none

end Interceptor

def Activation.restore (activation : Activation) : HostM Bool :=
  if activation.fresh then activation.interceptor.release (some activation.stage) else pure false

end Interpose
