import Interpose.Proofs.Hosts
import Mathlib.Logic.Function.Basic
import Interpose.Session.Action

/-!
Hosts under use. Callers build interceptors, activate them, keep the activations in tokens, guards,
scopes and futures, end them in any order, and load and drop modules in between. Next to the host,
the world keeps what callers hold and which activations have been ended; nothing that happens
depends on the latter.
-/

set_option autoImplicit false

namespace Interpose

inductive Holder where
  | token
  | guard
  | scope
  | future
deriving DecidableEq, Repr

/-- A scope or a future ends what it holds; a token or a guard leaves that to the caller. -/
def Holder.isScope : Holder → Bool
  | scope | future => true
  | token | guard => false

inductive Ending where
  | restore
  | releaseGuard
  | dropGuard
  | leaveScope
  | settle
  | dropFuture
deriving DecidableEq, Repr

namespace Ending

def holder : Ending → Holder
  | restore => .token
  | releaseGuard | dropGuard => .guard
  | leaveScope => .scope
  | settle | dropFuture => .future

def answer : Ending → Bool → Option Bool
  | restore, released | releaseGuard, released => some released
  | dropGuard, _ | leaveScope, _ | settle, _ | dropFuture, _ => none

def lastPoll {φ : Type} (inner : φ) : HostedM Unit (Except Unit (Polled Unit φ)) :=
  return .ok (.ready () inner)

def run (ending : Ending) (activation : Activation) : HostM (Option Bool) :=
  match ending with
  | restore => do return some (← activation.restore)
  | releaseGuard => do return some (← (ScopeGuard.mk activation).release)
  | dropGuard | leaveScope => do
    (ScopeGuard.mk activation).drop
    return none
  | settle => do
    let _ ← (ScopedWork.poll lastPoll ⟨(), some ⟨activation⟩⟩).run ()
    return none
  | dropFuture => do
    ScopedWork.drop ⟨(), some ⟨activation⟩⟩
    return none

theorem run_eq (ending : Ending) (activation : Activation) (host : Host) :
    ending.run activation host =
      (ending.answer (activation.restore host).1, (activation.restore host).2) := by
  cases ending with
  | settle =>
    have hpoll : (ScopedWork.poll lastPoll ⟨(), some ⟨activation⟩⟩) () host =
        ((.ok (some (), ⟨(), none⟩), ()), (activation.restore host).2) :=
      ScopedWork.poll_ready rfl
    exact congrArg (fun polled => (none, polled.2)) hpoll
  | _ => rfl

end Ending

def Interceptor.build (loader : LoaderId) (policy : PolicySpec) (transformer : Edit.Transformer) :
    HostM (Except InterceptError Interceptor) := fun host =>
  match Policy.ofSpec host.tree policy with
  | .error error => (.error error, host)
  | .ok policy => Interceptor.new loader policy transformer host

theorem Interceptor.loader_build (loader : LoaderId) (policy : PolicySpec)
    (transformer : Edit.Transformer) (host : Host) (id : LoaderId) :
    (build loader policy transformer host).2.loader id = host.loader id := by
  unfold build
  cases Policy.ofSpec host.tree policy with
  | error error => rfl
  | ok policy =>
    simp only [Interceptor.new]
    split <;> rfl

/-- A host, and what its callers have from it. Activations are numbered in the order in which they
were made. -/
structure World where
  host : Host
  interceptors : List Interceptor
  issued : List Activation
  /-- By what an activation is held still. -/
  holder : Nat → Option Holder
  /-- Whether an activation was ended, by its holder or by deactivating its interceptor. -/
  ended : Nat → Bool
  snapshots : List Occupant

/-- Interceptors are meant by their number, in the order in which they were built. -/
inductive Event where
  | build (loader : LoaderId) (policy : PolicySpec) (transformer : Edit.Transformer)
  | activate (interceptor : Nat) (holder : Holder)
  | deactivate (interceptor : Nat)
  /-- Puts a token into a guard. -/
  | guard (activation : Nat)
  /-- Loses a token, which ends nothing. -/
  | forget (activation : Nat)
  | finish (activation : Nat) (ending : Ending)
  /-- Polls a future whose work goes on afterwards. -/
  | poll (activation : Nat)
  | load (loader : LoaderId) (request : Session.LoadRequest)
  | evict (loader : LoaderId) (path : FilePath)
  | retain (loader : LoaderId) (keep : FilePath → Bool)
  | snapshot (loader : LoaderId)
  | claim (loader : LoaderId) (owner : OwnerId) (stage : Stage)
  | release (loader : LoaderId) (owner : OwnerId) (expected : Option StageId) (snapshot : Nat)

def Event.isRaw : Event → Bool
  | .claim .. | .release .. => true
  | _ => false

namespace World

def start (tree : FileTree) (layouts : List Layout) : World :=
  ⟨⟨tree, layouts.map .ofLayout, 1, []⟩, [], [], fun _ => none, fun _ => false, []⟩

abbrev loader (w : World) (id : LoaderId) : Loader := w.host.loader id

def issue (w : World) (activation : Activation) (holder : Holder) : World :=
  { w with
    issued := w.issued ++ [activation]
    holder := Function.update w.holder w.issued.length (some holder)
    ended := Function.update w.ended w.issued.length false }

def isBy (w : World) (interceptor : Interceptor) (n : Nat) : Bool :=
  w.issued[n]?.any (·.interceptor.id == interceptor.id)

def build (w : World) (loader : LoaderId) (policy : PolicySpec)
    (transformer : Edit.Transformer) : World :=
  match Interceptor.build loader policy transformer w.host with
  | (.ok interceptor, host) => { w with host, interceptors := w.interceptors ++ [interceptor] }
  | (.error _, host) => { w with host }

def activate (w : World) (interceptor : Interceptor) (holder : Holder) : World :=
  match interceptor.activate w.host with
  | (.ok activation, host) => { w with host }.issue activation holder
  | (.error _, host) => { w with host }

def deactivate (w : World) (interceptor : Interceptor) : World :=
  { w with
    host := (interceptor.deactivate w.host).2
    ended := fun n => w.ended n || w.isBy interceptor n }

def finish (w : World) (n : Nat) (activation : Activation) (ending : Ending) : World :=
  { w with
    host := (ending.run activation w.host).2
    holder := Function.update w.holder n none
    ended := Function.update w.ended n true }

def nextPoll {φ : Type} (inner : φ) : HostedM Unit (Except Unit (Polled Unit φ)) :=
  return .ok (.pending inner)

def poll (w : World) (activation : Activation) : World :=
  { w with host := ((ScopedWork.poll nextPoll ⟨(), some ⟨activation⟩⟩).run () w.host).2 }

theorem poll_eq (w : World) (activation : Activation) : w.poll activation = w := by
  have hpoll : (ScopedWork.poll nextPoll ⟨(), some ⟨activation⟩⟩) () w.host =
      ((.ok (none, ⟨(), some ⟨activation⟩⟩), ()), w.host) := ScopedWork.poll_pending rfl
  exact congrArg (fun polled => { w with host := polled.2 }) hpoll

/-- An event that means something that is not there changes nothing. -/
def step (w : World) : Event → World
  | .build loader policy transformer =>
    if loader < w.host.loaders.length then w.build loader policy transformer else w
  | .activate i holder => w.interceptors[i]?.elim w fun interceptor =>
    w.activate interceptor holder
  | .deactivate i => w.interceptors[i]?.elim w w.deactivate
  | .guard n =>
    if w.holder n = some .token then
      { w with holder := Function.update w.holder n (some .guard) }
    else w
  | .forget n =>
    if w.holder n = some .token then { w with holder := Function.update w.holder n none } else w
  | .finish n ending => w.issued[n]?.elim w fun activation =>
    if w.holder n = some ending.holder then w.finish n activation ending else w
  | .poll n => w.issued[n]?.elim w fun activation =>
    if w.holder n = some .future then w.poll activation else w
  | .load loader request => { w with host := (HostM.load loader request.run w.host).2 }
  | .evict loader path => { w with host := (HostM.retain loader (! ·.same path) w.host).2 }
  | .retain loader keep => { w with host := (HostM.retain loader keep w.host).2 }
  | .snapshot loader =>
    { w with snapshots := w.snapshots ++ [(w.loader loader).slot.current] }
  | .claim loader owner stage =>
    { w with host := (HostM.onSlot loader (·.claim owner stage) w.host).2 }
  | .release loader owner expected k => w.snapshots[k]?.elim w fun former =>
    { w with host := (HostM.onSlot loader (·.release owner expected former) w.host).2 }

def run (w : World) (events : List Event) : World := events.foldl step w

theorem run_concat (w : World) (events : List Event) (event : Event) :
    w.run (events ++ [event]) = (w.run events).step event := List.foldl_append

theorem run_induction {p : World → Prop} {w : World} {events : List Event} (hw : p w)
    (hstep : ∀ {w event}, event ∈ events → p w → p (w.step event)) : p (w.run events) := by
  induction events generalizing w with
  | nil => exact hw
  | cons event rest ih =>
    exact ih (hstep List.mem_cons_self hw) fun he => hstep (List.mem_cons_of_mem event he)

end World

end Interpose
