import Interpose.Interception.Interceptor

set_option autoImplicit false

namespace Interpose

abbrev HostedM (σ : Type) := StateT σ HostM

structure ScopeGuard where
  activation : Activation

def ScopeGuard.release (guard : ScopeGuard) : HostM Bool := guard.activation.restore

def ScopeGuard.drop (guard : ScopeGuard) : HostM Unit := do
  let _ ← guard.activation.restore

structure ScopedWork (φ : Type) where
  inner : φ
  guard : Option ScopeGuard

namespace ScopedWork

variable {φ : Type}

def isOpen (work : ScopedWork φ) : Bool := work.guard.isSome

def drop (work : ScopedWork φ) : HostM Unit := do
  if let some guard := work.guard then guard.drop

end ScopedWork

inductive Polled (α φ : Type) where
  | pending (inner : φ)
  | ready (output : α) (inner : φ)

variable {σ ε α φ : Type}

/-- Polls the work once. The guard is released before the output of work that is ready is handed
back; a panic, which is an error here, leaves the guard to whoever drops the work. -/
def ScopedWork.poll (step : φ → HostedM σ (Except ε (Polled α φ))) (work : ScopedWork φ) :
    HostedM σ (Except ε (Option α × ScopedWork φ)) := do
  match ← step work.inner with
  | .error error => return .error error
  | .ok (.pending inner) => return .ok (none, { work with inner })
  | .ok (.ready output inner) =>
    if let some guard := work.guard then
      let _ ← guard.release
    return .ok (some output, ⟨inner, none⟩)

namespace Interceptor

/-- Runs the work with interception active. The result of the work may say that it unwound; the
scope ends either way. -/
def withScope (interceptor : Interceptor) (work : HostedM σ α) :
    HostedM σ (Except InterceptError α) := do
  match ← interceptor.activate with
  | .error error => return .error error
  | .ok activation =>
    let result ← work
    (ScopeGuard.mk activation).drop
    return .ok result

def openScope (interceptor : Interceptor) (work : HostedM σ (Except ε (α × φ))) :
    HostedM σ (Except InterceptError (Except ε (α × ScopedWork φ))) := do
  match ← interceptor.activate with
  | .error error => return .error error
  | .ok activation =>
    let guard : ScopeGuard := ⟨activation⟩
    match ← work with
    | .ok (output, inner) => return .ok (.ok (output, ⟨inner, some guard⟩))
    | .error error =>
      guard.drop
      return .ok (.error error)

end Interceptor

end Interpose
