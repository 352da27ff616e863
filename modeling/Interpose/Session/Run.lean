import Interpose.Session.Action

/-!
Running scripts. A panic step ends the list that it is in; the step that runs the list answers the
panic and closes its scope, and the results of the list are lost.
-/

set_option autoImplicit false

namespace Interpose.Session

abbrev Unwinding := ExceptT String SessionM

def Action.answer (action : Action) : SessionM Answer := do
  match ← (perform action).run with
  | .ok answer => return answer
  | .error answer => return answer

def runList (run : Step → Unwinding Result) : List Step → Unwinding (List Record)
  | [] => return []
  | step :: rest => do
    let result ← run step
    let loaders ← ExceptT.lift summaries
    return (result, loaders) :: (← runList run rest)

/-- One poll of the work of a future: the next list of steps. Work that was ready is ready again,
with nothing to show. -/
def pollWork (run : List Step → Unwinding (List Record)) (work : Work) :
    Unwinding (Polled (List (List Record)) Work) := do
  match work.remaining with
  | [] => return .ready work.done ⟨[], []⟩
  | steps :: remaining =>
    let done := work.done ++ [← run steps]
    if remaining.isEmpty then return .ready done ⟨[], []⟩ else return .pending ⟨remaining, done⟩

def pollFuture (run : List Step → Unwinding (List Record)) (name : String) : ActM Result := do
  let future ← takeFuture name
  match ← ExceptT.lift (future.poll fun work => (pollWork run work).run) with
  | .error message =>
    onHost future.drop
    return .answer (.panicked message)
  | .ok (ready, future) =>
    storeFuture name future
    return .polled ready future.isOpen

def runScope (run : List Step → Unwinding (List Record)) (interceptor : String)
    (steps : List Step) : ActM Result := do
  let interceptor ← need .interceptor Names.interceptors interceptor
  match ← ExceptT.lift (interceptor.withScope (run steps).run) with
  | .error error => return .answer (.interceptError error)
  | .ok (.error message) => return .answer (.panicked message)
  | .ok (.ok records) => return .steps records

def startFuture (run : List Step → Unwinding (List Record)) (interceptor : String)
    (start : List Step) (polls : List (List Step)) (name : String) : ActM Result := do
  let interceptor ← need .interceptor Names.interceptors interceptor
  let work : Unwinding (List Record × Work) := do
    return (← run start, ⟨polls, []⟩)
  match ← ExceptT.lift (interceptor.openScope work.run) with
  | .error error => return .answer (.interceptError error)
  | .ok (.error message) => return .answer (.panicked message)
  | .ok (.ok (records, future)) =>
    storeFuture name future
    return .started records future.isOpen

def settled (act : ActM Result) : SessionM Result := do
  match ← act.run with
  | .ok result => return result
  | .error answer => return .answer answer

/-- Runs one step; `run` runs the lists of steps in it. -/
def runStep (run : List Step → Unwinding (List Record)) : Step → Unwinding Result
  | .act action => return .answer (← ExceptT.lift action.answer)
  | .scope interceptor steps => ExceptT.lift (settled (runScope run interceptor steps))
  | .async interceptor start polls name =>
    ExceptT.lift (settled (startFuture run interceptor start polls name))
  | .poll future => ExceptT.lift (settled (pollFuture run future))
  | .panic message => throw message

def runWithin : Nat → List Step → Unwinding (List Record)
  | 0 => fun _ => return []
  | depth + 1 => runList (runStep (runWithin depth))

/-- The records of a script, or the message of a panic that nothing in it caught. No step runs
twice, so lists lie in one another no deeper than there are steps. -/
def run (tree : FileTree) (steps : List Step) : Except String (List Record) :=
  let script := runWithin (Step.sizeOfList steps + 1) steps
  ((script.run.run .none).run (.start tree)).1.1

end Interpose.Session
