import Interpose.Loader.Slot
import Interpose.Module.Fingerprint
import Interpose.Module.Value

set_option autoImplicit false

namespace Interpose
open Script

structure StageInput where
  content : String
  path : FilePath
  /-- The module whose import asks for this one; the host's own loads have none. -/
  requester : Option FilePath

/-- What names mean so far, the latest meaning first. -/
abbrev Scope := List (String × Value)

def evalExpr (path : FilePath) (scope : Scope) : Expr → Except ModuleError Value
  | .literal value _ => .ok (.ofLiteral value)
  | .identifier name =>
    match scope.lookup name.name with
    | some value => .ok value
    | none => .error (.evaluate path (.undefined name.name name.span.start))
  | .member object property _ =>
    match evalExpr path scope object with
    | .error error => .error error
    | .ok (.module module) =>
      match module.get? property.name with
      | some value => .ok value
      | none => .error (.evaluate path (.noExport module.id property.name))
    | .ok value => .error (.evaluate path (.notModule property.name value.typeName))

variable {m : Type → Type} [Monad m]

def evaluate (path : FilePath) (require : String → ExceptT (Halt ModuleError) m Module) :
    List Stmt → Scope → Exports → ExceptT (Halt ModuleError) m Exports
  | [], _, exports => return exports
  | .imports binding source _ :: rest, scope, exports => do
    let module ← require source.value
    evaluate path require rest ((binding.name, .module module) :: scope) exports
  | .binds name value _ :: rest, scope, exports =>
    match evalExpr path scope value with
    | .ok value => evaluate path require rest ((name.name, value) :: scope) exports
    | .error error => throw (.error error)
  | .exports name value _ :: rest, scope, exports =>
    match evalExpr path scope value with
    | .ok value =>
      evaluate path require rest ((name.name, value) :: scope) (exports.insert name.name value)
    | .error error => throw (.error error)

def compileNative (require : FilePath → String → ExceptT (Halt ModuleError) m Module)
    (request : StageInput) : ExceptT (Halt ModuleError) m Module :=
  match parseText request.content with
  | .error cause => throw (.error (.parse request.path cause))
  | .ok program => do
    let exports ← evaluate request.path (require request.path) program.statements [] []
    return ⟨request.path, exports, fingerprint request.content⟩

def echoModule (request : StageInput) : Module :=
  let requester := match request.requester with
    | some path => Value.string path.text
    | none => .null
  ⟨request.path, [("content", .string request.content), ("path", .string request.path.text),
    ("requester", requester)], fingerprint request.content⟩

end Interpose
