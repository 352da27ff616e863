import Interpose.Json
import Interpose.Path.Basic
import Interpose.Script.Tree

set_option autoImplicit false

namespace Interpose

structure ModuleOf (α : Type) where
  id : FilePath
  exports : List (String × α)
  fingerprint : String

inductive Value where
  | null
  | boolean (value : Bool)
  | integer (value : Int64)
  | string (value : String)
  | module (module : ModuleOf Value)

abbrev Module := ModuleOf Value

namespace Value

def ofLiteral : Script.Literal → Value
  | .string s => string s
  | .integer n => integer n
  | .boolean b => boolean b
  | .null => null

def typeName : Value → String
  | null => "null"
  | boolean _ => "bool"
  | integer _ => "int"
  | string _ => "string"
  | module _ => "module"

def asString? : Value → Option String
  | string s => some s
  | _ => none

mutual

def toJson : Value → Json
  | null => .null
  | boolean b => .boolean b
  | integer n => .integer n
  | string s => .string s
  | module ⟨_, exports, _⟩ => .object (membersOf exports)

def membersOf : List (String × Value) → List (String × Json)
  | [] => []
  | (name, value) :: rest => (name, value.toJson) :: membersOf rest

end

end Value

abbrev Exports := List (String × Value)

def Exports.insert (name : String) (value : Value) : Exports → Exports
  | [] => [(name, value)]
  | (first, old) :: rest =>
    if name = first then (name, value) :: rest
    else if name < first then (name, value) :: (first, old) :: rest
    else (first, old) :: insert name value rest

namespace ModuleOf

def get? {α : Type} (module : ModuleOf α) (name : String) : Option α :=
  module.exports.lookup name

def toJson (module : Module) : Json := .object (Value.membersOf module.exports)

end ModuleOf

end Interpose
