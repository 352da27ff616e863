import Interpose.Loader.Evaluate
import Interpose.Proofs.Likeness

set_option autoImplicit false

namespace Interpose
open Script

namespace Json

mutual

def mapStrings (f : String → String) : Json → Json
  | null => .null
  | boolean b => .boolean b
  | integer n => .integer n
  | string s => .string (f s)
  | object members => .object (mapMembers f members)

def mapMembers (f : String → String) : List (String × Json) → List (String × Json)
  | [] => []
  | (name, value) :: rest => (name, value.mapStrings f) :: mapMembers f rest

end

mutual

theorem mapStrings_id : ∀ json : Json, json.mapStrings id = json
  | null | boolean _ | integer _ | string _ => rfl
  | object members => congrArg object (mapMembers_id members)

theorem mapMembers_id : ∀ members : List (String × Json), mapMembers id members = members
  | [] => rfl
  | (name, value) :: rest =>
    congrArg₂ List.cons (congrArg (Prod.mk name) (mapStrings_id value)) (mapMembers_id rest)

end

end Json

namespace Value

mutual

/-- Exchanges the strings, and with them the fingerprints of modules, at any depth. -/
def exchanged (strings marks : String → String) : Value → Value
  | null => .null
  | boolean b => .boolean b
  | integer n => .integer n
  | string s => .string (strings s)
  | module ⟨id, exports, fingerprint⟩ =>
    .module ⟨id, exchangedAll strings marks exports, marks fingerprint⟩

def exchangedAll (strings marks : String → String) : List (String × Value) → List (String × Value)
  | [] => []
  | (name, value) :: rest => (name, value.exchanged strings marks) :: exchangedAll strings marks rest

end

end Value

def ModuleOf.exchanged (strings marks : String → String) (module : Module) : Module :=
  ⟨module.id, Value.exchangedAll strings marks module.exports, marks module.fingerprint⟩

section Exchanged

variable {strings marks : String → String}

namespace Value

theorem exchangedAll_cons (name : String) (value : Value) (rest : List (String × Value)) :
    exchangedAll strings marks ((name, value) :: rest) =
      (name, value.exchanged strings marks) :: exchangedAll strings marks rest := rfl

theorem lookup_exchangedAll (name : String) (values : List (String × Value)) :
    (exchangedAll strings marks values).lookup name =
      (values.lookup name).map (exchanged strings marks) := by
  induction values with
  | nil => rfl
  | cons entry rest ih =>
    rw [exchangedAll_cons, List.lookup_cons, List.lookup_cons]
    split
    · rfl
    · exact ih

theorem exchangedAll_insert (name : String) (value : Value) (exports : Exports) :
    exchangedAll strings marks (exports.insert name value) =
      Exports.insert name (value.exchanged strings marks) (exchangedAll strings marks exports) := by
  induction exports with
  | nil => rfl
  | cons entry rest ih =>
    rw [Exports.insert, exchangedAll_cons, Exports.insert]
    split
    · rfl
    split
    · rfl
    · exact congrArg (List.cons _) ih

mutual

theorem toJson_exchanged : ∀ value : Value,
    (value.exchanged strings marks).toJson = value.toJson.mapStrings strings
  | null | boolean _ | integer _ | string _ => rfl
  | module ⟨_, exports, _⟩ => congrArg Json.object (membersOf_exchangedAll exports)

theorem membersOf_exchangedAll : ∀ values : List (String × Value),
    membersOf (exchangedAll strings marks values) = Json.mapMembers strings (membersOf values)
  | [] => rfl
  | (name, value) :: rest =>
    congrArg₂ List.cons (congrArg (Prod.mk name) (toJson_exchanged value))
      (membersOf_exchangedAll rest)

end

mutual

theorem exchanged_id : ∀ value : Value, value.exchanged id id = value
  | null | boolean _ | integer _ | string _ => rfl
  | module ⟨name, exports, fingerprint⟩ =>
    congrArg (fun exports => module ⟨name, exports, fingerprint⟩) (exchangedAll_id exports)

theorem exchangedAll_id : ∀ values : List (String × Value), exchangedAll id id values = values
  | [] => rfl
  | (name, value) :: rest =>
    congrArg₂ List.cons (congrArg (Prod.mk name) (exchanged_id value)) (exchangedAll_id rest)

end

def property? (value : Value) (name : String) : Option Value :=
  match value with
  | .module inner => inner.get? name
  | _ => none

theorem property?_exchanged (value : Value) (name : String) :
    (value.exchanged strings marks).property? name =
      (value.property? name).map (exchanged strings marks) := by
  cases value with
  | module inner => exact lookup_exchangedAll name inner.exports
  | null | boolean _ | integer _ | string _ => rfl

end Value

theorem ModuleOf.toJson_exchanged (module : Module) :
    (module.exchanged strings marks).toJson = module.toJson.mapStrings strings :=
  congrArg Json.object (Value.membersOf_exchangedAll module.exports)

theorem Module.exchanged_id (module : Module) : module.exchanged id id = module :=
  congrArg (fun exports => ModuleOf.mk module.id exports module.fingerprint)
    (Value.exchangedAll_id module.exports)

end Exchanged

section Evaluation

variable (path : FilePath) (scope : Scope)

theorem toOption_evalExpr_identifier (name : Ident) :
    (evalExpr path scope (.identifier name)).toOption = scope.lookup name.name := by
  rw [evalExpr]
  cases scope.lookup name.name <;> rfl

theorem toOption_evalExpr_member (object : Expr) (property : Ident) (span : Span) :
    (evalExpr path scope (.member object property span)).toOption =
      (evalExpr path scope object).toOption.bind fun value => value.property? property.name := by
  rw [evalExpr]
  cases evalExpr path scope object with
  | error error => rfl
  | ok value =>
    cases value with
    | module inner =>
      dsimp only [Except.toOption, Option.bind_some, Value.property?]
      cases inner.get? property.name <;> rfl
    | null | boolean _ | integer _ | string _ => rfl

/-- Expressions that are alike but for their strings mean values that are alike but for theirs, and
either both of them mean one or neither. -/
theorem evalExpr_exchanged {strings marks : String → String} {change : Literal → Literal}
    (hchange : ∀ literal, (Value.ofLiteral (change literal)).exchanged id marks =
      (Value.ofLiteral literal).exchanged strings marks)
    {expr expr' : Expr} (hlike : Expr.Like change expr expr') {scope scope' : Scope}
    (hscope : Value.exchangedAll id marks scope' = Value.exchangedAll strings marks scope) :
    (evalExpr path scope' expr').toOption.map (Value.exchanged id marks) =
      (evalExpr path scope expr).toOption.map (Value.exchanged strings marks) := by
  induction hlike with
  | literal => exact congrArg some (hchange _)
  | identifier =>
    rw [toOption_evalExpr_identifier, toOption_evalExpr_identifier, ← Value.lookup_exchangedAll,
      hscope, Value.lookup_exchangedAll]
  | @member object object' name span span' all all' hobject ih =>
    have hproperty : ∀ (strings : String → String) (value : Option Value),
        (value.bind (·.property? name)).map (Value.exchanged strings marks) =
          (value.map (Value.exchanged strings marks)).bind (·.property? name) := by
      intro strings value
      cases value with
      | none => rfl
      | some value => exact (value.property?_exchanged name).symm
    rw [toOption_evalExpr_member, toOption_evalExpr_member, hproperty, hproperty, ih]

end Evaluation

end Interpose
