import Interpose.Edit.Transform
import Interpose.Script.Quote

set_option autoImplicit false

namespace Interpose.Edit
open Script

structure Condition where
  kind : Option NodeKind
  name : Option String
  string : Option String
  literal : Option Literal
  /-- The node's current text is this one. -/
  source : Option String
  /-- The node's current text has this one in it. -/
  contains : Option String

inductive Action where
  | update (text : String)
  /-- Replaces the node by a string literal. -/
  | quote (value : String)
  | wrap (before after : String)
  | panic (message : String)

structure Rule where
  condition : Condition
  action : Action

def occursIn (part : List Char) : List Char → Bool
  | [] => part.isEmpty
  | c :: rest => part.isPrefixOf (c :: rest) || occursIn part rest

def Condition.admits (condition : Condition) (node : Node) : Bool :=
  condition.kind.all (fun kind => node.kind == kind) &&
  condition.name.all (fun name => node.name == some name) &&
  condition.string.all (fun value => node.literal == some (.string value)) &&
  condition.literal.all (fun literal => node.literal == some literal)

def Condition.fits (condition : Condition) (text : String) : Bool :=
  condition.source.all (fun source => text == source) &&
  condition.contains.all (fun part => occursIn part.toList text.toList)

variable {σ : Type}

def Action.perform (action : Action) (text : String) (next : Visit σ) : Visit σ :=
  match action with
  | update replacement => .update replacement next
  | quote value => .update (Script.quote value) next
  | wrap before after => .update (before ++ text ++ after) next
  | panic message => .panic message

def Rule.visit (rule : Rule) (node : Node) (next : Visit σ) : Visit σ :=
  if rule.condition.admits node then
    .look fun text => if rule.condition.fits text then rule.action.perform text next else next
  else next

def applyRules (rules : List Rule) (node : Node) (next : Visit σ) : Visit σ :=
  rules.foldr (fun rule next => rule.visit node next) next

structure Visited where
  node : Node
  before : String
  after : String

/-- Applies the rules to every node and keeps a record of them, the latest first. -/
def tracingVisitor (rules : List Rule) : Visitor (List Visited) := fun node trace =>
  .look fun before =>
    applyRules rules node (.look fun after => .done (⟨node, before, after⟩ :: trace))

end Interpose.Edit
