import Interpose.Edit.Rule

set_option autoImplicit false

namespace Interpose.Edit
open Script

def replaceLiteral (target : Literal) (replacement : String) : Transformer :=
  transformerOf fun node =>
    if node.literal = some target then .update replacement (.done ()) else .done ()

def replaceString (value replacement : String) : Transformer :=
  replaceLiteral (.string value) (quote replacement)

/-- What a table of replacements gives for a string; of two entries for it the later one counts. -/
def replacementFor (table : List (String × String)) (value : String) : Option String :=
  (table.reverse.find? fun entry => entry.1 == value).map Prod.snd

def replaceStrings (table : List (String × String)) : Transformer :=
  transformerOf fun node =>
    match node.literal with
    | some (.string value) =>
      match replacementFor table value with
      | some replacement => .update (quote replacement) (.done ())
      | none => .done ()
    | _ => .done ()

def applyingRules (rules : List Rule) : Transformer :=
  transformerOf fun node => applyRules rules node (.done ())

/-- Gives the same text for every source and checks nothing. -/
def constant (text : String) : Transformer := fun _ => .ok text

end Interpose.Edit
