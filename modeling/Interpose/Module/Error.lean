import Interpose.Path.Basic
import Interpose.Edit.Transform
import Interpose.Script.Parser

set_option autoImplicit false

namespace Interpose
open Script Edit

inductive EvalFault where
  | undefined (name : String) (position : Position)
  | noExport (module : FilePath) (name : String)
  | notModule (property typeName : String)
  | refused
deriving DecidableEq, Repr

def EvalFault.message : EvalFault → String
  | undefined name position =>
    "'" ++ name ++ "' is not defined (line " ++ toString position.line ++ ", column " ++
      toString position.column ++ ")"
  | noExport module name => "module '" ++ module.text ++ "' has no export '" ++ name ++ "'"
  | notModule property typeName => "cannot read '" ++ property ++ "' of " ++ typeName
  | refused => "stage refused"

inductive ModuleError where
  | notFound (module : String)
  | unreadable (path : FilePath)
  | parse (path : FilePath) (cause : ParseError)
  | transform (path : FilePath) (cause : TransformError)
  | cyclic (module : FilePath)
  | evaluate (path : FilePath) (fault : EvalFault)
  | unsupportedPlatform (path : FilePath)
deriving DecidableEq, Repr

namespace ModuleError

def message : ModuleError → String
  | notFound module => "Module '" ++ module ++ "' could not be located"
  | unreadable path =>
    "Failed reading module '" ++ path.text ++ "': stream did not contain valid UTF-8"
  | parse path cause => "Parse error while loading '" ++ path.text ++ "': " ++ cause.message
  | transform path cause =>
    "Parse error while loading '" ++ path.text ++ "' (rewritten source): " ++ cause.message
  | cyclic module => "Cyclic module import detected for '" ++ module.text ++ "'"
  | evaluate path fault => "Evaluation failed for '" ++ path.text ++ "': " ++ fault.message
  | unsupportedPlatform path =>
    "cannot decide whether '" ++ path.text ++
      "' is a dependency: this host does not expose the entry directory"

/-- A transformer that fails counts as a syntax error, as does a text that does not parse. -/
def isSyntactic : ModuleError → Bool
  | parse _ _ | transform _ _ => true
  | _ => false

end ModuleError

end Interpose
