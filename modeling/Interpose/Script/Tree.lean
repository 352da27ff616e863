import Interpose.Script.Position
import Interpose.Text.Decimal
import Interpose.Text.Escape

set_option autoImplicit false

namespace Interpose.Script

inductive Literal where
  | string (value : String)
  | integer (value : Int64)
  | boolean (value : Bool)
  | null
deriving DecidableEq, Repr

namespace Literal

def text : Literal → String
  | string s => Text.legible s
  | integer n => Text.showInt64 n
  | boolean b => if b then "true" else "false"
  | null => "null"

end Literal

structure Ident where
  name : String
  span : Span
deriving DecidableEq, Repr

/-- The string that names an imported module. -/
structure ModuleName where
  value : String
  span : Span
deriving DecidableEq, Repr

inductive Expr where
  | literal (value : Literal) (span : Span)
  | identifier (name : Ident)
  | member (object : Expr) (property : Ident) (span : Span)
deriving DecidableEq, Repr

def Expr.span : Expr → Span
  | literal _ span => span
  | identifier name => name.span
  | member _ _ span => span

inductive Stmt where
  | imports (binding : Ident) (source : ModuleName) (span : Span)
  | binds (name : Ident) (value : Expr) (span : Span)
  | exports (name : Ident) (value : Expr) (span : Span)
deriving DecidableEq, Repr

def Stmt.span : Stmt → Span
  | imports _ _ span => span
  | binds _ _ span => span
  | exports _ _ span => span

structure Program where
  statements : List Stmt
  span : Span
deriving DecidableEq, Repr

end Interpose.Script
